import ChuMicro.HttpServer.Connection

/-!
# The HTTP server

`HttpServer` of `chumicro_http_server/server.py`: `handle` opens the listener, accepts a connection,
and advances all connections, walking their list from its end. Routes are a part of the handler,
which is the environment's.

Connections are numbered in the order in which they are accepted. The fields `accepted` and `closed`
of a `Server` are read by no function of the source: how many sockets were accepted, and the numbers
of those that were closed.

## Main definitions

* `HttpServer.ServerEnv` — the environment of a server.
* `HttpServer.Server` — the server, with `handle` and `close`.
* `HttpServer.Server.Calm` — when handlers, sources and sockets keep to what `handle` is made for.
-/

namespace ChuMicro.HttpServer

open Http

/-- What the transport factory does: it opens a listener, whose `setblocking` may raise, or raises.
-/
inductive FactoryResult where
  | opened (errno : Option ℕ)
  | failed (e : PyExn)
  deriving DecidableEq, Repr

/-- What `accept` does: it raises an `OSError`, returns nothing, or returns the socket of a client,
whose `setblocking` may raise. -/
inductive AcceptResult where
  | failed (errno : ℕ)
  | nothing
  | client (errno : Option ℕ)
  deriving DecidableEq, Repr

/-- The factory, the listener, and the environments of the connections. -/
structure ServerEnv where
  factory : ℕ → FactoryResult
  accept : ℕ → AcceptResult
  conn : ℕ → ConnEnv

/-- `HttpServer`. -/
structure Server where
  config : ServerConfig
  listening : Bool := false
  connections : List Connection := []
  acceptErrors : ℕ := 0
  factoryCalls : ℕ := 0
  accepts : ℕ := 0
  accepted : ℕ := 0
  closed : List ℕ := []

/-- How a call of `handle` ends. -/
inductive HandleResult where
  | returned
  | factoryFailed (e : PyExn)
  | raised (e : PyExn)
  deriving DecidableEq, Repr

/-- The numbers of the sockets that `close` closes. -/
def openSockets (connections : List Connection) : List ℕ :=
  (connections.filter Connection.socket).map Connection.id

/-- The walk over the connections: those it has kept, the sockets it has closed, and whether a
handler or a source has closed the server. -/
structure Walk where
  kept : List Connection := []
  closed : List ℕ := []
  shut : Bool := false

namespace Walk

/-- The server has been closed in the tick of a connection: every connection of the list loses its
socket. -/
def shutDown (w : Walk) (unvisited : List Connection) (c : Connection) : Walk where
  kept := w.kept.map fun c => { c with socket := false }
  closed := w.closed ++ openSockets (unvisited.reverse ++ c :: w.kept)
  shut := true

/-- The walk from the end of the list: what it raises, the connections that it has not visited, and
where it has come to. -/
def run (lower : Str → Str) (config : ServerConfig) (env : ServerEnv) (nowMs : ℤ) :
    List Connection → Walk → Except PyExn Unit × List Connection × Walk
  | [], w => (.ok (), [], w)
  | c :: unvisited, w =>
    let c := { c with socket := c.socket && !w.shut }
    let (result, c', closes) := c.tick lower config (env.conn c.id) nowMs
    let w := if closes && !w.shut then w.shutDown unvisited c else w
    match result with
    | .error e => (.error e, unvisited, { w with kept := c' :: w.kept })
    | .ok () =>
      if c'.isDone then
        run lower config env nowMs unvisited { w with closed := w.closed ++ openSockets [c'] }
      else run lower config env nowMs unvisited { w with kept := c' :: w.kept }

end Walk

namespace Server

/-- `close`. -/
def close (s : Server) : Server :=
  { s with
    connections := []
    listening := false
    closed := s.closed ++ openSockets s.connections }

/-- `_try_accept`. -/
def tryAccept (env : ServerEnv) (nowMs : ℤ) (s : Server) : Except PyExn Unit × Server :=
  let result := env.accept s.accepts
  let s := { s with accepts := s.accepts + 1 }
  match result with
  | .failed errno => (.ok (), if errno = EAGAIN then s else { s with acceptErrors := s.acceptErrors + 1 })
  | .nothing => (.ok (), s)
  | .client errno =>
    let id := s.accepted
    let s := { s with accepted := s.accepted + 1 }
    match errno with
    | some errno => (.error (.osError errno), s)
    | none =>
      match ticksAdd nowMs s.config.requestTimeoutMs with
      | .error e => (.error e, s)
      | .ok deadline =>
        (.ok (), { s with connections := s.connections ++ [Connection.new s.config id deadline] })

/-- The part of `handle` that accepts. -/
def acceptOne (env : ServerEnv) (nowMs : ℤ) (s : Server) : Except PyExn Unit × Server :=
  if s.connections.length < s.config.maxConnections then s.tryAccept env nowMs else (.ok (), s)

/-- The part of `handle` that advances the connections. -/
def advanceAll (lower : Str → Str) (env : ServerEnv) (nowMs : ℤ) (s : Server) : HandleResult × Server :=
  let (result, unvisited, w) := Walk.run lower s.config env nowMs s.connections.reverse {}
  let s := { s with
    connections := if w.shut then [] else unvisited.reverse ++ w.kept
    listening := s.listening && !w.shut
    closed := s.closed ++ w.closed }
  match result with
  | .ok () => (.returned, s)
  | .error e => (.raised e, s)

/-- The part of `handle` that opens the listener: how the call ends here, if it does. -/
def openListener (env : ServerEnv) (s : Server) : Option HandleResult × Server :=
  if s.listening then (none, s)
  else
    let result := env.factory s.factoryCalls
    let s := { s with factoryCalls := s.factoryCalls + 1 }
    match result with
    | .failed e => (some (.factoryFailed e), s)
    | .opened none => (none, { s with listening := true })
    | .opened (some errno) => (some (.raised (.osError errno)), { s with listening := true })

/-- `handle`. -/
def handle (lower : Str → Str) (env : ServerEnv) (nowMs : ℤ) (s : Server) : HandleResult × Server :=
  match s.openListener env with
  | (some result, s) => (result, s)
  | (none, s) =>
    match s.acceptOne env nowMs with
    | (.error e, s) => (.raised e, s)
    | (.ok (), s) => s.advanceAll lower env nowMs

end Server

/-! ## Calm environments -/

/-- The request that a tick of a connection hands to the handler. -/
def Connection.dispatched (lower : Str → Str) (config : ServerConfig) (env : ConnEnv) (nowMs : ℤ)
    (c : Connection) : Option Request :=
  if c.isDone ∨ ticksDiff c.deadlineTicks nowMs ≤ 0 then none
  else
    match c.tickRecv lower config env with
    | (.ok (), c) => if c.state = .dispatching then c.parser.map (Request.new lower) else none
    | (.error _, _) => none

/-- An exception that has a text, and one that can be encoded. -/
def Encodable (text : Option PyStr) : Prop := ∃ message ∈ text, ∃ data, encodeStr message = .ok data

/-- A window that is large enough for a chunk of one byte with its size and line ends. -/
def WindowFits (streamBufferSize : ℤ) (contentLength : Option ℕ) : Prop :=
  0 ≤ streamBufferSize ∧ (contentLength = none → hexLen streamBufferSize.toNat + 5 ≤ streamBufferSize)

/-- A number that is no `int` and that can be the end of what is sent of a body of this length. -/
def Polled.EndsInFloat (streamBufferSize : ℤ) (length : ℕ) : Polled → Prop
  | .returnedFloat _ count => 0 < count ∧ count ≤ streamBufferSize ∧ count ≤ length
  | _ => False

/-- A source that leaves the server open and, where a length is declared, keeps the view it is given
and returns no such number. -/
structure StreamEnv.Calm (streamBufferSize : ℤ) (contentLength : Option ℕ) (env : StreamEnv) : Prop where
  closesServer : ∀ k, env.closesServer k = false
  releasesView : ∀ length, contentLength = some length → ∀ k, env.releasesView k = false
  source : ∀ length, contentLength = some length → ∀ k, ¬ (env.source k).EndsInFloat streamBufferSize length

/-- A handler that leaves the server open, raises what can be shown, and streams only what the
window can be allocated for and is large enough for, from a source that is calm. What it returns
instead of a response can be looked into and has a type with a name that can be encoded. -/
def Handled.Calm (lower : Str → Str) (config : ServerConfig) (env : StreamEnv) (handled : Handled) : Prop :=
  handled.closesServer = false ∧
    match handled.answer with
    | .raised text => Encodable text
    | .streaming response =>
      (∃ e, encodeStreamingHeaders lower response = .error e) ∨
        WindowFits config.streamBufferSize response.contentLength ∧ handled.allocation = none ∧
          env.Calm config.streamBufferSize response.contentLength
    | .sourceRaises e => ∃ errno, e = .osError errno
    | .other typeName => Encodable (some typeName)
    | _ => True

namespace Server

/-- The connections that a call of `handle` walks over. -/
def walked (env : ServerEnv) (nowMs : ℤ) (s : Server) : List Connection :=
  match s.openListener env with
  | (some _, _) => []
  | (none, s) => (s.acceptOne env nowMs).2.connections

/-- A call of `handle` in which no `setblocking` raises, the request timeout is a distance of ticks,
and the handlers that are called are calm, as are the sources that they return. -/
structure Calm (lower : Str → Str) (env : ServerEnv) (nowMs : ℤ) (s : Server) : Prop where
  factory : ∀ k errno, env.factory k ≠ .opened (some errno)
  accept : ∀ k errno, env.accept k ≠ .client (some errno)
  timeout : |s.config.requestTimeoutMs| < TICKS_HALFPERIOD
  handlers : ∀ c ∈ s.walked env nowMs,
    ∀ request, c.dispatched lower s.config (env.conn c.id) nowMs = some request →
      ((env.conn c.id).handler request).Calm lower s.config (env.conn c.id).toStreamEnv

/-- What happens to a server. -/
inductive Op where
  | handle (nowMs : ℤ)
  | close
  deriving DecidableEq, Repr

/-- The server after something has happened. -/
def apply (lower : Str → Str) (env : ServerEnv) (s : Server) : Op → Server
  | .handle nowMs => (s.handle lower env nowMs).2
  | .close => s.close

/-- The server after a run. -/
def run (lower : Str → Str) (env : ServerEnv) (s : Server) (ops : List Op) : Server :=
  ops.foldl (apply lower env) s

/-- Every call of `handle` in a run is calm. -/
def CalmRun (lower : Str → Str) (env : ServerEnv) (s : Server) : List Op → Prop
  | [] => True
  | .handle nowMs :: ops =>
    s.Calm lower env nowMs ∧ CalmRun lower env (s.apply lower env (.handle nowMs)) ops
  | .close :: ops => CalmRun lower env (s.apply lower env .close) ops

end Server

end ChuMicro.HttpServer
