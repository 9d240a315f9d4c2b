import ChuMicro.Lib.Prog
import ChuMicro.Requests.Url
import ChuMicro.Timing

/-!
# The HTTP client

`HttpClient` and `RequestHandle` of `chumicro_requests/client.py`: one request at a time, driven by
`handle`, from the connector over the bytes of the request to the response, and on to the next hop
of a redirect.

Everything outside the library answers through an `Env`: the transport factory, the connectors, the
sockets, the clock and the memory. The answers are numbered, and a client counts how many of each it
has used.

`on_done` is the last thing that `handle` and `cancel` do, after the client has forgotten the
request. So what a callback does with the client is the next call of the run, and calling it is
counted on its handle.

Parsers are shared: a streamed response is read through the handle from the parser that the client
feeds, and from there when the client has forgotten it. So parsers, like handles, are kept in a list
and named by their position.

Fields that no function reads tell what became of a request: how often its handle was completed and
the callback called, the transports that were opened for it, and the method and the body of every
hop; and, in the order of the calls, what the sockets have given to the parsers and the handles to
their readers.

## Main definitions

* `Requests.HttpClient` — the client, its handles and parsers.
* `Requests.request`, `Requests.handle`, `Requests.cancel` — its calls.
* `Requests.readBodyInto` — reading a streamed body through a handle.
-/

namespace ChuMicro.Requests

open Prog Http

/-! ## State -/

/-- `WhenOversized`. -/
inductive WhenOversized where
  | dropSilent
  | dropWithEvent
  | disconnect
  deriving DecidableEq, Repr

/-- `_RequestState`. -/
inductive RequestState where
  | idle
  | awaitingTransport
  | sending
  | receiving
  deriving DecidableEq, Repr

/-- The settings of a client. -/
structure Config where
  recvBudgetPerTick : ℕ := 1024
  maxBodyBytes : ℕ := 65536
  maxHeaderBytes : ℕ := 16384
  whenOversized : WhenOversized := .dropWithEvent
  defaultTimeoutMs : ℤ := 10000
  defaultMaxRedirects : ℤ := 5
  streamBufferSize : ℤ := 1024
  userAgent : Str := DEFAULT_USER_AGENT
  deriving DecidableEq

/-- `DEFAULT_BODY_BUFFER_SIZE`. -/
def DEFAULT_BODY_BUFFER_SIZE : ℕ := 1024

/-- `Response`. -/
structure Response where
  statusCode : Option ℤ
  reason : Str
  httpVersion : Str
  headers : CaseInsensitiveDict
  body : List UInt8
  url : Option Str
  oversizedDropped : Bool := false
  streamed : Bool := false
  deriving DecidableEq

/-- A hop of a request: what it sends, and the status that has led to it. -/
structure Hop where
  status : Option ℤ
  method : Str
  body : Option (List UInt8)
  deriving DecidableEq

/-- `RequestHandle`. The fields from `returned` on are told to nobody. -/
structure RequestHandle where
  url : Str
  hasOnDone : Bool
  stream : Bool
  done : Bool := false
  response : Option Response := none
  error : Option HttpError := none
  bodySource : Option ℕ := none
  /-- `request` has returned the handle -/
  returned : Bool := false
  completions : ℕ := 0
  calls : ℕ := 0
  transports : ℕ := 0
  maxRedirects : ℤ
  deadline : ℤ
  /-- the deadline that each hop started with -/
  deadlines : List (Option ℤ) := []
  hops : List Hop := []
  deriving DecidableEq

/-- What has become of a transport that the factory opened. -/
inductive Transport where
  | connecting
  | connected
  | released
  deriving DecidableEq, Repr

/-- What is kept of a request for its redirects. -/
structure Original where
  method : Option Str := none
  headers : Option (List (Str × Str)) := none
  body : Option (List UInt8) := none
  json : Bool := false
  deriving DecidableEq

/-- What a socket has given to the parser of the client, nothing when the peer has closed, or a
handle to its reader. -/
inductive Exchange where
  | received (parser : Option ℕ) (data : List UInt8)
  | read (handle : ℕ) (data : List UInt8)
  deriving DecidableEq

/-- `HttpClient`, with all handles and parsers there have been, and what has become of the
transports. A connector or a socket is named by the number of its transport. The exchanges are told
to nobody. -/
structure HttpClient where
  config : Config
  state : RequestState := .idle
  connector : Option ℕ := none
  socket : Option ℕ := none
  handle : Option ℕ := none
  completedHandle : Option ℕ := none
  url : Option Str := none
  txBuffer : List UInt8 := []
  txOffset : ℕ := 0
  parser : Option ℕ := none
  stream : Bool := false
  deadlineTicks : Option ℤ := none
  redirectsRemaining : ℤ := 0
  original : Original := {}
  handles : List RequestHandle := []
  parsers : List ResponseParser := []
  transports : List Transport := []
  connectorTicks : ℕ := 0
  sends : ℕ := 0
  recvs : ℕ := 0
  clockReads : ℕ := 0
  oversizedEvents : List (ℤ × Option Str) := []
  exchanges : List Exchange := []
  deriving DecidableEq

/-- A computation of the client. -/
abbrev M := Prog HttpClient HttpError

/-- What `connector.tick` leads to. -/
inductive ConnectorAnswer where
  | pending
  | ready
  | failed (lastError : String)
  | raises (e : HttpError)
  deriving DecidableEq, Repr

/-- What `socket.send` does: it takes bytes, or would block, or raises. -/
inductive SendAnswer where
  | sent (count : ℕ)
  | wouldBlock
  | raises (e : HttpError)
  deriving DecidableEq, Repr

/-- What `socket.recv_into` does: it gives bytes, none when the peer has closed, or would block, or
raises. -/
inductive RecvAnswer where
  | received (data : List UInt8)
  | wouldBlock
  | raises (e : HttpError)
  deriving DecidableEq, Repr

/-- The answers of the outside, numbered. `factory` is what the transport factory raises, if it
does, `allocation` what `bytearray` raises for the window of a transport, of a size that is not
negative, and `onOversized` what that callback raises. -/
structure Env where
  lower : Str → Str
  factory : ℕ → Option HttpError
  allocation : ℕ → Option PyExn := fun _ => none
  connectorTick : ℕ → ConnectorAnswer
  send : ℕ → SendAnswer
  recv : ℕ → RecvAnswer
  ticksMs : ℕ → ℤ
  onOversized : ℕ → Option HttpError
  errorText : HttpError → String

/-- Whether an exception is an `HttpError`. -/
def isHttpError : HttpError → Bool
  | .py _ => false
  | _ => true

/-- Whether an exception is an `OSError`. -/
def isOsError : HttpError → Bool
  | .py (.osError _) => true
  | _ => false

variable (env : Env)

/-! ## Handles, parsers and transports -/

/-- A change of a handle. -/
def modifyHandle (index : ℕ) (f : RequestHandle → RequestHandle) : M Unit :=
  modify fun s => { s with handles := s.handles.modify index f }

/-- A change of the handle of the request in flight. -/
def modifyCurrent (f : RequestHandle → RequestHandle) : M Unit := do
  let s ← get
  match s.handle with
  | some index => modifyHandle index f
  | none => throw (.py .attributeError)

/-- `_set_response`. -/
def setResponse (response : Response) : M Unit :=
  modifyCurrent fun h =>
    { h with response := some response, done := true, completions := h.completions + 1 }

/-- `_set_error`. -/
def setError (error : HttpError) : M Unit :=
  modifyCurrent fun h => { h with error := some error, done := true, completions := h.completions + 1 }

/-- `_invoke_done` of a handle. -/
def invokeDone (index : ℕ) : M Unit :=
  modifyHandle index fun h => if h.hasOnDone then { h with calls := h.calls + 1 } else h

/-- The parser that the client feeds. -/
def currentParser : M ResponseParser := do
  let s ← get
  match s.parser.bind fun index => s.parsers[index]? with
  | some parser => pure parser
  | none => throw (.py .attributeError)

/-- Put a parser back where it was taken from. -/
def setParser (parser : ResponseParser) : M Unit :=
  modify fun s =>
    match s.parser with
    | some index => { s with parsers := s.parsers.set index parser }
    | none => s

/-- A transport changes. -/
def Transport.put (transports : List Transport) (index : Option ℕ) (t : Transport) : List Transport :=
  match index with
  | some index => transports.set index t
  | none => transports

/-- `_close_socket_only`. Neither `cancel` nor `close` lets an exception through. -/
def closeSocketOnly : M Unit :=
  modify fun s => { s with
    transports := Transport.put (Transport.put s.transports s.connector .released) s.socket .released
    connector := none, socket := none, txBuffer := [], txOffset := 0, parser := none
    state := .idle }

/-- `_reset_socket`. -/
def resetSocket : M Unit := do
  closeSocketOnly
  modify fun s => { s with
    handle := none, url := none, stream := false, original := {}, deadlineTicks := none
    redirectsRemaining := 0
    completedHandle := if s.handle.isSome then s.handle else s.completedHandle }

/-- `_fire_completion`. -/
def fireCompletion : M Unit := do
  let s ← get
  modify fun s => { s with completedHandle := none }
  match s.completedHandle with
  | some index => invokeDone index
  | none => pure ()

/-! ## Failing -/

/-- The response that a parser has read, with the given body. -/
def responseOf (parser : ResponseParser) (body : List UInt8) (url : Option Str) : Response where
  statusCode := parser.statusCode
  reason := parser.reason
  httpVersion := parser.httpVersion
  headers := parser.headers
  body := body
  url := url

/-- `_complete_oversized_drop`. -/
def completeOversizedDrop : M Unit := do
  let parser ← currentParser
  let s ← get
  setResponse { responseOf parser [] s.url with oversizedDropped := true }
  resetSocket

/-- `self.on_oversized(reported_length, self.url)`. -/
def fireOversized (reportedLength : ℤ) : M Unit := do
  let s ← get
  modify fun s => { s with oversizedEvents := s.oversizedEvents ++ [(reportedLength, s.url)] }
  match env.onOversized s.oversizedEvents.length with
  | some e => throw e
  | none => pure ()

/-- The end of `_fail`. -/
def failRequest (error : HttpError) : M Unit := do
  let s ← get
  when s.handle.isSome (setError error)
  resetSocket

/-- `_fail`. -/
def fail (error : HttpError) : M Unit := do
  let s ← get
  match error, s.config.whenOversized with
  | .oversizedError _ _, .dropSilent => completeOversizedDrop
  | .oversizedError _ reportedLength, .dropWithEvent => do
    fireOversized env reportedLength
    completeOversizedDrop
  | error, _ => failRequest error

/-! ## Hops -/

/-- `_merge_default_header`. -/
def mergeDefaultHeader (userHeaders : Option (List (Str × Str))) (name value : Str) :
    List (Str × Str) :=
  ((CaseInsensitiveDict.setAll env.lower {} [(name, value)]).setAll env.lower
    (userHeaders.getD [])).items

/-- `self._transport_factory(host, port, use_tls)`: the number of the transport. -/
def openTransport : M ℕ := do
  let s ← get
  match env.factory s.transports.length with
  | some e => do
    modify fun s => { s with transports := s.transports ++ [Transport.released] }
    throw e
  | none => do
    modify fun s => { s with transports := s.transports ++ [Transport.connecting] }
    pure s.transports.length

/-- The parser of a hop. -/
def hopParser (config : Config) (stream : Bool) : ResponseParser where
  maxBodyBytes := config.maxBodyBytes
  maxHeaderBytes := config.maxHeaderBytes
  streamBody := stream
  bodyCapacity := if stream then config.streamBufferSize.toNat else DEFAULT_BODY_BUFFER_SIZE

/-- `bytearray(self._stream_buffer_size)`, for the window of a transport. -/
def allocateWindow (transport : ℕ) : M Unit := do
  let s ← get
  if s.config.streamBufferSize < 0 then throw (.py (.valueError "negative count"))
  else
    match env.allocation transport with
    | some e => throw (.py e)
    | none => pure ()

/-- The headers of a hop, with the default type of JSON. -/
def hopHeaders (userHeaders : Option (List (Str × Str))) (jsonDefaultContentType : Bool) :
    Option (List (Str × Str)) :=
  if jsonDefaultContentType then
    some (mergeDefaultHeader env userHeaders "Content-Type".toList "application/json".toList)
  else userHeaders

/-- The hop is told to the handle: a transport, the deadline, and what is sent. -/
def noteHop (hop : Hop) : M Unit :=
  modify fun s => { s with
    handles := match s.handle with
      | some index => s.handles.modify index fun h => { h with
          transports := h.transports + 1, deadlines := h.deadlines ++ [s.deadlineTicks]
          hops := h.hops ++ [hop] }
      | none => s.handles }

/-- `_start_hop`. -/
def startHop (status : Option ℤ) (url method : Str) (encodedBody : Option (List UInt8))
    (userHeaders : Option (List (Str × Str))) (jsonDefaultContentType : Bool) : M Unit := do
  let s ← get
  let parts ← lift (parseUrl url)
  let requestBytes ← lift (encodeRequest env.lower method parts.hostHeader parts.path
    (hopHeaders env userHeaders jsonDefaultContentType) encodedBody (some s.config.userAgent))
  noteHop ⟨status, method, encodedBody⟩
  let transport ← openTransport env
  modify fun s => { s with
    connector := some transport, url := some url, txBuffer := requestBytes, txOffset := 0 }
  when s.stream (allocateWindow env transport)
  modify fun s => { s with
    parser := some s.parsers.length, parsers := s.parsers ++ [hopParser s.config s.stream]
    state := .awaitingTransport }

/-- The two bodies that a caller can pass, encoded by `_encode_body`: bytes, or what `json.dumps`
makes of an object. -/
structure BodyArgs where
  body : Option (Except PyExn (List UInt8)) := none
  json : Option (Except PyExn (List UInt8)) := none

/-- `_encode_body`. -/
def encodeBody (args : BodyArgs) : Except HttpError (Option (List UInt8)) :=
  match args.json, args.body with
  | some (.ok data), _ => .ok (some data)
  | some (.error e), _ => .error (.py e)
  | none, some (.ok data) => .ok (some data)
  | none, some (.error e) => .error (.py e)
  | none, none => .ok none

/-- The arguments of a request. -/
structure RequestArgs where
  method : Str
  url : Str
  body : BodyArgs := {}
  headers : Option (List (Str × Str)) := none
  timeoutMs : Option ℤ := none
  maxRedirects : Option ℤ := none
  hasOnDone : Bool := false
  stream : Bool := false

/-- What `_start_request` forgets when its first hop does not start. A connector that the hop has
got is not among it. -/
def dropRequest : M Unit :=
  modify fun s => { s with
    handle := none, deadlineTicks := none, original := {}, redirectsRemaining := 0, stream := false }

/-- `_start_request`. It returns the number of the handle. -/
def request (args : RequestArgs) : M ℕ := do
  let s ← get
  if s.state ≠ .idle then
    throw (.busyError s!"client busy on {reprStr (s.url.getD [])}; await handle.done before issuing another")
  else if args.body.body.isSome ∧ args.body.json.isSome then
    throw (.py (.valueError "pass body= or json= but not both"))
  else do
    let encodedBody ← lift (encodeBody args.body)
    let redirects := args.maxRedirects.getD s.config.defaultMaxRedirects
    modify fun s => { s with
      stream := args.stream, redirectsRemaining := redirects
      original :=
        { method := some args.method, headers := args.headers
          body := if redirects > 0 then encodedBody else none
          json := args.body.json.isSome } }
    modify fun s => { s with clockReads := s.clockReads + 1 }
    let deadline ← lift (match ticksAdd (env.ticksMs s.clockReads)
        (args.timeoutMs.getD s.config.defaultTimeoutMs) with
      | .ok deadline => .ok deadline
      | .error e => .error (.py e))
    let index := s.handles.length
    modify fun s => { s with
      deadlineTicks := some deadline
      handle := some index
      handles := s.handles ++
        [{ url := args.url, hasOnDone := args.hasOnDone, stream := args.stream
           maxRedirects := redirects, deadline }] }
    tryCatch (startHop env none args.url args.method encodedBody args.headers args.body.json.isSome)
      fun e => do
        dropRequest
        throw e
    modifyHandle index fun h => { h with returned := true }
    pure index

/-! ## Redirects and completion -/

/-- `REDIRECT_STATUS_CODES`. -/
def REDIRECT_STATUS_CODES : List ℤ := [301, 302, 303, 307, 308]

/-- `METHOD_PRESERVING_REDIRECT_STATUS_CODES`. -/
def METHOD_PRESERVING_REDIRECT_STATUS_CODES : List ℤ := [307, 308]

/-- The method and the body of the hop behind a redirect, and whether it has the default type of
JSON. -/
def redirectedRequest (original : Original) (status : Option ℤ) :
    Str × Option (List UInt8) × Bool :=
  if (status.getD 0) ∈ METHOD_PRESERVING_REDIRECT_STATUS_CODES then
    (original.method.getD [], original.body, original.json)
  else ("GET".toList, none, false)

/-- The text of a redirect hop that does not start. -/
def redirectFailure (e : HttpError) : HttpError :=
  if isOsError e then .error s!"connector factory failed during redirect: {env.errorText e}"
  else if isHttpError e then e
  else .error s!"redirect hop failed: {env.errorText e}"

/-- `_follow_redirect`. -/
def followRedirect (status : Option ℤ) (location : Str) : M Unit := do
  let s ← get
  match resolveRedirectUrl (s.url.getD []) location with
  | .error e =>
    if isHttpError e then do
      setError e
      resetSocket
    else throw e
  | .ok newUrl => do
    let (method, body, json) := redirectedRequest s.original status
    closeSocketOnly
    modify fun s => { s with redirectsRemaining := s.redirectsRemaining - 1 }
    tryCatch (startHop env status newUrl method body s.original.headers json) fun e => do
      setError (redirectFailure env e)
      resetSocket

/-- The `Location` of a redirect that the client follows. -/
def followable (s : HttpClient) (parser : ResponseParser) : Option Str :=
  if s.redirectsRemaining > 0 ∧ parser.statusCode.getD 0 ∈ REDIRECT_STATUS_CODES then
    parser.headers.get env.lower "Location".toList
  else none

/-- `_publish_stream`. -/
def publishStream (response : Response) : M Unit := do
  let s ← get
  modifyCurrent fun h => { h with response := some response, bodySource := s.parser }

/-- `_sync_stream_state`. -/
def syncStreamState : M Unit := do
  let parser ← currentParser
  let s ← get
  if parser.headersComplete = false ∨ parser.state = .error then pure ()
  else if ((s.handle.bind fun index => s.handles[index]?).bind (·.response)).isSome then pure ()
  else if (followable env s parser).isSome then setParser parser.discardBody
  else publishStream { responseOf parser [] s.url with streamed := true }

/-- The end of `_complete` for a streamed request. -/
def completeStream : M Unit := do
  syncStreamState env
  let parser ← currentParser
  let s ← get
  match (s.handle.bind fun index => s.handles[index]?).bind (·.response) with
  | none =>
    followRedirect env parser.statusCode
      ((parser.headers.get env.lower "Location".toList).getD [])
  | some response => do
    setResponse response
    resetSocket

/-- `_complete`. -/
def complete : M Unit := do
  let parser ← currentParser
  let s ← get
  if s.stream then completeStream env
  else
    match followable env s parser with
    | some location => followRedirect env parser.statusCode location
    | none => do
      setResponse (responseOf parser (parser.body.drop parser.bodyReadOffset) s.url)
      resetSocket

/-! ## Ticks -/

/-- The part of a tick that waits for the connector. It returns whether the tick goes on. -/
def advanceConnector : M Bool := do
  let s ← get
  modify fun s => { s with connectorTicks := s.connectorTicks + 1 }
  match env.connectorTick s.connectorTicks with
  | .raises e => throw e
  | .pending => pure false
  | .ready => do
    modify fun s => { s with
      socket := s.connector, connector := none, state := .sending
      transports := Transport.put s.transports s.connector .connected }
    pure true
  | .failed lastError => do
    modify fun s => { s with
      connector := none, transports := Transport.put s.transports s.connector .released }
    fail env (.error s!"connector failed: {lastError}")
    pure false

/-- The loop of `_drive_send`. A round that goes on has sent a byte. -/
def driveSendLoop : ℕ → M Unit
  | 0 => pure ()
  | rounds + 1 => do
    let s ← get
    if s.txOffset < s.txBuffer.length then do
      modify fun s => { s with sends := s.sends + 1 }
      match env.send s.sends with
      | .wouldBlock => pure ()
      | .raises e => throw e
      | .sent 0 => pure ()
      | .sent count => do
        modify fun s => { s with txOffset := s.txOffset + count }
        driveSendLoop rounds
    else modify fun s => { s with txBuffer := [], txOffset := 0, state := .receiving }

/-- `_drive_send`. -/
def driveSend : M Unit := do
  let s ← get
  driveSendLoop env (s.txBuffer.length + 1)

/-- `self._socket.recv_into(self._recv_view, capacity)`. -/
def socketRecv (capacity : ℕ) : M (Option (List UInt8)) := do
  let s ← get
  modify fun s => { s with recvs := s.recvs + 1 }
  match env.recv s.recvs with
  | .received data => do
    modify fun s => { s with
      exchanges := s.exchanges ++ [Exchange.received s.parser (data.take capacity)] }
    pure (some (data.take capacity))
  | .wouldBlock => pure none
  | .raises e => throw e

/-- How much a round of `_drive_recv` asks for. -/
def recvCapacity (config : Config) (stream : Bool) (parser : ResponseParser) (consumed : ℕ) : ℕ :=
  let capacity := min (min config.recvBudgetPerTick 512) (config.recvBudgetPerTick - consumed)
  if stream then min capacity parser.bodyFree else capacity

/-- The loop of `_drive_recv`. It returns whether the parser is looked at behind it. -/
def driveRecvLoop : ℕ → ℕ → M Bool
  | 0, _ => pure true
  | rounds + 1, consumed => do
    let parser ← currentParser
    let s ← get
    if consumed < s.config.recvBudgetPerTick ∧ parser.state ≠ .done ∧ parser.state ≠ .error then
      let capacity := recvCapacity s.config s.stream parser consumed
      if s.stream ∧ capacity = 0 then pure false
      else do
        match ← socketRecv env capacity with
        | none => pure false
        | some [] => do
          setParser parser.feedEof
          pure true
        | some data => do
          setParser (parser.feed env.lower data)
          when s.stream (syncStreamState env)
          driveRecvLoop rounds (consumed + data.length)
    else pure true

/-- `_drive_recv`. -/
def driveRecv : M Unit := do
  let s ← get
  let atEnd ← driveRecvLoop env (s.config.recvBudgetPerTick + 1) 0
  when atEnd do
    let parser ← currentParser
    match parser.state with
    | .error => throw (parser.error.getD (.py .attributeError))
    | .done => complete env
    | _ => pure ()

/-- The stages of a tick that has a transport. -/
def driveStages : M Unit := do
  let s ← get
  when (s.state = .sending) (driveSend env)
  let s ← get
  when (s.state = .receiving) (driveRecv env)

/-- Whether a tick has a transport, after a look at the connector. -/
def hasTransport : M Bool := do
  let s ← get
  if s.state = .awaitingTransport then advanceConnector env else pure true

/-- The body of the `try` of `_drive_tick`. -/
def drivePipeline : M Unit := do
  let goesOn ← hasTransport env
  when goesOn (driveStages env)

/-- `_drive_tick`. -/
def driveTick (nowMs : ℤ) : M Unit := do
  let s ← get
  if s.deadlineTicks.any fun deadline => ticksDiff deadline nowMs ≤ 0 then
    fail env (.timeoutError s!"request to {reprStr (s.url.getD [])} timed out after deadline")
  else
    tryCatch (drivePipeline env) fun e =>
      if isHttpError e then fail env e
      else if isOsError e then fail env (.error s!"socket error: {env.errorText e}")
      else throw e

/-- `handle`. -/
def handle (nowMs : ℤ) : M Unit := do
  let s ← get
  if s.state = .idle then pure ()
  else do
    driveTick env nowMs
    fireCompletion

/-- `cancel`. -/
def cancel : M Unit := do
  let s ← get
  if s.state = .idle then pure ()
  else do
    fail env (.error s!"request to {reprStr (s.url.getD [])} cancelled")
    fireCompletion

/-- `read_body_into` of a handle, for a buffer of `size` bytes: the bytes it copies. -/
def readBodyInto (index size : ℕ) : M (List UInt8) := do
  let s ← get
  match s.handles[index]? with
  | none => throw (.py .attributeError)
  | some h =>
    if h.stream = false then
      throw (.error "read_body_into requires a request issued with stream=True")
    else
      match h.bodySource with
      | none => pure []
      | some source =>
        match s.parsers[source]? with
        | none => throw (.py .attributeError)
        | some parser => do
          let (copied, parser) := parser.readBodyInto size
          modify fun s => { s with
            parsers := s.parsers.set source parser
            exchanges := s.exchanges ++ [Exchange.read index copied] }
          pure copied

end ChuMicro.Requests
