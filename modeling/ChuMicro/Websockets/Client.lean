import ChuMicro.Timing.Deadlines
import ChuMicro.Websockets.Violations

/-!
# The WebSocket client

`WebSocketClient` in `chumicro_websockets/client.py`: the opening handshake in front of a session,
and the deadline that the client reports to the runner, with `next_deadline` and
`_send_handshake_chunk` of `_session.py`.

A client is constructed in the state CONNECTING and stays there until `connect` has been called, the
transport is up, the request is sent and the answer has been read. Four timers may be armed: for the
handshake, for the close, for a pong, and for the next auto-ping. `next_deadline` reports the
earliest one, whatever the state is.

## Main definitions

* `Websockets.Client.connect`, `Websockets.Client.handle`, `Websockets.Client.close` — the methods
  of the client.
* `Websockets.Client.nextDeadline` — `next_deadline`.
* `Websockets.Client.Program` — what an application may do in a callback.
* `Websockets.Client.Reaches` — the sessions that runs lead to.
-/

namespace ChuMicro.Websockets

namespace Client

open Prog

/-- A new client. -/
def start (config : Config) : Session :=
  { config, state := .connecting, frameParser := { maxPayloadBytes := config.maxMessageBytes } }

/-- Change the fields of the opening handshake. -/
def withHandshake (f : Handshake → Handshake) : M Unit :=
  modify fun s => { s with handshake := f s.handshake }

section Methods

variable (env : Env)

/-! ## Connecting -/

/-- `connect`. The transport factory makes a connector, or raises. -/
def connect (url : Str) (timeoutMs : Option ℤ) (extraHeaders : List (Str × Str)) : M Unit := do
  let s ← get
  if s.handshake.connectCalled then
    throw (.stateError ("connect() may only be called once per WebSocketClient; " ++
      s!"current state is {s.state.text}"))
  else do
    record fun s => .connecting s.state
    withHandshake fun h => { h with connectCalled := true }
    let target ← lift (parseWsUrl url)
    match env.factory with
    | some e => throw e
    | none => do
      withHandshake fun h => { h with connector := true, pending := some (target, extraHeaders) }
      let now ← ticksMs env
      let deadline ← deadlineAfter now (timeoutMs.getD s.config.handshakeTimeoutMs)
      modify fun s => { s with
        handshakeDeadlineTicks := some deadline, state := .connecting
        log := s.log ++ [Entry.became .connecting]
        handshake := { s.handshake with phase := some .awaitingTransport } }

/-- `_on_transport_ready`. -/
def onTransportReady : M Unit := do
  withHandshake fun h => { h with connector := false }
  let s ← get
  match s.handshake.pending with
  | none => throw (.py .attributeError)
  | some (target, extraHeaders) => do
    modify fun s => { s with keys := s.keys + 1 }
    let clientKey := env.websocketKey s.keys
    let buffer ← lift (encodeClientHandshake env.codecs target.host target.port target.path clientKey
      extraHeaders)
    withHandshake fun h => { h with sendBuffer := some buffer, sendOffset := 0 }
    let accept ← lift (deriveAcceptKey env.codecs clientKey)
    withHandshake fun h => { h with
      parser := some (.new (.response accept)), pending := none, phase := some .sendingHandshake }

/-- `_advance_connector`. -/
def advanceConnector : M Unit := do
  let s ← get
  if s.handshake.connector = false then throw (.py .attributeError)
  else do
    modify fun s => { s with connectorTicks := s.connectorTicks + 1 }
    match env.connectorTick s.connectorTicks with
    | .pending => pure ()
    | .ready => onTransportReady env
    | .failed lastError => do
      withHandshake fun h => { h with connector := false }
      failWithError env (.stateError s!"connector failed: {lastError}")
    | .raised e => throw e

/-- `self._socket.send(chunk)`, with bytes of the request. -/
def socketSendRequest (chunk : List UInt8) : M (Except ℕ (Option ℕ)) := do
  let s ← get
  modify fun s => { s with sends := s.sends + 1 }
  match env.send s.sends with
  | .error errno => pure (.error errno)
  | .ok none => pure (.ok none)
  | .ok (some n) => do
    modify fun s => { s with
      sent := s.sent ++ chunk.take n, written := s.written ++ [Written.handshake (chunk.take n)] }
    pure (.ok (some (min n chunk.length)))

/-- `_on_handshake_send_complete`. -/
def onHandshakeSendComplete : M Unit :=
  withHandshake fun h => { h with phase := some .receivingHandshake }

/-- `_send_handshake_chunk`. -/
def sendHandshakeChunk : M Unit := do
  let s ← get
  let buffer := s.handshake.sendBuffer.getD []
  let remaining := buffer.drop s.handshake.sendOffset
  if remaining = [] then onHandshakeSendComplete
  else do
    match ← socketSendRequest env (remaining.take s.config.sendBudgetPerTick) with
    | .error errno =>
      if errno = EAGAIN then pure ()
      else
        failWithError env
          (.handshakeError s!"socket error during handshake send: {env.osErrorRepr errno}")
    | .ok none => pure ()
    | .ok (some sent) =>
      if sent = 0 then pure ()
      else do
        withHandshake fun h => { h with sendOffset := h.sendOffset + sent }
        when (s.handshake.sendOffset + sent ≥ buffer.length) onHandshakeSendComplete

/-- `_arm_auto_ping`. -/
def armAutoPing (nowMs : ℤ) : M Unit := do
  let s ← get
  match s.config.pingIntervalMs with
  | none => pure ()
  | some interval => do
    let due ← deadlineAfter nowMs interval
    modify fun s => { s with nextAutoPingTicks := some due }

/-- The end of `_receive_handshake_chunk`: the session is open, and the bytes behind the response
are its first. -/
def openSession (leftover : List UInt8) (nowMs : ℤ) : M Unit := do
  modify fun s => { s with
    handshake := { s.handshake with
      carry := leftover, sendBuffer := none, parser := none, phase := none }
    handshakeDeadlineTicks := none, state := .opened, log := s.log ++ [Entry.became .opened] }
  armAutoPing nowMs
  fire env .onOpen
  let s ← get
  when (s.handshake.carry ≠ []) do
    record fun s => .carried s.state
    feedFrameBytes env s.handshake.carry nowMs
    withHandshake fun h => { h with carry := [] }

/-- `_receive_handshake_chunk`. -/
def receiveHandshakeChunk (nowMs : ℤ) : M Unit := do
  let s ← get
  match ← recvChunk env s.config.recvBudgetPerTick with
  | none => pure ()
  | some [] => failWithError env (.handshakeError "peer closed connection mid-handshake")
  | some chunk => do
    match s.handshake.parser with
    | none => throw (.py .attributeError)
    | some parser =>
      let (result, parser) := parser.feed env.codecs chunk
      withHandshake fun h => { h with parser := some parser }
      match result with
      | .error (.handshakeError message) => failWithError env (.handshakeError message)
      | .error e => throw e
      | .ok () => when (parser.state = .done) (openSession env parser.leftover nowMs)

/-! ## A tick -/

/-- `handle`. -/
def handle (nowMs : ℤ) : M Unit := do
  let s ← get
  if s.state = .closed ∨ s.handshake.connectCalled = false then pure ()
  else do
    let expired ← checkTimeouts env nowMs
    if expired then pure ()
    else do
      let s ← get
      if s.state = .connecting then
        match s.handshake.phase with
        | some .awaitingTransport => advanceConnector env
        | some .sendingHandshake => sendHandshakeChunk env
        | some .receivingHandshake => receiveHandshakeChunk env nowMs
        | _ => pure ()
      else do
        drainInbound env nowMs
        drainOutbound env
        let s ← get
        when (s.state = .opened) (maybeEmitAutoPing env nowMs)

/-- `close` of the client: a connection that is not up is dropped. -/
def close (code : ℕ) (reason : String) : M Unit := do
  let s ← get
  if s.state = .closing ∨ s.state = .closed then
    throw (.stateError s!"close() not allowed in state {s.state.text}")
  else if s.state = .connecting then do
    when (s.lastCloseCode = none) <|
      modify fun s => { s with lastCloseCode := some code, lastCloseReason := reason }
    dropTransport
    onFinalized
    let s ← get
    fire env (.onClose (s.lastCloseCode.getD code) s.lastCloseReason)
  else sendClose env code reason none

end Methods

/-! ## The reported deadline -/

/-- `_BaseSession.next_deadline`. -/
def sessionDeadline (s : Session) : Option ℤ :=
  earlier (earlier (earlier s.handshakeDeadlineTicks s.closeDeadlineTicks)
    s.pendingPingDeadlineTicks) s.nextAutoPingTicks

/-- `next_deadline`. `connectorSocket` is whether the connector has a socket yet. -/
def nextDeadline (connectorSocket : Bool) (s : Session) (nowMs : ℤ) : Option ℤ :=
  if s.handshake.phase = some .awaitingTransport ∧
      ¬ (s.handshake.connector = true ∧ connectorSocket = true) then some nowMs
  else sessionDeadline s

/-! ## Runs -/

/-- The calls of an application. -/
inductive Call where
  | connect (url : Str) (timeoutMs : Option ℤ) (extraHeaders : List (Str × Str))
  | handle (nowMs : ℤ)
  | sendText (text : String)
  | sendBinary (data : List UInt8)
  | sendPing (payload : List UInt8)
  | close (code : ℕ) (reason : String)
  | nextMessage

/-- What a call does. -/
def Call.run (env : Env) : Call → M Unit
  | .connect url timeoutMs extraHeaders => Client.connect env url timeoutMs extraHeaders
  | .handle nowMs => Client.handle env nowMs
  | .sendText text => Websockets.sendText env text
  | .sendBinary data => Websockets.sendBinary env data
  | .sendPing payload => Websockets.sendPing env payload
  | .close code reason => Client.close env code reason
  | .nextMessage => Websockets.nextMessage

/-- The tick that a call is given is one of `times`. -/
def Call.At (times : ℤ → Prop) : Call → Prop
  | .handle nowMs => times nowMs
  | _ => True

/-- What an application may do in a callback at one of `times`: look at the session, make any of its
calls, act on what a call returns or raises, and raise. A call that it makes has callbacks of its
own, which may again make calls, to any depth. -/
inductive Program (times : ℤ → Prop) : M Unit → Prop
  | done : Program times (pure ())
  | raise (e : Exn) : Program times (throw e)
  | look (k : Session → M Unit) (hk : ∀ s, Program times (k s)) : Program times (get >>= k)
  | call (env : Env) (hclock : ∀ n, times (env.ticksMs n))
      (henv : ∀ n, Program times (env.callback n)) (c : Call) (hc : c.At times)
      (k : Except Exn Unit → M Unit) (hk : ∀ r, Program times (k r)) :
      Program times (attempt (c.run env) k)

/-- An outside whose clock shows one of `times` whenever it is read, and whose callbacks are
programs. -/
structure Outside (times : ℤ → Prop) (env : Env) : Prop where
  clock : ∀ n, times (env.ticksMs n)
  callback : ∀ n, Program times (env.callback n)

/-- The sessions that the calls of an application lead to, at any times. -/
inductive Reaches (config : Config) : Session → Prop
  | start : Reaches config (start config)
  | call {s : Session} (env : Env) (henv : Outside (fun _ => True) env) (c : Call)
      (reached : Reaches config s) : Reaches config (c.run env s).2

end Client

end ChuMicro.Websockets
