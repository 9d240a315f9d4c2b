import ChuMicro.Lib.Prog
import ChuMicro.Timing
import ChuMicro.Websockets.Handshake

/-!
# A WebSocket session

`_BaseSession` in `chumicro_websockets/_session.py`, shared by the client and the server side:
reading frames, reassembling messages, answering control frames, sending and closing.

Everything outside the library answers through an `Env`: what the socket does with each send and
recv, the clock, the mask keys, and the application's callbacks, which are computations of the
session themselves, since they may call back into it. The answers are numbered and a session counts
how many of each it has used. What a session shows to the outside is recorded in its list of events,
and what it does in order to speak about it in ghost fields that no function reads: the frames it
has enqueued, the bytes the socket has accepted, and a log of what it did in which state.

## Main definitions

* `Websockets.Session` — the fields of a session and what it has shown so far.
* `Websockets.Env` — the answers of the outside.
* `Websockets.feedFrameBytes` — `_feed_frame_bytes`, with the handlers of all frames.
* `Websockets.drainOutbound`, `Websockets.drainInbound` — one tick of sending and receiving.
* `Websockets.sendText` and the other calls of the application.
-/

namespace ChuMicro.Websockets

/-! ## State -/

/-- `WebSocketState`. -/
inductive WebSocketState where
  | connecting
  | opened
  | closing
  | closed
  deriving DecidableEq, Repr

/-- The text of a state in error messages. -/
def WebSocketState.text : WebSocketState → String
  | .connecting => "connecting"
  | .opened => "open"
  | .closing => "closing"
  | .closed => "closed"

/-- `WhenOversized`. -/
inductive WhenOversized where
  | dropSilent
  | dropWithEvent
  | disconnect
  deriving DecidableEq, Repr

/-- `InboundMessage`. -/
inductive InboundMessage where
  | text (text : String)
  | binary (data : List UInt8)
  deriving DecidableEq

/-- What a session shows: the callbacks it calls and the messages it stores, and what becomes of a
message that is neither. -/
inductive Event where
  | onOpen
  | onConnection
  | onText (text : String)
  | onBinary (data : List UInt8)
  | queued (message : InboundMessage)
  | onPing (payload : List UInt8)
  | onPong (payload : List UInt8)
  | onClose (code : ℕ) (reason : String)
  | onOversized (reportedLength : ℕ)
  /-- an oversized message under `DROP_SILENT` -/
  | dropped (reportedLength : ℕ)
  /-- an oversized message under `DISCONNECT` -/
  | tooBig (reportedLength : ℕ)
  /-- a text message that is not UTF-8 -/
  | badData (payload : List UInt8)
  deriving DecidableEq

/-- The settings of a session. `isServer` is which of the two sides it is: a server requires masked
frames and sends unmasked ones, a client the other way round. -/
structure Config where
  isServer : Bool
  maxMessageBytes : ℕ
  recvBudgetPerTick : ℕ
  sendBudgetPerTick : ℕ
  maxTxQueueSize : ℕ
  whenOversized : WhenOversized
  pongTimeoutMs : Option ℤ
  handshakeTimeoutMs : ℤ
  closeTimeoutMs : ℤ
  maxInboundQueueSize : ℕ
  /-- the auto-ping of a client -/
  pingIntervalMs : Option ℤ := none
  /-- the path a server requires -/
  acceptPath : Option Str := none
  deriving DecidableEq

/-- The fields of reassembly, which `_reset_inbound_state` resets together. -/
structure Inbound where
  messageBuffer : List UInt8 := []
  messageOpcode : Option ℕ := none
  oversized : Bool := false
  reportedLength : ℕ := 0
  emptyFragmentRun : ℕ := 0
  deriving DecidableEq

/-- `ConnectingPhase` and `ServerHandshakePhase`. -/
inductive Phase where
  | awaitingTransport
  | sendingHandshake
  | receivingHandshake
  | readingRequest
  | sendingResponse
  deriving DecidableEq, Repr

/-- The fields of the opening handshake. `connector` is whether there is a connector, and `pending`
the URL and the extra headers of a connection that waits for its transport. -/
structure Handshake where
  connectCalled : Bool := false
  phase : Option Phase := none
  connector : Bool := false
  pending : Option (WsUrl × List (Str × Str)) := none
  sendBuffer : Option (List UInt8) := none
  sendOffset : ℕ := 0
  parser : Option HandshakeParser := none
  carry : List UInt8 := []
  deriving DecidableEq

/-- A frame that was put on the tx queue. -/
structure Enqueued where
  opcode : ℕ
  byUser : Bool
  bytes : List UInt8
  deriving DecidableEq, Repr

/-- What the socket has accepted. -/
inductive Written where
  | handshake (bytes : List UInt8)
  | frame (bytes : List UInt8)
  deriving DecidableEq, Repr

/-- What is logged, with the state at that moment. -/
inductive Entry where
  /-- an assignment of the state -/
  | became (state : WebSocketState)
  /-- a send, whether the session is finalising, and whether it failed -/
  | send (state : WebSocketState) (finalizing failed : Bool)
  | recv (state : WebSocketState)
  /-- the outbound stage of a tick, and whether there is something to send -/
  | outbound (state : WebSocketState) (pending : Bool)
  /-- the bytes behind the handshake are fed -/
  | carried (state : WebSocketState)
  /-- `on_connection` has raised -/
  | crashed (state : WebSocketState)
  /-- `connect` is called for the first time -/
  | connecting (state : WebSocketState)
  /-- `close` is called -/
  | closing (state : WebSocketState)
  deriving DecidableEq, Repr

/-- `_BaseSession`, what the outside has answered so far, and what the session has shown. -/
structure Session where
  config : Config
  state : WebSocketState := .opened
  frameParser : FrameParser
  txQueue : List (List UInt8) := []
  /-- `_tx_partial_buffer` and `_tx_partial_offset` -/
  txPartial : Option (List UInt8 × ℕ) := none
  inbound : Inbound := {}
  inboundQueue : List InboundMessage := []
  inboundToQueue : Bool := false
  handshakeDeadlineTicks : Option ℤ := none
  closeDeadlineTicks : Option ℤ := none
  pendingPingDeadlineTicks : Option ℤ := none
  nextAutoPingTicks : Option ℤ := none
  lastCloseCode : Option ℕ := none
  lastCloseReason : String := ""
  lastError : Option Exn := none
  callbacks : ℕ := 0
  sends : ℕ := 0
  recvs : ℕ := 0
  masks : ℕ := 0
  clockReads : ℕ := 0
  sent : List UInt8 := []
  socketClosed : Bool := false
  events : List Event := []
  handshake : Handshake := {}
  connectorTicks : ℕ := 0
  keys : ℕ := 0
  enqueued : List Enqueued := []
  written : List Written := []
  finalizing : Bool := false
  log : List Entry := []
  deriving DecidableEq

/-- `_MAX_EMPTY_FRAGMENT_RUN`. -/
def MAX_EMPTY_FRAGMENT_RUN : ℕ := 64

/-- `_TX_QUEUE_HEADROOM`. -/
def TX_QUEUE_HEADROOM : ℕ := 8

/-- `_tx_queue_hard_cap`. -/
def Config.txQueueHardCap (c : Config) : ℕ := c.maxTxQueueSize + TX_QUEUE_HEADROOM

/-- A session at the end of the handshake. -/
def Session.opening (config : Config) : Session :=
  { config, frameParser := { maxPayloadBytes := config.maxMessageBytes } }

/-- A computation of a session. -/
abbrev M := Prog Session Exn

/-- What `connector.tick` leads to. -/
inductive ConnectorAnswer where
  | pending
  | ready
  | failed (lastError : String)
  | raised (e : Exn)
  deriving DecidableEq, Repr

/-- The answers of the outside, numbered. A callback is what the application does in it. A send is
answered by an `errno`, by `None` or by the number of bytes taken; a recv by an `errno`, by `None`
or by bytes. `factory` is what the transport factory raises, if it raises. -/
structure Env where
  callback : ℕ → M Unit
  send : ℕ → Except ℕ (Option ℕ)
  recv : ℕ → Except ℕ (Option (List UInt8))
  maskKey : ℕ → List UInt8
  ticksMs : ℕ → ℤ
  decodeErrorText : List UInt8 → String
  osErrorRepr : ℕ → String
  codecs : Codecs
  websocketKey : ℕ → Str
  connectorTick : ℕ → ConnectorAnswer
  factory : Option Exn
  exnRepr : Exn → String

open Prog

variable (env : Env)

/-! ## The outside -/

/-- Record what a session does. -/
def record (entry : Session → Entry) : M Unit := modify fun s => { s with log := s.log ++ [entry s] }

/-- Call a callback of the application. -/
def fire (event : Event) : M Unit := do
  let s ← get
  modify fun s => { s with events := s.events ++ [event], callbacks := s.callbacks + 1 }
  env.callback s.callbacks

/-- Record what a session does without a callback. -/
def note (event : Event) : M Unit := modify fun s => { s with events := s.events ++ [event] }

/-- `self._socket.send(chunk)`, with bytes of frames. -/
def socketSend (chunk : List UInt8) : M (Except ℕ (Option ℕ)) := do
  let s ← get
  match env.send s.sends with
  | .error errno => do
    record fun s => .send s.state s.finalizing (errno ≠ EAGAIN)
    modify fun s => { s with sends := s.sends + 1 }
    pure (.error errno)
  | .ok none => do
    record fun s => .send s.state s.finalizing false
    modify fun s => { s with sends := s.sends + 1 }
    pure (.ok none)
  | .ok (some n) => do
    record fun s => .send s.state s.finalizing false
    modify fun s => { s with
      sends := s.sends + 1, sent := s.sent ++ chunk.take n
      written := s.written ++ [Written.frame (chunk.take n)] }
    pure (.ok (some (min n chunk.length)))

/-- `self._ticks.ticks_ms()`. -/
def ticksMs : M ℤ := do
  let s ← get
  modify fun s => { s with clockReads := s.clockReads + 1 }
  pure (env.ticksMs s.clockReads)

/-- `self._ticks.ticks_add`. -/
def deadlineAfter (now delta : ℤ) : M ℤ := lift (liftPy (ticksAdd now delta))

/-- `_outbound_mask`: a new key on the client, none on the server. -/
def outboundMask : M (Option (List UInt8)) := do
  let s ← get
  if s.config.isServer then pure none
  else do
    modify fun s => { s with masks := s.masks + 1 }
    pure (some (env.maskKey s.masks))

/-! ## Sending -/

/-- `encode_frame` with the mask of this side, appended to the tx queue. -/
def appendFrame (byUser : Bool) (opcode : ℕ) (payload : List UInt8) : M Unit := do
  let mask ← outboundMask env
  let encoded ← lift (encodeFrame opcode payload true mask)
  modify fun s => { s with
    txQueue := s.txQueue ++ [encoded], enqueued := s.enqueued ++ [⟨opcode, byUser, encoded⟩] }

/-- `_enqueue_user_frame`. -/
def enqueueUserFrame (opcode : ℕ) (payload : List UInt8) : M Unit := do
  let s ← get
  if s.txQueue.length ≥ s.config.maxTxQueueSize then
    throw (.backpressureError (s!"TX queue is full ({s.config.maxTxQueueSize} messages); " ++
      "call handle() to drain before sending more"))
  else appendFrame env true opcode payload

/-- `_enqueue_internal_frame`: frames other than CLOSE leave one slot of the headroom to it. -/
def enqueueInternalFrame (opcode : ℕ) (payload : List UInt8) : M Unit := do
  let s ← get
  let limit :=
    if opcode ≠ OPCODE_CLOSE then s.config.txQueueHardCap - 1 else s.config.txQueueHardCap
  if s.txQueue.length ≥ limit then pure () else appendFrame env false opcode payload

/-- `_send_close`. -/
def sendClose (code : ℕ) (reason : String) (nowMs : Option ℤ) : M Unit := do
  let s ← get
  if s.state = .closing ∨ s.state = .closed then pure ()
  else do
    let payload ← tryCatch (lift (encodeClosePayload (some code) reason)) fun e =>
      match e with
      | .protocolError _ => pure []
      | e => throw e
    enqueueInternalFrame env OPCODE_CLOSE payload
    when (s.lastCloseCode = none) <|
      modify fun s => { s with lastCloseCode := some code, lastCloseReason := reason }
    modify fun s => { s with state := .closing, log := s.log ++ [Entry.became .closing] }
    let now ← match nowMs with
      | some now => pure now
      | none => ticksMs env
    let deadline ← deadlineAfter now s.config.closeTimeoutMs
    modify fun s => { s with closeDeadlineTicks := some deadline }

/-- `_drop_transport`. -/
def dropTransport : M Unit :=
  modify fun s => { s with
    socketClosed := true, state := .closed, log := s.log ++ [Entry.became .closed]
    handshakeDeadlineTicks := none, closeDeadlineTicks := none, pendingPingDeadlineTicks := none }

/-- `_on_finalized` of the client and of the server. -/
def onFinalized : M Unit :=
  modify fun s =>
    if s.config.isServer then { s with handshakeDeadlineTicks := none }
    else { s with
      handshakeDeadlineTicks := none, nextAutoPingTicks := none
      handshake := { s.handshake with connector := false, phase := none } }

/-- `_fail_with_error`. -/
def failWithError (error : Exn) : M Unit := do
  let s ← get
  when (s.lastError = none) <| modify fun s => { s with lastError := some error }
  when (s.lastCloseCode = none) <|
    modify fun s => { s with
      lastCloseCode := some CLOSE_INTERNAL_ERROR, lastCloseReason := error.message }
  dropTransport
  onFinalized
  let s ← get
  fire env (.onClose (s.lastCloseCode.getD CLOSE_INTERNAL_ERROR) s.lastCloseReason)

/-- The loop of `_drain_outbound`. A round that goes on has sent at least one byte of the budget. -/
def drainOutboundLoop : ℕ → ℕ → M Unit
  | 0, _ => pure ()
  | rounds + 1, budget =>
    if budget = 0 then pure ()
    else do
      let s ← get
      match s.txPartial, s.txQueue with
      | none, [] => pure ()
      | _, _ => do
        when (s.txPartial = none) <|
          modify fun s => { s with txPartial := some (s.txQueue.headD [], 0), txQueue := s.txQueue.tail }
        let s ← get
        let (buffer, offset) := s.txPartial.getD ([], 0)
        match ← socketSend env ((buffer.drop offset).take budget) with
        | .error errno =>
          if errno = EAGAIN then pure ()
          else
            failWithError env
              (.protocolError s!"socket error during send: {env.osErrorRepr errno}")
        | .ok none => pure ()
        | .ok (some sent) =>
          if sent = 0 then pure ()
          else do
            modify fun s => { s with
              txPartial := if offset + sent ≥ buffer.length then none else some (buffer, offset + sent) }
            drainOutboundLoop rounds (budget - sent)

/-- `_drain_outbound`. -/
def drainOutbound : M Unit := do
  let s ← get
  drainOutboundLoop env s.config.sendBudgetPerTick s.config.sendBudgetPerTick

/-- `_finalize_closed`. -/
def finalizeClosed : M Unit := do
  modify fun s => { s with finalizing := true }
  let s ← get
  when (s.txQueue ≠ [] ∨ s.txPartial ≠ none) <| drainOutbound env
  dropTransport
  onFinalized
  let s ← get
  fire env (.onClose (s.lastCloseCode.getD CLOSE_NORMAL) s.lastCloseReason)

/-! ## Receiving -/

/-- `_reset_inbound_state`. -/
def resetInboundState : M Unit := modify fun s => { s with inbound := {} }

/-- Appending to the bounded queue of `next_message`, which drops its oldest entry when full. -/
def enqueueInbound (message : InboundMessage) : M Unit :=
  modify fun s => { s with
    inboundQueue := (s.inboundQueue ++ [message]).drop
      (s.inboundQueue.length + 1 - s.config.maxInboundQueueSize)
    events := s.events ++ [Event.queued message] }

/-- `_deliver_message`. -/
def deliverMessage (messageOpcode : ℕ) (payload : List UInt8) (nowMs : ℤ) : M Unit := do
  let s ← get
  if messageOpcode = OPCODE_TEXT then
    match validateTextPayload env.decodeErrorText payload with
    | .error e => do
      note (.badData payload)
      sendClose env CLOSE_BAD_DATA e.message (some nowMs)
      modify fun s => { s with lastError := some e }
    | .ok text =>
      if s.inboundToQueue then enqueueInbound (.text text) else fire env (.onText text)
  else if s.inboundToQueue then enqueueInbound (.binary payload)
  else fire env (.onBinary payload)

/-- `_extend_inbound_buffer`. -/
def extendInboundBuffer (payload : List UInt8) : M Unit :=
  modify fun s =>
    if s.inbound.oversized then s
    else if s.inbound.messageBuffer.length + payload.length > s.config.maxMessageBytes then
      { s with inbound := { s.inbound with oversized := true } }
    else
      { s with inbound := { s.inbound with messageBuffer := s.inbound.messageBuffer ++ payload } }

/-- `_finish_oversized_message`. -/
def finishOversizedMessage (nowMs : ℤ) : M Unit := do
  let s ← get
  let reportedLength := s.inbound.reportedLength
  resetInboundState
  match s.config.whenOversized with
  | .dropSilent => note (.dropped reportedLength)
  | .dropWithEvent => fire env (.onOversized reportedLength)
  | .disconnect => do
    note (.tooBig reportedLength)
    sendClose env CLOSE_TOO_BIG
      s!"message exceeded max_message_bytes={s.config.maxMessageBytes}" (some nowMs)

/-- The end of `_handle_data_frame`: a final frame whose payload went to the buffer, or was drained,
completes the message. -/
def finishDataFrame (fin : Bool) (nowMs : ℤ) : M Unit := do
  let s ← get
  if fin = false then pure ()
  else if s.inbound.oversized then finishOversizedMessage env nowMs
  else do
    resetInboundState
    deliverMessage env (s.inbound.messageOpcode.getD 0) s.inbound.messageBuffer nowMs

/-- The part of `_handle_data_frame` after its checks: the three ways to take a payload. -/
def takeDataPayload (frame : FrameParser) (nowMs : ℤ) : M Unit := do
  let s ← get
  if frame.oversized then do
    modify fun s => { s with inbound := { s.inbound with oversized := true } }
    finishDataFrame env frame.fin nowMs
  else if frame.fin ∧ s.inbound.messageBuffer = [] then
    -- the fast path for unfragmented messages
    if frame.payload.length > s.config.maxMessageBytes then do
      modify fun s => { s with inbound := { s.inbound with oversized := true } }
      finishDataFrame env frame.fin nowMs
    else do
      resetInboundState
      deliverMessage env (s.inbound.messageOpcode.getD 0) frame.payload nowMs
  else do
    extendInboundBuffer frame.payload
    finishDataFrame env frame.fin nowMs

/-- The part of `_handle_data_frame` that counts lengths and empty fragments. -/
def countDataFrame (frame : FrameParser) (nowMs : ℤ) : M Unit := do
  modify fun s => { s with inbound := { s.inbound with
    reportedLength := s.inbound.reportedLength + frame.reportedLength } }
  if frame.reportedLength > 0 then do
    modify fun s => { s with inbound := { s.inbound with emptyFragmentRun := 0 } }
    takeDataPayload env frame nowMs
  else if frame.fin = false then do
    modify fun s => { s with inbound := { s.inbound with
      emptyFragmentRun := s.inbound.emptyFragmentRun + 1 } }
    let s ← get
    if s.inbound.emptyFragmentRun > MAX_EMPTY_FRAGMENT_RUN then
      sendClose env CLOSE_PROTOCOL_ERROR "too many zero-length continuation frames" (some nowMs)
    else takeDataPayload env frame nowMs
  else takeDataPayload env frame nowMs

/-- `_handle_data_frame`, for the frame the parser holds. -/
def handleDataFrame (nowMs : ℤ) : M Unit := do
  let s ← get
  let frame := s.frameParser
  if frame.opcode = OPCODE_CONTINUATION then
    if s.inbound.messageOpcode = none then
      sendClose env CLOSE_PROTOCOL_ERROR "CONTINUATION frame with no in-progress message"
        (some nowMs)
    else countDataFrame env frame nowMs
  else if s.inbound.messageOpcode ≠ none then
    sendClose env CLOSE_PROTOCOL_ERROR
      s!"new 0x{hexOpcode frame.opcode} frame in the middle of a fragmented message" (some nowMs)
  else do
    modify fun s => { s with inbound := { s.inbound with messageOpcode := some frame.opcode } }
    countDataFrame env frame nowMs

/-- `_handle_close_frame`. -/
def handleCloseFrame (payload : List UInt8) (nowMs : ℤ) : M Unit := do
  match parseClosePayload env.decodeErrorText payload with
  | .error e => do
    sendClose env CLOSE_PROTOCOL_ERROR e.message (some nowMs)
    modify fun s => { s with lastError := some e }
  | .ok (code, reason) => do
    let s ← get
    if s.state = .closing then do
      when (s.lastCloseCode = none) <|
        modify fun s => { s with lastCloseCode := code, lastCloseReason := reason }
      finalizeClosed env
    else do
      modify fun s => { s with lastCloseCode := code, lastCloseReason := reason }
      sendClose env (code.getD CLOSE_NORMAL) "" (some nowMs)
      finalizeClosed env

/-- `_handle_ping_frame`. -/
def handlePingFrame (payload : List UInt8) : M Unit := do
  enqueueInternalFrame env OPCODE_PONG payload
  fire env (.onPing payload)

/-- `_handle_pong_frame`. -/
def handlePongFrame (payload : List UInt8) : M Unit := do
  modify fun s => { s with pendingPingDeadlineTicks := none }
  fire env (.onPong payload)

/-- The text of a masking error, with `_peer_label`. -/
def maskMessage (isServer : Bool) : String :=
  if isServer then "client frame must be masked" else "server frame must not be masked"

/-- `_dispatch_frame`. -/
def dispatchFrame (nowMs : ℤ) : M Unit := do
  let s ← get
  let frame := s.frameParser
  if frame.hadMask ≠ s.config.isServer then
    sendClose env CLOSE_PROTOCOL_ERROR (maskMessage s.config.isServer) (some nowMs)
  else if frame.opcode = OPCODE_CLOSE then handleCloseFrame env frame.payload nowMs
  else if frame.opcode = OPCODE_PING then handlePingFrame env frame.payload
  else if frame.opcode = OPCODE_PONG then handlePongFrame env frame.payload
  else handleDataFrame env nowMs

/-- `frame_parser.reset()`, unless the session is closed. -/
def resetParser : M Unit :=
  modify fun s => if s.state = .closed then s else { s with frameParser := s.frameParser.reset }

/-- The loop of `_feed_frame_bytes`. A round that goes on has consumed a byte. -/
def feedFrameLoop (chunk : List UInt8) (nowMs : ℤ) : ℕ → ℕ → M Unit
  | 0, _ => pure ()
  | rounds + 1, offset =>
    if offset ≥ chunk.length then pure ()
    else do
      let s ← get
      match s.frameParser.feed chunk offset with
      | (.error (.protocolError message), parser) => do
        modify fun s => { s with frameParser := parser }
        sendClose env CLOSE_PROTOCOL_ERROR message (some nowMs)
        modify fun s => { s with lastError := some (.protocolError message) }
      | (.error e, parser) => do
        modify fun s => { s with frameParser := parser }
        throw e
      | (.ok consumed, parser) => do
        modify fun s => { s with frameParser := parser }
        if consumed = 0 then pure ()
        else if parser.state = .frameReady then do
          tryFinally (dispatchFrame env nowMs) resetParser
          let s ← get
          if s.state = .closed then pure ()
          else feedFrameLoop chunk nowMs rounds (offset + consumed)
        else feedFrameLoop chunk nowMs rounds (offset + consumed)

/-- `_feed_frame_bytes`. -/
def feedFrameBytes (chunk : List UInt8) (nowMs : ℤ) : M Unit := do
  let s ← get
  if s.frameParser.state = .error then pure ()
  else feedFrameLoop env chunk nowMs chunk.length 0

/-- `_recv_chunk`. The scratch buffer holds at most 512 bytes. -/
def recvChunk (maxBytes : ℕ) : M (Option (List UInt8)) := do
  let s ← get
  let cap := min maxBytes (min s.config.recvBudgetPerTick 512)
  record fun s => .recv s.state
  modify fun s => { s with recvs := s.recvs + 1 }
  match env.recv s.recvs with
  | .error errno =>
    if errno = EAGAIN then pure none
    else do
      failWithError env (.protocolError s!"socket error during recv: {env.osErrorRepr errno}")
      pure none
  | .ok none => pure none
  | .ok (some received) => pure (some (received.take cap))

/-- The loop of `_drain_inbound`. A round that goes on has received a byte of the budget. -/
def drainInboundLoop (nowMs : ℤ) : ℕ → ℕ → M Unit
  | 0, _ => pure ()
  | rounds + 1, remaining =>
    if remaining = 0 then pure ()
    else do
      match ← recvChunk env remaining with
      | none => pure ()
      | some [] =>
        failWithError env (.protocolError "peer closed TCP without sending a CLOSE frame")
      | some chunk => do
        feedFrameBytes env chunk nowMs
        let s ← get
        if s.state = .closed then pure ()
        else drainInboundLoop nowMs rounds (remaining - chunk.length)

/-- `_drain_inbound`. -/
def drainInbound (nowMs : ℤ) : M Unit := do
  let s ← get
  drainInboundLoop env nowMs s.config.recvBudgetPerTick s.config.recvBudgetPerTick

/-! ## Calls of the application -/

/-- The guard of `send_text`, `send_binary` and `send_ping`, in front of the frame they enqueue. -/
def sendOpen (call : String) (opcode : ℕ) (payload : List UInt8) : M Unit := do
  let s ← get
  if s.state ≠ .opened then
    throw (.stateError s!"{call}() requires OPEN state, was {s.state.text}")
  else enqueueUserFrame env opcode payload

/-- `send_text`. -/
def sendText (text : String) : M Unit := sendOpen env "send_text" OPCODE_TEXT (encodeUtf8 text)

/-- `send_binary`. -/
def sendBinary (data : List UInt8) : M Unit := sendOpen env "send_binary" OPCODE_BINARY data

/-- `_arm_pong_deadline`: the earliest outstanding ping keeps its deadline. -/
def armPongDeadline (nowMs : Option ℤ) : M Unit := do
  let s ← get
  match s.config.pongTimeoutMs, s.pendingPingDeadlineTicks with
  | some timeout, none => do
    let now ← match nowMs with
      | some now => pure now
      | none => ticksMs env
    let deadline ← deadlineAfter now timeout
    modify fun s => { s with pendingPingDeadlineTicks := some deadline }
  | _, _ => pure ()

/-- `send_ping`. -/
def sendPing (payload : List UInt8) : M Unit := do
  sendOpen env "send_ping" OPCODE_PING payload
  armPongDeadline env none

/-- `close` of the shared session. -/
def close (code : ℕ) (reason : String) : M Unit := do
  record fun s => .closing s.state
  let s ← get
  if s.state = .closing ∨ s.state = .closed then
    throw (.stateError s!"close() not allowed in state {s.state.text}")
  else sendClose env code reason none

/-- `_check_timeouts`. -/
def checkTimeouts (nowMs : ℤ) : M Bool := do
  let s ← get
  if s.handshakeDeadlineTicks.any fun t => ticksDiff t nowMs ≤ 0 then do
    failWithError env (.timeoutError s!"handshake exceeded {s.config.handshakeTimeoutMs} ms")
    pure true
  else if s.closeDeadlineTicks.any fun t => ticksDiff t nowMs ≤ 0 then do
    let error := Exn.timeoutError s!"peer did not send CLOSE within {s.config.closeTimeoutMs} ms"
    modify fun s => { s with lastError := some error }
    finalizeClosed env
    pure true
  else if s.pendingPingDeadlineTicks.any fun t => ticksDiff t nowMs ≤ 0 then do
    failWithError env
      (.timeoutError s!"no PONG within {s.config.pongTimeoutMs.getD 0} ms of last PING")
    pure true
  else pure false

end ChuMicro.Websockets
