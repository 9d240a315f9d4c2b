import ChuMicro.Mqtt.ClientState

/-!
# The MQTT client

`MQTTClient` of `libraries/mqtt/src/chumicro_mqtt/client.py`, function by function in the order of
the source. The functions that can call the application take `callee`, which runs the calls that a
callback makes; `perform` ties the knot up to a depth of nesting.

The methods that only look at the client (`check`, `io_socket`, `io_interest`) and its construction
from a configuration are not modelled.

## Main definitions

* `Mqtt.handle`, `connect`, `disconnect`, `publish`, `subscribe`, `unsubscribe`, `ioError` — the
  public interface.
* `Mqtt.drainTxQueue`, `readInbound`, `checkDeadlines` — one tick.
* `Mqtt.perform` — a call with all the calls its callbacks make.
* `Mqtt.runCalls` — a run of the application.
-/

namespace ChuMicro.Mqtt

open Prog

/-! ## Helpers of the model -/

/-- Log an event. -/
def record (event : Event) : M Unit := modify fun w => w.record event

/-- Run `m` under a frame. -/
def withFrame {α : Type} (frame : Frame) (m : M α) : M α := do
  modify fun w => { w with frames := frame :: w.frames }
  tryFinally m (modify fun w => { w with frames := w.frames.tail })

section Client

variable (env : Env) (callee : Call → M Unit)

/-- The calls of a script. -/
def runScript : List (Call × Bool) → M Unit
  | [] => pure ()
  | (c, true) :: rest => do
    tryCatch (callee c) fun _ => pure ()
    runScript rest
  | (c, false) :: rest => do
    callee c
    runScript rest

/-- Call a callback of the application. -/
def fire (cb : Callback) : M Unit := do
  record (.fired cb)
  let w ← get
  modify fun w => { w with
    used := { w.used with callbacks := w.used.callbacks + 1 }
    armed := w.armed && decide (cb ≠ .onConnect) }
  withFrame (.callback cb) do
    runScript callee (env.script w.used.callbacks).calls
    match (env.script w.used.callbacks).raises with
    | some e => throw e
    | none => pure ()

/-- `self._ticks.ticks_ms()`. -/
def ticksMs : M ℤ := do
  let w ← get
  modify fun w => { w with used := { w.used with clockReads := w.used.clockReads + 1 } }
  pure (env.ticksMs w.used.clockReads)

/-- `_deadline`. -/
def deadline (offsetMs : ℤ) (nowMs : Option ℤ) : M ℤ :=
  match nowMs with
  | some now => lift (liftPy (ticksAdd now offsetMs))
  | none => do
    let now ← ticksMs env
    lift (liftPy (ticksAdd now offsetMs))

/-- `_await_ack`. -/
def awaitAck (awaiting : Awaiting) (packetId : Option ℕ) (callback : Option (String × Bool))
    (topic : Option String) (nowMs : Option ℤ) : M Unit := do
  let w ← get
  let deadlineTicks ← deadline env w.config.ackTimeoutMs nowMs
  modify fun w => { w with pendingResponses := w.pendingResponses ++
    [{ awaiting, deadlineTicks, packetId, callback, topic }] }

/-- `_enqueue_user_tx`. -/
def enqueueUserTx (items : List TxItem) : M Unit := do
  let w ← get
  if w.txQueue.length + items.length > w.config.maxTxQueueSize then
    throw (.backpressureError (s!"tx queue full ({w.txQueue.length} + {items.length} > " ++
      s!"{w.config.maxTxQueueSize}); call handle() to drain and retry"))
  else modify fun w => { w with txQueue := w.txQueue ++ items }

/-- `_enqueue_internal_tx`. -/
def enqueueInternalTx (packet : Packet) (front : Bool) : M Bool := do
  let w ← get
  if w.txQueue.length ≥ w.config.txQueueHardCap then pure false
  else do
    modify fun w => { w with
      txQueue := if front then .packet packet :: w.txQueue else w.txQueue ++ [TxItem.packet packet] }
    pure true

/-- `_enter_failed`. -/
def enterFailed : M Unit := do
  let w ← get
  modify fun w => { w with state := .failed, stops := w.stops + 1 }
  when (w.state = .connected) (fire env callee .onDisconnect)

/-- `_allocate_packet_id`: the loop, over `attempts` candidates. -/
def allocatePacketIdLoop (inFlight : List InFlightPublish) : ℕ → ℕ → Option (ℕ × ℕ)
  | 0, _ => none
  | attempts + 1, candidate =>
    let next := if candidate + 1 > 65535 then 1 else candidate + 1
    if inFlight.any fun entry => entry.packetId = candidate then
      allocatePacketIdLoop inFlight attempts next
    else some (candidate, next)

/-- The counter after a search that has found nothing: 65535 steps lead round to where it began. -/
def nextAfter : ℕ → ℕ → ℕ
  | 0, candidate => candidate
  | attempts + 1, candidate => nextAfter attempts (if candidate + 1 > 65535 then 1 else candidate + 1)

/-- `_allocate_packet_id`. -/
def allocatePacketId : M ℕ := do
  let w ← get
  match allocatePacketIdLoop w.inFlight 65535 w.nextPacketId with
  | some (packetId, next) => do
    modify fun w => { w with nextPacketId := next }
    pure packetId
  | none => do
    modify fun w => { w with nextPacketId := nextAfter 65535 w.nextPacketId }
    throw (.py (.overflowError "MQTT in-flight table is full (65535 packet-ids in use)"))

/-! ## Connecting -/

/-- `self._transport_factory()`: the text of what it raises, if it raises. A client without a
factory calls `None`. -/
def makeConnector : M (Option String) := do
  let w ← get
  modify fun w => { w with used := { w.used with factoryCalls := w.used.factoryCalls + 1 } }
  pure (if w.config.hasFactory then env.factory w.used.factoryCalls
    else some "'NoneType' object is not callable")

/-- The common part of `_start_transport` and `_attempt_self_heal`. -/
def startTransport (nowMs : Option ℤ) : M Bool := do
  match ← makeConnector env with
  | some factoryError => do
    modify fun w => { w with
      lastError := some (.mqttError s!"connector factory failed: {factoryError}") }
    pure false
  | none => do
    modify fun w => { w with connector := true }
    let w ← get
    let deadlineTicks ← deadline env w.config.ackTimeoutMs nowMs
    modify fun w => { w with
      timers := { w.timers with transportDeadlineTicks := some deadlineTicks }
      state := .awaitingTransport }
    pure true

/-- The arguments of `encode_connect`. -/
def Client.connectArgs (c : Client) : ConnectArgs where
  clientId := c.config.clientId
  keepAliveSeconds := c.config.keepAliveSeconds
  cleanSession := c.config.cleanSession
  username := c.config.username
  password := c.config.password
  willTopic := c.will.topic
  willMessage := c.will.message
  willQos := c.will.qos
  willRetain := c.will.retain

/-- `_enqueue_connect_packet`. -/
def enqueueConnectPacket (nowMs : Option ℤ) : M Unit := do
  let w ← get
  let bytes ← lift (encodeConnect w.connectArgs)
  enqueueUserTx [.packet ⟨.connect, bytes⟩]
  awaitAck env .connack none none none nowMs

/-- `connect`, in the state DISCONNECTED. -/
def connectNow : M Unit := do
  let w ← get
  if w.socket = none then do
    let started ← startTransport env none
    if started then pure () else enterFailed env callee
  else do
    enqueueConnectPacket env none
    modify fun w => { w with state := .connecting }

/-- The fields of self-healing that `connect` clears. -/
def SelfHeal.fresh (h : SelfHeal) : SelfHeal :=
  { h with permanentFailure := false, attempts := 0, retryAtTicks := none }

/-- `connect`. -/
def connect : M Unit := do
  modify fun w => { w with heal := { w.heal with reconnectHeld := false, userWantsConnected := true } }
  let w ← get
  if w.state = .disconnected then do
    modify fun w => { w with heal := w.heal.fresh }
    connectNow env callee
  else when (w.state = .failed) (modify fun w => { w with heal := w.heal.fresh })

/-- `hold`. -/
def hold : M Unit := modify fun w => { w with heal := { w.heal with reconnectHeld := true } }

/-! ## Sending -/

/-- `_send_raw`. -/
def sendRaw (payload : List UInt8) : M ℕ := do
  let w ← get
  match w.socket with
  | none => throw (.py .attributeError)
  | some t => do
    record (.sent t payload)
    modify fun w => { w with used := { w.used with sends := w.used.sends + 1 } }
    match env.send w.used.sends with
    | .error errno => if errno = EAGAIN then pure 0 else throw (.py (.osError errno))
    | .ok n => do
      modify fun w => w.onSocket fun tr => { tr with written := tr.written ++ payload.take n }
      pure (min n payload.length)

/-- Remember that a packet has been taken for the current transport. -/
def take (packet : Packet) : M Unit := modify fun w =>
  w.onSocket fun tr => { tr with taken := tr.taken ++ [packet] }

/-- `self._socket.close()` if there is a socket, and `self._socket = None`. -/
def closeSocket : M Unit := modify fun w =>
  { w.onSocket fun tr => { tr with closed := true } with socket := none }

/-- `_reset_transient_state`. -/
def resetTransientState : M Unit := modify fun w => { w with
  txQueue := []
  partialSend := none
  pubackBatchQueued := false
  timers := { w.timers with sendDeadlineTicks := none, transportDeadlineTicks := none }
  pendingResponses := []
  decoder := .new w.config.rxBufferSize }

/-- The DISCONNECT packet of `disconnect`, sent past the tx queue. -/
def sendDisconnect : M Unit := do
  let sent ← sendRaw env PACKET_DISCONNECT
  when (0 < sent) (take ⟨.disconnect, PACKET_DISCONNECT⟩)

/-- The part of `disconnect` that depends on the state. -/
def leave : M Unit := do
  let w ← get
  if w.state = .awaitingTransport then modify fun w => { w with connector := false }
  else if w.state ≠ .failed then tryCatch (sendDisconnect env) fun _ => pure ()
  else pure ()

/-- `disconnect`. -/
def disconnect : M Unit := do
  let w ← get
  if w.state = .disconnected then pure ()
  else do
    leave env
    closeSocket
    resetTransientState
    modify fun w => { w with
      preConnectQueue := []
      state := .disconnected
      heal := { w.heal with userWantsConnected := false, reconnectHeld := false }
      stops := w.stops + 1
      accepted := []
      enqueued := [] }
    fire env callee .onDisconnect

/-- `set_will`. -/
def setWill (will : Will) : M Unit :=
  if will.qos > 1 then
    throw (.unsupportedQosError "will_qos must be 0 or 1; QoS 2 is reserved-not-implemented")
  else modify fun w => { w with will := will }

/-- `_update_send_deadline`. -/
def updateSendDeadline (bytesSent : ℕ) : M Unit := do
  let w ← get
  if w.txQueue = [] ∧ w.partialSend = none then
    modify fun w => { w with timers := { w.timers with sendDeadlineTicks := none } }
  else when (bytesSent > 0 ∨ w.timers.sendDeadlineTicks = none) do
    let deadlineTicks ← deadline env w.config.sendTimeoutMs none
    modify fun w => { w with timers := { w.timers with sendDeadlineTicks := some deadlineTicks } }

/-- One round of `_drain_callback_markers`. -/
def drainCallbackMarker : M (Option Unit) := do
  let w ← get
  match w.txQueue with
  | .marker own topic payload :: rest => do
    modify fun w => { w with txQueue := rest }
    when (own = true) (fire env callee (.onPublish true topic payload))
    fire env callee (.onPublish false topic payload)
    pure none
  | _ => pure (some ())

/-- `_drain_callback_markers`. -/
def drainCallbackMarkers : M Unit :=
  withFrame .markers (loop .unfinished (drainCallbackMarker env callee) env.rounds)

/-- `packet[0] == PACKET_PUBACK`. -/
def Packet.isPubackBatch (packet : Packet) : Bool := packet.bytes.head? = some PACKET_PUBACK

/-- What `_drain_tx_queue` does with the packet at the head of the queue. -/
def sendHead (packet : Packet) : M (Option Unit) := do
  let sent ← sendRaw env packet.bytes
  if sent = 0 then do
    updateSendDeadline env 0
    pure (some ())
  else if sent < packet.bytes.length then do
    modify fun w => { w with
      partialSend := some (packet, sent)
      txQueue := w.txQueue.tail
      pubackBatchQueued := if packet.isPubackBatch then false else w.pubackBatchQueued }
    take packet
    updateSendDeadline env sent
    pure (some ())
  else do
    modify fun w => { w with txQueue := w.txQueue.tail }
    take packet
    updateSendDeadline env sent
    if packet.isPubackBatch then do
      modify fun w => { w with pubackBatchQueued := false }
      pure none
    else do
      drainCallbackMarkers env callee
      pure (some ())

/-- One round of the loop of `_drain_tx_queue`. -/
def drainRound : M (Option Unit) := do
  drainCallbackMarkers env callee
  let w ← get
  match w.txQueue with
  | [] => do
    updateSendDeadline env 0
    pure (some ())
  | .packet packet :: _ => sendHead env callee packet
  | .marker _ _ _ :: _ => throw (.py (.typeError "a bytes-like object is required, not 'tuple'"))

/-- `_drain_tx_queue`. -/
def drainTxQueue : M Unit := do
  let w ← get
  match w.partialSend with
  | some (packet, offset) => do
    let sent ← sendRaw env (packet.bytes.drop offset)
    modify fun w => { w with partialSend :=
      if offset + sent ≥ packet.bytes.length then none else some (packet, offset + sent) }
    updateSendDeadline env sent
  | none => loop .unfinished (drainRound env callee) env.rounds

/-! ## Publishing and subscribing -/

/-- `_do_publish` at QoS 1, with the packet identifier. -/
def doPublishQos1 (p : QueuedPublish) (nowMs : Option ℤ) : M Unit := do
  let packetId ← allocatePacketId
  let bytes ← lift (encodePublish p.topic p.payload 1 p.retain (some packetId))
  let w ← get
  if w.inFlight.any fun entry => entry.packetId = packetId then
    throw (.py (.keyError s!"packet_id {packetId} already in flight"))
  else do
    let deadlineTicks ← deadline env w.config.ackTimeoutMs nowMs
    modify fun w => { w with inFlight := w.inFlight ++
      [⟨packetId, bytes, 0, deadlineTicks, p.onPublish, p.topic, p.payload, none⟩] }
    tryCatch (enqueueUserTx [.packet ⟨.publish, bytes⟩]) fun e =>
      match e with
      | .backpressureError _ => do
        modify fun w => { w with
          inFlight := w.inFlight.filter fun entry => entry.packetId ≠ packetId }
        throw e
      | _ => throw e

/-- `_do_publish`. -/
def doPublish (p : QueuedPublish) (nowMs : Option ℤ) : M Unit :=
  if p.qos = 0 then do
    let bytes ← lift (encodePublish p.topic p.payload 0 p.retain none)
    let w ← get
    if p.onPublish = true ∨ w.onPublishSet = true then
      enqueueUserTx [.packet ⟨.publish, bytes⟩, .marker p.onPublish p.topic p.payload]
    else enqueueUserTx [.packet ⟨.publish, bytes⟩]
  else doPublishQos1 env p nowMs

/-- `_publish_disconnected`. -/
def publishDisconnected (p : QueuedPublish) : M Unit := do
  let w ← get
  if w.config.raiseWhenDisconnected then
    throw (.mqttError s!"publish() requires CONNECTED state, was {w.state.text}")
  else if w.preConnectQueue.length ≥ w.config.preConnectQueueSize then
    throw (.backpressureError (s!"pre-connect publish queue full ({w.config.preConnectQueueSize}); " ++
      "call handle() to connect and drain, then retry"))
  else modify fun w => { w with
    preConnectQueue := w.preConnectQueue ++ [p]
    accepted := w.accepted ++ [p] }

/-- `publish`. -/
def publish (p : QueuedPublish) : M Unit := do
  let w ← get
  if p.qos > 1 then
    throw (.unsupportedQosError "qos must be 0 or 1; QoS 2 is reserved-not-implemented")
  else if w.state ≠ .connected then publishDisconnected p
  else doPublish env p none

/-- The loop of `_drain_pre_connect_queue`, over the entries of the queue. -/
def drainPreConnectLoop (nowMs : ℤ) : List QueuedPublish → M Unit
  | [] => pure ()
  | p :: rest => do
    modify fun w => { w with preConnectQueue := rest }
    doPublish env p (some nowMs)
    modify fun w => { w with enqueued := w.enqueued ++ [p] }
    drainPreConnectLoop nowMs rest

/-- `_drain_pre_connect_queue`. -/
def drainPreConnectQueue (nowMs : ℤ) : M Unit := do
  let w ← get
  drainPreConnectLoop env nowMs w.preConnectQueue

/-- `self._subscriptions[topic] = entry`: a topic that is there keeps its place. -/
def setSubscription (subscriptions : List (String × Subscription)) (topic : String)
    (entry : Subscription) : List (String × Subscription) :=
  if subscriptions.any fun s => s.1 = topic then
    subscriptions.map fun s => if s.1 = topic then (topic, entry) else s
  else subscriptions ++ [(topic, entry)]

/-- `self._subscriptions.pop(topic, None)`. -/
def popSubscription (subscriptions : List (String × Subscription)) (topic : String) :
    List (String × Subscription) :=
  subscriptions.filter fun s => s.1 ≠ topic

/-- `subscribe`. -/
def subscribe (topic : String) (qos : ℕ) (own : Bool) : M Unit := do
  let w ← get
  when (w.state = .connected) do
    let packetId ← allocatePacketId
    let bytes ← lift (encodeSubscribe packetId [(topic, qos)])
    enqueueUserTx [.packet ⟨.subscribe topic qos, bytes⟩]
    awaitAck env .suback (some packetId) none (some topic) none
  modify fun w => { w with subscriptions := setSubscription w.subscriptions topic ⟨qos, some own⟩ }

/-- `unsubscribe`. -/
def unsubscribe (topic : String) (own : Bool) : M Unit := do
  let w ← get
  if w.state ≠ .connected then
    modify fun w => { w with subscriptions := popSubscription w.subscriptions topic }
  else do
    let packetId ← allocatePacketId
    let bytes ← lift (encodeUnsubscribe packetId [topic])
    enqueueUserTx [.packet ⟨.unsubscribe topic, bytes⟩]
    modify fun w => { w with subscriptions := popSubscription w.subscriptions topic }
    awaitAck env .unsuback (some packetId) (some (topic, own)) none none

/-- `_MAX_INBOUND_QUEUE_SIZE`. -/
def MAX_INBOUND_QUEUE_SIZE : ℕ := 16

/-- `next_message`, up to where the generator yields or returns. -/
def nextMessage : M Unit := modify fun w => { w with inboundQueue := some (w.inboundQueue.getD []).tail }

/-- `io_error`. -/
def ioError (eventmask : ℕ) : M Unit := do
  let w ← get
  if w.state = .disconnected ∨ w.state = .failed then pure ()
  else do
    when (w.state = .awaitingTransport ∧ w.connector = true) <|
      modify fun w => { w with
        connector := false
        timers := { w.timers with transportDeadlineTicks := none } }
    modify fun w => { w with lastError := some (.mqttError
      s!"socket error from runner.wait (poll eventmask 0x{String.ofList (Nat.toDigits 16 eventmask)})") }
    enterFailed env callee

/-! ## Receiving -/

/-- `_recv_suppressed`. -/
def Client.recvSuppressed (c : Client) : Bool := c.pubackBatchQueued || c.partialSend.isSome

/-- The first pending response that `_discard_pending` and `_evict_rejected_subscription` look for.
-/
def PendingResponse.isFor (awaiting : Awaiting) (packetId : Option ℕ) (pending : PendingResponse) :
    Bool :=
  pending.awaiting = awaiting && (packetId = none || pending.packetId = packetId)

/-- The callback of a pending response. -/
def firePending (pending : PendingResponse) : M Unit :=
  match pending.callback with
  | none => pure ()
  | some (topic, own) => do
    when (own = true) (fire env callee (.onUnsubscribe true topic))
    fire env callee (.onUnsubscribe false topic)

/-- `_discard_pending`. -/
def discardPending (awaiting : Awaiting) (packetId : Option ℕ) : M (Option PendingResponse) := do
  let w ← get
  match w.pendingResponses.find? (PendingResponse.isFor awaiting packetId) with
  | none => pure none
  | some pending => do
    modify fun w => { w with
      pendingResponses := w.pendingResponses.eraseP (PendingResponse.isFor awaiting packetId) }
    firePending env callee pending
    pure (some pending)

/-- `_evict_rejected_subscription`. -/
def evictRejectedSubscription (packetId : Option ℕ) : M Unit := modify fun w =>
  match (w.pendingResponses.find? fun pending =>
      pending.awaiting = .suback ∧ pending.packetId = packetId).bind PendingResponse.topic with
  | none => w
  | some topic => { w with subscriptions := popSubscription w.subscriptions topic }

/-- The loop of `_replay_subscriptions`. -/
def replayLoop (nowMs : ℤ) : List (String × Subscription) → M Unit
  | [] => pure ()
  | (topic, entry) :: rest => do
    let packetId ← allocatePacketId
    let bytes ← lift (encodeSubscribe packetId [(topic, entry.qos)])
    let _ ← enqueueInternalTx ⟨.subscribe topic entry.qos, bytes⟩ false
    awaitAck env .suback (some packetId) none (some topic) (some nowMs)
    replayLoop nowMs rest

/-- `_replay_subscriptions`. -/
def replaySubscriptions (nowMs : ℤ) : M Unit := do
  let w ← get
  replayLoop env nowMs w.subscriptions

/-- `_PERMANENT_CONNACK_CODES`. -/
def PERMANENT_CONNACK_CODES : List ℕ := [1, 2, 4, 5]

/-- The text of a rejected CONNECT. -/
def connackMessage (returnCode : ℕ) : String :=
  match returnCode with
  | 1 => "broker rejected CONNECT (return code 1: unacceptable protocol version)"
  | 2 => "broker rejected CONNECT (return code 2: identifier rejected)"
  | 3 => "broker rejected CONNECT (return code 3: server unavailable)"
  | 4 => "broker rejected CONNECT (return code 4: bad username or password)"
  | 5 => "broker rejected CONNECT (return code 5: not authorized)"
  | n => s!"broker rejected CONNECT (return code {n})"

/-- `_handle_connack` for a return code other than 0. -/
def refuseConnack (returnCode : ℕ) : M Unit := do
  modify fun w => { w with
    lastError := some (.connectError (connackMessage returnCode) returnCode)
    heal := { w.heal with permanentFailure :=
      w.heal.permanentFailure || decide (returnCode ∈ PERMANENT_CONNACK_CODES) } }
  enterFailed env callee

/-- `_handle_connack` for the return code 0. -/
def acceptConnack (sessionPresent : Bool) (nowMs : ℤ) : M Unit := do
  record .connected
  modify fun w => { w with
    state := .connected, heal := { w.heal with attempts := 0, retryAtTicks := none }, armed := true }
  let w ← get
  let nextPing ← deadline env w.config.pingIntervalMs (some nowMs)
  modify fun w => { w with timers := { w.timers with nextPingDueTicks := nextPing } }
  when (w.config.cleanSession = true ∨ sessionPresent = false) (replaySubscriptions env nowMs)
  drainPreConnectQueue env nowMs
  fire env callee .onConnect

/-- `_handle_connack`. -/
def handleConnack (p : ParsedAck) (nowMs : ℤ) : M Unit := do
  let _ ← discardPending env callee .connack none
  if p.returnCode.getD 0 ≠ 0 then refuseConnack env callee (p.returnCode.getD 0)
  else acceptConnack env callee (p.sessionPresent.getD false) nowMs

/-- `_handle_ack` for a PUBACK. -/
def handlePuback (packetId : Option ℕ) : M Unit := do
  let w ← get
  match w.inFlight.find? fun entry => some entry.packetId = packetId with
  | none => pure ()
  | some entry => do
    modify fun w => { w with inFlight := w.inFlight.filter fun e => some e.packetId ≠ packetId }
    when (entry.own = true) (fire env callee (.onPublish true entry.topic entry.payload))
    fire env callee (.onPublish false entry.topic entry.payload)

/-- The one-shot callback of a subscription that has been granted. -/
def fireSubscribed (topic : String) (grantedQos : Option (List ℕ)) : M Unit := do
  let w ← get
  match (w.subscriptions.find? fun s => s.1 = topic).bind fun s => s.2.callback with
  | none => pure ()
  | some own => do
    modify fun w => { w with subscriptions := w.subscriptions.map fun s =>
      if s.1 = topic then (s.1, { s.2 with callback := none }) else s }
    when (own = true) (fire env callee (.onSubscribe true topic grantedQos))
    fire env callee (.onSubscribe false topic grantedQos)

/-- `_handle_ack` for a SUBACK. -/
def handleSuback (p : ParsedAck) : M Unit :=
  if 0x80 ∈ p.grantedQos.getD [] then do
    evictRejectedSubscription p.packetId
    throw (.protocolError (s!"SUBACK rejection (packet_id {p.packetId.getD 0}, " ++
      s!"granted_qos {p.grantedQos.getD []}); broker refused one or more subscription filters"))
  else do
    match ← discardPending env callee .suback p.packetId with
    | none => throw (.protocolError s!"SUBACK for unknown packet_id {p.packetId.getD 0}")
    | some matched =>
      match matched.topic with
      | none => pure ()
      | some topic => fireSubscribed env callee topic p.grantedQos

/-- `_handle_ack` for an UNSUBACK. -/
def handleUnsuback (p : ParsedAck) : M Unit := do
  match ← discardPending env callee .unsuback p.packetId with
  | none => throw (.protocolError s!"UNSUBACK for unknown packet_id {p.packetId.getD 0}")
  | some _ => pure ()

/-- `_handle_ack`. -/
def handleAck (p : ParsedAck) (nowMs : ℤ) : M Unit := do
  record (.acked p)
  modify fun w => w.onSocket fun tr => { tr with acks := tr.acks ++ [p] }
  if p.packetType = PACKET_CONNACK then handleConnack env callee p nowMs
  else if p.packetType = PACKET_PINGRESP then do
    let _ ← discardPending env callee .pingresp none
    pure ()
  else if p.packetType = PACKET_PUBACK then handlePuback env callee p.packetId
  else if p.packetType = PACKET_SUBACK then handleSuback env callee p
  else if p.packetType = PACKET_UNSUBACK then handleUnsuback env callee p
  else pure ()

/-- Run `m`, the delivery of a message for which a PUBACK will be owed, and collect the PUBACK when
it returns. The client owes it from the start if it is CONNECTED. -/
def collecting (packetId : ℕ) (m : M Unit) : M Unit := do
  modify fun w =>
    { w.onSocket fun tr => { tr with
        owed := if w.state = .connected then tr.owed ++ [packetId] else tr.owed } with
      frames := .owing packetId :: w.frames }
  let puback ← tryCatch
    (do
      m
      lift (liftPy (encodePuback packetId)))
    fun e => do
      record (.unacked packetId e)
      modify fun w => { w with frames := w.frames.tail }
      throw e
  modify fun w => { w with
    frames := w.frames.tail
    pendingPubacks := w.pendingPubacks ++ [puback] }

/-- Appending to the queue of `next_message`, which drops its oldest entry when full. -/
def pushInbound (queue : List InboundPublish) (p : ParsedPublish) : List InboundPublish :=
  (queue ++ [(⟨p.topic, p.payload⟩ : InboundPublish)]).drop (queue.length + 1 - MAX_INBOUND_QUEUE_SIZE)

/-- The delivery of an inbound PUBLISH to the queue or the callback. -/
def deliver (p : ParsedPublish) : M Unit := do
  record (.message (some p.topic))
  let w ← get
  match w.inboundQueue with
  | some queue => modify fun w => { w with inboundQueue := some (pushInbound queue p) }
  | none => fire env callee (.onMessage p.topic p.payload)

/-- `_handle_inbound_publish`. -/
def handleInboundPublish (p : ParsedPublish) : M Unit :=
  if p.qos = 1 then collecting (p.packetId.getD 0) (deliver env callee p)
  else deliver env callee p

/-- The event of an oversized message, under the drop policies. -/
def dropOversized (p : OversizedMessage) : M Unit := do
  record (.message p.topic)
  let w ← get
  when (w.config.whenOversized = .dropWithEvent) <|
    fire env callee (.onOversized p.reportedLength p.topic)

/-- `_handle_oversized`. -/
def handleOversized (p : OversizedMessage) : M Unit := do
  let w ← get
  if w.config.whenOversized = .disconnect then
    throw (.protocolError (s!"oversized message on topic {repr p.topic} " ++
      s!"({p.reportedLength} bytes)"))
  else
    match p.packetId with
    | some packetId =>
      if p.qos = 1 then collecting packetId (dropOversized env callee p)
      else dropOversized env callee p
    | none => dropOversized env callee p

/-- The dispatch of one packet. -/
def dispatch (packet : Inbound) (nowMs : ℤ) : M Unit :=
  match packet with
  | .publish p => handleInboundPublish env callee p
  | .oversized p => handleOversized env callee p
  | .ack p => handleAck env callee p nowMs

/-- Flush the collected PUBACKs as one entry at the front of the queue. -/
def flushPubacks : M Unit := do
  let w ← get
  if w.pendingPubacks = [] then pure ()
  else do
    record .flushed
    let queued ← enqueueInternalTx ⟨.puback, w.pendingPubacks.flatten⟩ true
    if queued then
      modify fun w => { w with pubackBatchQueued := true, pendingPubacks := [] }
    else
      throw (.mqttError (s!"PUBACK backlog overflowed the tx queue hard cap " ++
        s!"({w.config.txQueueHardCap}): protocol headroom exhausted; reconnecting rather than " ++
        "dropping protocol packets"))

/-- One round of the dispatch loop of `_read_inbound`. -/
def readRound (nowMs : ℤ) : M (Option Unit) := do
  let w ← get
  let (packet, decoder) ← lift w.decoder.readNext
  modify fun w => { w with decoder }
  match packet with
  | none => do
    flushPubacks
    pure (some ())
  | some packet => do
    dispatch env callee packet nowMs
    let w ← get
    if w.state ≠ .connected then pure (some ()) else pure none

/-- The part of `_read_inbound` after the recv. An exception that leaves it is logged. -/
def dispatchAll (nowMs : ℤ) : M Unit :=
  withFrame .reading <| tryCatch
    (do
      modify fun w => { w with pendingPubacks := [] }
      loop .unfinished (readRound env callee nowMs) env.rounds)
    fun e => do
      record (.raised e)
      throw e

/-- The recv of `_read_inbound`. -/
def receive : M Unit := do
  let w ← get
  let capacity := min w.decoder.fillCapacity w.config.recvBudgetPerTick
  if capacity = 0 then pure ()
  else
    match w.socket with
    | none => throw (.py .attributeError)
    | some t => do
      record (.received t)
      modify fun w => { w with used := { w.used with recvs := w.used.recvs + 1 } }
      match env.recv w.used.recvs with
      | .error errno => if errno = EAGAIN then pure () else throw (.py (.osError errno))
      | .ok [] => throw (.protocolError "broker closed connection")
      | .ok data => modify fun w => { w with decoder := w.decoder.fill (data.take capacity) }

/-- `_read_inbound`. -/
def readInbound (nowMs : ℤ) : M Unit := do
  let w ← get
  if w.recvSuppressed then pure ()
  else do
    receive env
    dispatchAll env callee nowMs

/-! ## Deadlines -/

/-- The DUP flag, bit 3 of the first byte. -/
def setDup : List UInt8 → List UInt8
  | [] => []
  | first :: rest => (first ||| 0x08) :: rest

/-- A change of one in-flight entry. -/
def updateInFlight (packetId : ℕ) (f : InFlightPublish → InFlightPublish) : M Unit :=
  modify fun w => { w with
    inFlight := w.inFlight.map fun entry => if entry.packetId = packetId then f entry else entry }

/-- The packet of an entry with the DUP flag, which is made at the first retransmission. -/
def InFlightPublish.dup (entry : InFlightPublish) : List UInt8 :=
  entry.dupPacketBytes.getD (setDup entry.packetBytes)

/-- What `_check_deadlines` does for an entry that is sent again. -/
def retransmit (nowMs : ℤ) (entry : InFlightPublish) : M Unit := do
  updateInFlight entry.packetId fun e => { e with dupPacketBytes := some entry.dup }
  let queued ← enqueueInternalTx ⟨.publish, entry.dup⟩ false
  when (queued = true) do
    updateInFlight entry.packetId fun e => { e with retryCount := e.retryCount + 1 }
    let w ← get
    let deadlineTicks ← deadline env w.config.ackTimeoutMs (some nowMs)
    updateInFlight entry.packetId fun e => { e with deadlineTicks := deadlineTicks }

/-- The loop of `_check_deadlines` over the in-flight table. It returns whether a retry limit was
exceeded. -/
def checkInFlight (nowMs : ℤ) : List InFlightPublish → M Bool
  | [] => pure false
  | entry :: rest => do
    let w ← get
    if ticksDiff entry.deadlineTicks nowMs > 0 then checkInFlight nowMs rest
    else if entry.retryCount ≥ w.config.publishRetryMax then do
      modify fun w => { w with
        inFlight := w.inFlight.filter fun e => e.packetId ≠ entry.packetId
        lastError := some (.mqttError (s!"PUBLISH packet_id {entry.packetId} exceeded " ++
          s!"retry limit {w.config.publishRetryMax}")) }
      enterFailed env callee
      pure true
    else do
      retransmit env nowMs entry
      checkInFlight nowMs rest

/-- The rest of `_check_deadlines`: the pending responses and the send deadline. -/
def checkResponses (nowMs : ℤ) : M Unit := do
  let w ← get
  match w.pendingResponses.find? fun pending => ticksDiff pending.deadlineTicks nowMs ≤ 0 with
  | some pending => do
    modify fun w => { w with
      pendingResponses := w.pendingResponses.erase pending
      lastError := some (.mqttError s!"timed out awaiting {pending.awaiting.text}") }
    enterFailed env callee
  | none =>
    when (w.timers.sendDeadlineTicks.any fun t => ticksDiff t nowMs ≤ 0) do
      modify fun w => { w with lastError := some (.mqttError
        s!"send timeout: tx queue made no progress for {w.config.sendTimeoutMs} ms") }
      enterFailed env callee

/-- `_check_deadlines`. -/
def checkDeadlines (nowMs : ℤ) : M Unit := do
  record (.checkedDeadlines nowMs)
  let w ← get
  let exceeded ← checkInFlight env callee nowMs w.inFlight
  if exceeded then pure () else checkResponses env callee nowMs

/-- `_check_keepalive`. -/
def checkKeepalive (nowMs : ℤ) : M Unit := do
  let w ← get
  if w.config.keepAliveSeconds = 0 ∨ w.state ≠ .connected ∨
      ticksDiff w.timers.nextPingDueTicks nowMs > 0 ∨
      (w.pendingResponses.any fun pending => pending.awaiting = .pingresp) then pure ()
  else do
    let queued ← enqueueInternalTx ⟨.pingreq, PACKET_PINGREQ⟩ false
    when (queued = true) (awaitAck env .pingresp none none none (some nowMs))
    let nextPing ← deadline env w.config.pingIntervalMs (some nowMs)
    modify fun w => { w with timers := { w.timers with nextPingDueTicks := nextPing } }

/-! ## One tick -/

/-- `_self_heal_active`. -/
def Client.selfHealActive (c : Client) : Bool :=
  c.config.hasFactory && c.heal.userWantsConnected && !c.heal.permanentFailure &&
    !c.heal.reconnectHeld

/-- `_arm_self_heal_backoff`. -/
def armSelfHealBackoff (nowMs : ℤ) : M Unit := do
  let w ← get
  let delayMs := if w.heal.attempts ≥ 6 then 60000 else min 60000 (1000 <<< w.heal.attempts)
  modify fun w => { w with heal := { w.heal with
    attempts := if w.heal.attempts ≥ 6 then w.heal.attempts else w.heal.attempts + 1 } }
  let retryAt ← deadline env delayMs (some nowMs)
  modify fun w => { w with heal := { w.heal with retryAtTicks := some retryAt } }

/-- `_attempt_self_heal`. -/
def attemptSelfHeal (nowMs : ℤ) : M Bool := do
  closeSocket
  resetTransientState
  modify fun w => { w with
    inFlight := if w.config.cleanSession then [] else w.inFlight
    nextPacketId := if w.config.cleanSession then 1 else w.nextPacketId }
  let started ← startTransport env (some nowMs)
  if started then do
    modify fun w => { w with lastError := none }
    pure true
  else pure false

/-- `_check_transport_deadline`. -/
def checkTransportDeadline (nowMs : ℤ) : M Bool := do
  let w ← get
  match w.timers.transportDeadlineTicks with
  | none => pure false
  | some t =>
    if ticksDiff t nowMs > 0 then pure false
    else do
      let phase := if w.connector then env.connectorPhase w.used.connectorTicks else "unknown"
      modify fun w => { w with
        connector := false
        timers := { w.timers with transportDeadlineTicks := none }
        lastError := some (.mqttError (s!"transport connect attempt timed out after " ++
          s!"{w.config.ackTimeoutMs} ms (connector phase: {phase})")) }
      enterFailed env callee
      pure true

/-- `_advance_connector`. -/
def advanceConnector (nowMs : ℤ) : M Bool := do
  let w ← get
  if w.connector = false then throw (.py .attributeError)
  else do
    modify fun w => { w with used := { w.used with connectorTicks := w.used.connectorTicks + 1 } }
    match env.connectorTick w.used.connectorTicks with
    | .raised e => throw e
    | .pending => pure false
    | .failed lastError => do
      modify fun w => { w with
        lastError := some (.mqttError s!"connector failed: {lastError}")
        connector := false
        timers := { w.timers with transportDeadlineTicks := none } }
      enterFailed env callee
      pure false
    | .ready => do
      modify fun w => { w with
        socket := some w.opened
        opened := w.opened + 1
        connector := false
        timers := { w.timers with transportDeadlineTicks := none } }
      enqueueConnectPacket env (some nowMs)
      modify fun w => { w with state := .connecting }
      pure true

/-- The `try` block of `handle`. -/
def tick (nowMs : ℤ) : M Unit := do
  checkDeadlines env callee nowMs
  checkKeepalive env nowMs
  readInbound env callee nowMs
  drainTxQueue env callee

/-- The `except` clauses of `handle`. -/
def onTickError (e : Exn) : M Unit :=
  if e.isMqttError then do
    modify fun w => { w with lastError := some e }
    enterFailed env callee
  else
    match e with
    | .py (.osError errno) => do
      modify fun w => { w with
        lastError := some (.mqttError s!"socket error: {env.osErrorText errno}") }
      enterFailed env callee
    | e => throw e

/-- `handle`, once there is a transport. -/
def handleSession (nowMs : ℤ) : M Unit := do
  let w ← get
  if w.state = .disconnected then pure ()
  else tryCatch (withFrame .trying (tick env callee nowMs)) (onTickError env callee)

/-- `handle`, in the state AWAITING_TRANSPORT first. -/
def handleTransport (nowMs : ℤ) : M Unit := do
  let w ← get
  if w.state = .awaitingTransport then do
    let late ← checkTransportDeadline env callee nowMs
    if late then pure ()
    else do
      let ready ← advanceConnector env callee nowMs
      if ready then handleSession env callee nowMs else pure ()
  else handleSession env callee nowMs

/-- `handle`, in the state FAILED first. -/
def handleBody (nowMs : ℤ) : M Unit := do
  let w ← get
  if w.state = .failed then
    if w.selfHealActive = false ∨ w.heal.retryAtTicks.any fun t => ticksDiff t nowMs > 0 then pure ()
    else do
      armSelfHealBackoff env nowMs
      let healed ← attemptSelfHeal env nowMs
      if healed then handleTransport env callee nowMs else pure ()
  else handleTransport env callee nowMs

/-- `handle`. -/
def handle (nowMs : ℤ) : M Unit := do
  let w ← get
  withFrame (.handle w.stops) (handleBody env callee nowMs)

/-! ## Runs -/

/-- One call of the public interface. -/
def method (c : Call) : M Unit := do
  record (.called c)
  match c with
  | .connect => connect env callee
  | .hold => hold
  | .disconnect => disconnect env callee
  | .setWill will => setWill will
  | .setOnPublish given => modify fun w => { w with onPublishSet := given }
  | .publish p => publish env p
  | .subscribe topic qos own => subscribe env topic qos own
  | .unsubscribe topic own => unsubscribe env topic own
  | .nextMessage => nextMessage
  | .handle nowMs => handle env callee nowMs
  | .ioError eventmask => ioError env callee eventmask

end Client

/-- A call with all the calls that its callbacks make. Calls nested deeper than `depth` are left
out: a run of the code in which the nesting ends is the run for every depth that is large enough. -/
def perform (env : Env) : ℕ → Call → M Unit
  | 0, _ => pure ()
  | depth + 1, c => method env (perform env depth) c

/-- A run: the calls of an application one after the other, whatever they raise. -/
def runCalls (env : Env) (depth : ℕ) (w : World) (calls : List Call) : World :=
  calls.foldl (fun w c => (perform env depth c w).2) w

end ChuMicro.Mqtt
