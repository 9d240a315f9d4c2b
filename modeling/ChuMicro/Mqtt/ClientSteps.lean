import ChuMicro.Mqtt.Client
import Mathlib.Logic.Relation

/-!
# The steps of the MQTT client

What the client can do between two points at which the application or the outside has a say, as a
relation between worlds. A run of the client is a sequence of such steps (`Mqtt.perform_reaches`
in `Mqtt.ClientRuns`), so that a property of all runs is proved by looking at the steps, and
not again at the functions.

Every step says when it can be taken. Where the client decides this by looking at its fields, the
gate is that test; where it follows from the place in the code, the gate is told with the frames
that are running or with the log.

## Main definitions

* `Mqtt.Step` — one step.
* `Mqtt.Reaches` — any number of steps.
* `Mqtt.Calm` — no `handle` was called from the callback of a QoS 0 marker.
* `Mqtt.Coherent` — what holds of every world that is reached.

## Main results

* `Mqtt.Step.coherent` — the steps keep worlds coherent.
-/

namespace ChuMicro.Mqtt

/-! ## Gates -/

/-- The states in which the client has a transport and talks on it. -/
def Client.Alive (c : Client) : Prop := c.state = .connecting ∨ c.state = .connected

instance (c : Client) : Decidable c.Alive := inferInstanceAs (Decidable (_ ∨ _))

/-- The frames inside the `try` block of `handle`. -/
def InTick (frames : List Frame) : Prop := ∃ n rest, frames = .trying :: .handle n :: rest

/-- The frames inside the dispatch loop. -/
def InLoop (frames : List Frame) : Prop := ∃ rest, frames = .reading :: rest ∧ InTick rest

/-- A deadline that ends the connection is due. -/
def Client.FatalDue (c : Client) (nowMs : ℤ) : Prop :=
  (∃ entry ∈ c.inFlight, ticksDiff entry.deadlineTicks nowMs ≤ 0 ∧
    entry.retryCount ≥ c.config.publishRetryMax) ∨
  (∃ pending ∈ c.pendingResponses, ticksDiff pending.deadlineTicks nowMs ≤ 0) ∨
  (∃ t, c.timers.sendDeadlineTicks = some t ∧ ticksDiff t nowMs ≤ 0)

/-- A fatal deadline was due when `handle` looked at the deadlines. -/
def Fatal (log : List Entry) : Prop :=
  ∃ e ∈ log, ∃ nowMs, e.event = .checkedDeadlines nowMs ∧ e.before.FatalDue nowMs

/-- No `handle` was called from the callback of a marker. -/
def Calm (log : List Entry) : Prop :=
  ∀ e ∈ log, ∀ nowMs, e.event = .called (.handle nowMs) → .markers ∉ e.before.frames

/-- No packet is partly sent, or the run is not calm. -/
def World.Free (w : World) : Prop := Calm w.log → w.partialSend = none

/-! ## Packets -/

/-- The first byte of a packet tells a CONNECT and a PUBACK from all others. -/
structure Packet.WF (p : Packet) : Prop where
  connect : p.bytes.head? = some PACKET_CONNECT ↔ p.kind = .connect
  puback : p.bytes.head? = some PACKET_PUBACK ↔ p.kind = .puback

/-- The packets of an entry of the tx queue. -/
def TxItem.packet? : TxItem → Option Packet
  | .packet p => some p
  | .marker _ _ _ => none

/-- The packets in the tx queue. -/
def packetsOf (items : List TxItem) : List Packet := items.filterMap TxItem.packet?

/-- Entries with publishes and pings only. -/
def PlainItems (items : List TxItem) : Prop :=
  ∀ p ∈ packetsOf items, p.WF ∧ (p.kind = .publish ∨ p.kind = .pingreq)

/-- The packet is the PUBLISH of `p`, at QoS 1 with some packet identifier. -/
def Packet.IsPublishOf (packet : Packet) (p : QueuedPublish) : Prop :=
  packet.kind = .publish ∧ ∃ packetId,
    encodePublish p.topic p.payload (if p.qos = 0 then 0 else 1) p.retain packetId = .ok packet.bytes

/-- The packets of these entries are the PUBLISH packets of `done`, one for each and in order. -/
def Carries (items : List TxItem) (done : List QueuedPublish) : Prop :=
  List.Forall₂ Packet.IsPublishOf (packetsOf items) done

/-- The packets kept for retransmission are publishes. -/
structure InFlightPublish.WF (e : InFlightPublish) : Prop where
  packet : PublishBytes e.packetBytes
  dup : ∀ bytes, e.dupPacketBytes = some bytes → PublishBytes bytes

/-- The table of publishes in flight is well formed, and the counter of packet identifiers is one.
-/
structure Ids (inFlight : List InFlightPublish) (nextPacketId : ℕ) : Prop where
  wf : ∀ e ∈ inFlight, e.WF
  range : ∀ e ∈ inFlight, 1 ≤ e.packetId ∧ e.packetId ≤ 65535
  nodup : (inFlight.map InFlightPublish.packetId).Nodup
  pos : 1 ≤ nextPacketId
  le : nextPacketId ≤ 65535

/-! ## Accepting a CONNACK -/

/-- The CONNACK accepts the connection. -/
def ParsedAck.accepts (p : ParsedAck) : Bool :=
  p.packetType = PACKET_CONNACK && p.returnCode.getD 0 = 0

/-- The CONNACK refuses the connection. -/
def ParsedAck.refuses (p : ParsedAck) : Bool :=
  p.packetType = PACKET_CONNACK && p.returnCode.getD 0 ≠ 0

/-- The response for which an acknowledgement is. -/
def ParsedAck.awaited (p : ParsedAck) : Option Awaiting :=
  if p.packetType = PACKET_CONNACK then some .connack
  else if p.packetType = PACKET_PINGRESP then some .pingresp
  else if p.packetType = PACKET_SUBACK then some .suback
  else if p.packetType = PACKET_UNSUBACK then some .unsuback
  else none

/-- The desired set: the topics with their QoS. -/
def Client.desired (c : Client) : List (String × ℕ) := c.subscriptions.map fun s => (s.1, s.2.qos)

/-- The subscriptions are replayed at this CONNACK. -/
def Client.replays (c : Client) (p : ParsedAck) : Bool :=
  c.config.cleanSession || !p.sessionPresent.getD false

/-- Every filter of the desired set can be encoded, and there are packet identifiers for the
SUBSCRIBE packets. -/
structure Client.ReplayOk (c : Client) : Prop where
  encodes : ∀ s ∈ c.desired, s.2 ≤ 1 ∧ (encodeUtf8 s.1).length ≤ 65535
  free : c.subscriptions ≠ [] → c.inFlight.length < 65535

/-- The entries that a publish takes in the tx queue. -/
def Client.slots (c : Client) (p : QueuedPublish) : ℕ :=
  if p.qos = 0 ∧ (p.onPublish = true ∨ c.onPublishSet = true) then 2 else 1

/-- **The pre-connect queue can be drained** at this CONNACK, after the replay: the publishes can be
encoded, there is room for all of them below the limit of the user, and there are packet identifiers
for those at QoS 1. -/
structure Client.DrainFits (c : Client) (p : ParsedAck) : Prop where
  encodes : ∀ q ∈ c.preConnectQueue, ∃ bytes,
    encodePublish q.topic q.payload q.qos q.retain (some 1) = .ok bytes
  room : c.preConnectQueue ≠ [] →
    c.txQueue.length + (if c.replays p then c.subscriptions.length else 0) +
      (c.preConnectQueue.map c.slots).sum ≤ c.config.maxTxQueueSize
  free : c.inFlight.length + c.preConnectQueue.countP (fun q => q.qos ≠ 0) ≤ 65535

/-- Nothing of the pre-connect queue is lost at this CONNACK: it can be drained, unless the replay
that comes first raises. -/
def Client.Keeps (c : Client) (p : ParsedAck) : Prop :=
  (c.replays p = true → c.ReplayOk) → c.DrainFits p

/-- The operations on the filters of the broker: a SUBSCRIBE with its topic and QoS, an UNSUBSCRIBE
with its topic. -/
def Kind.operation : Kind → Option (String × Option ℕ)
  | .subscribe topic qos => some (topic, some qos)
  | .unsubscribe topic => some (topic, none)
  | _ => none

/-- The operations of packets, in order. -/
def operations (packets : List Packet) : List (String × Option ℕ) :=
  packets.filterMap fun p => p.kind.operation

/-- What the client adds when it accepts the CONNACK `p`: to the tx queue, to the pending responses,
and, of the pre-connect queue, what it enqueues (`done`), whose packets come last in the tx queue,
loses (`lost`) and keeps (`rest`). -/
structure Accepts (w : World) (p : ParsedAck) (items : List TxItem) (pendings : List PendingResponse)
    (done lost rest : List QueuedPublish) : Prop where
  wf : ∀ packet ∈ packetsOf items, packet.WF ∧
    packet.kind ≠ .connect ∧ packet.kind ≠ .puback ∧ ∀ t, packet.kind ≠ .unsubscribe t
  silent : ∀ pending ∈ pendings, pending.awaiting = .suback ∧ pending.callback = none
  queue : w.preConnectQueue = done ++ lost ++ rest
  keeps : w.Keeps p → lost = []
  carried : ∃ replayed drained, items = replayed ++ drained ∧ Carries drained done
  resumed : w.replays p = false → operations (packetsOf items) = [] ∧ pendings = []
  replayed : w.replays p = true → w.ReplayOk →
    ∃ k, operations (packetsOf items) = (w.desired.take k).map (fun s => (s.1, some s.2)) ∧
      pendings.length = w.desired.length

/-! ## Steps -/

/-- The places where the client becomes FAILED: a `connect` whose factory fails, `handle` outside
its `try` block, a deadline, a CONNACK that refuses, and `io_error`. -/
def World.MayFail (w : World) : Prop :=
  (w.state = .disconnected ∧ w.socket = none) ∨
  (∃ n rest, w.frames = .handle n :: rest) ∨
  Fatal w.log ∨
  (InLoop w.frames ∧ ∃ e ∈ w.log, ∃ p, e.event = .acked p ∧ p.refuses = true ∧
    e.before.txQueue = w.txQueue ∧ e.before.partialSend = w.partialSend ∧
    e.before.frames = w.frames) ∨
  (∃ e ∈ w.log, ∃ mask, e.event = .called (.ioError mask) ∧ e.before.frames = w.frames)

/-- The world that `disconnect` leaves behind. -/
def World.halted (w : World) (decoder : PacketDecoder) (timers : Timers) (heal : SelfHeal) : World :=
  { w.onSocket fun tr => { tr with closed := true } with
    socket := none, txQueue := [], partialSend := none, pubackBatchQueued := false, timers
    pendingResponses := [], decoder, preConnectQueue := [], state := .disconnected, heal
    stops := w.stops + 1, accepted := [], enqueued := [] }

/-- **One step** of the client. -/
inductive Step : World → World → Prop
  /-- Fields that no other step looks at. -/
  | quiet {w : World} (connector : Bool) (timers : Timers) (heal : SelfHeal) (will : Will)
      (decoder : PacketDecoder) (inFlight : List InFlightPublish) (nextPacketId : ℕ)
      (onPublishSet : Bool) (inboundQueue : Option (List InboundPublish)) (lastError : Option Exn)
      (used : Used) (ids : Ids inFlight nextPacketId)
      (attempt : connector = w.connector ∧
          timers.transportDeadlineTicks = w.timers.transportDeadlineTicks ∨
        connector = false ∧ (w.state ≠ .awaitingTransport ∨ timers.transportDeadlineTicks = none)) :
      Step w { w with
        connector, timers, heal, will, decoder, inFlight, nextPacketId, onPublishSet, inboundQueue
        lastError, used }
  /-- A call of the application, from outside or from a callback. -/
  | call {w : World} (c : Call) : Step w (w.record (.called c))
  /-- `handle` begins. -/
  | enterHandle {w : World} {nowMs : ℤ}
      (called : ∃ e ∈ w.log, e.event = .called (.handle nowMs) ∧ e.before.frames = w.frames) :
      Step w { w with frames := .handle w.stops :: w.frames }
  /-- The `try` block of `handle` begins. -/
  | enterTry {w : World} {n : ℕ} {rest : List Frame} (frames : w.frames = .handle n :: rest)
      (alive : w.Alive) : Step w { w with frames := .trying :: w.frames }
  /-- `_drain_callback_markers` begins. -/
  | enterMarkers {w : World} (tick : InTick w.frames) (free : w.Free) :
      Step w { w with frames := .markers :: w.frames }
  /-- The dispatch loop begins; it clears what is left of PUBACKs. -/
  | enterReading {w : World} (tick : InTick w.frames) (alive : Fatal w.log ∨ w.Alive)
      (open_ : w.recvSuppressed = false) :
      Step w { w with frames := .reading :: w.frames, pendingPubacks := [] }
  /-- A callback begins, other than `on_connect`. -/
  | enterCallback {w : World} {cb : Callback} (other : cb ≠ .onConnect) :
      Step w { w.record (.fired cb) with frames := .callback cb :: w.frames }
  /-- `on_connect` begins. -/
  | enterOnConnect {w : World} (armed : w.armed = true) :
      Step w { w.record (.fired .onConnect) with
        armed := false, frames := .callback .onConnect :: w.frames }
  /-- Any of these ends. -/
  | exit {w : World} {f : Frame} {rest : List Frame} (frames : w.frames = f :: rest)
      (other : ∀ n, f ≠ .owing n) : Step w { w with frames := rest }
  /-- The client becomes FAILED. -/
  | fail {w : World} (why : w.MayFail) : Step w { w with state := .failed, stops := w.stops + 1 }
  /-- `disconnect`, when the transport has taken nothing of the DISCONNECT packet. -/
  | halt {w : World} (decoder : PacketDecoder) (timers : Timers) (heal : SelfHeal) :
      Step w (w.halted decoder timers heal)
  /-- `disconnect`, when the transport has taken `n` bytes of the DISCONNECT packet. -/
  | goodbye {w : World} {t : ℕ} (n : ℕ) (decoder : PacketDecoder) (timers : Timers) (heal : SelfHeal)
      (pos : 0 < n) (alive : w.Alive) (socket : w.socket = some t)
      (called : ∃ e ∈ w.log, e.event = .called .disconnect ∧ e.before.toClient = w.toClient) :
      Step w (((w.record (.sent t PACKET_DISCONNECT)).onSocket fun tr => { tr with
        written := tr.written ++ PACKET_DISCONNECT.take n
        taken := tr.taken ++ [⟨.disconnect, PACKET_DISCONNECT⟩] }).halted decoder timers heal)
  /-- The first half of `_attempt_self_heal`. -/
  | heal {w : World} (failed : w.state = .failed) (decoder : PacketDecoder) (timers : Timers)
      (inFlight : List InFlightPublish) (nextPacketId : ℕ) (ids : Ids inFlight nextPacketId) :
      Step w { w.onSocket fun tr => { tr with closed := true } with
        socket := none, txQueue := [], partialSend := none, pubackBatchQueued := false, timers
        pendingResponses := [], decoder, inFlight, nextPacketId }
  /-- There is a connector, but no deadline for it. -/
  | dial {w : World} (closed : w.socket = none) : Step w { w with connector := true }
  /-- A connector is started. -/
  | await {w : World} (closed : w.socket = none) (timers : Timers)
      (idle : w.state = .disconnected ∨ w.state = .failed ∧ w.txQueue = [] ∧
        w.partialSend = none ∧ w.pendingResponses = [] ∧ w.pubackBatchQueued = false) :
      Step w { w with state := .awaitingTransport, connector := true, timers }
  /-- The connector has a socket. -/
  | open {w : World} (awaiting : w.state = .awaitingTransport) (dialing : w.connector = true)
      (timers : Timers) (ended : timers.transportDeadlineTicks = none) :
      Step w { w with socket := some w.opened, opened := w.opened + 1, connector := false, timers }
  /-- The CONNECT packet is queued, and the client becomes CONNECTING. -/
  | connecting {w : World} {t : ℕ} {bytes : List UInt8} (pending : PendingResponse)
      (idle : w.state = .disconnected ∨ w.state = .awaitingTransport) (socket : w.socket = some t)
      (packet : encodeConnect w.connectArgs = .ok bytes) (ackTimeout : TicksOk w.config.ackTimeoutMs)
      (connack : pending.awaiting = .connack ∧ pending.callback = none) :
      Step w { w with
        txQueue := w.txQueue ++ [TxItem.packet ⟨.connect, bytes⟩]
        pendingResponses := w.pendingResponses ++ [pending], state := .connecting }
  /-- The CONNECT packet is queued, but there is no deadline for its CONNACK. -/
  | strandConnect {w : World} {t : ℕ} {bytes : List UInt8}
      (idle : w.state = .disconnected ∨ w.state = .awaitingTransport) (socket : w.socket = some t)
      (packet : encodeConnect w.connectArgs = .ok bytes)
      (ackTimeout : ¬ TicksOk w.config.ackTimeoutMs) :
      Step w { w with txQueue := w.txQueue ++ [TxItem.packet ⟨.connect, bytes⟩] }
  /-- A send that the transport does not take. -/
  | blocked {w : World} {t : ℕ} (offered : List UInt8) (socket : w.socket = some t)
      (due : w.Alive ∨ InTick w.frames ∧ (w.partialSend ≠ none ∨ w.txQueue ≠ [])) :
      Step w (w.record (.sent t offered))
  /-- `n` more bytes of the packet that is partly sent. -/
  | resume {w : World} {t : ℕ} {packet : Packet} {offset : ℕ} (n : ℕ) (tick : InTick w.frames)
      (socket : w.socket = some t) (partly : w.partialSend = some (packet, offset))
      (le : n ≤ (packet.bytes.drop offset).length) :
      Step w { (w.record (.sent t (packet.bytes.drop offset))).onSocket fun tr => { tr with
          written := tr.written ++ (packet.bytes.drop offset).take n } with
        partialSend :=
          if offset + n ≥ packet.bytes.length then none else some (packet, offset + n) }
  /-- A part of the packet at the head of the queue. -/
  | sendPart {w : World} {t : ℕ} {packet : Packet} {rest : List TxItem} (n : ℕ)
      (tick : InTick w.frames) (free : w.Free) (socket : w.socket = some t)
      (head : w.txQueue = .packet packet :: rest) (pos : 0 < n) (lt : n < packet.bytes.length) :
      Step w { (w.record (.sent t packet.bytes)).onSocket fun tr => { tr with
          written := tr.written ++ packet.bytes.take n
          taken := tr.taken ++ [packet] } with
        partialSend := some (packet, n), txQueue := rest
        pubackBatchQueued := if packet.isPubackBatch then false else w.pubackBatchQueued }
  /-- All of the packet at the head of the queue. -/
  | sendAll {w : World} {t : ℕ} {packet : Packet} {rest : List TxItem} (batchQueued : Bool)
      (tick : InTick w.frames) (free : w.Free) (socket : w.socket = some t)
      (head : w.txQueue = .packet packet :: rest) (pos : 0 < packet.bytes.length)
      (batch : batchQueued = w.pubackBatchQueued ∨ packet.isPubackBatch = true) :
      Step w { (w.record (.sent t packet.bytes)).onSocket fun tr => { tr with
          written := tr.written ++ packet.bytes
          taken := tr.taken ++ [packet] } with
        txQueue := rest, pubackBatchQueued := batchQueued }
  /-- A marker at the head of the queue. -/
  | popMarker {w : World} {own : Bool} {topic : String} {payload : List UInt8} {rest : List TxItem}
      (head : w.txQueue = .marker own topic payload :: rest) : Step w { w with txQueue := rest }
  /-- A recv. -/
  | received {w : World} {t : ℕ} (tick : InTick w.frames) (alive : Fatal w.log ∨ w.Alive)
      (open_ : w.recvSuppressed = false) (socket : w.socket = some t) :
      Step w (w.record (.received t))
  /-- `_check_deadlines` begins. -/
  | checkDeadlines {w : World} (nowMs : ℤ) (tick : InTick w.frames) (alive : w.Alive) :
      Step w (w.record (.checkedDeadlines nowMs))
  /-- A pending response has timed out. -/
  | expire {w : World} (pending : PendingResponse) (fatal : Fatal w.log) :
      Step w { w with pendingResponses := w.pendingResponses.erase pending }
  /-- A message is delivered or dropped. -/
  | message {w : World} (topic : Option String)
      (loop : InLoop w.frames ∨ ∃ n, InLoop w.frames.tail ∧ w.frames.head? = some (.owing n))
      (alive : Fatal w.log ∨ w.Alive) : Step w (w.record (.message topic))
  /-- A QoS 1 message comes in. -/
  | owe {w : World} (packetId : ℕ) (loop : InLoop w.frames) (alive : Fatal w.log ∨ w.Alive) :
      Step w { w.onSocket fun tr => { tr with
          owed := if w.state = .connected then tr.owed ++ [packetId] else tr.owed } with
        frames := .owing packetId :: w.frames }
  /-- The delivery of a QoS 1 message has returned. -/
  | collect {w : World} {packetId : ℕ} {rest : List Frame} {puback : List UInt8}
      (frames : w.frames = .owing packetId :: rest) (packet : encodePuback packetId = .ok puback) :
      Step w { w with frames := rest, pendingPubacks := w.pendingPubacks ++ [puback] }
  /-- The delivery of a QoS 1 message has raised. -/
  | forfeit {w : World} {packetId : ℕ} {rest : List Frame} (e : Exn)
      (frames : w.frames = .owing packetId :: rest) :
      Step w { w.record (.unacked packetId e) with frames := rest }
  /-- The collected PUBACKs go to the front of the queue. -/
  | flush {w : World} (loop : InLoop w.frames) (connected : w.state = .connected)
      (some_ : w.pendingPubacks ≠ []) :
      Step w { w.record .flushed with
        txQueue := .packet ⟨.puback, w.pendingPubacks.flatten⟩ :: w.txQueue
        pubackBatchQueued := true, pendingPubacks := [] }
  /-- There is no room for the collected PUBACKs. -/
  | flushRefused {w : World} (loop : InLoop w.frames) : Step w (w.record .flushed)
  /-- An exception leaves the dispatch loop. -/
  | raised {w : World} (e : Exn) (loop : InLoop w.frames) : Step w (w.record (.raised e))
  /-- An acknowledgement comes in, and the response it is for is no longer pending. -/
  | acked {w : World} (p : ParsedAck) (pendings : List PendingResponse) (loop : InLoop w.frames)
      (alive : Fatal w.log ∨ w.Alive)
      (settled : pendings = w.pendingResponses ∨ ∃ a packetId, p.awaited = some a ∧
        pendings = w.pendingResponses.eraseP (PendingResponse.isFor a packetId)) :
      Step w { (w.record (.acked p)).onSocket fun tr => { tr with acks := tr.acks ++ [p] } with
        pendingResponses := pendings }
  /-- The client accepts the CONNACK it has just read, replays the subscriptions and drains the
  pre-connect queue. -/
  | accept {w : World} {p : ParsedAck} {items : List TxItem} {pendings : List PendingResponse}
      {done lost rest : List QueuedPublish} (loop : InLoop w.frames)
      (connack : ∃ e ∈ w.log, e.event = .acked p ∧ p.accepts = true ∧
        { e.before.toClient with pendingResponses := w.pendingResponses } = w.toClient ∧
        ∀ t, (e.before.transports t).taken = (w.transports t).taken)
      (last : ∃ log e, w.log = log ++ [e] ∧ e.event = .acked p)
      (accepts : Accepts w p items pendings done lost rest)
      (timers : Timers) (heal : SelfHeal) (inFlight : List InFlightPublish) (nextPacketId : ℕ)
      (ids : Ids inFlight nextPacketId) :
      Step w { w.record .connected with
        state := .connected, armed := true, txQueue := w.txQueue ++ items
        pendingResponses := w.pendingResponses ++ pendings, preConnectQueue := rest
        enqueued := w.enqueued ++ done, timers, heal, inFlight, nextPacketId }
  /-- Publishes and pings are queued. -/
  | enqueue {w : World} {items : List TxItem} (alive : w.Alive) (plain : PlainItems items) :
      Step w { w with txQueue := w.txQueue ++ items }
  /-- A PINGRESP is awaited. -/
  | expectPing {w : World} (pending : PendingResponse)
      (ping : pending.awaiting = .pingresp ∧ pending.callback = none) :
      Step w { w with pendingResponses := w.pendingResponses ++ [pending] }
  /-- `subscribe` of a client that is CONNECTED. -/
  | subscribe {w : World} {topic : String} {qos : ℕ} {bytes : List UInt8} (pending : PendingResponse)
      (callback : Option Bool) (connected : w.state = .connected)
      (packet : (⟨.subscribe topic qos, bytes⟩ : Packet).WF)
      (suback : pending.awaiting = .suback ∧ pending.callback = none) :
      Step w { w with
        txQueue := w.txQueue ++ [TxItem.packet ⟨.subscribe topic qos, bytes⟩]
        pendingResponses := w.pendingResponses ++ [pending]
        subscriptions := setSubscription w.subscriptions topic ⟨qos, callback⟩ }
  /-- `unsubscribe` of a client that is CONNECTED. -/
  | unsubscribe {w : World} {topic : String} {bytes : List UInt8} (pending : PendingResponse)
      (connected : w.state = .connected) (packet : (⟨.unsubscribe topic, bytes⟩ : Packet).WF)
      (unsuback : pending.awaiting = .unsuback) :
      Step w { w with
        txQueue := w.txQueue ++ [TxItem.packet ⟨.unsubscribe topic, bytes⟩]
        pendingResponses := w.pendingResponses ++ [pending]
        subscriptions := popSubscription w.subscriptions topic }
  /-- `subscribe` or `unsubscribe` of a client that is not CONNECTED. -/
  | offline {w : World} {topic : String} (entry : Option Subscription)
      (offline : w.state ≠ .connected)
      (called : ∃ e ∈ w.log, e.before.state = w.state ∧
        ((∃ qos own, e.event = .called (.subscribe topic qos own)) ∨
          ∃ own, e.event = .called (.unsubscribe topic own))) :
      Step w { w with subscriptions :=
        match entry with
        | some entry => setSubscription w.subscriptions topic entry
        | none => popSubscription w.subscriptions topic }
  /-- The one-shot callback of a subscription is used up. -/
  | oneShot {w : World} {subscriptions : List (String × Subscription)}
      (same : subscriptions.map (fun s => (s.1, s.2.qos)) = w.desired) :
      Step w { w with subscriptions }
  /-- A rejected filter is evicted. -/
  | evict {w : World} {topic : String}
      (rejected : ∃ e ∈ w.log, ∃ p, e.event = .acked p ∧ 0x80 ∈ p.grantedQos.getD []) :
      Step w { w with subscriptions := popSubscription w.subscriptions topic }
  /-- A publish goes to the pre-connect queue. -/
  | buffer {w : World} (p : QueuedPublish) (offline : w.state ≠ .connected) :
      Step w { w with
        preConnectQueue := w.preConnectQueue ++ [p], accepted := w.accepted ++ [p] }

/-- Any number of steps. -/
def Reaches : World → World → Prop := Relation.ReflTransGen Step

variable {w t w₀ : World}

lemma Reaches.refl : Reaches w w := Relation.ReflTransGen.refl

lemma Reaches.single (h : Step w t) : Reaches w t := Relation.ReflTransGen.single h

lemma Reaches.tail {u : World} (h : Reaches w t) (h' : Step t u) : Reaches w u :=
  Relation.ReflTransGen.tail h h'

lemma Reaches.trans {u : World} (h : Reaches w t) (h' : Reaches t u) : Reaches w u :=
  Relation.ReflTransGen.trans h h'

/-! ## Coherence -/

/-- A client that has queued a CONNECT has settings for which `ticks_add` works. -/
def World.Timed (w : World) : Prop :=
  w.Alive ∨ .trying ∈ w.frames → TicksOk w.config.ackTimeoutMs ∧ TicksOk w.config.pingIntervalMs

/-- What holds of every world that is reached: the packets are what they seem, and in a calm run
nothing is partly sent while the callbacks of markers run; there is no timer of a connection attempt
that has no connector. -/
structure Coherent (w : World) : Prop where
  pendings : ∀ p ∈ w.pendingResponses, p.awaiting ≠ .unsuback → p.callback = none
  ids : Ids w.inFlight w.nextPacketId
  queue : ∀ p ∈ packetsOf w.txQueue, p.WF
  partly : ∀ p n, w.partialSend = some (p, n) → p.WF ∧ 0 < n ∧ n < p.bytes.length
  pubacks : ∀ b ∈ w.pendingPubacks, ∃ packetId, encodePuback packetId = .ok b
  order : Calm w.log → ∀ before n after, w.frames = before ++ Frame.handle n :: after → .markers ∉ after
  free : Calm w.log → .markers ∈ w.frames → w.partialSend = none
  timed : w.Timed
  dialing : w.connector = true → w.socket = none
  attempt : w.state = .awaitingTransport → w.connector = false →
    w.timers.transportDeadlineTicks = none

lemma Calm.left {log log' : List Entry} (h : Calm (log ++ log')) : Calm log :=
  fun e he => h e (List.mem_append_left _ he)

lemma Fatal.append {log : List Entry} (h : Fatal log) (log' : List Entry) : Fatal (log ++ log') := by
  obtain ⟨e, he, hfatal⟩ := h
  exact ⟨e, List.mem_append_left _ he, hfatal⟩

@[simp] lemma packetsOf_append (a b : List TxItem) :
    packetsOf (a ++ b) = packetsOf a ++ packetsOf b := List.filterMap_append

@[simp] lemma packetsOf_packet (p : Packet) (items : List TxItem) :
    packetsOf (.packet p :: items) = p :: packetsOf items := rfl

@[simp] lemma packetsOf_nil : packetsOf [] = [] := rfl

section Coherent

variable {w : World}

/-- A tick of a calm run is not inside the callback of a marker. -/
lemma Coherent.not_markers (h : Coherent w) (hcalm : Calm w.log) (ht : InTick w.frames) :
    .markers ∉ w.frames := by
  obtain ⟨n, rest, hframes⟩ := ht
  have := h.order hcalm [.trying] n rest hframes
  rw [hframes]
  simp [this]

/-- Two packets whose first bytes differ from those of a CONNECT and a PUBACK. -/
lemma wf_of_other {p : Packet} {first : UInt8} {rest : List UInt8} (hbytes : p.bytes = first :: rest)
    (hc : first ≠ PACKET_CONNECT) (hp : first ≠ PACKET_PUBACK) (hkc : p.kind ≠ .connect)
    (hkp : p.kind ≠ .puback) : p.WF :=
  ⟨by simp [hbytes, hc, hkc], by simp [hbytes, hp, hkp]⟩

variable {bytes : List UInt8} {w' : World}

lemma wf_connect {args : ConnectArgs} (h : encodeConnect args = .ok bytes) :
    (⟨.connect, bytes⟩ : Packet).WF := by
  obtain ⟨rest, rfl⟩ := encodeConnect_eq_cons h
  exact ⟨by simp, by simp [PACKET_CONNECT, PACKET_PUBACK]⟩

lemma wf_publish (h : PublishBytes bytes) : (⟨.publish, bytes⟩ : Packet).WF := by
  obtain ⟨first, rest, rfl, hfirst⟩ := h
  refine wf_of_other rfl ?_ ?_ (by simp) (by simp)
  · rintro rfl
    revert hfirst
    decide
  · rintro rfl
    revert hfirst
    decide

lemma wf_subscribe {packetId qos : ℕ} {topic : String} {subscriptions : List (String × ℕ)}
    (h : encodeSubscribe packetId subscriptions = .ok bytes) :
    (⟨.subscribe topic qos, bytes⟩ : Packet).WF := by
  obtain ⟨rest, rfl⟩ := encodeSubscribe_eq_cons h
  exact wf_of_other rfl (by decide) (by decide) (by simp) (by simp)

lemma wf_unsubscribe {packetId : ℕ} {topic : String} {topics : List String}
    (h : encodeUnsubscribe packetId topics = .ok bytes) :
    (⟨.unsubscribe topic, bytes⟩ : Packet).WF := by
  obtain ⟨rest, rfl⟩ := encodeUnsubscribe_eq_cons h
  exact wf_of_other rfl (by decide) (by decide) (by simp) (by simp)

lemma wf_pingreq : (⟨.pingreq, PACKET_PINGREQ⟩ : Packet).WF :=
  wf_of_other rfl (by decide) (by decide) (by simp) (by simp)

lemma wf_puback {pubacks : List (List UInt8)} (hne : pubacks ≠ [])
    (h : ∀ b ∈ pubacks, ∃ packetId, encodePuback packetId = .ok b) :
    (⟨.puback, pubacks.flatten⟩ : Packet).WF := by
  obtain ⟨b, rest, rfl⟩ := List.exists_cons_of_ne_nil hne
  obtain ⟨packetId, hb⟩ := h b List.mem_cons_self
  obtain ⟨tail, rfl⟩ := encodePuback_eq_cons hb
  exact ⟨by simp [PACKET_CONNECT, PACKET_PUBACK], by simp⟩

/-- The frames above a suffix of the frames. -/
lemma Coherent.order_tail (h : Coherent w) {f : Frame} {rest : List Frame}
    (hframes : w.frames = f :: rest) (hcalm : Calm w.log) :
    ∀ before n after, rest = before ++ Frame.handle n :: after → .markers ∉ after := by
  intro before n after hrest
  exact h.order hcalm (f :: before) n after (by rw [hframes, hrest, List.cons_append])

/-- A new frame other than that of `handle`. -/
lemma Coherent.order_cons (h : Coherent w) {f : Frame} (hf : ∀ n, f ≠ .handle n)
    (hcalm : Calm w.log) :
    ∀ before n after, f :: w.frames = before ++ Frame.handle n :: after → .markers ∉ after := by
  intro before n after hframes
  cases before with
  | nil => exact absurd (List.cons.inj hframes).1 (hf n)
  | cons g before => exact h.order hcalm before n after (List.cons.inj hframes).2

/-- A keep-alive that fits a CONNECT packet gives a ping interval for `ticks_add`. -/
lemma ticksOk_pingInterval {c : Client} (h : encodeConnect c.connectArgs = .ok bytes) :
    TicksOk c.config.pingIntervalMs := by
  have hkeep : c.config.keepAliveSeconds < 256 ^ 2 := by
    unfold encodeConnect at h
    split at h
    · cases h
    · obtain ⟨keepAlive, hpack, -⟩ := bind_eq_ok.mp (liftPy_eq_ok.mp h)
      by_contra hlarge
      exact absurd (hpack.symm.trans (if_neg hlarge)) (by simp)
  have hle : c.config.pingIntervalMs ≤ 32767500 := by
    unfold ClientConfig.pingIntervalMs
    omega
  constructor
  · simp only [TICKS_HALFPERIOD]
    omega
  · simp only [TICKS_HALFPERIOD]
    omega

/-- A world in which the client is not more alive and not more inside a tick than before. -/
lemma World.Timed.of_le {w : World} (h : w.Timed) (hconfig : w'.config = w.config)
    (halive : w'.Alive → w.Alive ∨ .trying ∈ w.frames)
    (hframes : .trying ∈ w'.frames → w.Alive ∨ .trying ∈ w.frames) : w'.Timed := by
  unfold World.Timed
  rw [hconfig]
  exact fun hw' => h (hw'.elim halive hframes)

lemma InTick.trying_mem {frames : List Frame} (h : InTick frames) : .trying ∈ frames := by
  obtain ⟨n, rest, rfl⟩ := h
  exact List.mem_cons_self

lemma InLoop.trying_mem {frames : List Frame} (h : InLoop frames) : .trying ∈ frames := by
  obtain ⟨rest, rfl, htick⟩ := h
  exact List.mem_cons_of_mem _ htick.trying_mem

lemma Step.timed {w : World} (hs : Step w w') (h : w.Timed) : w'.Timed := by
  cases hs with
  | enterTry frames alive => exact fun _ => h (.inl alive)
  | connecting pending idle socket packet ackTimeout connack =>
    exact fun _ => ⟨ackTimeout, ticksOk_pingInterval packet⟩
  | accept loop connack last accepts timers heal inFlight nextPacketId ids =>
    exact fun _ => h (.inr loop.trying_mem)
  | exit frames other =>
    exact h.of_le rfl .inl fun hm => .inr (by rw [frames]; exact List.mem_cons_of_mem _ hm)
  | collect frames packet =>
    exact h.of_le rfl .inl fun hm => .inr (by rw [frames]; exact List.mem_cons_of_mem _ hm)
  | forfeit e frames =>
    exact h.of_le rfl .inl fun hm => .inr (by rw [frames]; exact List.mem_cons_of_mem _ hm)
  | fail why => exact h.of_le rfl (by simp [Client.Alive]) .inr
  | halt decoder timers heal => exact h.of_le rfl (by simp [World.halted, Client.Alive]) .inr
  | goodbye n decoder timers heal pos alive socket called =>
    exact h.of_le rfl (by simp [World.halted, Client.Alive]) .inr
  | await closed timers idle => exact h.of_le rfl (by simp [Client.Alive]) .inr
  | enterHandle called => exact h.of_le rfl .inl fun hm => .inr (by simpa using hm)
  | enterMarkers tick free => exact h.of_le rfl .inl fun hm => .inr (by simpa using hm)
  | enterReading tick alive open_ => exact h.of_le rfl .inl fun hm => .inr (by simpa using hm)
  | enterCallback other => exact h.of_le rfl .inl fun hm => .inr (by simpa using hm)
  | enterOnConnect armed => exact h.of_le rfl .inl fun hm => .inr (by simpa using hm)
  | owe packetId loop alive => exact h.of_le rfl .inl fun hm => .inr (by simpa using hm)
  | _ => exact h

/-- A record in the log. -/
lemma Coherent.record (h : Coherent w) (e : Event) : Coherent (w.record e) :=
  { h with timed := h.timed, order := fun hc => h.order hc.left, free := fun hc => h.free hc.left }

lemma Coherent.halted (h : Coherent w) {decoder : PacketDecoder} {timers : Timers} {heal : SelfHeal}
    (timed : (w.halted decoder timers heal).Timed) : Coherent (w.halted decoder timers heal) where
  pendings := by simp [World.halted]
  ids := h.ids
  queue := by simp [World.halted]
  partly := by simp [World.halted]
  pubacks := h.pubacks
  order := h.order
  free := fun _ _ => rfl
  timed
  dialing := fun _ => rfl
  attempt := fun hstate => nomatch hstate

/-- **The steps keep worlds coherent.** -/
theorem Step.coherent {w : World} (hs : Step w w') (h : Coherent w) : Coherent w' := by
  have timed := hs.timed h.timed
  cases hs with
  | quiet connector timers heal will decoder inFlight nextPacketId onPublishSet inboundQueue
      lastError used ids attempt =>
    refine { h with timed, ids, dialing := fun hc => ?_, attempt := fun hs hc => ?_ }
    · obtain ⟨hsame, -⟩ | ⟨hfalse, -⟩ := attempt
      · exact h.dialing (hsame.symm.trans hc)
      · exact nomatch hfalse.symm.trans hc
    · obtain ⟨hsame, htimer⟩ | ⟨-, haway | htimer⟩ := attempt
      · exact htimer.trans (h.attempt hs (hsame.symm.trans hc))
      · exact absurd hs haway
      · exact htimer
  | call c => exact h.record _
  | enterHandle called =>
    obtain ⟨e, he, hevent, hframes⟩ := called
    refine { h with
      timed
      order := fun hc before n after hsplit => ?_
      free := fun hc hm => h.free hc (by simpa using hm) }
    cases before with
    | nil =>
      rw [← (List.cons.inj hsplit).2, ← hframes]
      exact hc e he _ hevent
    | cons f before => exact h.order hc before n after (List.cons.inj hsplit).2
  | enterTry frames alive =>
    exact { h with
      timed
      order := fun hc => h.order_cons (by simp) hc
      free := fun hc hm => h.free hc (by simpa using hm) }
  | enterMarkers tick free =>
    exact { h with
      timed
      order := fun hc => h.order_cons (by simp) hc
      free := fun hc _ => free hc }
  | enterReading tick alive open_ =>
    exact { h with
      timed
      pubacks := by simp
      order := fun hc => h.order_cons (by simp) hc
      free := fun hc hm => h.free hc (by simpa using hm) }
  | enterCallback other =>
    exact { h with
      timed
      order := fun hc => h.order_cons (by simp) hc.left
      free := fun hc hm => h.free hc.left (by simpa using hm) }
  | enterOnConnect armed =>
    exact { h with
      timed
      order := fun hc => h.order_cons (by simp) hc.left
      free := fun hc hm => h.free hc.left (by simpa using hm) }
  | exit frames other =>
    exact { h with
      timed
      order := fun hc => h.order_tail frames hc
      free := fun hc hm => h.free hc (by rw [frames]; exact List.mem_cons_of_mem _ hm) }
  | fail why => exact { h with timed, attempt := fun hs => nomatch hs }
  | halt decoder timers heal => exact h.halted timed
  | goodbye n decoder timers heal pos alive socket called =>
    refine Coherent.halted ?_ timed
    exact { h with
      timed := h.timed
      order := fun hc => h.order hc.left
      free := fun hc => h.free hc.left }
  | heal failed decoder timers inFlight nextPacketId ids =>
    exact { h with
      timed
      pendings := by simp
      ids
      queue := by simp
      partly := by simp
      free := fun _ _ => rfl
      dialing := fun _ => rfl
      attempt := fun hs => nomatch failed.symm.trans hs }
  | dial closed =>
    exact { h with timed, dialing := fun _ => closed, attempt := fun _ hc => nomatch hc }
  | await closed timers idle =>
    exact { h with timed, dialing := fun _ => closed, attempt := fun _ hc => nomatch hc }
  | «open» awaiting dialing timers ended =>
    exact { h with timed, dialing := by simp, attempt := fun _ _ => ended }
  | connecting pending idle socket packet ackTimeout connack =>
    refine { h with
      timed
      pendings := fun p hp hne => ?_
      queue := fun p hp => ?_
      attempt := fun hs => nomatch hs }
    · rcases List.mem_append.mp hp with hp | hp
      · exact h.pendings p hp hne
      · rw [List.mem_singleton.mp hp]
        exact connack.2
    · rcases List.mem_append.mp (packetsOf_append _ _ ▸ hp) with hp | hp
      · exact h.queue p hp
      · rw [List.mem_singleton.mp hp]
        exact wf_connect packet
  | strandConnect idle socket packet ackTimeout =>
    refine { h with timed, queue := fun p hp => ?_ }
    rcases List.mem_append.mp (packetsOf_append _ _ ▸ hp) with hp | hp
    · exact h.queue p hp
    · rw [List.mem_singleton.mp hp]
      exact wf_connect packet
  | blocked offered socket due => exact h.record _
  | resume n tick socket partly le =>
    obtain ⟨hwf, hpos, -⟩ := h.partly _ _ partly
    refine { h with
      timed
      partly := fun p m hp => ?_
      order := fun hc => h.order hc.left
      free := fun hc hm => absurd hm (h.not_markers hc.left tick) }
    dsimp only at hp
    split at hp
    · cases hp
    · cases hp
      exact ⟨hwf, by omega, by omega⟩
  | sendPart n tick free socket head pos lt =>
    refine { h with
      timed
      queue := fun p hp => h.queue p (by rw [head]; exact List.mem_cons_of_mem _ hp)
      partly := fun p m hp => ?_
      order := fun hc => h.order hc.left
      free := fun hc hm => absurd hm (h.not_markers hc.left tick) }
    cases hp
    exact ⟨h.queue _ (by rw [head]; exact List.mem_cons_self), pos, lt⟩
  | sendAll batchQueued tick free socket head pos batch =>
    exact { h with
      timed
      queue := fun p hp => h.queue p (by rw [head]; exact List.mem_cons_of_mem _ hp)
      order := fun hc => h.order hc.left
      free := fun hc => h.free hc.left }
  | popMarker head =>
    exact { h with timed, queue := fun p hp => h.queue p (by rw [head]; exact hp) }
  | received tick alive open_ socket => exact h.record _
  | checkDeadlines nowMs tick alive => exact h.record _
  | expire pending fatal =>
    exact { h with timed, pendings := fun p hp => h.pendings p (List.mem_of_mem_erase hp) }
  | message topic loop alive => exact h.record _
  | owe packetId loop alive =>
    exact { h with
      timed
      order := fun hc => h.order_cons (by simp) hc
      free := fun hc hm => h.free hc (by simpa using hm) }
  | collect frames packet =>
    refine { h with
      timed
      pubacks := fun b hb => ?_
      order := fun hc => h.order_tail frames hc
      free := fun hc hm => h.free hc (by rw [frames]; exact List.mem_cons_of_mem _ hm) }
    rcases List.mem_append.mp hb with hb | hb
    · exact h.pubacks b hb
    · exact ⟨_, List.mem_singleton.mp hb ▸ packet⟩
  | forfeit e frames =>
    exact { h with
      timed
      order := fun hc => h.order_tail frames hc.left
      free := fun hc hm => h.free hc.left (by rw [frames]; exact List.mem_cons_of_mem _ hm) }
  | flush loop connected some_ =>
    refine { h with
      timed
      queue := fun p hp => ?_
      pubacks := by simp
      order := fun hc => h.order hc.left
      free := fun hc => h.free hc.left }
    rcases List.mem_cons.mp hp with rfl | hp
    · exact wf_puback some_ h.pubacks
    · exact h.queue p hp
  | flushRefused loop => exact h.record _
  | raised e loop => exact h.record _
  | acked p pendings loop alive settled =>
    refine { h with
      timed
      pendings := fun q hq => ?_
      order := fun hc => h.order hc.left
      free := fun hc => h.free hc.left }
    rcases settled with rfl | ⟨a, packetId, -, rfl⟩
    · exact h.pendings q hq
    · exact h.pendings q (List.mem_of_mem_eraseP hq)
  | accept loop connack last accepts timers heal inFlight nextPacketId ids =>
    refine { h with
      timed
      pendings := fun q hq hne => ?_
      ids
      queue := fun q hq => ?_
      order := fun hc => h.order hc.left
      free := fun hc => h.free hc.left
      attempt := fun hs => nomatch hs }
    · rcases List.mem_append.mp hq with hq | hq
      · exact h.pendings q hq hne
      · exact (accepts.silent q hq).2
    · rcases List.mem_append.mp (packetsOf_append _ _ ▸ hq) with hq | hq
      · exact h.queue q hq
      · exact (accepts.wf q hq).1
  | enqueue alive plain =>
    refine { h with timed, queue := fun q hq => ?_ }
    rcases List.mem_append.mp (packetsOf_append _ _ ▸ hq) with hq | hq
    · exact h.queue q hq
    · exact (plain q hq).1
  | expectPing pending ping =>
    refine { h with timed, pendings := fun q hq hne => ?_ }
    rcases List.mem_append.mp hq with hq | hq
    · exact h.pendings q hq hne
    · rw [List.mem_singleton.mp hq]
      exact ping.2
  | subscribe pending callback connected packet suback =>
    refine { h with timed, pendings := fun q hq hne => ?_, queue := fun q hq => ?_ }
    · rcases List.mem_append.mp hq with hq | hq
      · exact h.pendings q hq hne
      · rw [List.mem_singleton.mp hq]
        exact suback.2
    · rcases List.mem_append.mp (packetsOf_append _ _ ▸ hq) with hq | hq
      · exact h.queue q hq
      · rw [List.mem_singleton.mp hq]
        exact packet
  | unsubscribe pending connected packet unsuback =>
    refine { h with timed, pendings := fun q hq hne => ?_, queue := fun q hq => ?_ }
    · rcases List.mem_append.mp hq with hq | hq
      · exact h.pendings q hq hne
      · rw [List.mem_singleton.mp hq] at hne
        exact absurd unsuback hne
    · rcases List.mem_append.mp (packetsOf_append _ _ ▸ hq) with hq | hq
      · exact h.queue q hq
      · rw [List.mem_singleton.mp hq]
        exact packet
  | offline entry offline called => exact { h with timed }
  | oneShot same => exact { h with timed }
  | evict rejected => exact { h with timed }
  | buffer p offline => exact { h with timed }

/-- The log only grows. -/
lemma Step.log_le {w : World} (hs : Step w w') : w.log <+: w'.log := by
  cases hs
  all_goals first | exact List.prefix_rfl | exact List.prefix_append _ _

/-- The settings do not change. -/
lemma Step.config_eq {w : World} (hs : Step w w') : w'.config = w.config := by
  cases hs
  all_goals rfl

/-- A step logs nothing, or one event with the moment before it. -/
lemma Step.log_cases {w : World} (hs : Step w w') :
    w'.log = w.log ∨ ∃ event, w'.log = w.log ++ [⟨event, w.toMoment⟩] := by
  cases hs
  all_goals first | exact .inl rfl | exact .inr ⟨_, rfl⟩

lemma Reaches.log_le {w : World} (hs : Reaches w w') : w.log <+: w'.log := by
  induction hs with
  | refl => exact List.prefix_rfl
  | tail _ hstep ih => exact ih.trans hstep.log_le

lemma Reaches.config_eq {w : World} (hs : Reaches w w') : w'.config = w.config := by
  induction hs with
  | refl => rfl
  | tail _ hstep ih => exact hstep.config_eq.trans ih

theorem Reaches.coherent {w : World} (hs : Reaches w w') (h : Coherent w) : Coherent w' := by
  induction hs with
  | refl => exact h
  | tail _ hstep ih => exact hstep.coherent ih

end Coherent

/-! ## Invariants of runs -/

/-- The moments of a run at which the application or the outside had a say, and its end. -/
def World.moments (w : World) : List Moment := w.log.map Entry.before ++ [w.toMoment]

/-- **The invariant rule** for runs all of whose logged events satisfy a condition. -/
lemma Reaches.invariant {C : Entry → Prop} {I : World → Prop} (hr : Reaches w₀ w) (h₀ : Coherent w₀)
    (hI : I w₀) (hstep : ∀ w w', Coherent w → I w → (∀ e ∈ w'.log, C e) → Step w w' → I w')
    (hC : ∀ e ∈ w.log, C e) : I w := by
  induction hr with
  | refl => exact hI
  | tail hr' hs ih =>
    have hle : ∀ e ∈ _, C e := fun e he => hC e (hs.log_le.subset he)
    exact hstep _ _ (Reaches.coherent hr' h₀) (ih hle) hC hs

/-- What an invariant says holds at every moment of the run. -/
lemma Reaches.moments {C : Entry → Prop} {I : World → Prop} {P : Moment → Prop} (hr : Reaches w₀ w)
    (h₀ : Coherent w₀) (hlog : w₀.log = []) (hI : I w₀)
    (hstep : ∀ w w', Coherent w → I w → (∀ e ∈ w'.log, C e) → Step w w' → I w')
    (hP : ∀ w, Coherent w → I w → P w.toMoment) (hC : ∀ e ∈ w.log, C e) : ∀ m ∈ w.moments, P m := by
  have hinv : I w ∧ ∀ e ∈ w.log, P e.before := by
    refine hr.invariant (I := fun w => I w ∧ ∀ e ∈ w.log, P e.before) h₀ ⟨hI, by simp [hlog]⟩ ?_ hC
    rintro w w' hw ⟨hIw, hbefore⟩ hC' hs
    refine ⟨hstep w w' hw hIw hC' hs, fun e he => ?_⟩
    rcases hs.log_cases with hsame | ⟨event, hmore⟩
    · exact hbefore e (hsame ▸ he)
    · rcases List.mem_append.mp (hmore ▸ he) with he | he
      · exact hbefore e he
      · rw [List.mem_singleton.mp he]
        exact hP w hw hIw
  intro m hm
  rcases List.mem_append.mp hm with hm | hm
  · obtain ⟨e, he, rfl⟩ := List.mem_map.mp hm
    exact hinv.2 e he
  · rw [List.mem_singleton.mp hm]
    exact hP w (hr.coherent h₀) hinv.1

/-- What every step does to the moments, it does from each moment of the run to all later ones. -/
lemma Reaches.pairwise {R : Moment → Moment → Prop} (htrans : ∀ a b c, R a b → R b c → R a c)
    (hstep : ∀ w w', Step w w' → R w.toMoment w'.toMoment) (hr : Reaches w₀ w)
    (hlog : w₀.log = []) : w.moments.Pairwise R := by
  induction hr with
  | refl => simp [World.moments, hlog]
  | @tail w w' _ hs ih =>
    obtain ⟨hbefore, -, hlast⟩ := List.pairwise_append.mp ih
    have hlast' : ∀ m ∈ w.log.map Entry.before, R m w'.toMoment := fun m hm =>
      htrans _ _ _ (hlast m hm w.toMoment (List.mem_singleton.mpr rfl)) (hstep w w' hs)
    unfold World.moments at ih ⊢
    rcases hs.log_cases with hsame | ⟨event, hmore⟩
    · rw [hsame]
      refine List.pairwise_append.mpr ⟨hbefore, by simp, fun m hm m' hm' => ?_⟩
      rw [List.mem_singleton.mp hm']
      exact hlast' m hm
    · rw [hmore, List.map_append]
      refine List.pairwise_append.mpr ⟨ih, by simp, fun m hm m' hm' => ?_⟩
      rw [List.mem_singleton.mp hm']
      rcases List.mem_append.mp hm with hm | hm
      · exact hlast' m hm
      · rw [List.mem_singleton.mp hm]
        exact hstep w w' hs

end ChuMicro.Mqtt
