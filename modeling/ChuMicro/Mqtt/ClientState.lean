import ChuMicro.Lib.Prog
import ChuMicro.Timing
import ChuMicro.Mqtt.Decoder

/-!
# The state of the MQTT client

The fields of `MQTTClient` in `libraries/mqtt/src/chumicro_mqtt/client.py`, the outside it talks to,
and what is remembered of a run in order to speak about it.

Everything outside the library answers through an `Env`: the socket, the connector, the clock and
the application's callbacks. The answers are numbered and the world counts how many of each it has
used. A callback is a script of calls back into the client, so that every nesting of callbacks and
calls is a run. What a run has done is kept in ghost fields that no function of the client reads:
the bytes each transport has accepted and the packets they belong to, the calls and callbacks that
are running, and a log of events with the moment before each of them.

## Main definitions

* `Mqtt.Client` — the fields of `MQTTClient`.
* `Mqtt.Moment` — the client, its transports and the frames that are running.
* `Mqtt.World` — a moment with the log that led to it.
* `Mqtt.Call` — the calls of the public interface.
* `Mqtt.Env` — the answers of the outside.
-/

namespace ChuMicro.Mqtt

/-! ## Fields of the client -/

/-- `ProtocolState`. -/
inductive ProtocolState where
  | disconnected
  | awaitingTransport
  | connecting
  | connected
  | failed
  deriving DecidableEq, Repr

/-- The text of a state. -/
def ProtocolState.text : ProtocolState → String
  | .disconnected => "disconnected"
  | .awaitingTransport => "awaiting_transport"
  | .connecting => "connecting"
  | .connected => "connected"
  | .failed => "failed"

/-- `WhenOversized`. -/
inductive WhenOversized where
  | dropSilent
  | dropWithEvent
  | disconnect
  deriving DecidableEq, Repr

/-- The settings of a client. `hasFactory` is whether a `transport_factory` was given. -/
structure ClientConfig where
  hasFactory : Bool
  clientId : String
  keepAliveSeconds : ℕ
  ackTimeoutMs : ℤ
  publishRetryMax : ℕ
  username : Option String
  password : Option String
  cleanSession : Bool
  rxBufferSize : ℕ
  whenOversized : WhenOversized
  /-- `when_disconnected == "raise"` -/
  raiseWhenDisconnected : Bool
  preConnectQueueSize : ℕ
  recvBudgetPerTick : ℕ
  maxTxQueueSize : ℕ
  sendTimeoutMs : ℤ
  deriving DecidableEq, Repr

/-- The defaults of the constructor, for a client with a factory or without. -/
def ClientConfig.defaults (hasFactory : Bool) : ClientConfig where
  hasFactory
  clientId := "c"
  keepAliveSeconds := 60
  ackTimeoutMs := 5000
  publishRetryMax := 3
  username := none
  password := none
  cleanSession := true
  rxBufferSize := 256
  whenOversized := .dropWithEvent
  raiseWhenDisconnected := false
  preConnectQueueSize := 8
  recvBudgetPerTick := 1024
  maxTxQueueSize := 20
  sendTimeoutMs := 5000

/-- `_tx_queue_hard_cap`. -/
def ClientConfig.txQueueHardCap (c : ClientConfig) : ℕ := c.maxTxQueueSize + 64

/-- `_ping_interval_ms`. -/
def ClientConfig.pingIntervalMs (c : ClientConfig) : ℕ := max 1000 (c.keepAliveSeconds * 1000 / 2)

/-- The last will, which `set_will` changes. -/
structure Will where
  topic : Option String := none
  message : Option (List UInt8) := none
  qos : ℕ := 0
  retain : Bool := false
  deriving DecidableEq, Repr

/-- A publish as `publish` takes it. `onPublish` is whether a callback was given with it. -/
structure QueuedPublish where
  topic : String
  payload : List UInt8
  qos : ℕ
  retain : Bool
  onPublish : Bool
  deriving DecidableEq, Repr

/-- What a packet of the client is. -/
inductive Kind where
  | connect
  | publish
  | puback
  | subscribe (topic : String) (qos : ℕ)
  | unsubscribe (topic : String)
  | pingreq
  | disconnect
  deriving DecidableEq, Repr

/-- A packet as bytes, with what it is. A PUBACK batch counts as one packet. -/
structure Packet where
  kind : Kind
  bytes : List UInt8
  deriving DecidableEq, Repr

/-- An entry of the tx queue: a packet, or the marker after which `on_publish` fires for a QoS 0
publish. -/
inductive TxItem where
  | packet (p : Packet)
  | marker (own : Bool) (topic : String) (payload : List UInt8)
  deriving DecidableEq, Repr

/-- `InFlightPublish`. -/
structure InFlightPublish where
  packetId : ℕ
  packetBytes : List UInt8
  retryCount : ℕ := 0
  deadlineTicks : ℤ
  own : Bool
  topic : String
  payload : List UInt8
  dupPacketBytes : Option (List UInt8) := none
  deriving DecidableEq, Repr

/-- The responses a `PendingResponse` waits for. -/
inductive Awaiting where
  | connack
  | pingresp
  | suback
  | unsuback
  deriving DecidableEq, Repr

/-- The text of a response in error messages. -/
def Awaiting.text : Awaiting → String
  | .connack => "connack"
  | .pingresp => "pingresp"
  | .suback => "suback"
  | .unsuback => "unsuback"

/-- `PendingResponse`. The callback of an UNSUBACK is given by the topic it is for and whether the
call had one of its own. -/
structure PendingResponse where
  awaiting : Awaiting
  deadlineTicks : ℤ
  packetId : Option ℕ := none
  callback : Option (String × Bool) := none
  topic : Option String := none
  deriving DecidableEq, Repr

/-- An entry of the desired set: the QoS and the one-shot callback, `some own` until it has fired.
-/
structure Subscription where
  qos : ℕ
  callback : Option Bool
  deriving DecidableEq, Repr

/-- `InboundPublish`. -/
structure InboundPublish where
  topic : String
  payload : List UInt8
  deriving DecidableEq, Repr

/-- The deadlines that are not tied to a packet. -/
structure Timers where
  transportDeadlineTicks : Option ℤ := none
  sendDeadlineTicks : Option ℤ := none
  nextPingDueTicks : ℤ := 0
  deriving DecidableEq, Repr

/-- The fields of self-healing. -/
structure SelfHeal where
  userWantsConnected : Bool := false
  attempts : ℕ := 0
  retryAtTicks : Option ℤ := none
  permanentFailure : Bool := false
  reconnectHeld : Bool := false
  deriving DecidableEq, Repr

/-- `MQTTClient`. A socket is given by the number of its transport; `connector` is whether there is
a connector, and `onPublishSet` whether the application has replaced `on_publish`. -/
structure Client where
  config : ClientConfig
  socket : Option ℕ
  connector : Bool := false
  timers : Timers := {}
  heal : SelfHeal := {}
  will : Will := {}
  preConnectQueue : List QueuedPublish := []
  decoder : PacketDecoder
  state : ProtocolState := .disconnected
  inFlight : List InFlightPublish := []
  nextPacketId : ℕ := 1
  pendingResponses : List PendingResponse := []
  subscriptions : List (String × Subscription) := []
  txQueue : List TxItem := []
  partialSend : Option (Packet × ℕ) := none
  pendingPubacks : List (List UInt8) := []
  pubackBatchQueued : Bool := false
  onPublishSet : Bool := false
  inboundQueue : Option (List InboundPublish) := none
  lastError : Option Exn := none

/-! ## Calls and callbacks -/

/-- The calls of the public interface that change the client. `setOnPublish` is the assignment of
`client.on_publish`. -/
inductive Call where
  | connect
  | hold
  | disconnect
  | setWill (will : Will)
  | setOnPublish (given : Bool)
  | publish (p : QueuedPublish)
  | subscribe (topic : String) (qos : ℕ) (own : Bool)
  | unsubscribe (topic : String) (own : Bool)
  | nextMessage
  | handle (nowMs : ℤ)
  | ioError (eventmask : ℕ)
  deriving DecidableEq, Repr

/-- The callbacks of the application. `own` marks those that were given with a call. -/
inductive Callback where
  | onMessage (topic : String) (payload : List UInt8)
  | onConnect
  | onDisconnect
  | onSubscribe (own : Bool) (topic : String) (grantedQos : Option (List ℕ))
  | onUnsubscribe (own : Bool) (topic : String)
  | onPublish (own : Bool) (topic : String) (payload : List UInt8)
  | onOversized (reportedLength : ℕ) (topic : Option String)
  deriving DecidableEq, Repr

/-- What a callback does: calls into the client, each with whether the callback swallows what it
raises, and in the end an exception of its own or none. -/
structure Script where
  calls : List (Call × Bool) := []
  raises : Option Exn := none
  deriving DecidableEq, Repr

/-! ## The outside -/

/-- What `connector.tick` leads to. -/
inductive ConnectorAnswer where
  | pending
  | ready
  | failed (lastError : String)
  | raised (e : Exn)
  deriving DecidableEq, Repr

/-- The answers of the outside, numbered. A send is answered by an `errno` or by the number of bytes
taken, a recv by an `errno` or by the bytes there are. `factory` is the text of the error that the
transport factory raises, if it raises one. A loop of the client is given up after `rounds` rounds:
a run of the code that ends is the run for every bound that is large enough. -/
structure Env where
  rounds : ℕ
  script : ℕ → Script
  send : ℕ → Except ℕ ℕ
  recv : ℕ → Except ℕ (List UInt8)
  ticksMs : ℕ → ℤ
  factory : ℕ → Option String
  connectorTick : ℕ → ConnectorAnswer
  connectorPhase : ℕ → String
  osErrorText : ℕ → String

/-- An outside in which the transport takes every byte, nothing comes in, no time passes, a
connector is ready at once and the callbacks do nothing. -/
def Env.still : Env where
  rounds := 50
  script _ := {}
  send _ := .ok 4096
  recv _ := .error EAGAIN
  ticksMs _ := 0
  factory _ := none
  connectorTick _ := .ready
  connectorPhase _ := "pending"
  osErrorText _ := "error"

/-- The same, with something to receive. -/
def Env.receiving (data : ℕ → Option (List UInt8)) : Env :=
  { Env.still with recv := fun n => (data n).elim (.error EAGAIN) .ok }

/-- How many answers of each kind have been used. -/
structure Used where
  callbacks : ℕ := 0
  sends : ℕ := 0
  recvs : ℕ := 0
  clockReads : ℕ := 0
  factoryCalls : ℕ := 0
  connectorTicks : ℕ := 0
  deriving DecidableEq, Repr

/-! ## What is remembered of a run -/

/-- One transport: the packets taken for it in order, the last of which may not be complete; the
bytes it has accepted; the identifiers of the QoS 1 messages received on it for which the client
owes a PUBACK; the acknowledgements it has brought; and whether it is closed. -/
structure Transport where
  taken : List Packet := []
  written : List UInt8 := []
  owed : List ℕ := []
  acks : List ParsedAck := []
  closed : Bool := false

/-- The stretches of code that can be running when the application is called back. -/
inductive Frame where
  /-- `handle`, with the number of stops when it began -/
  | handle (stops : ℕ)
  /-- the `try` block of `handle` -/
  | trying
  /-- `_drain_callback_markers` -/
  | markers
  /-- the dispatch loop of `_read_inbound` -/
  | reading
  /-- the callback for a QoS 1 message whose PUBACK has not been collected yet -/
  | owing (packetId : ℕ)
  /-- a callback -/
  | callback (cb : Callback)
  deriving DecidableEq, Repr

/-- What is logged. -/
inductive Event where
  | called (c : Call)
  | sent (transport : ℕ) (offered : List UInt8)
  | received (transport : ℕ)
  | checkedDeadlines (nowMs : ℤ)
  | message (topic : Option String)
  | acked (p : ParsedAck)
  | connected
  | flushed
  | fired (cb : Callback)
  /-- an exception has left the dispatch loop -/
  | raised (e : Exn)
  /-- an exception has left the callback for a QoS 1 message -/
  | unacked (packetId : ℕ) (e : Exn)
  deriving DecidableEq, Repr

/-- The client and what is around it at one moment. `opened` is the number of transports there have
been, `stops` how often the client has become FAILED or DISCONNECTED, `armed` whether a CONNACK was
accepted and `on_connect` has not been called for it; `accepted` are the publishes that have gone to
the pre-connect queue since the last disconnect, and `enqueued` those of them that have gone on to
the tx queue. -/
structure Moment extends Client where
  transports : ℕ → Transport := fun _ => {}
  opened : ℕ := 0
  frames : List Frame := []
  stops : ℕ := 0
  armed : Bool := false
  accepted : List QueuedPublish := []
  enqueued : List QueuedPublish := []

/-- An event and the moment before it. -/
structure Entry where
  event : Event
  before : Moment

/-- A moment, the answers used and the log. -/
structure World extends Moment where
  used : Used := {}
  log : List Entry := []

/-- A client that has just been constructed, with a socket or without. -/
def World.new (config : ClientConfig) (will : Will) (hasSocket : Bool) : World :=
  { config
    will
    socket := if hasSocket then some 0 else none
    opened := if hasSocket then 1 else 0
    decoder := .new config.rxBufferSize }

/-- A change of the transport of the socket, if there is one. -/
def onTransport (socket : Option ℕ) (f : Transport → Transport) (transports : ℕ → Transport) :
    ℕ → Transport :=
  match socket with
  | none => transports
  | some t => Function.update transports t (f (transports t))

/-- A change of the transport of the current socket, if there is one. -/
def World.onSocket (w : World) (f : Transport → Transport) : World :=
  { w with transports := onTransport w.socket f w.transports }

/-- The world with one more entry in its log. -/
def World.record (w : World) (event : Event) : World :=
  { w with log := w.log ++ [⟨event, w.toMoment⟩] }

/-- A computation of the client. -/
abbrev M := Prog World Exn

end ChuMicro.Mqtt
