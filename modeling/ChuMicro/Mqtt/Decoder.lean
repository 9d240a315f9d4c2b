import ChuMicro.Mqtt.Wire

/-!
# The MQTT packet decoder

`PacketDecoder` of `libraries/mqtt/src/chumicro_mqtt/_wire.py`: a fixed receive buffer with a
sliding read offset, in-place compaction, a path for packets that fit the buffer and a
resumable drain for PUBLISH packets that do not. An exception leaves the decoder as it was, so
`readNext` returns the new decoder only together with a result.

## Main definitions

* `Mqtt.Inbound` — what `read_next` returns: `ParsedPublish`, `ParsedAck` or `_OversizedMessage`.
* `Mqtt.PacketDecoder` — the decoder's fields.
* `Mqtt.PacketDecoder.fill` — a `recv_into` the fill region, then `advance`.
* `Mqtt.PacketDecoder.readNext` — `read_next`.
* `Mqtt.PacketDecoder.readAll` — `read_next` until it yields `None`.
-/

namespace ChuMicro.Mqtt

open Bytes

/-- `ParsedPublish`. -/
structure ParsedPublish where
  topic : String
  payload : List UInt8
  qos : ℕ
  packetId : Option ℕ
  deriving DecidableEq, Repr

/-- `ParsedAck`: a CONNACK, PUBACK, SUBACK, UNSUBACK or PINGRESP. -/
structure ParsedAck where
  packetType : UInt8
  packetId : Option ℕ := none
  returnCode : Option ℕ := none
  grantedQos : Option (List ℕ) := none
  sessionPresent : Option Bool := none
  deriving DecidableEq, Repr

/-- `_OversizedMessage`. -/
structure OversizedMessage where
  topic : Option String
  reportedLength : ℕ
  qos : ℕ
  packetId : Option ℕ
  deriving DecidableEq, Repr

/-- A result of `read_next` other than `None`. -/
inductive Inbound where
  | publish (p : ParsedPublish)
  | ack (p : ParsedAck)
  | oversized (p : OversizedMessage)
  deriving DecidableEq, Repr

/-- `_DRAIN_NONE` and `_DRAIN_OVERSIZED`. -/
inductive DrainMode where
  | none
  | oversized
  deriving DecidableEq, Repr

/-! ## Parsing one complete packet -/

/-- The QoS bits of a PUBLISH's first byte. -/
def publishQos (fixedByte : UInt8) : ℕ := ((fixedByte >>> 1) &&& 0x03).toNat

/-- `_parse_publish`. -/
def parsePublish (fixedByte : UInt8) (view : List UInt8) (bodyStart bodyEnd : ℕ) :
    Except Exn ParsedPublish :=
  let qos := publishQos fixedByte
  if bodyEnd - bodyStart < 2 then
    .error (.protocolError "PUBLISH missing 2-byte topic-length prefix")
  else do
    let topicLength ← liftPy (unpack 2 (slice view bodyStart (bodyStart + 2)))
    let topicStart := bodyStart + 2
    let topicEnd := topicStart + topicLength
    if topicEnd > bodyEnd then
      .error (.protocolError "PUBLISH topic length exceeds remaining bytes")
    else do
      let topic ← liftPy (decodeUtf8 (slice view topicStart topicEnd))
      if qos > 0 then
        if topicEnd + 2 > bodyEnd then
          .error (.protocolError "QoS > 0 PUBLISH missing 2-byte packet identifier")
        else do
          let packetId ← liftPy (unpack 2 (slice view topicEnd (topicEnd + 2)))
          return ⟨topic, slice view (topicEnd + 2) bodyEnd, qos, some packetId⟩
      else
        return ⟨topic, slice view topicEnd bodyEnd, qos, none⟩

/-- `_parse_connack`: bit 0 of the first byte is session-present, the second the return code. -/
def parseConnack (view : List UInt8) (bodyStart bodyEnd : ℕ) : Except Exn ParsedAck :=
  if bodyEnd - bodyStart ≠ 2 then
    .error (.protocolError "CONNACK body must be exactly 2 bytes")
  else
    match view[bodyStart]?, view[bodyStart + 1]? with
    | some flags, some returnCode =>
      .ok { packetType := PACKET_CONNACK
            returnCode := some returnCode.toNat
            sessionPresent := some (flags &&& 0x01 != 0) }
    | _, _ => .error (.py .indexError)

/-- `_parse_simple_ack`. -/
def parseSimpleAck (packetType : UInt8) (view : List UInt8) (bodyStart bodyEnd : ℕ) :
    Except Exn ParsedAck :=
  if bodyEnd - bodyStart ≠ 2 then
    .error (.protocolError ("packet type 0x" ++ hex02 packetType ++ " body must be 2 bytes"))
  else do
    let packetId ← liftPy (unpack 2 (slice view bodyStart (bodyStart + 2)))
    return { packetType := packetType, packetId := some packetId }

/-- `_parse_suback`. -/
def parseSuback (view : List UInt8) (bodyStart bodyEnd : ℕ) : Except Exn ParsedAck :=
  if bodyEnd - bodyStart < 3 then
    .error (.protocolError "SUBACK body must be at least 3 bytes")
  else do
    let packetId ← liftPy (unpack 2 (slice view bodyStart (bodyStart + 2)))
    return { packetType := PACKET_SUBACK
             packetId := some packetId
             grantedQos := some ((slice view (bodyStart + 2) bodyEnd).map UInt8.toNat) }

/-- `_parse_packet`: dispatch on the high nibble of the first byte. -/
def parsePacket (fixedByte : UInt8) (view : List UInt8) (bodyStart bodyEnd : ℕ) :
    Except Exn Inbound :=
  let packetType := fixedByte &&& 0xF0
  if packetType = PACKET_PUBLISH then
    Inbound.publish <$> parsePublish fixedByte view bodyStart bodyEnd
  else if packetType = PACKET_CONNACK then
    Inbound.ack <$> parseConnack view bodyStart bodyEnd
  else if packetType = PACKET_PUBACK then
    Inbound.ack <$> parseSimpleAck PACKET_PUBACK view bodyStart bodyEnd
  else if packetType = PACKET_SUBACK then
    Inbound.ack <$> parseSuback view bodyStart bodyEnd
  else if packetType = PACKET_UNSUBACK then
    Inbound.ack <$> parseSimpleAck PACKET_UNSUBACK view bodyStart bodyEnd
  else if packetType = PACKET_PINGRESP then
    .ok (.ack { packetType := PACKET_PINGRESP })
  else
    .error (.protocolError ("unknown packet type 0x" ++ hex02 packetType ++ " from broker"))

/-! ## The decoder -/

/-- The fields of `PacketDecoder`. `buffer` is the whole receive buffer; the bytes received
and not yet consumed are those from `readOffset` up to `bufferLength`. -/
structure PacketDecoder where
  buffer : List UInt8
  bufferSize : ℕ
  bufferLength : ℕ
  readOffset : ℕ
  drainMode : DrainMode
  drainRemaining : ℕ
  drainTopic : Option String
  drainQos : ℕ
  drainPacketId : Option ℕ
  drainMessageLength : ℕ
  deriving DecidableEq, Repr

namespace PacketDecoder

/-- `PacketDecoder(rx_buffer_size=...)`. -/
def new (rxBufferSize : ℕ) : PacketDecoder where
  buffer := List.replicate rxBufferSize 0
  bufferSize := rxBufferSize
  bufferLength := 0
  readOffset := 0
  drainMode := .none
  drainRemaining := 0
  drainTopic := none
  drainQos := 0
  drainPacketId := none
  drainMessageLength := 0

/-- `fill_capacity()`. -/
def fillCapacity (d : PacketDecoder) : ℕ :=
  match d.drainMode with
  | .oversized => min d.drainRemaining (d.bufferSize - d.bufferLength)
  | .none => d.bufferSize - d.bufferLength

/-- `advance(nbytes)`. -/
def advance (d : PacketDecoder) (nbytes : ℕ) : PacketDecoder :=
  if nbytes = 0 then d
  else
    match d.drainMode with
    | .oversized => { d with drainRemaining := d.drainRemaining - nbytes, bufferLength := 0 }
    | .none => { d with bufferLength := d.bufferLength + nbytes }

/-- One `recv_into(fill_buffer(), …)` that wrote `chunk`, then `advance`. -/
def fill (d : PacketDecoder) (chunk : List UInt8) : PacketDecoder :=
  { d with buffer := overwrite d.buffer d.bufferLength chunk }.advance chunk.length

/-- `_compact()`. -/
def compact (d : PacketDecoder) : PacketDecoder :=
  { d with
    buffer := overwrite d.buffer 0 (slice d.buffer d.readOffset d.bufferLength)
    bufferLength := d.bufferLength - d.readOffset
    readOffset := 0 }

/-- `_consume(count)`: compaction only once the cursor passes halfway. -/
def consume (d : PacketDecoder) (count : ℕ) : PacketDecoder :=
  let d := { d with readOffset := d.readOffset + count }
  if d.readOffset * 2 ≥ d.bufferSize then d.compact else d

/-- `_reset_drain_state()`. -/
def resetDrainState (d : PacketDecoder) : PacketDecoder :=
  { d with
    drainMode := .none, drainRemaining := 0, drainTopic := none, drainQos := 0
    drainPacketId := none, drainMessageLength := 0 }

/-- The `_OversizedMessage` the drain state describes. -/
def drainEvent (d : PacketDecoder) : OversizedMessage :=
  ⟨d.drainTopic, d.drainMessageLength, d.drainQos, d.drainPacketId⟩

/-- `_maybe_finish_oversized()`. -/
def maybeFinishOversized (d : PacketDecoder) : Option Inbound × PacketDecoder :=
  if d.drainRemaining > 0 then (none, d)
  else (some (.oversized d.drainEvent), d.resetDrainState)

/-- `_enter_oversized_drain(...)`: the buffered bytes are discarded. -/
def enterOversizedDrain (d : PacketDecoder) (bytesStillOnWire : ℕ) (topic : Option String)
    (qos : ℕ) (packetId : Option ℕ) (messageLength : ℕ) : PacketDecoder :=
  { d with
    drainRemaining := bytesStillOnWire, drainTopic := topic, drainQos := qos
    drainPacketId := packetId, drainMessageLength := messageLength
    bufferLength := 0, readOffset := 0, drainMode := .oversized }

/-- `_enter_drain_path(...)`. The subtraction `total_length - live` cannot be negative: the
packet is longer than the buffer. -/
def enterDrainPath (d : PacketDecoder) (fixedByte : UInt8) (messageLength base headerLength
    totalLength : ℕ) : Except Exn (Option Inbound × PacketDecoder) :=
  let packetType := fixedByte &&& 0xF0
  if packetType ≠ PACKET_PUBLISH then
    .error (.protocolError ("oversized non-PUBLISH packet (type 0x" ++ hex02 packetType ++
      ", remaining length " ++ toString messageLength ++ ")"))
  else
    let live := d.bufferLength - base
    if live < headerLength + 2 then .ok (none, d)
    else do
      let bodyStart := base + headerLength
      let topicLength ← liftPy (unpack 2 (slice d.buffer bodyStart (bodyStart + 2)))
      let qos := publishQos fixedByte
      let packetIdBytes := if qos > 0 then 2 else 0
      let preludeLength := headerLength + 2 + topicLength + packetIdBytes
      if preludeLength > d.bufferSize then
        -- the topic itself overflows the buffer: neither it nor the packet id can be parsed
        return (d.enterOversizedDrain (totalLength - live) none qos none
          messageLength).maybeFinishOversized
      else if live < preludeLength then return (none, d)
      else do
        let topicStart := bodyStart + 2
        let topicEnd := topicStart + topicLength
        let topic ← liftPy (decodeUtf8 (slice d.buffer topicStart topicEnd))
        let packetId ←
          if qos > 0 then
            some <$> liftPy (unpack 2 (slice d.buffer topicEnd (topicEnd + 2)))
          else .ok none
        return (d.enterOversizedDrain (totalLength - live) (some topic) qos packetId
          messageLength).maybeFinishOversized

/-- `read_next()`. -/
def readNext (d : PacketDecoder) : Except Exn (Option Inbound × PacketDecoder) :=
  match d.drainMode with
  | .oversized => .ok d.maybeFinishOversized
  | .none =>
    let base := d.readOffset
    let live := d.bufferLength - base
    if live < 2 then .ok (none, d)
    else
      match d.buffer[base]? with
      | none => .error (.py .indexError)
      | some fixedByte => do
        let (messageLength, varlenConsumed) ← decodeVarlen d.buffer (base + 1) d.bufferLength
        if varlenConsumed = 0 then return (none, d)
        else
          let headerLength := 1 + varlenConsumed
          let totalLength := headerLength + messageLength
          if totalLength > d.bufferSize then
            d.enterDrainPath fixedByte messageLength base headerLength totalLength
          else if live < totalLength then
            -- buffer full mid-packet: compact to reopen fill space
            if d.bufferLength = d.bufferSize ∧ d.readOffset > 0 then return (none, d.compact)
            else return (none, d)
          else do
            let packet ← parsePacket fixedByte d.buffer (base + headerLength) (base + totalLength)
            return (some packet, d.consume totalLength)

/-- `read_next()` until it yields `None` or raises: the results, the exception, the decoder.
Every result consumes at least two buffered bytes or ends a drain, so `fuel` past the number
of buffered bytes is never used up. -/
def readAll : ℕ → PacketDecoder → List Inbound × Option Exn × PacketDecoder
  | 0, d => ([], none, d)
  | fuel + 1, d =>
    match d.readNext with
    | .error e => ([], some e, d)
    | .ok (none, d') => ([], none, d')
    | .ok (some packet, d') =>
      let (packets, e, d'') := readAll fuel d'
      (packet :: packets, e, d'')

/-- Hand one received piece to the decoder and read everything it completes. -/
def feed (d : PacketDecoder) (chunk : List UInt8) : List Inbound × Option Exn × PacketDecoder :=
  readAll ((d.fill chunk).bufferLength + 2) (d.fill chunk)

end PacketDecoder

end ChuMicro.Mqtt
