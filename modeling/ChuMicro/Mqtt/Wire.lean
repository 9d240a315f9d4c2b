import ChuMicro.Python

/-!
# The MQTT 3.1.1 wire format

The exceptions, constants, variable-length integers and packet encoders of
`libraries/mqtt/src/chumicro_mqtt/_wire.py`. The packet decoder is in
`Mqtt.Decoder`.

## Main definitions

* `Mqtt.Exn` — the exceptions of the library, and the built-in ones it lets through.
* `Mqtt.encodeVarlen`, `Mqtt.decodeVarlen` — MQTT variable-length integers.
* `Mqtt.finalizePacket` — fixed header, remaining length and body.
* `Mqtt.encodeConnect`, `encodePublish`, `encodeSubscribe`, `encodeUnsubscribe`, `encodePuback` —
  the packets the client sends.
-/

namespace ChuMicro.Mqtt

/-! ## Exceptions -/

/-- What the library raises: its own exceptions, all of them subclasses of `MQTTError`, and
the built-in exceptions it does not catch. -/
inductive Exn where
  | mqttError (message : String)
  | protocolError (message : String)
  | connectError (message : String) (returnCode : ℕ)
  | backpressureError (message : String)
  | unsupportedQosError (message : String)
  | py (e : PyExn)
  /-- not of the code: the bound on the rounds of a loop is used up -/
  | unfinished
  deriving DecidableEq, Repr

/-- `isinstance(e, MQTTError)`. -/
def Exn.isMqttError : Exn → Bool
  | .py _ | .unfinished => false
  | _ => true

/-- A built-in computation inside library code: its exception is let through. -/
def liftPy {α : Type} : Except PyExn α → Except Exn α
  | .ok a => .ok a
  | .error e => .error (.py e)

@[simp] lemma liftPy_ok {α : Type} (a : α) : liftPy (.ok a) = .ok a := rfl

@[simp] lemma liftPy_error {α : Type} (e : PyExn) :
    (liftPy (.error e) : Except Exn α) = .error (.py e) := rfl

/-! ## Packet types -/

def PACKET_CONNECT : UInt8 := 0x10
def PACKET_CONNACK : UInt8 := 0x20
def PACKET_PUBLISH : UInt8 := 0x30
def PACKET_PUBACK : UInt8 := 0x40
def PACKET_SUBSCRIBE : UInt8 := 0x82
def PACKET_SUBACK : UInt8 := 0x90
def PACKET_UNSUBSCRIBE : UInt8 := 0xA2
def PACKET_UNSUBACK : UInt8 := 0xB0
def PACKET_PINGRESP : UInt8 := 0xD0

/-- Pre-encoded PINGREQ packet. -/
def PACKET_PINGREQ : List UInt8 := [0xc0, 0x00]

/-- Pre-encoded DISCONNECT packet. -/
def PACKET_DISCONNECT : List UInt8 := [0xe0, 0x00]

/-! ## Variable-length integers -/

/-- The spec maximum of a variable-length integer. -/
def MAX_VARLEN : ℕ := 268435455

/-- The loop of `encode_varlen`: seven bits a digit, lowest first, the top bit set on every
digit but the last. A value of at most `MAX_VARLEN` needs at most four digits. -/
def encodeVarlenLoop : ℕ → ℕ → List UInt8
  | 0, _ => []
  | fuel + 1, value =>
    if value >>> 7 > 0 then
      UInt8.ofNat (value &&& 0x7F ||| 0x80) :: encodeVarlenLoop fuel (value >>> 7)
    else [UInt8.ofNat (value &&& 0x7F)]

/-- `encode_varlen(value)`. -/
def encodeVarlen (value : ℕ) : Except PyExn (List UInt8) :=
  if value > MAX_VARLEN then
    .error (.valueError ("varlen value " ++ toString value ++ " out of MQTT range"))
  else .ok (encodeVarlenLoop 4 value)

/-- The loop of `decode_varlen`, with `n` digits still allowed: the value and the number of
bytes consumed, `(0, 0)` when the integer is not complete below `limit`. -/
def decodeVarlenLoop (buffer : List UInt8) (startIndex limit : ℕ) :
    ℕ → ℕ → ℕ → ℕ → Except Exn (ℕ × ℕ)
  | 0, _, _, _ => .error (.protocolError "varlen exceeds 4 bytes (malformed)")
  | n + 1, consumed, value, shift =>
    if startIndex + consumed ≥ limit then .ok (0, 0)
    else
      match buffer[startIndex + consumed]? with
      | none => .error (.py .indexError)
      | some digit =>
        let value := value ||| (digit &&& 0x7F).toNat <<< shift
        if digit &&& 0x80 = 0 then .ok (value, consumed + 1)
        else decodeVarlenLoop buffer startIndex limit n (consumed + 1) value (shift + 7)

/-- `decode_varlen(buffer, start_index, limit)`. -/
def decodeVarlen (buffer : List UInt8) (startIndex limit : ℕ) : Except Exn (ℕ × ℕ) :=
  decodeVarlenLoop buffer startIndex limit 4 0 0 0

/-! ## Encoders -/

/-- `_append_string(buffer, value)`: a two-byte length and the bytes. -/
def appendString (buffer value : List UInt8) : Except PyExn (List UInt8) := do
  let length ← pack 2 value.length
  return buffer ++ length ++ value

/-- `_finalize_packet(packet_type, body)`. -/
def finalizePacket (packetType : UInt8) (body : List UInt8) : Except PyExn (List UInt8) := do
  let length ← encodeVarlen body.length
  return packetType :: length ++ body

/-- The keyword arguments of `encode_connect`. -/
structure ConnectArgs where
  clientId : String
  keepAliveSeconds : ℕ
  cleanSession : Bool
  username : Option String
  password : Option String
  willTopic : Option String
  willMessage : Option (List UInt8)
  willQos : ℕ
  willRetain : Bool
  deriving DecidableEq, Repr

/-- `_CONNECT_PROTOCOL_PREFIX`: two-byte length, `MQTT`, protocol level 4. -/
def CONNECT_PROTOCOL_PREFIX : List UInt8 := [0x00, 0x04, 0x4D, 0x51, 0x54, 0x54, 0x04]

/-- The flags byte of a CONNECT packet. -/
def connectFlags (args : ConnectArgs) : UInt8 :=
  let clean : UInt8 := if args.cleanSession then 0x02 else 0
  let retain : UInt8 := if args.willRetain then 0x20 else 0
  let will : UInt8 :=
    if args.willTopic.isSome then (0x04 : UInt8) ||| UInt8.ofNat ((args.willQos &&& 0x03) <<< 3) ||| retain
    else 0
  let username : UInt8 := if args.username.isSome then 0x80 else 0
  let password : UInt8 := if args.password.isSome then 0x40 else 0
  clean ||| will ||| username ||| password

/-- `_append_string` when the optional value is given. -/
def appendOptional (buffer : List UInt8) : Option (List UInt8) → Except PyExn (List UInt8)
  | none => .ok buffer
  | some value => appendString buffer value

/-- `encode_connect`. -/
def encodeConnect (args : ConnectArgs) : Except Exn (List UInt8) :=
  if args.willQos > 1 then
    .error (.unsupportedQosError "will_qos must be 0 or 1; QoS 2 is reserved-not-implemented")
  else liftPy do
    let keepAlive ← pack 2 args.keepAliveSeconds
    let body := CONNECT_PROTOCOL_PREFIX ++ [connectFlags args] ++ keepAlive
    let body ← appendString body (encodeUtf8 args.clientId)
    let body ← appendOptional body (args.willTopic.map encodeUtf8)
    let body ← appendOptional body (args.willTopic.map fun _ => args.willMessage.getD [])
    let body ← appendOptional body (args.username.map encodeUtf8)
    let body ← appendOptional body (args.password.map encodeUtf8)
    finalizePacket PACKET_CONNECT body

/-- `encode_publish`. -/
def encodePublish (topic : String) (payload : List UInt8) (qos : ℕ) (retain : Bool)
    (packetId : Option ℕ) : Except Exn (List UInt8) :=
  if qos > 1 then
    .error (.unsupportedQosError "qos must be 0 or 1; QoS 2 is reserved-not-implemented")
  else if qos > 0 ∧ packetId = none then
    .error (.py (.valueError "QoS > 0 requires a packet_id"))
  else liftPy do
    let fixedByteOne :=
      PACKET_PUBLISH ||| UInt8.ofNat (qos <<< 1) ||| (if retain then 0x01 else 0)
    let body ← appendString [] (encodeUtf8 topic)
    let identifier ← if qos > 0 then pack 2 (packetId.getD 0) else .ok []
    finalizePacket fixedByteOne (body ++ identifier ++ payload)

/-- The loop of `encode_subscribe` over its pairs. -/
def appendSubscriptions (body : List UInt8) : List (String × ℕ) → Except PyExn (List UInt8)
  | [] => .ok body
  | (topic, qos) :: pairs => do
    let body ← appendString body (encodeUtf8 topic)
    appendSubscriptions (body ++ [UInt8.ofNat (qos &&& 0x03)]) pairs

/-- `encode_subscribe`. -/
def encodeSubscribe (packetId : ℕ) (subscriptions : List (String × ℕ)) :
    Except Exn (List UInt8) :=
  if subscriptions = [] then
    .error (.py (.valueError "SUBSCRIBE requires at least one (topic, qos) pair"))
  else if subscriptions.any fun pair => pair.2 > 1 then
    .error (.unsupportedQosError
      "subscription qos must be 0 or 1; QoS 2 is reserved-not-implemented")
  else liftPy do
    let identifier ← pack 2 packetId
    let body ← appendSubscriptions identifier subscriptions
    finalizePacket PACKET_SUBSCRIBE body

/-- The loop of `encode_unsubscribe` over its topics. -/
def appendTopics (body : List UInt8) : List String → Except PyExn (List UInt8)
  | [] => .ok body
  | topic :: topics => do
    let body ← appendString body (encodeUtf8 topic)
    appendTopics body topics

/-- `encode_unsubscribe`. -/
def encodeUnsubscribe (packetId : ℕ) (topics : List String) : Except Exn (List UInt8) :=
  if topics = [] then
    .error (.py (.valueError "UNSUBSCRIBE requires at least one topic"))
  else liftPy do
    let identifier ← pack 2 packetId
    let body ← appendTopics identifier topics
    finalizePacket PACKET_UNSUBSCRIBE body

/-- `encode_puback`. -/
def encodePuback (packetId : ℕ) : Except PyExn (List UInt8) := do
  let identifier ← pack 2 packetId
  return [PACKET_PUBACK, 2] ++ identifier

/-! ## First bytes -/

/-- Bytes that start like a PUBLISH. -/
def PublishBytes (bytes : List UInt8) : Prop :=
  ∃ first rest, bytes = first :: rest ∧ first &&& 0xF0 = PACKET_PUBLISH

section FirstByte

variable {bytes : List UInt8}

lemma liftPy_eq_ok {α : Type} {x : Except PyExn α} {a : α} : liftPy x = .ok a ↔ x = .ok a := by
  cases x with
  | error e => simp
  | ok b => simp

lemma finalizePacket_eq_cons {packetType : UInt8} {body : List UInt8}
    (h : finalizePacket packetType body = .ok bytes) : ∃ rest, bytes = packetType :: rest := by
  obtain ⟨length, -, h⟩ := bind_eq_ok.mp h
  cases h
  exact ⟨_, rfl⟩

lemma encodeConnect_eq_cons {args : ConnectArgs} (h : encodeConnect args = .ok bytes) :
    ∃ rest, bytes = PACKET_CONNECT :: rest := by
  unfold encodeConnect at h
  split at h
  · cases h
  · obtain ⟨_, -, h⟩ := bind_eq_ok.mp (liftPy_eq_ok.mp h)
    obtain ⟨_, -, h⟩ := bind_eq_ok.mp h
    obtain ⟨_, -, h⟩ := bind_eq_ok.mp h
    obtain ⟨_, -, h⟩ := bind_eq_ok.mp h
    obtain ⟨_, -, h⟩ := bind_eq_ok.mp h
    obtain ⟨_, -, h⟩ := bind_eq_ok.mp h
    exact finalizePacket_eq_cons h

variable {packetId : ℕ}

lemma encodeSubscribe_eq_cons {subscriptions : List (String × ℕ)}
    (h : encodeSubscribe packetId subscriptions = .ok bytes) :
    ∃ rest, bytes = PACKET_SUBSCRIBE :: rest := by
  unfold encodeSubscribe at h
  split at h
  · cases h
  · split at h
    · cases h
    · obtain ⟨_, -, h⟩ := bind_eq_ok.mp (liftPy_eq_ok.mp h)
      obtain ⟨_, -, h⟩ := bind_eq_ok.mp h
      exact finalizePacket_eq_cons h

lemma encodeUnsubscribe_eq_cons {topics : List String}
    (h : encodeUnsubscribe packetId topics = .ok bytes) :
    ∃ rest, bytes = PACKET_UNSUBSCRIBE :: rest := by
  unfold encodeUnsubscribe at h
  split at h
  · cases h
  · obtain ⟨_, -, h⟩ := bind_eq_ok.mp (liftPy_eq_ok.mp h)
    obtain ⟨_, -, h⟩ := bind_eq_ok.mp h
    exact finalizePacket_eq_cons h

/-- The first byte of a PUBLISH is its type with the flags. -/
lemma publishBytes_encodePublish {topic : String} {payload : List UInt8} {qos : ℕ} {retain : Bool}
    {packetId : Option ℕ} (h : encodePublish topic payload qos retain packetId = .ok bytes) :
    PublishBytes bytes := by
  have hflags : ∀ qos < 2, ∀ retain : Bool, (PACKET_PUBLISH ||| UInt8.ofNat (qos <<< 1) |||
      (if retain then 0x01 else 0)) &&& 0xF0 = PACKET_PUBLISH := by decide
  unfold encodePublish at h
  split at h
  · cases h
  · rename_i hqos
    split at h
    · cases h
    · obtain ⟨_, -, h⟩ := bind_eq_ok.mp (liftPy_eq_ok.mp h)
      have hfinal : ∃ body, finalizePacket (PACKET_PUBLISH ||| UInt8.ofNat (qos <<< 1) |||
          (if retain then 0x01 else 0)) body = .ok bytes := by
        dsimp only at h
        split at h
        · obtain ⟨_, -, h⟩ := bind_eq_ok.mp h
          exact ⟨_, h⟩
        · exact ⟨_, h⟩
      obtain ⟨body, hbody⟩ := hfinal
      obtain ⟨rest, rfl⟩ := finalizePacket_eq_cons hbody
      exact ⟨_, _, rfl, hflags qos (by omega) retain⟩

lemma encodePuback_eq_cons (h : encodePuback packetId = .ok bytes) :
    ∃ rest, bytes = PACKET_PUBACK :: rest := by
  obtain ⟨_, -, h⟩ := bind_eq_ok.mp h
  cases h
  exact ⟨_, rfl⟩

end FirstByte

/-! ## What can be encoded -/

lemma finalizePacket_ok {packetType : UInt8} {body : List UInt8} (h : body.length ≤ MAX_VARLEN) :
    ∃ bytes, finalizePacket packetType body = .ok bytes := by
  refine ⟨packetType :: encodeVarlenLoop 4 body.length ++ body, ?_⟩
  rw [finalizePacket, encodeVarlen, if_neg (by omega)]
  rfl

variable {packetId qos : ℕ} {topic : String}

/-- A topic that fits its length field and a QoS of at most 1 make a SUBSCRIBE. -/
lemma encodeSubscribe_ok (hid : packetId ≤ 65535) (hqos : qos ≤ 1)
    (htopic : (encodeUtf8 topic).length ≤ 65535) :
    ∃ bytes, encodeSubscribe packetId [(topic, qos)] = .ok bytes := by
  obtain ⟨bytes, hbytes⟩ := @finalizePacket_ok PACKET_SUBSCRIBE
    (Bytes.be 2 packetId ++ Bytes.be 2 (encodeUtf8 topic).length ++ encodeUtf8 topic ++
      [UInt8.ofNat (qos &&& 0x03)]) (by simp [Bytes.length_be, MAX_VARLEN]; omega)
  refine ⟨bytes, ?_⟩
  rw [encodeSubscribe, if_neg (by simp), if_neg (by simpa using hqos), pack_two hid]
  simp only [appendSubscriptions, appendString, pack_two htopic]
  exact liftPy_eq_ok.mpr hbytes

/-- Nothing else makes a SUBSCRIBE. -/
lemma of_encodeSubscribe_ok {bytes : List UInt8}
    (h : encodeSubscribe packetId [(topic, qos)] = .ok bytes) :
    qos ≤ 1 ∧ (encodeUtf8 topic).length ≤ 65535 := by
  unfold encodeSubscribe at h
  split at h
  · cases h
  · split at h
    · cases h
    · rename_i hqos
      obtain ⟨_, -, h⟩ := bind_eq_ok.mp (liftPy_eq_ok.mp h)
      obtain ⟨_, hbody, -⟩ := bind_eq_ok.mp h
      obtain ⟨_, hstring, -⟩ := bind_eq_ok.mp hbody
      obtain ⟨length, hlength, -⟩ := bind_eq_ok.mp hstring
      refine ⟨by simpa using hqos, ?_⟩
      unfold pack at hlength
      split at hlength
      · omega
      · cases hlength

/-- Whether a PUBLISH can be encoded does not depend on its packet identifier. -/
lemma encodePublish_ok {payload bytes : List UInt8} {retain : Bool}
    (h : encodePublish topic payload qos retain (some 1) = .ok bytes) (hid : packetId ≤ 65535) :
    ∃ bytes', encodePublish topic payload qos retain (some packetId) = .ok bytes' := by
  unfold encodePublish at h ⊢
  split at h
  · cases h
  · rename_i hqos
    rw [if_neg hqos, if_neg (by simp)]
    rw [if_neg (by simp)] at h
    obtain ⟨body, hbody, h⟩ := bind_eq_ok.mp (liftPy_eq_ok.mp h)
    rw [hbody]
    dsimp only at h
    split at h
    · rename_i hpos
      obtain ⟨identifier, hidentifier, h⟩ := bind_eq_ok.mp h
      obtain ⟨length, hlength, -⟩ := bind_eq_ok.mp h
      have hle : (body ++ identifier ++ payload).length ≤ MAX_VARLEN := by
        unfold encodeVarlen at hlength
        split at hlength
        · cases hlength
        · omega
      have hsize := length_of_pack hidentifier
      obtain ⟨bytes', hbytes'⟩ := @finalizePacket_ok
        (PACKET_PUBLISH ||| UInt8.ofNat (qos <<< 1) ||| (if retain then 0x01 else 0))
        (body ++ Bytes.be 2 packetId ++ payload)
        (by simpa [Bytes.length_be, hsize] using hle)
      refine ⟨bytes', liftPy_eq_ok.mpr ?_⟩
      simp only [ok_bind, if_pos hpos, Option.getD_some, pack_two hid]
      exact hbytes'
    · rename_i hpos
      refine ⟨bytes, liftPy_eq_ok.mpr ?_⟩
      simp only [ok_bind, if_neg hpos]
      exact h

/-- A PUBLISH at QoS 0 has no packet identifier. -/
lemma encodePublish_qos0 (topic : String) (payload : List UInt8) (retain : Bool) (packetId : Option ℕ) :
    encodePublish topic payload 0 retain packetId = encodePublish topic payload 0 retain none := by
  simp [encodePublish]

end ChuMicro.Mqtt
