import ChuMicro.Mqtt.DecoderProgress
import ChuMicro.Lib.Base128

/-!
# What is published is what is parsed

The packet encoder and the packet decoder against each other. The remaining length is a number in
groups of seven bits (`Base128`), of which the encoder writes the shortest form and the decoder
reads any form of at most four bytes. A PUBLISH that fits the receive buffer is parsed to what was
published; a longer one is reported with its remaining length, and with its topic and packet
identifier where these fit the buffer.

## Main results

* `Mqtt.encodeVarlen_eq`, `Mqtt.decodeVarlen_of_marked`, `Mqtt.marked_of_decodeVarlen` — the
  variable-length integers of the wire format.
* `Mqtt.encodePublish_eq` — the bytes of a PUBLISH.
* `Mqtt.scanPacket_publish` — the decoder on those bytes.
* `Mqtt.publish_roundTrip` — the round trip, however the bytes arrive.
-/

namespace ChuMicro.Mqtt

open Bytes Streaming

/-! ## Variable-length integers -/

/-- The bits of a digit. -/
lemma digit_bits (digit : UInt8) :
    (digit &&& 0x7F).toNat = digit.toNat % 128 ∧ (digit &&& 0x80 = 0 ↔ digit.toNat < 128) := by
  have htable : ∀ n < 256, (UInt8.ofNat n &&& 0x7F).toNat = n % 128 ∧
      (UInt8.ofNat n &&& 0x80 = 0 ↔ n < 128) := by decide +kernel
  have h := htable digit.toNat digit.toNat_lt
  rwa [UInt8.ofNat_toNat] at h

/-- The digit the encoder writes before another one. -/
lemma continued_digit (value : ℕ) :
    UInt8.ofNat (value &&& 0x7F ||| 0x80) = UInt8.ofNat (value % 128 + 128) := by
  have htable : ∀ n < 128, n ||| 0x80 = n + 128 := by decide +kernel
  rw [show value &&& 0x7F = value % 128 from Nat.and_two_pow_sub_one_eq_mod value 7,
    htable _ (Nat.mod_lt _ (by decide))]

variable {value : ℕ} {buffer digits : List UInt8} {start : ℕ}

/-- The loop writes the shortest form. -/
lemma encodeVarlenLoop_eq {fuel : ℕ} (hf : 0 < fuel) (h : value < 128 ^ fuel) :
    encodeVarlenLoop fuel value = Base128.encode value := by
  induction fuel, hf using Nat.le_induction generalizing value with
  | base =>
    have hlt : value < 128 := by simpa using h
    have hshift : ¬ value >>> 7 > 0 := by
      rw [Nat.shiftRight_eq_div_pow]
      omega
    rw [encodeVarlenLoop, if_neg hshift, Base128.encode_of_lt hlt,
      show value &&& 0x7F = value % 128 from Nat.and_two_pow_sub_one_eq_mod value 7,
      Nat.mod_eq_of_lt hlt]
  | succ fuel hf ih =>
    have hdiv : value >>> 7 = value / 128 := Nat.shiftRight_eq_div_pow value 7
    by_cases hlt : value < 128
    · rw [encodeVarlenLoop, if_neg (by omega), Base128.encode_of_lt hlt,
        show value &&& 0x7F = value % 128 from Nat.and_two_pow_sub_one_eq_mod value 7,
        Nat.mod_eq_of_lt hlt]
    · have hless : value / 128 < 128 ^ fuel := by
        rw [Nat.div_lt_iff_lt_mul (by omega), ← pow_succ]
        exact h
      rw [encodeVarlenLoop, if_pos (by omega), Base128.encode_of_not_lt hlt, continued_digit, hdiv,
        ih hless]

/-- `encode_varlen` writes the shortest form, of at most four bytes. -/
theorem encodeVarlen_eq (h : value ≤ MAX_VARLEN) :
    encodeVarlen value = .ok (Base128.encode value) ∧ (Base128.encode value).length ≤ 4 := by
  have hlt : value < 128 ^ 4 := by
    unfold MAX_VARLEN at h
    omega
  refine ⟨?_, Base128.length_encode_le_of_lt (by omega) hlt⟩
  rw [encodeVarlen, if_neg (by omega), encodeVarlenLoop_eq (by omega) hlt]

/-- The loop of `decode_varlen` on a form that lies in the buffer. The groups read before are below
the ones still to come, so that joining their bits is adding.

**Proof sketch.** Induction on the form. -/
lemma decodeVarlenLoop_of_marked {limit n consumed acc shift : ℕ} (hm : Base128.Marked digits)
    (hat : IsAt buffer (start + consumed) digits)
    (hlimit : start + consumed + digits.length ≤ limit) (hn : digits.length ≤ n)
    (hacc : acc < 2 ^ shift) :
    decodeVarlenLoop buffer start limit n consumed acc shift =
      .ok (acc + Base128.value digits * 2 ^ shift, consumed + digits.length) := by
  induction digits generalizing n consumed acc shift with
  | nil => exact hm.elim
  | cons digit digits ih =>
    obtain ⟨n, rfl⟩ : ∃ m, n = m + 1 := ⟨n - 1, by simp only [List.length_cons] at hn; omega⟩
    simp only [List.length_cons] at hlimit hn
    obtain ⟨hlow, htop⟩ := digit_bits digit
    have hor : acc ||| (digit.toNat % 128) <<< shift = acc + digit.toNat % 128 * 2 ^ shift := by
      rw [Nat.or_comm, ← Nat.shiftLeft_add_eq_or_of_lt hacc, Nat.shiftLeft_eq, Nat.add_comm]
    rw [decodeVarlenLoop, if_neg (by omega), hat.getElem?]
    simp only [hlow, hor, htop]
    rw [Base128.Marked] at hm
    by_cases hd : digit.toNat < 128
    · rw [if_pos hd] at hm
      subst hm
      rw [if_pos hd]
      simp [Base128.value]
    · rw [if_neg hd] at hm
      have hacc' : acc + digit.toNat % 128 * 2 ^ shift < 2 ^ (shift + 7) := by
        have hmod : digit.toNat % 128 ≤ 127 := by omega
        have hmul := Nat.mul_le_mul_right (2 ^ shift) hmod
        rw [pow_add]
        omega
      rw [if_neg hd, ih hm (by simpa [Nat.add_assoc] using hat.tail) (by omega) (by omega) hacc',
        Base128.value, List.length_cons, pow_add]
      congr 2
      · ring
      · omega

/-- What `decode_varlen` accepts is a form of the number it returns. -/
lemma marked_of_decodeVarlenLoop {limit n consumed acc shift k : ℕ}
    (h : decodeVarlenLoop buffer start limit n consumed acc shift = .ok (value, k)) (hk : k ≠ 0)
    (hacc : acc < 2 ^ shift) :
    ∃ digits, Base128.Marked digits ∧ IsAt buffer (start + consumed) digits ∧
      k = consumed + digits.length ∧ value = acc + Base128.value digits * 2 ^ shift := by
  induction n generalizing consumed acc shift with
  | zero => simp [decodeVarlenLoop] at h
  | succ n ih =>
    rw [decodeVarlenLoop] at h
    split at h
    · cases h
      exact absurd rfl hk
    · cases hget : buffer[start + consumed]? with
      | none => simp [hget] at h
      | some digit =>
        obtain ⟨hlow, htop⟩ := digit_bits digit
        have hor : acc ||| (digit.toNat % 128) <<< shift = acc + digit.toNat % 128 * 2 ^ shift := by
          rw [Nat.or_comm, ← Nat.shiftLeft_add_eq_or_of_lt hacc, Nat.shiftLeft_eq, Nat.add_comm]
        obtain ⟨hi, heq⟩ := List.getElem?_eq_some_iff.mp hget
        simp only [hget, hlow, hor, htop] at h
        by_cases hd : digit.toNat < 128
        · rw [if_pos hd] at h
          cases h
          refine ⟨[digit], by rw [Base128.Marked, if_pos hd], ?_, rfl, by simp [Base128.value]⟩
          refine ⟨buffer.take (start + consumed), buffer.drop (start + consumed + 1), ?_, by simp; omega⟩
          rw [List.append_assoc, ← heq, List.singleton_append, List.cons_getElem_drop_succ,
            List.take_append_drop]
        · rw [if_neg hd] at h
          have hacc' : acc + digit.toNat % 128 * 2 ^ shift < 2 ^ (shift + 7) := by
            have hmod : digit.toNat % 128 ≤ 127 := by omega
            have hmul := Nat.mul_le_mul_right (2 ^ shift) hmod
            rw [pow_add]
            omega
          obtain ⟨digits, hm, hat, hlen, hv⟩ := ih h hacc'
          refine ⟨digit :: digits, by rw [Base128.Marked, if_neg hd]; exact hm, ?_, ?_, ?_⟩
          · obtain ⟨before, after, hbuf, hlast⟩ := hat
            refine ⟨buffer.take (start + consumed), after, ?_, by simp; omega⟩
            have hbefore : before = buffer.take (start + consumed) ++ [digit] := by
              have htake : buffer.take (start + (consumed + 1)) = before := by
                rw [← hlast, hbuf, List.append_assoc]
                exact List.take_left
              rw [← htake, ← Nat.add_assoc, List.take_add_one, hget]
              rfl
            exact hbuf.trans (by rw [hbefore]; simp)
          · rw [hlen, List.length_cons]
            omega
          · rw [hv, Base128.value, pow_add]
            ring

/-- `decode_varlen` reads a form of at most four bytes, whatever follows it. -/
theorem decodeVarlen_of_marked (hm : Base128.Marked digits) (hat : IsAt buffer start digits)
    (hlen : digits.length ≤ 4) :
    decodeVarlen buffer start buffer.length = .ok (Base128.value digits, digits.length) := by
  have hacc : (0 : ℕ) < 2 ^ 0 := Nat.one_pos
  have hread : decodeVarlenLoop buffer start buffer.length 4 0 0 0 =
      .ok (0 + Base128.value digits * 2 ^ 0, 0 + digits.length) :=
    decodeVarlenLoop_of_marked hm hat hat.le hlen hacc
  simpa [decodeVarlen] using hread

/-- What `decode_varlen` accepts as a whole is a form of the number it returns. -/
theorem marked_of_decodeVarlen (hne : digits ≠ [])
    (h : decodeVarlen digits 0 digits.length = .ok (value, digits.length)) :
    Base128.Marked digits ∧ Base128.value digits = value := by
  have hacc : (0 : ℕ) < 2 ^ 0 := Nat.one_pos
  obtain ⟨read, hm, ⟨before, after, heq, hzero⟩, hlen, hv⟩ :=
    marked_of_decodeVarlenLoop h (by simpa using hne) hacc
  rw [List.length_eq_zero_iff.mp hzero, List.nil_append] at heq
  have hafter : after = [] := by
    have hall := congrArg List.length heq
    rw [List.length_append] at hall
    exact List.length_eq_zero_iff.mp (by omega)
  rw [hafter, List.append_nil] at heq
  rw [heq]
  exact ⟨hm, by simpa using hv.symm⟩

/-! ## The bytes of a PUBLISH -/

/-- The first byte of a PUBLISH. -/
def publishFirst (qos : ℕ) (retain : Bool) : UInt8 :=
  PACKET_PUBLISH ||| UInt8.ofNat (qos <<< 1) ||| (if retain then 0x01 else 0)

/-- The packet identifier of a PUBLISH, if its QoS has one. -/
def publishIdentifier (qos packetId : ℕ) : List UInt8 :=
  if qos > 0 then Bytes.be 2 packetId else []

/-- What follows the fixed header of a PUBLISH. -/
def publishBody (topic : String) (payload : List UInt8) (qos packetId : ℕ) : List UInt8 :=
  Bytes.be 2 (encodeUtf8 topic).length ++ encodeUtf8 topic ++ publishIdentifier qos packetId ++
    payload

/-- The first byte says that it is a PUBLISH, and its QoS. -/
lemma publishFirst_bits {qos : ℕ} (hqos : qos ≤ 1) (retain : Bool) :
    publishFirst qos retain &&& 0xF0 = PACKET_PUBLISH ∧
      publishQos (publishFirst qos retain) = qos := by
  have htable : ∀ qos < 2, ∀ retain, publishFirst qos retain &&& 0xF0 = PACKET_PUBLISH ∧
      publishQos (publishFirst qos retain) = qos := by decide +kernel
  exact htable qos (by omega) retain

section Publish

variable {topic : String} {payload : List UInt8} {qos packetId : ℕ}

/-- The bytes of a PUBLISH, or the exception for a body that is too long. -/
theorem encodePublish_eq (htopic : (encodeUtf8 topic).length ≤ 65535) (hqos : qos ≤ 1)
    (hid : packetId ≤ 65535) (retain : Bool) :
    encodePublish topic payload qos retain (some packetId) =
      liftPy (finalizePacket (publishFirst qos retain) (publishBody topic payload qos packetId)) := by
  rw [encodePublish, if_neg (by omega), if_neg (by simp)]
  simp only [appendString, pack_two htopic, Option.getD_some, publishBody, publishIdentifier]
  by_cases hpos : qos > 0
  · simp only [hpos, if_true, pack_two hid, ok_bind, pure, Except.pure, List.nil_append,
      publishFirst]
  · simp only [hpos, if_false, ok_bind, pure, Except.pure, List.nil_append, publishFirst]

/-- A body of at most `MAX_VARLEN` bytes makes a packet. -/
lemma finalizePacket_eq {packetType : UInt8} {body : List UInt8} (h : body.length ≤ MAX_VARLEN) :
    finalizePacket packetType body = .ok (packetType :: Base128.encode body.length ++ body) := by
  rw [finalizePacket, (encodeVarlen_eq h).1]
  rfl

/-- A longer body does not. -/
lemma finalizePacket_eq_error {packetType : UInt8} {body : List UInt8}
    (h : ¬ body.length ≤ MAX_VARLEN) :
    finalizePacket packetType body = .error (.valueError
      ("varlen value " ++ toString body.length ++ " out of MQTT range")) := by
  rw [finalizePacket, encodeVarlen, if_pos (by omega)]
  rfl

/-- What a decoder with a buffer of `size` bytes makes of a PUBLISH of `total` bytes. -/
def received (size total : ℕ) (topic : String) (payload : List UInt8) (qos packetId : ℕ) : Inbound :=
  let remaining := (publishBody topic payload qos packetId).length
  let identifier := if qos > 0 then some packetId else none
  if total ≤ size then .publish ⟨topic, payload, qos, identifier⟩
  else if total - payload.length ≤ size then .oversized ⟨some topic, remaining, qos, identifier⟩
  else .oversized ⟨none, remaining, qos, none⟩

variable {data : List UInt8} {header : ℕ}

/-- A big-endian field of two bytes is read back. -/
lemma unpack_slice {o value : ℕ} (h : IsAt data o (Bytes.be 2 value)) (hv : value ≤ 65535) :
    unpack 2 (slice data o (o + 2)) = .ok value := by
  have hslice := h.slice_eq
  rw [length_be] at hslice
  rw [hslice]
  exact unpack_of_pack (pack_two hv)

/-- Where the fields of a PUBLISH lie, after a header of `header` bytes. -/
structure Fields (data : List UInt8) (header : ℕ) (topic : String) (payload : List UInt8)
    (qos packetId : ℕ) : Prop where
  lengthAt : IsAt data header (Bytes.be 2 (encodeUtf8 topic).length)
  topicAt : IsAt data (header + 2) (encodeUtf8 topic)
  identifierAt : qos > 0 →
    IsAt data (header + 2 + (encodeUtf8 topic).length) (Bytes.be 2 packetId)
  payloadAt : IsAt data (header + 2 + (encodeUtf8 topic).length + if qos > 0 then 2 else 0) payload

lemma length_publishIdentifier (qos packetId : ℕ) :
    (publishIdentifier qos packetId).length = if qos > 0 then 2 else 0 := by
  unfold publishIdentifier
  split
  · exact length_be _ _
  · rfl

lemma length_publishBody : (publishBody topic payload qos packetId).length =
    2 + (encodeUtf8 topic).length + (if qos > 0 then 2 else 0) + payload.length := by
  simp only [publishBody, List.length_append, length_be, length_publishIdentifier]

/-- The fields of a body that lies behind the header. -/
lemma fields_of_isAt (h : IsAt data header (publishBody topic payload qos packetId)) :
    Fields data header topic payload qos packetId where
  lengthAt := h.left.left.left
  topicAt := by simpa [length_be] using h.left.left.right
  identifierAt hpos := by
    have hid := h.left.right
    rw [publishIdentifier, if_pos hpos] at hid
    simpa [length_be, Nat.add_assoc] using hid
  payloadAt := by
    have hp := h.right
    simp only [List.length_append, length_be, length_publishIdentifier] at hp
    simpa only [Nat.add_assoc] using hp

/-- A PUBLISH whose packet is complete is parsed to its fields. -/
lemma parsePublish_of_fields {first : UInt8} (h : Fields data header topic payload qos packetId)
    (hfirst : publishQos first = qos) (htopic : (encodeUtf8 topic).length ≤ 65535)
    (hid : packetId ≤ 65535) :
    parsePublish first data header (header + (publishBody topic payload qos packetId).length) =
      .ok ⟨topic, payload, qos, if qos > 0 then some packetId else none⟩ := by
  have hlen := @length_publishBody topic payload qos packetId
  have hend : header + (publishBody topic payload qos packetId).length =
      header + 2 + (encodeUtf8 topic).length + (if qos > 0 then 2 else 0) + payload.length := by
    omega
  have hpayload := h.payloadAt.slice_eq
  rw [parsePublish, hfirst, hend, if_neg (by omega), unpack_slice h.lengthAt htopic]
  simp only [liftPy_ok, ok_bind]
  rw [if_neg (by omega), h.topicAt.slice_eq, decodeUtf8_encodeUtf8]
  simp only [liftPy_ok, ok_bind]
  by_cases hpos : qos > 0
  · simp only [hpos, if_true] at hpayload ⊢
    rw [if_neg (by omega), unpack_slice (h.identifierAt hpos) hid, hpayload]
    rfl
  · simp only [hpos, if_false, Nat.add_zero] at hpayload ⊢
    rw [hpayload]
    rfl

/-- The report on a PUBLISH that is longer than the buffer. -/
lemma oversizedReport_of_fields {size messageLength : ℕ} {first : UInt8}
    (h : Fields data header topic payload qos packetId) (hqos : publishQos first = qos)
    (htype : first &&& 0xF0 = PACKET_PUBLISH) (htopic : (encodeUtf8 topic).length ≤ 65535)
    (hid : packetId ≤ 65535) :
    oversizedReport size first messageLength header data = .ok (some
      (if header + 2 + (encodeUtf8 topic).length + (if qos > 0 then 2 else 0) ≤ size then
        ⟨some topic, messageLength, qos, if qos > 0 then some packetId else none⟩
      else ⟨none, messageLength, qos, none⟩)) := by
  have htwo := h.lengthAt.le
  have hprelude := h.payloadAt.le
  rw [length_be] at htwo
  rw [oversizedReport, if_neg (by simp [htype]), if_neg (by omega),
    unpack_slice h.lengthAt htopic]
  simp only [liftPy_ok, ok_bind, hqos]
  by_cases hfits : header + 2 + (encodeUtf8 topic).length + (if qos > 0 then 2 else 0) ≤ size
  · rw [if_neg (by omega), if_neg (by omega), if_pos hfits, h.topicAt.slice_eq,
      decodeUtf8_encodeUtf8]
    simp only [liftPy_ok, ok_bind]
    by_cases hpos : qos > 0
    · simp only [hpos, if_true]
      rw [unpack_slice (h.identifierAt hpos) hid]
      rfl
    · simp only [hpos, if_false]
      rfl
  · rw [if_pos (by omega), if_neg hfits]
    rfl

/-- **The decoder on the bytes of a PUBLISH.** -/
theorem scanPacket_publish (size : ℕ) (htopic : (encodeUtf8 topic).length ≤ 65535) (hqos : qos ≤ 1)
    (hid : packetId ≤ 65535) {retain : Bool} {bytes : List UInt8}
    (h : encodePublish topic payload qos retain (some packetId) = .ok bytes) :
    scanPacket size bytes =
      .item (received size bytes.length topic payload qos packetId) bytes.length := by
  rw [encodePublish_eq htopic hqos hid, liftPy_eq_ok] at h
  set body := publishBody topic payload qos packetId with hbody
  have hmax : body.length ≤ MAX_VARLEN := by
    by_contra hno
    rw [finalizePacket_eq_error hno] at h
    cases h
  rw [finalizePacket_eq hmax] at h
  cases h
  set first := publishFirst qos retain
  set length := Base128.encode body.length with hlength
  obtain ⟨htype, hq⟩ := publishFirst_bits hqos retain
  have hpos : 0 < length.length := Base128.length_encode_pos _
  have htotal : (first :: length ++ body).length = 1 + length.length + body.length := by
    simp only [List.cons_append, List.length_cons, List.length_append]
    omega
  have hvar : decodeVarlen (first :: length ++ body) 1 (first :: length ++ body).length =
      .ok (body.length, length.length) := by
    have hat : IsAt (first :: length ++ body) 1 length := ⟨[first], body, by simp, rfl⟩
    have hread := decodeVarlen_of_marked (Base128.marked_encode _) hat (encodeVarlen_eq hmax).2
    rwa [Base128.value_encode] at hread
  have hfields : Fields (first :: length ++ body) (1 + length.length) topic payload qos packetId :=
    fields_of_isAt ⟨first :: length, [], by simp [hbody], by simp [Nat.add_comm]⟩
  have hbodyLength : body.length = 2 + (encodeUtf8 topic).length + (if qos > 0 then 2 else 0) +
      payload.length := length_publishBody
  rw [scanPacket_of_header (by omega) rfl hvar (by omega), htotal, received]
  by_cases hsize : 1 + length.length + body.length ≤ size
  · rw [if_neg (by omega), if_neg (by omega), if_pos hsize, parsePacket, if_pos htype,
      parsePublish_of_fields hfields hq htopic hid]
    rfl
  · rw [if_pos (by omega), oversizedReport_of_fields hfields hq htype htopic hid, if_neg hsize]
    simp only [lt_irrefl, if_false]
    have hprelude : 1 + length.length + body.length - payload.length =
        1 + length.length + 2 + (encodeUtf8 topic).length + (if qos > 0 then 2 else 0) := by
      omega
    rw [hprelude]
    by_cases hfits : 1 + length.length + 2 + (encodeUtf8 topic).length + (if qos > 0 then 2 else 0) ≤
        size
    · rw [if_pos hfits, if_pos hfits]
    · rw [if_neg hfits, if_neg hfits]

end Publish

/-! ## Delivery -/

namespace PacketDecoder

/-- A call of `read_next` that returns `None` leaves a cursor at the start of the buffer there. -/
lemma readOffset_of_readNext {size : ℕ} {d d' : PacketDecoder} (hwf : d.Wf size)
    (h : d.readNext = .ok (none, d')) (hzero : d.readOffset = 0) : d'.readOffset = 0 := by
  cases hm : d.drainMode with
  | oversized =>
    simp only [readNext, hm, maybeFinishOversized] at h
    split at h
    · cases h
      exact hzero
    · cases h
  | none =>
    obtain ⟨hshort, -, hcut⟩ := readNext_of_no_header hwf hm
    rcases scanPacket_cases size d.live with ⟨hlen, -⟩ | ⟨m, hlen, hvar, -⟩ | ⟨e, hlen, hvar, -⟩ |
      ⟨first, m, c, hlen, hfirst, hvar, hc⟩
    · rw [hshort hlen] at h
      cases h
      exact hzero
    · rw [hcut m hlen hvar] at h
      cases h
      exact hzero
    · rw [(readNext_of_no_header hwf hm).2.1 e hlen hvar] at h
      cases h
    · rw [readNext_of_header hwf hm hlen hfirst hvar hc] at h
      split at h
      · rename_i hbig
        rw [enterDrainPath_eq hwf first m (1 + c) _ hbig] at h
        split at h
        · cases h
        · cases h
          exact hzero
        · cases h
          rfl
      · split at h
        · cases h
          split
          · rfl
          · exact hzero
        · split at h
          · cases h
          · cases h

/-- A legal piece that completes nothing, and the room after it. -/
lemma feed_of_more {size : ℕ} (hsize : 8 ≤ size) {d : PacketDecoder} {p c : List UInt8}
    (hr : Reachable size d) (h : d.Holds size p) (hzero : d.readOffset = 0) (hnil : c ≠ [])
    (hc : c.length ≤ d.fillCapacity) (hmore : scanPacket size (p ++ c) = .more) :
    Reachable size (d.feed c).2.2 ∧ (d.feed c).2.2.readOffset = 0 ∧
      0 < (d.feed c).2.2.fillCapacity := by
  have hholds := fill_holds h hc
  obtain ⟨d', hread, -⟩ := (readNext_spec hholds).more hmore
  have hfill : (d.fill c).readOffset = 0 := by
    rw [fill, advance]
    split
    · exact hzero
    · split
      · exact hzero
      · exact hzero
  have hfeed : (d.feed c).2.2 = d' := by
    rw [feed, readAll, hread]
  rw [hfeed]
  have hreach := Reachable.fill hr hnil hc
  refine ⟨.read hreach hread, readOffset_of_readNext hholds.wf hread hfill, ?_⟩
  refine (fillCapacity_pos_iff hsize hreach hread).mpr fun hstuck => ?_
  exact absurd hfill hstuck.2.2.1.ne'

end PacketDecoder

open PacketDecoder

/-- A proper part of an encoding is not decided. -/
lemma scanPacket_of_prefix {size : ℕ} {p u : List UInt8} {a : Inbound} (hu : u ≠ [])
    (h : scanPacket size (p ++ u) = .item a (p ++ u).length) : scanPacket size p = .more := by
  have hlen : 0 < u.length := List.length_pos_iff.mpr hu
  cases hs : scanPacket size p with
  | more => rfl
  | fail e =>
    have hboth : Scan.fail e = Scan.item a _ := ((packetScanner size).fail_append hs u).symm.trans h
    cases hboth
  | item b n =>
    have hle := (packetScanner size).item_le hs
    have heq := (packetScanner size).item_append hs u
    have hn : n = (p ++ u).length := by
      have hboth := heq.symm.trans h
      cases hboth
      rfl
    rw [List.length_append] at hn
    omega

/-- While a packet arrives at a fresh decoder there is room for its next byte. -/
lemma room_of_prefix {size : ℕ} (hsize : 8 ≤ size) {bytes u : List UInt8} {a : Inbound}
    (h : scanPacket size bytes = .item a bytes.length) (hu : u ≠ []) (cs : List (List UInt8)) :
    ∀ (d : PacketDecoder) (p : List UInt8), p ++ cs.flatten ++ u = bytes →
      Reachable size d → (decoderReader size).Sim d p → d.readOffset = 0 → 0 < d.fillCapacity →
      (decoderReader size).LegalRun d cs →
      0 < ((decoderReader size).run d cs).2.2.fillCapacity := by
  induction cs with
  | nil => exact fun d p _ _ _ _ hcap _ => hcap
  | cons c cs ih =>
    intro d p hflat hr hsim hzero _ hleg
    obtain ⟨⟨hnil, hc⟩, hcs⟩ := hleg
    have hflat' : (p ++ c) ++ cs.flatten ++ u = bytes := by simpa using hflat
    have hmore : scanPacket size (p ++ c) = .more := by
      rw [← hflat', List.append_assoc] at h
      refine scanPacket_of_prefix (u := cs.flatten ++ u) ?_ h
      simp [hu]
    have hall := (packetScanner size).all_of_more hmore
    have hitems := (decoderReader size).feed_items hsim ⟨hnil, hc⟩
    have herror := (decoderReader size).feed_error hsim ⟨hnil, hc⟩
    have hsim' := (decoderReader size).feed_sim hsim ⟨hnil, hc⟩ (by rw [hall])
    obtain ⟨hr', hzero', hcap'⟩ := feed_of_more hsize hr hsim.1 hzero hnil hc hmore
    rw [hall] at herror hsim'
    have hfeed : (decoderReader size).feed d c = d.feed c := rfl
    have hrun : ((decoderReader size).run d (c :: cs)).2.2 =
        ((decoderReader size).run (d.feed c).2.2 cs).2.2 := by
      rw [hfeed] at herror
      rcases hf : d.feed c with ⟨as, _ | e, d'⟩
      · simp only [Reader.run, hfeed, hf]
      · rw [hf] at herror
        cases herror
    rw [hrun]
    exact ih _ _ hflat' hr' hsim' hzero' hcap' (hcs herror)

open PacketDecoder

/-- **What is published is what is parsed.** For a topic that fits its length field, a QoS of `0` or
`1` and a packet identifier, `encode_publish` makes a packet exactly when the remaining length fits
four groups. However these bytes are handed to a fresh decoder, it returns exactly one result, and
keeps nothing: the PUBLISH if it fits the buffer, and otherwise the report of its remaining length,
with topic and identifier if these and the header fit. A buffer of at least eight bytes has room for
the next byte until then. And every number up to the maximum is written as the shortest of its
forms, which is read back whatever follows it.

**Proof sketch.** The bytes scan to one item (`scanPacket_publish`), and every run of the decoder
returns what the scanner says of the bytes (`Reader.run_eq_all`). -/
theorem publish_roundTrip (topic : String) (payload : List UInt8) (qos packetId : ℕ) (retain : Bool)
    (size : ℕ) (htopic : (encodeUtf8 topic).length ≤ 65535) (hqos : qos ≤ 1)
    (hid : 1 ≤ packetId ∧ packetId ≤ 65535) :
    ((∃ bytes, encodePublish topic payload qos retain (some packetId) = .ok bytes) ↔
      (publishBody topic payload qos packetId).length ≤ MAX_VARLEN) ∧
    (∀ bytes, encodePublish topic payload qos retain (some packetId) = .ok bytes →
      ∀ cs : List (List UInt8), (decoderReader size).LegalRun (new size) cs →
        (cs.flatten = bytes →
          ((decoderReader size).run (new size) cs).1 =
            [received size bytes.length topic payload qos packetId] ∧
          ((decoderReader size).run (new size) cs).2.1 = none ∧
          ((decoderReader size).run (new size) cs).2.2.Holds size []) ∧
        (8 ≤ size → ∀ u, u ≠ [] → cs.flatten ++ u = bytes →
          0 < ((decoderReader size).run (new size) cs).2.2.fillCapacity)) ∧
    (∀ value ≤ MAX_VARLEN, ∃ digits, encodeVarlen value = .ok digits ∧
      (∀ rest, decodeVarlen (digits ++ rest) 0 (digits ++ rest).length =
        .ok (value, digits.length)) ∧
      ∀ digits', digits' ≠ [] → decodeVarlen digits' 0 digits'.length =
        .ok (value, digits'.length) →
        digits.length ≤ digits'.length ∧ (digits'.length = digits.length → digits' = digits)) := by
  refine ⟨?_, ?_, ?_⟩
  · rw [encodePublish_eq htopic hqos hid.2]
    constructor
    · rintro ⟨bytes, h⟩
      by_contra hno
      rw [finalizePacket_eq_error hno] at h
      cases h
    · intro hmax
      rw [finalizePacket_eq hmax]
      exact ⟨_, rfl⟩
  · intro bytes h cs hleg
    have hscan := scanPacket_publish size htopic hqos hid.2 h
    refine ⟨fun hflat => ?_, fun hsize u hu hflat => ?_⟩
    · obtain ⟨hitems, herror, hsim⟩ :=
        (decoderReader size).run_eq_all cs _ [] (decoderReader_new size) hleg
      have hempty : (packetScanner size).scan [] = .more := (decoderReader_new size).2
      have hall : (packetScanner size).all ([] ++ cs.flatten) =
          ⟨[received size bytes.length topic payload qos packetId], none, []⟩ := by
        rw [List.nil_append, hflat, (packetScanner size).all_of_item hscan, List.drop_length,
          (packetScanner size).all_of_more hempty]
        rfl
      rw [hall] at hitems herror hsim
      exact ⟨hitems, herror, (hsim rfl).1⟩
    · refine room_of_prefix hsize hscan hu cs _ [] (by simpa using hflat) .new
        (decoderReader_new size) rfl ?_ hleg
      show 0 < size - 0
      omega
  · intro value hvalue
    obtain ⟨hencode, hlen⟩ := encodeVarlen_eq hvalue
    refine ⟨_, hencode, fun rest => ?_, fun digits' hne hread => ?_⟩
    · have hread := decodeVarlen_of_marked (Base128.marked_encode value)
        (⟨[], rest, by simp, rfl⟩ : IsAt (Base128.encode value ++ rest) 0 _) hlen
      rwa [Base128.value_encode] at hread
    · obtain ⟨hm, rfl⟩ := marked_of_decodeVarlen hne hread
      exact ⟨Base128.length_encode_le hm, fun heq => Base128.eq_encode hm heq.le⟩

/-- A PUBLISH at QoS 1 of nine bytes, handed to a buffer of eight bytes in two pieces: its topic and
identifier are reported. -/
theorem publish_roundTrip_oversized :
    ((decoderReader 8).run (new 8)
      [[0x32, 0x07, 0x00, 0x01], [0x61, 0x00, 0x05, 1], [2]]).1 =
        [.oversized ⟨some "a", 7, 1, some 5⟩] := by
  have hencode : encodePublish "a" [1, 2] 1 false (some 5) =
      .ok [0x32, 0x07, 0x00, 0x01, 0x61, 0x00, 0x05, 1, 2] := by decide +kernel
  have h := (publish_roundTrip "a" [1, 2] 1 5 false 8
    (by decide +kernel) (by decide) (by decide)).2.1 _ hencode
    [[0x32, 0x07, 0x00, 0x01], [0x61, 0x00, 0x05, 1], [2]] (by decide +kernel)
  exact (h.1 (by decide +kernel)).1

end ChuMicro.Mqtt
