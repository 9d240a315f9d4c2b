import ChuMicro.Lib.Scan
import ChuMicro.Mqtt.Decoder

/-!
# The decoder as a scanner of the inbound stream

What the decoder does, said of the bytes alone: `scanPacket size p` looks at the front of the
unread bytes `p` and decides which packet they start with, given that packets longer than
`size` are drained and reported instead of parsed. The answers are stable when more bytes
arrive (`packetScanner`), and the decoder's buffer, offset, compaction and drain implement
exactly this scanner (`decoderReader`).

## Main definitions

* `Mqtt.scanPacket` — the first packet of a byte string.
* `Mqtt.packetScanner` — the same, with the stability proofs.
* `Mqtt.PacketDecoder.Wf` — the buffer invariant.
* `Mqtt.PacketDecoder.Holds` — the decoder holds exactly these unread bytes.
* `Mqtt.decoderReader` — the decoder as a reader of the scanner.

## Main results

* `Mqtt.decoder_runs_agree` — two deliveries of one stream decode to the same results and the same
  first error.
-/

namespace ChuMicro.Mqtt

open Bytes Streaming

/-! ## Parsing does not depend on where the packet lies in the buffer -/

/-- Reading a variable-length integer from a slice of the buffer.

**Proof sketch.** Induction on the digits still allowed: each step reads the same byte and
compares it with the same end. -/
lemma decodeVarlenLoop_slice (view : List UInt8) (o start len : ℕ) (h : o + len ≤ view.length) :
    ∀ n consumed value shift,
      decodeVarlenLoop view (o + start) (o + len) n consumed value shift =
        decodeVarlenLoop (slice view o (o + len)) start len n consumed value shift
  | 0, _, _, _ => rfl
  | n + 1, consumed, value, shift => by
    unfold decodeVarlenLoop
    by_cases hlim : start + consumed ≥ len
    · rw [if_pos hlim, if_pos (show o + start + consumed ≥ o + len by omega)]
    · rw [if_neg hlim, if_neg (show ¬ o + start + consumed ≥ o + len by omega),
        getElem?_slice view o (o + len) (start + consumed) (by omega),
        show o + (start + consumed) = o + start + consumed by omega]
      simp only [decodeVarlenLoop_slice view o start len h n]

/-- A digit of an incomplete variable-length integer lies past the end of the bytes. -/
lemma decodeVarlenLoop_zero (p : List UInt8) (start : ℕ) :
    ∀ n consumed value shift v, decodeVarlenLoop p start p.length n consumed value shift = .ok (v, 0) →
      v = 0 ∧ p.length < start + consumed + n
  | 0, _, _, _, _, h => by simp [decodeVarlenLoop] at h
  | n + 1, consumed, value, shift, v, h => by
    unfold decodeVarlenLoop at h
    split at h
    · simp only [Except.ok.injEq, Prod.mk.injEq, and_true] at h
      omega
    · split at h
      · simp at h
      · simp only at h
        split at h
        · simp at h
        · have := decodeVarlenLoop_zero p start n _ _ _ v h
          omega

/-- A variable-length integer that is complete, or malformed, stays so when bytes follow. -/
lemma decodeVarlenLoop_append (p t : List UInt8) (start : ℕ) :
    ∀ n consumed value shift,
      decodeVarlenLoop p start p.length n consumed value shift ≠ .ok (0, 0) →
      decodeVarlenLoop (p ++ t) start (p ++ t).length n consumed value shift =
        decodeVarlenLoop p start p.length n consumed value shift
  | 0, _, _, _, _ => rfl
  | n + 1, consumed, value, shift, h => by
    unfold decodeVarlenLoop at h ⊢
    by_cases hlim : start + consumed ≥ p.length
    · rw [if_pos hlim] at h
      exact absurd rfl h
    · rw [if_neg hlim] at h ⊢
      rw [if_neg (by rw [List.length_append]; omega), List.getElem?_append_left (by omega)]
      split
      · rfl
      · rename_i digit hdigit
        rw [hdigit] at h
        simp only at h ⊢
        split
        · rfl
        · rename_i hmore
          rw [if_neg hmore] at h
          exact decodeVarlenLoop_append p t start n _ _ _ h

/-- `_parse_publish` reads only the body it is given. -/
lemma parsePublish_slice (fixedByte : UInt8) (view : List UInt8) (o n a b : ℕ) (h : o + b ≤ n) :
    parsePublish fixedByte view (o + a) (o + b) = parsePublish fixedByte (slice view o n) a b := by
  unfold parsePublish
  rw [show o + b - (o + a) = b - a by omega]
  split
  · rfl
  · rw [slice_slice view o n a (a + 2) (by omega), show o + (a + 2) = o + a + 2 by omega]
    cases liftPy (unpack 2 (slice view (o + a) (o + a + 2))) with
    | error e => rfl
    | ok topicLength =>
      simp only [bind, Except.bind]
      by_cases htopic : a + 2 + topicLength > b
      · rw [if_pos htopic, if_pos (by omega)]
      · rw [if_neg htopic, if_neg (by omega),
          slice_slice view o n (a + 2) (a + 2 + topicLength) (by omega),
          show o + (a + 2) = o + a + 2 by omega,
          show o + (a + 2 + topicLength) = o + a + 2 + topicLength by omega]
        cases liftPy (decodeUtf8 (slice view (o + a + 2) (o + a + 2 + topicLength))) with
        | error e => rfl
        | ok topic =>
          simp only
          split
          · by_cases hid : a + 2 + topicLength + 2 > b
            · rw [if_pos hid, if_pos (by omega)]
            · rw [if_neg hid, if_neg (by omega),
                slice_slice view o n (a + 2 + topicLength) (a + 2 + topicLength + 2) (by omega),
                slice_slice view o n (a + 2 + topicLength + 2) b h]
              simp only [Nat.add_assoc]
          · rw [slice_slice view o n (a + 2 + topicLength) b h]
            simp only [Nat.add_assoc]

/-- `_parse_connack` reads only the body it is given. -/
lemma parseConnack_slice (view : List UInt8) (o n a b : ℕ) (h : o + b ≤ n) :
    parseConnack view (o + a) (o + b) = parseConnack (slice view o n) a b := by
  unfold parseConnack
  rw [show o + b - (o + a) = b - a by omega]
  split
  · rfl
  · rw [getElem?_slice view o n a (by omega), getElem?_slice view o n (a + 1) (by omega)]
    rfl

/-- `_parse_simple_ack` reads only the body it is given. -/
lemma parseSimpleAck_slice (packetType : UInt8) (view : List UInt8) (o n a b : ℕ)
    (h : o + b ≤ n) :
    parseSimpleAck packetType view (o + a) (o + b) =
      parseSimpleAck packetType (slice view o n) a b := by
  unfold parseSimpleAck
  rw [show o + b - (o + a) = b - a by omega]
  split
  · rfl
  · rw [slice_slice view o n a (a + 2) (by omega)]
    rfl

/-- `_parse_suback` reads only the body it is given. -/
lemma parseSuback_slice (view : List UInt8) (o n a b : ℕ) (h : o + b ≤ n) :
    parseSuback view (o + a) (o + b) = parseSuback (slice view o n) a b := by
  unfold parseSuback
  rw [show o + b - (o + a) = b - a by omega]
  split
  · rfl
  · rw [slice_slice view o n a (a + 2) (by omega), slice_slice view o n (a + 2) b h]
    rfl

/-- **A packet parses the same wherever it lies in the buffer.** -/
lemma parsePacket_slice (fixedByte : UInt8) (view : List UInt8) (o n a b : ℕ) (h : o + b ≤ n) :
    parsePacket fixedByte view (o + a) (o + b) = parsePacket fixedByte (slice view o n) a b := by
  unfold parsePacket
  rw [parsePublish_slice fixedByte view o n a b h, parseConnack_slice view o n a b h,
    parseSimpleAck_slice _ view o n a b h, parseSimpleAck_slice _ view o n a b h,
    parseSuback_slice view o n a b h]

/-- Bytes after a packet do not change how it parses. -/
lemma parsePacket_append (fixedByte : UInt8) (p t : List UInt8) (a b : ℕ) (h : b ≤ p.length) :
    parsePacket fixedByte (p ++ t) a b = parsePacket fixedByte p a b := by
  have := parsePacket_slice fixedByte (p ++ t) 0 p.length a b (by omega)
  rwa [slice_append_left p t le_rfl, slice_zero_length, Nat.zero_add, Nat.zero_add] at this

/-! ## The scanner -/

/-- The report on a packet longer than the buffer whose first bytes are `p`: an error unless it
is a PUBLISH, and nothing while its topic and packet id are not all there. A topic that cannot
fit the buffer is reported as unknown as soon as its length is read. -/
def oversizedReport (size : ℕ) (fixedByte : UInt8) (messageLength headerLength : ℕ)
    (p : List UInt8) : Except Exn (Option OversizedMessage) :=
  let packetType := fixedByte &&& 0xF0
  if packetType ≠ PACKET_PUBLISH then
    .error (.protocolError ("oversized non-PUBLISH packet (type 0x" ++ hex02 packetType ++
      ", remaining length " ++ toString messageLength ++ ")"))
  else if p.length < headerLength + 2 then .ok none
  else do
    let topicLength ← liftPy (unpack 2 (slice p headerLength (headerLength + 2)))
    let qos := publishQos fixedByte
    let preludeLength := headerLength + 2 + topicLength + (if qos > 0 then 2 else 0)
    if preludeLength > size then return some ⟨none, messageLength, qos, none⟩
    else if p.length < preludeLength then return none
    else do
      let topicStart := headerLength + 2
      let topicEnd := topicStart + topicLength
      let topic ← liftPy (decodeUtf8 (slice p topicStart topicEnd))
      let packetId ←
        if qos > 0 then some <$> liftPy (unpack 2 (slice p topicEnd (topicEnd + 2)))
        else .ok none
      return some ⟨some topic, messageLength, qos, packetId⟩

/-- The packet at the front of the unread bytes `p`, for a buffer of `size` bytes. -/
def scanPacket (size : ℕ) (p : List UInt8) : Scan Exn Inbound :=
  if p.length < 2 then .more
  else
    match p[0]?, decodeVarlen p 1 p.length with
    | none, _ => .more
    | some _, .error e => .fail e
    | some fixedByte, .ok (messageLength, varlenConsumed) =>
      if varlenConsumed = 0 then .more
      else
        let headerLength := 1 + varlenConsumed
        let totalLength := headerLength + messageLength
        if totalLength > size then
          match oversizedReport size fixedByte messageLength headerLength p with
          | .error e => .fail e
          | .ok none => .more
          | .ok (some report) =>
            if p.length < totalLength then .more else .item (.oversized report) totalLength
        else if p.length < totalLength then .more
        else
          match parsePacket fixedByte p headerLength totalLength with
          | .error e => .fail e
          | .ok packet => .item packet totalLength

/-- A decided report is not changed by the bytes that follow. -/
lemma oversizedReport_append (size : ℕ) (fixedByte : UInt8) (messageLength headerLength : ℕ)
    (p t : List UInt8)
    (h : oversizedReport size fixedByte messageLength headerLength p ≠ .ok none) :
    oversizedReport size fixedByte messageLength headerLength (p ++ t) =
      oversizedReport size fixedByte messageLength headerLength p := by
  unfold oversizedReport at h ⊢
  simp only at h ⊢
  split
  · rfl
  · rename_i htype
    rw [if_neg htype] at h
    by_cases hlen : p.length < headerLength + 2
    · rw [if_pos hlen] at h
      exact absurd rfl h
    · rw [if_neg hlen] at h ⊢
      rw [if_neg (by rw [List.length_append]; omega), slice_append_left p t (by omega)]
      cases hu : liftPy (unpack 2 (slice p headerLength (headerLength + 2))) with
      | error e => rfl
      | ok topicLength =>
        rw [hu] at h
        simp only [bind, Except.bind] at h ⊢
        set idLength := if publishQos fixedByte > 0 then 2 else 0 with hid
        by_cases hsize : headerLength + 2 + topicLength + idLength > size
        · rw [if_pos hsize, if_pos hsize]
        · rw [if_neg hsize] at h
          by_cases hpre : p.length < headerLength + 2 + topicLength + idLength
          · rw [if_pos hpre] at h
            exact absurd rfl h
          · rw [if_neg hsize, if_neg hsize, if_neg hpre, if_neg (by rw [List.length_append]; omega),
              slice_append_left p t (by omega)]
            by_cases hq : publishQos fixedByte > 0
            · rw [if_pos hq] at hid
              rw [slice_append_left p t (by omega)]
            · simp only [if_neg hq]

variable {size : ℕ} {fixedByte : UInt8} {messageLength : ℕ} {p : List UInt8}

/-- The reported length is the packet's remaining length. -/
lemma reportedLength_of_report {headerLength : ℕ} {r : OversizedMessage}
    (h : oversizedReport size fixedByte messageLength headerLength p = .ok (some r)) :
    r.reportedLength = messageLength := by
  unfold oversizedReport at h
  simp only at h
  split at h
  · cases h
  · split at h
    · cases h
    · cases hu : liftPy (unpack 2 (slice p headerLength (headerLength + 2))) with
      | error e => rw [hu] at h; cases h
      | ok topicLength =>
        rw [hu] at h
        simp only [bind, Except.bind, pure, Except.pure] at h
        set idLength := if publishQos fixedByte > 0 then 2 else 0
        split at h
        · cases h; rfl
        · split at h
          · cases h
          · split at h
            · cases h
            · split at h
              · split at h
                · cases h
                · cases h; rfl
              · cases h; rfl

/-- The scanner's view of a buffer that starts with a complete header. -/
lemma scanPacket_of_header {varlenConsumed : ℕ} (hlen : ¬ p.length < 2)
    (hfirst : p[0]? = some fixedByte)
    (hvar : decodeVarlen p 1 p.length = .ok (messageLength, varlenConsumed))
    (hpos : varlenConsumed ≠ 0) :
    scanPacket size p =
      if 1 + varlenConsumed + messageLength > size then
        match oversizedReport size fixedByte messageLength (1 + varlenConsumed) p with
        | .error e => .fail e
        | .ok none => .more
        | .ok (some report) =>
          if p.length < 1 + varlenConsumed + messageLength then .more
          else .item (.oversized report) (1 + varlenConsumed + messageLength)
      else if p.length < 1 + varlenConsumed + messageLength then .more
      else
        match parsePacket fixedByte p (1 + varlenConsumed)
            (1 + varlenConsumed + messageLength) with
        | .error e => .fail e
        | .ok packet => .item packet (1 + varlenConsumed + messageLength) := by
  unfold scanPacket
  rw [if_neg hlen, hfirst, hvar]
  simp only [if_neg hpos]

/-- The four states of a header: not started, incomplete, malformed, complete. -/
lemma scanPacket_cases (size : ℕ) (p : List UInt8) :
    (p.length < 2 ∧ scanPacket size p = .more) ∨
    (∃ m, ¬ p.length < 2 ∧ decodeVarlen p 1 p.length = .ok (m, 0) ∧ scanPacket size p = .more) ∨
    (∃ e, ¬ p.length < 2 ∧ decodeVarlen p 1 p.length = .error e ∧ scanPacket size p = .fail e) ∨
    (∃ fixedByte m c, ¬ p.length < 2 ∧ p[0]? = some fixedByte ∧
      decodeVarlen p 1 p.length = .ok (m, c) ∧ c ≠ 0) := by
  by_cases hlen : p.length < 2
  · exact .inl ⟨hlen, by rw [scanPacket, if_pos hlen]⟩
  · obtain ⟨b, rest, rfl⟩ : ∃ b rest, p = b :: rest := by
      cases p with
      | nil => simp at hlen
      | cons b rest => exact ⟨b, rest, rfl⟩
    cases hv : decodeVarlen (b :: rest) 1 (b :: rest).length with
    | error e =>
      refine .inr (.inr (.inl ⟨e, hlen, rfl, ?_⟩))
      rw [scanPacket, if_neg hlen, hv]
      rfl
    | ok r =>
      obtain ⟨messageLength, consumed⟩ := r
      by_cases hc : consumed = 0
      · subst hc
        refine .inr (.inl ⟨messageLength, hlen, rfl, ?_⟩)
        rw [scanPacket, if_neg hlen, hv]
        rfl
      · exact .inr (.inr (.inr ⟨b, messageLength, consumed, hlen, rfl, rfl, hc⟩))

/-- A header that is complete, or malformed, stays as it is when bytes follow. -/
lemma decodeVarlen_append (t : List UInt8) {r : Except Exn (ℕ × ℕ)}
    (h : decodeVarlen p 1 p.length = r) (hr : r ≠ .ok (0, 0)) :
    decodeVarlen (p ++ t) 1 (p ++ t).length = r := by
  subst h
  exact decodeVarlenLoop_append p t 1 4 0 0 0 hr

/-- The scanner sees a header of `p` unchanged at the front of `p ++ t`. -/
lemma scanPacket_append_of_header (t : List UInt8) {varlenConsumed : ℕ} (hlen : ¬ p.length < 2)
    (hfirst : p[0]? = some fixedByte)
    (hvar : decodeVarlen p 1 p.length = .ok (messageLength, varlenConsumed))
    (hpos : varlenConsumed ≠ 0) (hdec : scanPacket size p ≠ .more) :
    scanPacket size (p ++ t) = scanPacket size p := by
  have hne : (Except.ok (messageLength, varlenConsumed) : Except Exn (ℕ × ℕ)) ≠ .ok (0, 0) := by
    simp [hpos]
  have hlen' : ¬ (p ++ t).length < 2 := by rw [List.length_append]; omega
  have hfirst' : (p ++ t)[0]? = some fixedByte := by
    rw [List.getElem?_append_left (by omega), hfirst]
  have hvar' := decodeVarlen_append t hvar hne
  rw [scanPacket_of_header hlen hfirst hvar hpos] at hdec ⊢
  rw [scanPacket_of_header hlen' hfirst' hvar' hpos]
  by_cases hbig : 1 + varlenConsumed + messageLength > size
  · rw [if_pos hbig] at hdec
    rw [if_pos hbig, if_pos hbig]
    have hrep : oversizedReport size fixedByte messageLength (1 + varlenConsumed) p ≠ .ok none := by
      intro h0
      rw [h0] at hdec
      exact hdec rfl
    rw [oversizedReport_append _ _ _ _ p t hrep]
    split at hdec
    · rfl
    · exact absurd rfl hdec
    · by_cases hshort : p.length < 1 + varlenConsumed + messageLength
      · rw [if_pos hshort] at hdec
        exact absurd rfl hdec
      · simp only [if_neg hshort, List.length_append,
          if_neg (show ¬ p.length + t.length < 1 + varlenConsumed + messageLength by omega)]
  · rw [if_neg hbig] at hdec
    rw [if_neg hbig, if_neg hbig]
    by_cases hshort : p.length < 1 + varlenConsumed + messageLength
    · rw [if_pos hshort] at hdec
      exact absurd rfl hdec
    · rw [if_neg hshort, if_neg (by rw [List.length_append]; omega),
        parsePacket_append _ _ _ _ _ (by omega)]

/-- **Decided scans are stable**: bytes that follow do not change them. -/
lemma scanPacket_append (t : List UInt8) (h : scanPacket size p ≠ .more) :
    scanPacket size (p ++ t) = scanPacket size p := by
  rcases scanPacket_cases size p with ⟨_, hm⟩ | ⟨_, _, _, hm⟩ | ⟨e, hlen, hv, hf⟩ |
    ⟨b, m, c, hlen, hfirst, hv, hc⟩
  · exact absurd hm h
  · exact absurd hm h
  · have hv' := decodeVarlen_append t hv (by simp)
    obtain ⟨b, rest, rfl⟩ : ∃ b rest, p = b :: rest := by
      cases p with
      | nil => simp at hlen
      | cons b rest => exact ⟨b, rest, rfl⟩
    rw [hf, scanPacket, if_neg (by rw [List.length_append]; omega), hv']
    rfl
  · exact scanPacket_append_of_header t hlen hfirst hv hc h

/-- An item found by the scanner lies inside the bytes and has at least two of them. -/
lemma scanPacket_item {packet : Inbound} {n : ℕ} (h : scanPacket size p = .item packet n) :
    2 ≤ n ∧ n ≤ p.length := by
  rcases scanPacket_cases size p with ⟨_, hm⟩ | ⟨_, _, _, hm⟩ | ⟨e, _, _, hf⟩ |
    ⟨b, m, c, hlen, hfirst, hv, hc⟩
  · rw [hm] at h; cases h
  · rw [hm] at h; cases h
  · rw [hf] at h; cases h
  · rw [scanPacket_of_header hlen hfirst hv hc] at h
    split at h
    · split at h
      · cases h
      · cases h
      · split at h
        · cases h
        · cases h
          omega
    · split at h
      · cases h
      · split at h
        · cases h
        · cases h
          omega

/-- The scanner of the inbound stream, for a receive buffer of `size` bytes. -/
def packetScanner (size : ℕ) : Scanner UInt8 Exn Inbound where
  scan := scanPacket size
  item_pos h := by have := (scanPacket_item h).1; omega
  item_le h := (scanPacket_item h).2
  item_append h t := by rw [scanPacket_append t (by rw [h]; simp), h]
  fail_append h t := by rw [scanPacket_append t (by rw [h]; simp), h]

/-! ## The decoder implements the scanner -/

namespace PacketDecoder

/-- The unread bytes in the buffer. -/
def live (d : PacketDecoder) : List UInt8 := slice d.buffer d.readOffset d.bufferLength

/-- **The buffer invariant.** The cursor lies before the end of the received bytes, and before
the middle of the buffer unless it is at the start; while draining the buffer is empty. -/
structure Wf (size : ℕ) (d : PacketDecoder) : Prop where
  size_eq : d.bufferSize = size
  length_buffer : d.buffer.length = size
  offset_le : d.readOffset ≤ d.bufferLength
  length_le : d.bufferLength ≤ size
  offset_half : d.readOffset = 0 ∨ d.readOffset * 2 < size
  drain_empty : d.drainMode = .oversized → d.bufferLength = 0

/-- The decoder holds the unread bytes `p`: in its buffer, or, while draining, as the part of an
oversized packet that was already discarded, with `drainRemaining` bytes still to come. -/
structure Holds (size : ℕ) (d : PacketDecoder) (p : List UInt8) : Prop where
  wf : d.Wf size
  buffered : d.drainMode = .none → d.live = p
  draining : d.drainMode = .oversized → ∀ t, scanPacket size (p ++ t) =
    if t.length < d.drainRemaining then .more
    else .item (.oversized d.drainEvent) (p.length + d.drainRemaining)

/-- The number of calls of `read_next` that can still return a packet, plus one. -/
def pendingCalls (d : PacketDecoder) : ℕ :=
  d.bufferLength - d.readOffset + (if d.drainMode = .oversized then 2 else 1)

variable {size : ℕ} {d : PacketDecoder} {n : ℕ} {p : List UInt8}

lemma Wf.length_live (h : d.Wf size) : d.live.length = d.bufferLength - d.readOffset := by
  rw [live, length_slice _ (by rw [h.length_buffer]; exact h.length_le)]

/-- A fresh decoder satisfies the invariant and holds nothing. -/
lemma holds_new (size : ℕ) : (new size).Holds size [] where
  wf := ⟨rfl, by simp [new], by simp [new], by simp [new], by simp [new], by simp [new]⟩
  buffered _ := by simp [live, new, slice]
  draining h := by simp [new] at h

/-- Compaction moves the unread bytes to the start of the buffer. It does not rely on the
half-way bound, which it restores. -/
lemma compact_wf (hsize : d.bufferSize = size) (hbuf : d.buffer.length = size)
    (hoff : d.readOffset ≤ d.bufferLength) (hlen : d.bufferLength ≤ size)
    (hdrain : d.drainMode = .oversized → d.bufferLength = 0) :
    d.compact.Wf size ∧ d.compact.live = d.live := by
  have hlive : (slice d.buffer d.readOffset d.bufferLength).length =
      d.bufferLength - d.readOffset := length_slice _ (by omega)
  refine ⟨⟨hsize, ?_, by simp [compact], by simp only [compact]; omega, .inl rfl, ?_⟩, ?_⟩
  · simp only [compact]
    rw [length_overwrite _ _ (by omega), hbuf]
  · intro hm
    have := hdrain hm
    simp only [compact]
    omega
  · have := slice_overwrite d.buffer (slice d.buffer d.readOffset d.bufferLength) (a := 0) (o := 0)
      le_rfl (by omega)
    rw [hlive, Nat.zero_add] at this
    simp only [live, compact, this]
    simp [slice]

/-- Consuming `n` of the unread bytes drops them. -/
lemma consume_wf (h : d.Wf size) (hn : n ≤ d.bufferLength - d.readOffset) :
    (d.consume n).Wf size ∧ (d.consume n).live = d.live.drop n ∧
      (d.consume n).drainMode = d.drainMode ∧
      (d.consume n).bufferLength - (d.consume n).readOffset =
        d.bufferLength - d.readOffset - n := by
  have hoff := h.offset_le
  have hdrop : live { d with readOffset := d.readOffset + n } = d.live.drop n := by
    rw [live, live, drop_slice]
  by_cases hhalf : (d.readOffset + n) * 2 ≥ d.bufferSize
  · have hc : d.consume n = compact { d with readOffset := d.readOffset + n } := by
      simp only [consume, if_pos hhalf]
    obtain ⟨hwf, hlive⟩ := compact_wf (d := { d with readOffset := d.readOffset + n }) h.size_eq
      h.length_buffer (by simp only; omega) h.length_le h.drain_empty
    rw [hc]
    exact ⟨hwf, hlive.trans hdrop, rfl, by simp only [compact]; omega⟩
  · have hc : d.consume n = { d with readOffset := d.readOffset + n } := by
      simp only [consume, if_neg hhalf]
    have := h.size_eq
    rw [hc]
    exact ⟨⟨h.size_eq, h.length_buffer, by simp only; omega, h.length_le,
      .inr (by simp only; omega), h.drain_empty⟩, hdrop, rfl, by simp only; omega⟩

/-- Receiving a legal piece appends it to the unread bytes. -/
lemma fill_holds {c : List UInt8} (h : d.Holds size p) (hc : c.length ≤ d.fillCapacity) :
    (d.fill c).Holds size (p ++ c) := by
  have hwf := h.wf
  have hbuf := hwf.length_buffer
  have hlen := hwf.length_le
  have hsize := hwf.size_eq
  by_cases hnil : c = []
  · subst hnil
    have : d.fill [] = d := by
      simp [fill, advance, overwrite]
    simpa [this] using h
  · have hpos : c.length ≠ 0 := by simpa using hnil
    cases hm : d.drainMode with
    | none =>
      have hcap : c.length ≤ d.bufferSize - d.bufferLength := by simpa [fillCapacity, hm] using hc
      have hfill : d.fill c = { d with
          buffer := overwrite d.buffer d.bufferLength c
          bufferLength := d.bufferLength + c.length } := by
        simp [fill, advance, hpos, hm]
      rw [hfill]
      refine ⟨⟨hsize, ?_, ?_, ?_, hwf.offset_half, by simp [hm]⟩, fun _ => ?_, by simp [hm]⟩
      · rw [length_overwrite _ _ (by omega), hbuf]
      · have := hwf.offset_le
        simp only
        omega
      · simp only
        omega
      · rw [live, slice_overwrite _ _ hwf.offset_le (by omega), ← h.buffered hm, live]
    | oversized =>
      have hcap : c.length ≤ min d.drainRemaining (d.bufferSize - d.bufferLength) := by
        simpa [fillCapacity, hm] using hc
      have hzero := hwf.drain_empty hm
      have hfill : d.fill c = { d with
          buffer := overwrite d.buffer d.bufferLength c
          drainRemaining := d.drainRemaining - c.length
          bufferLength := 0 } := by
        simp [fill, advance, hpos, hm]
      have hoff := hwf.offset_le
      rw [hfill]
      refine ⟨⟨hsize, ?_, by simp only; omega, by simp, hwf.offset_half, fun _ => rfl⟩,
        by simp [hm], fun _ t => ?_⟩
      · rw [length_overwrite _ _ (by omega), hbuf]
      · have hdr := h.draining hm (c ++ t)
        rw [← List.append_assoc] at hdr
        rw [hdr]
        simp only [List.length_append, drainEvent]
        by_cases ht : c.length + t.length < d.drainRemaining
        · rw [if_pos ht, if_pos (by omega)]
        · rw [if_neg ht, if_neg (by omega),
            show p.length + c.length + (d.drainRemaining - c.length) = p.length + d.drainRemaining
              by omega]

/-- A packet longer than the buffer cannot finish its drain in the call that enters it. -/
lemma maybeFinishOversized_enter (hn : 0 < n) (topic : Option String) (qos : ℕ)
    (packetId : Option ℕ) (messageLength : ℕ) :
    (d.enterOversizedDrain n topic qos packetId messageLength).maybeFinishOversized =
      (none, d.enterOversizedDrain n topic qos packetId messageLength) := by
  rw [maybeFinishOversized, if_pos (by simpa [enterOversizedDrain] using hn)]

/-- `_enter_drain_path` in terms of the unread bytes: it enters the drain exactly when the report
is decided. -/
lemma enterDrainPath_eq (h : d.Wf size) (fixedByte : UInt8)
    (messageLength headerLength totalLength : ℕ) (hbig : totalLength > size) :
    d.enterDrainPath fixedByte messageLength d.readOffset headerLength totalLength =
      match oversizedReport size fixedByte messageLength headerLength d.live with
      | .error e => .error e
      | .ok none => .ok (none, d)
      | .ok (some r) => .ok (none, d.enterOversizedDrain (totalLength - d.live.length) r.topic
          r.qos r.packetId messageLength) := by
  have hlive := h.length_live
  have hoff := h.offset_le
  have hlen := h.length_le
  -- every slice the prelude needs lies inside the unread bytes
  have hslice : ∀ a b, b ≤ d.live.length →
      slice d.buffer (d.readOffset + a) (d.readOffset + b) = slice d.live a b := by
    intro a b hb
    rw [live, slice_slice _ _ _ _ _ (by omega)]
  unfold enterDrainPath oversizedReport
  simp only [h.size_eq, hlive]
  split
  · rfl
  · by_cases hshort : d.bufferLength - d.readOffset < headerLength + 2
    · rw [if_pos hshort, if_pos hshort]
    · rw [if_neg hshort, if_neg hshort, Nat.add_assoc d.readOffset,
        hslice headerLength (headerLength + 2) (by omega)]
      cases liftPy (unpack 2 (slice d.live headerLength (headerLength + 2))) with
      | error e => rfl
      | ok topicLength =>
        simp only [bind, Except.bind]
        set idLength := if publishQos fixedByte > 0 then 2 else 0 with hid
        by_cases hsize : headerLength + 2 + topicLength + idLength > size
        · rw [if_pos hsize, if_pos hsize, maybeFinishOversized_enter (by omega)]
          rfl
        · rw [if_neg hsize, if_neg hsize]
          by_cases hpre : d.bufferLength - d.readOffset < headerLength + 2 + topicLength + idLength
          · rw [if_pos hpre, if_pos hpre]
            rfl
          · rw [if_neg hpre, if_neg hpre, Nat.add_assoc d.readOffset, Nat.add_assoc d.readOffset,
              hslice (headerLength + 2) _ (by omega)]
            cases liftPy (decodeUtf8 (slice d.live (headerLength + 2)
                (headerLength + 2 + topicLength))) with
            | error e => rfl
            | ok topic =>
              by_cases hq : publishQos fixedByte > 0
              · rw [if_pos hq] at hid
                simp only [if_pos hq]
                rw [hslice _ _ (by omega)]
                cases liftPy (unpack 2 (slice d.live (headerLength + 2 + topicLength)
                    (headerLength + 2 + topicLength + 2))) with
                | error e => rfl
                | ok packetId =>
                  simp only [Functor.map, Except.map]
                  rw [maybeFinishOversized_enter (by omega)]
                  rfl
              · simp only [if_neg hq]
                rw [maybeFinishOversized_enter (by omega)]
                rfl

/-- `read_next` on buffered bytes that start with a complete header, in terms of these bytes. -/
lemma readNext_of_header (h : d.Wf size) (hm : d.drainMode = .none) {fixedByte : UInt8}
    {messageLength varlenConsumed : ℕ} (hlen : ¬ d.live.length < 2)
    (hfirst : d.live[0]? = some fixedByte)
    (hvar : decodeVarlen d.live 1 d.live.length = .ok (messageLength, varlenConsumed))
    (hpos : varlenConsumed ≠ 0) :
    d.readNext =
      if 1 + varlenConsumed + messageLength > size then
        d.enterDrainPath fixedByte messageLength d.readOffset (1 + varlenConsumed)
          (1 + varlenConsumed + messageLength)
      else if d.live.length < 1 + varlenConsumed + messageLength then
        .ok (none, if d.bufferLength = size ∧ d.readOffset > 0 then d.compact else d)
      else
        match parsePacket fixedByte d.live (1 + varlenConsumed)
            (1 + varlenConsumed + messageLength) with
        | .error e => .error e
        | .ok packet => .ok (some packet, d.consume (1 + varlenConsumed + messageLength)) := by
  have hlive := h.length_live
  have hoff := h.offset_le
  have hle := h.length_le
  have hbuf := h.length_buffer
  have hbase : d.buffer[d.readOffset]? = some fixedByte := by
    rw [← hfirst, live, getElem?_slice _ _ _ 0 (by omega), Nat.add_zero]
  have hv : decodeVarlen d.buffer (d.readOffset + 1) d.bufferLength =
      .ok (messageLength, varlenConsumed) := by
    have := decodeVarlenLoop_slice d.buffer d.readOffset 1 d.live.length (by omega) 4 0 0 0
    rw [show d.readOffset + d.live.length = d.bufferLength by omega] at this
    rw [← hvar]
    exact this
  unfold readNext
  simp only [hm, ← hlive, if_neg hlen, hbase, hv, bind, Except.bind, if_neg hpos, h.size_eq]
  split
  · rfl
  · split
    · split <;> rfl
    · rw [parsePacket_slice fixedByte d.buffer d.readOffset d.bufferLength (1 + varlenConsumed)
        (1 + varlenConsumed + messageLength) (by omega), live]
      cases parsePacket fixedByte (slice d.buffer d.readOffset d.bufferLength) (1 + varlenConsumed)
        (1 + varlenConsumed + messageLength) <;> rfl

/-- `read_next` on buffered bytes without a complete header yields `None` or the error of a
malformed length, and changes nothing. -/
lemma readNext_of_no_header (h : d.Wf size) (hm : d.drainMode = .none) :
    (d.live.length < 2 → d.readNext = .ok (none, d)) ∧
    (∀ e, ¬ d.live.length < 2 → decodeVarlen d.live 1 d.live.length = .error e →
      d.readNext = .error e) ∧
    (∀ m, ¬ d.live.length < 2 → decodeVarlen d.live 1 d.live.length = .ok (m, 0) →
      d.readNext = .ok (none, d)) := by
  have hlive := h.length_live
  have hoff := h.offset_le
  have hle := h.length_le
  have hbuf := h.length_buffer
  have hv : decodeVarlen d.buffer (d.readOffset + 1) d.bufferLength =
      decodeVarlen d.live 1 d.live.length := by
    have := decodeVarlenLoop_slice d.buffer d.readOffset 1 d.live.length (by omega) 4 0 0 0
    rwa [show d.readOffset + d.live.length = d.bufferLength by omega] at this
  refine ⟨fun hlt => ?_, fun e hlt he => ?_, fun m hlt he => ?_⟩
  · unfold readNext
    simp only [hm, ← hlive, if_pos hlt]
  all_goals
    obtain ⟨b, hb⟩ : ∃ b, d.buffer[d.readOffset]? = some b :=
      ⟨_, List.getElem?_eq_getElem (by omega)⟩
    unfold readNext
    simp only [hm, ← hlive, if_neg hlt, hb, hv, he, bind, Except.bind, if_true]
  rfl

/-- What `read_next` does, in terms of the scanner's answer on the bytes `p` it holds. -/
structure ReadsLike (size : ℕ) (d : PacketDecoder) (p : List UInt8) : Prop where
  fail : ∀ e, scanPacket size p = .fail e → d.readNext = .error e
  item : ∀ a n, scanPacket size p = .item a n → ∃ d', d.readNext = .ok (some a, d') ∧
    d'.Holds size (p.drop n) ∧ d'.pendingCalls < d.pendingCalls
  more : scanPacket size p = .more → ∃ d', d.readNext = .ok (none, d') ∧ d'.Holds size p

/-- A `None` answer with nothing decided. -/
lemma ReadsLike.of_more {d' : PacketDecoder} (hs : scanPacket size p = .more)
    (hr : d.readNext = .ok (none, d')) (hh : d'.Holds size p) :
    d.ReadsLike size p where
  fail e he := by rw [hs] at he; cases he
  item a n he := by rw [hs] at he; cases he
  more _ := ⟨d', hr, hh⟩

/-- The scanner's error, raised. -/
lemma ReadsLike.of_fail {e : Exn} (hs : scanPacket size p = .fail e) (hr : d.readNext = .error e) :
    d.ReadsLike size p where
  fail e' he := by rw [hs] at he; cases he; exact hr
  item a n he := by rw [hs] at he; cases he
  more he := by rw [hs] at he; cases he

/-- The scanner's packet, returned and consumed. -/
lemma ReadsLike.of_item {d' : PacketDecoder} {a : Inbound} (hs : scanPacket size p = .item a n)
    (hr : d.readNext = .ok (some a, d')) (hh : d'.Holds size (p.drop n))
    (hc : d'.pendingCalls < d.pendingCalls) :
    d.ReadsLike size p where
  fail e he := by rw [hs] at he; cases he
  item a' n' he := by rw [hs] at he; cases he; exact ⟨d', hr, hh, hc⟩
  more he := by rw [hs] at he; cases he

/-- Draining: the countdown is the scanner's length test. -/
lemma readNext_draining (h : d.Holds size p) (hm : d.drainMode = .oversized) :
    d.ReadsLike size p := by
  have hwf := h.wf
  have hscan := h.draining hm []
  rw [List.append_nil] at hscan
  have hread : d.readNext = .ok d.maybeFinishOversized := by
    unfold readNext; rw [hm]
  have hzero := hwf.drain_empty hm
  by_cases hrem : d.drainRemaining > 0
  · rw [if_pos (by simpa using hrem)] at hscan
    exact .of_more hscan (by rw [hread, maybeFinishOversized, if_pos hrem]) h
  · have hr0 : d.drainRemaining = 0 := by omega
    rw [if_neg (by simp [hr0]), hr0, Nat.add_zero] at hscan
    have hdone : d.readNext = .ok (some (.oversized d.drainEvent), d.resetDrainState) := by
      rw [hread, maybeFinishOversized, if_neg hrem]
    refine .of_item hscan hdone ?_ ?_
    · refine ⟨⟨hwf.size_eq, hwf.length_buffer, hwf.offset_le, hwf.length_le, hwf.offset_half,
        by simp [resetDrainState]⟩, fun _ => ?_, by simp [resetDrainState]⟩
      rw [List.drop_length]
      simp [live, resetDrainState, slice, hzero]
    · simp [pendingCalls, resetDrainState, hm]

/-- An oversized PUBLISH whose report is decided: the scanner only counts its bytes from now on,
as the drain the decoder enters does. -/
lemma holds_enterOversizedDrain (hwf : d.Wf size) {fixedByte : UInt8} {m c : ℕ}
    {r : OversizedMessage} (hlen : ¬ d.live.length < 2) (hfirst : d.live[0]? = some fixedByte)
    (hv : decodeVarlen d.live 1 d.live.length = .ok (m, c)) (hc : c ≠ 0) (hbig : 1 + c + m > size)
    (hrep : oversizedReport size fixedByte m (1 + c) d.live = .ok (some r)) :
    (d.enterOversizedDrain (1 + c + m - d.live.length) r.topic r.qos r.packetId m).Holds size
      d.live := by
  refine ⟨⟨hwf.size_eq, hwf.length_buffer, by simp [enterOversizedDrain],
    by simp [enterOversizedDrain], .inl rfl, fun _ => rfl⟩, by simp [enterOversizedDrain],
    fun _ t => ?_⟩
  have hlive := hwf.length_live
  have hle := hwf.length_le
  have hne : (Except.ok (m, c) : Except Exn (ℕ × ℕ)) ≠ .ok (0, 0) := by simp [hc]
  have hfirst' : (d.live ++ t)[0]? = some fixedByte := by
    rw [List.getElem?_append_left (by omega), hfirst]
  have hevent : (d.enterOversizedDrain (1 + c + m - d.live.length) r.topic r.qos r.packetId
      m).drainEvent = r := by
    simp [enterOversizedDrain, drainEvent, ← reportedLength_of_report hrep]
  rw [scanPacket_of_header (by rw [List.length_append]; omega) hfirst'
    (decodeVarlen_append t hv hne) hc, if_pos hbig,
    oversizedReport_append size fixedByte m (1 + c) d.live t (by rw [hrep]; simp), hrep]
  simp only [hevent, List.length_append]
  by_cases ht : d.live.length + t.length < 1 + c + m
  · rw [if_pos ht, if_pos (by simp only [enterOversizedDrain]; omega)]
  · rw [if_neg ht, if_neg (by simp only [enterOversizedDrain]; omega)]
    congr 1
    simp only [enterOversizedDrain]
    omega

/-- Reading from the buffer.

**Proof sketch.** Split on the header. Without a complete one both want more bytes or fail alike.
A packet that fits is parsed from the same bytes by both. One that does not fit cannot be
complete yet, since the buffer is shorter: the decoder waits or enters the drain. -/
lemma readNext_buffered (h : d.Holds size d.live) (hm : d.drainMode = .none) :
    d.ReadsLike size d.live := by
  have hwf := h.wf
  have hlive := hwf.length_live
  have hle := hwf.length_le
  obtain ⟨hshort, herr, hinc⟩ := readNext_of_no_header hwf hm
  rcases scanPacket_cases size d.live with ⟨hlen, hmore⟩ | ⟨m, hlen, hv, hmore⟩ |
    ⟨e, hlen, hv, hf⟩ | ⟨b, m, c, hlen, hfirst, hv, hc⟩
  · exact .of_more hmore (hshort hlen) h
  · exact .of_more hmore (hinc m hlen hv) h
  · exact .of_fail hf (herr e hlen hv)
  · have hscan := @scanPacket_of_header size _ _ _ _ hlen hfirst hv hc
    have hread := readNext_of_header hwf hm hlen hfirst hv hc
    by_cases hbig : 1 + c + m > size
    · rw [if_pos hbig] at hscan hread
      rw [enterDrainPath_eq hwf b m (1 + c) (1 + c + m) hbig] at hread
      rcases hrep : oversizedReport size b m (1 + c) d.live with e | _ | r
      · rw [hrep] at hscan hread
        exact .of_fail hscan hread
      · rw [hrep] at hscan hread
        exact .of_more hscan hread h
      · rw [hrep] at hscan hread
        simp only at hscan hread
        rw [if_pos (by omega)] at hscan
        exact .of_more hscan hread (holds_enterOversizedDrain hwf hlen hfirst hv hc hbig hrep)
    · rw [if_neg hbig] at hscan hread
      by_cases hpart : d.live.length < 1 + c + m
      · rw [if_pos hpart] at hscan hread
        refine .of_more hscan hread ?_
        split
        · obtain ⟨hwf', hlive'⟩ := compact_wf hwf.size_eq hwf.length_buffer hwf.offset_le
            hwf.length_le hwf.drain_empty
          exact ⟨hwf', fun _ => hlive', fun hd => by simp [compact, hm] at hd⟩
        · exact h
      · rw [if_neg hpart] at hscan hread
        rcases hparse : parsePacket b d.live (1 + c) (1 + c + m) with e | packet
        · rw [hparse] at hscan hread
          exact .of_fail hscan hread
        · rw [hparse] at hscan hread
          obtain ⟨hwf', hlive', hmode', hcount⟩ := consume_wf (n := 1 + c + m) hwf (by omega)
          refine .of_item hscan hread ⟨hwf', fun _ => hlive', fun hd => ?_⟩ ?_
          · rw [hmode', hm] at hd
            cases hd
          · simp only [pendingCalls, hmode', hcount]
            omega

/-- **What `read_next` returns is what the scanner says of the bytes the decoder holds.** -/
lemma readNext_spec (h : d.Holds size p) : d.ReadsLike size p := by
  cases hm : d.drainMode with
  | oversized => exact readNext_draining h hm
  | none =>
    have hp := h.buffered hm
    subst hp
    exact readNext_buffered h hm

/-- `read_next` until `None` returns all packets of the bytes held, or the first error among
them.

**Proof sketch.** Induction on the fuel; each packet leaves fewer calls that can return one. -/
lemma readAll_spec : ∀ (fuel : ℕ) (d : PacketDecoder) (p : List UInt8),
    d.Holds size p → d.pendingCalls ≤ fuel →
    (readAll fuel d).1 = ((packetScanner size).all p).items ∧
    (readAll fuel d).2.1 = ((packetScanner size).all p).error ∧
    (((packetScanner size).all p).error = none →
      (readAll fuel d).2.2.Holds size ((packetScanner size).all p).rest)
  | 0, d, p, h, hf => by
    unfold pendingCalls at hf
    split at hf <;> omega
  | fuel + 1, d, p, h, hf => by
    have hspec := readNext_spec h
    unfold readAll
    rcases hs : scanPacket size p with _ | e | ⟨a, n⟩
    · obtain ⟨d', hr, hh⟩ := hspec.more hs
      rw [hr, (packetScanner size).all_of_more hs]
      exact ⟨rfl, rfl, fun _ => hh⟩
    · rw [hspec.fail e hs, (packetScanner size).all_of_fail hs]
      exact ⟨rfl, rfl, fun he => by cases he⟩
    · obtain ⟨d', hr, hh, hc⟩ := hspec.item a n hs
      obtain ⟨h1, h2, h3⟩ := readAll_spec fuel d' _ hh (by omega)
      rw [hr, (packetScanner size).all_of_item hs]
      simp only [Output.prepend_items, Output.prepend_error, Output.prepend_rest]
      exact ⟨by rw [← h1]; rfl, h2, h3⟩

/-- Handing over one legal piece. -/
lemma feed_spec {c : List UInt8} (h : d.Holds size p) (hc : c.length ≤ d.fillCapacity) :
    (d.feed c).1 = ((packetScanner size).all (p ++ c)).items ∧
    (d.feed c).2.1 = ((packetScanner size).all (p ++ c)).error ∧
    (((packetScanner size).all (p ++ c)).error = none →
      (d.feed c).2.2.Holds size ((packetScanner size).all (p ++ c)).rest) := by
  refine readAll_spec _ _ _ (fill_holds h hc) ?_
  unfold pendingCalls
  split <;> omega

end PacketDecoder

/-- The decoder as a reader of the inbound stream: a legal piece is non-empty and no longer than
`fill_capacity()`, and after it `read_next` is called until it yields `None`. -/
def decoderReader (size : ℕ) : Reader (packetScanner size) PacketDecoder where
  feed := PacketDecoder.feed
  Legal d c := c ≠ [] ∧ c.length ≤ d.fillCapacity
  Sim d p := d.Holds size p ∧ scanPacket size p = .more
  sim_more h := h.2
  feed_items h hc := (PacketDecoder.feed_spec h.1 hc.2).1
  feed_error h hc := (PacketDecoder.feed_spec h.1 hc.2).2.1
  feed_sim h hc he := ⟨(PacketDecoder.feed_spec h.1 hc.2).2.2 he, Scanner.scan_rest _ _ he⟩

instance (size : ℕ) (d : PacketDecoder) (c : List UInt8) :
    Decidable ((decoderReader size).Legal d c) :=
  inferInstanceAs (Decidable (c ≠ [] ∧ c.length ≤ d.fillCapacity))

open PacketDecoder

/-- A fresh decoder is a reader at the start of the stream. -/
lemma decoderReader_new (size : ℕ) : (decoderReader size).Sim (new size) [] :=
  ⟨holds_new size, by simp [scanPacket]⟩

/-- **Decoding does not depend on how the stream is split.** Two legal deliveries of the same
bytes to fresh decoders of the same buffer size return the same packets, acks and oversized
reports in the same order and stop at the same first error, namely those the scanner reads off
the stream itself.

**Proof sketch.** Both runs are runs of the reader `decoderReader`, so each returns what
`Scanner.all` says of the concatenation of its pieces (`Reader.run_eq_all`). -/
theorem decoder_runs_agree (size : ℕ) (cs cs' : List (List UInt8)) (hs : cs.flatten = cs'.flatten)
    (h : (decoderReader size).LegalRun (new size) cs)
    (h' : (decoderReader size).LegalRun (new size) cs') :
    ((decoderReader size).run (new size) cs).1 =
      ((decoderReader size).run (new size) cs').1 ∧
    ((decoderReader size).run (new size) cs).2.1 =
      ((decoderReader size).run (new size) cs').2.1 ∧
    ((decoderReader size).run (new size) cs).1 =
      ((packetScanner size).all cs.flatten).items := by
  obtain ⟨h1, h2, -⟩ := (decoderReader size).run_eq_all cs _ [] (decoderReader_new size) h
  obtain ⟨h1', h2', -⟩ := (decoderReader size).run_eq_all cs' _ [] (decoderReader_new size) h'
  rw [List.nil_append] at h1 h2 h1' h2'
  exact ⟨by rw [h1, h1', hs], by rw [h2, h2', hs], h1⟩

/-- A PINGRESP, an oversized PUBLISH and a PUBACK, cut in two ways for an eight-byte buffer. -/
theorem decoder_runs_agree_oversized :
    ((decoderReader 8).run (new 8)
      [[0xd0, 0x00], [0x30, 0x0a], [0x00, 0x01], [0x61, 1], [2, 3], [4, 5, 6, 7],
        [0x40, 0x02, 0x00], [0x09]]).1 =
    ((decoderReader 8).run (new 8)
      [[0xd0], [0x00, 0x30, 0x0a, 0x00], [0x01], [0x61], [1], [2, 3, 4, 5, 6, 7],
        [0x40, 0x02, 0x00, 0x09]]).1 :=
  (decoder_runs_agree 8
    [[0xd0, 0x00], [0x30, 0x0a], [0x00, 0x01], [0x61, 1], [2, 3], [4, 5, 6, 7],
      [0x40, 0x02, 0x00], [0x09]]
    [[0xd0], [0x00, 0x30, 0x0a, 0x00], [0x01], [0x61], [1], [2, 3, 4, 5, 6, 7],
      [0x40, 0x02, 0x00, 0x09]]
    (by decide) (by decide) (by decide)).1

end ChuMicro.Mqtt
