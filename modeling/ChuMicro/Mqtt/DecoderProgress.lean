import ChuMicro.Mqtt.DecoderStream

/-!
# When the decoder can receive more bytes

`read_next` reopens fill space when the buffer is full in the middle of a packet that fits, so
that `recv` can be called again. `_enter_drain_path` has two `None` exits that do not: the header
and prelude of an oversized PUBLISH may straddle the end of a buffer whose front was already
consumed. Then `fill_capacity()` is zero and stays zero.

## Main definitions

* `Mqtt.PacketDecoder.Reachable` — the states of all legal feeding histories.
* `Mqtt.PacketDecoder.PreludeStraddles` — the stuck states.

## Main results

* `Mqtt.decoder_progress_iff` — in every reachable state, `read_next` returning `None` leaves room
  for at least one byte exactly when the state is not a stuck one, and a stream of valid packets
  whose delivery meets no stuck state is decoded in full.
-/

namespace ChuMicro.Mqtt

open Bytes Streaming

namespace PacketDecoder

/-- The decoders of all legal feeding histories: pieces of at most `fill_capacity()` bytes and
calls of `read_next` that do not raise, in any order. -/
inductive Reachable (size : ℕ) : PacketDecoder → Prop
  | new : Reachable size (new size)
  | fill {d : PacketDecoder} {c : List UInt8} :
      Reachable size d → c ≠ [] → c.length ≤ d.fillCapacity → Reachable size (d.fill c)
  | read {d d' : PacketDecoder} {r : Option Inbound} :
      Reachable size d → d.readNext = .ok (r, d') → Reachable size d'

/-- The buffer is full, its front was consumed, and the unread bytes start an oversized PUBLISH
whose prelude (fixed header, topic length, topic and packet id) would fit the buffer but is not
all in it. -/
def PreludeStraddles (d : PacketDecoder) : Prop :=
  d.drainMode = .none ∧ d.bufferLength = d.bufferSize ∧ 0 < d.readOffset ∧
  ∃ fixedByte messageLength varlenConsumed,
    d.live[0]? = some fixedByte ∧
    decodeVarlen d.live 1 d.live.length = .ok (messageLength, varlenConsumed) ∧
    varlenConsumed ≠ 0 ∧
    1 + varlenConsumed + messageLength > d.bufferSize ∧
    fixedByte &&& 0xF0 = PACKET_PUBLISH ∧
    (d.live.length < 1 + varlenConsumed + 2 ∨
      ∃ topicLength,
        unpack 2 (slice d.live (1 + varlenConsumed) (1 + varlenConsumed + 2)) = .ok topicLength ∧
        1 + varlenConsumed + 2 + topicLength + (if publishQos fixedByte > 0 then 2 else 0) ≤
          d.bufferSize ∧
        d.live.length <
          1 + varlenConsumed + 2 + topicLength + (if publishQos fixedByte > 0 then 2 else 0))

/-- Every legal history keeps the invariant. -/
lemma Reachable.holds {size : ℕ} {d : PacketDecoder} (h : Reachable size d) :
    ∃ p, d.Holds size p := by
  induction h with
  | new => exact ⟨[], holds_new size⟩
  | fill _ _ hc ih =>
    obtain ⟨p, hp⟩ := ih
    exact ⟨_, fill_holds hp hc⟩
  | @read d d' r _ hread ih =>
    obtain ⟨p, hp⟩ := ih
    have hspec := readNext_spec hp
    rcases hs : scanPacket size p with _ | e | ⟨a, n⟩
    · obtain ⟨d₁, hr, hh⟩ := hspec.more hs
      rw [hread] at hr
      cases hr
      exact ⟨p, hh⟩
    · have hr := hspec.fail e hs
      rw [hread] at hr
      cases hr
    · obtain ⟨d₁, hr, hh, -⟩ := hspec.item a n hs
      rw [hread] at hr
      cases hr
      exact ⟨_, hh⟩

end PacketDecoder

/-- A variable-length integer has at most as many digits as are allowed. -/
lemma decodeVarlenLoop_consumed_le (p : List UInt8) (start limit : ℕ) :
    ∀ n consumed value shift v k,
      decodeVarlenLoop p start limit n consumed value shift = .ok (v, k) → k ≤ consumed + n
  | 0, _, _, _, _, _, h => by simp [decodeVarlenLoop] at h
  | n + 1, consumed, value, shift, v, k, h => by
    unfold decodeVarlenLoop at h
    split at h
    · cases h
      omega
    · split at h
      · cases h
      · simp only at h
        split at h
        · cases h
          omega
        · have := decodeVarlenLoop_consumed_le p start limit n _ _ _ v k h
          omega

variable {size : ℕ}

/-- The report on an oversized PUBLISH is undecided exactly while its topic length, or its
prelude, is not all there. -/
lemma oversizedReport_eq_none {fixedByte : UInt8} {m headerLength : ℕ} {p : List UInt8}
    (h : oversizedReport size fixedByte m headerLength p = .ok none) :
    fixedByte &&& 0xF0 = PACKET_PUBLISH ∧
    (p.length < headerLength + 2 ∨
      ∃ topicLength, unpack 2 (slice p headerLength (headerLength + 2)) = .ok topicLength ∧
        headerLength + 2 + topicLength + (if publishQos fixedByte > 0 then 2 else 0) ≤ size ∧
        p.length < headerLength + 2 + topicLength + (if publishQos fixedByte > 0 then 2 else 0)) := by
  unfold oversizedReport at h
  simp only at h
  split at h
  · cases h
  · rename_i htype
    refine ⟨by simpa using htype, ?_⟩
    split at h
    · rename_i hshort
      exact .inl hshort
    · right
      cases hu : unpack 2 (slice p headerLength (headerLength + 2)) with
      | error e => rw [hu] at h; cases h
      | ok topicLength =>
        refine ⟨topicLength, rfl, ?_⟩
        rw [hu] at h
        simp only [liftPy_ok, bind, Except.bind, pure, Except.pure] at h
        set idLength := if publishQos fixedByte > 0 then 2 else 0
        split at h
        · cases h
        · rename_i hsize
          split at h
          · rename_i hpre
            exact ⟨by omega, hpre⟩
          · split at h
            · cases h
            · split at h
              · split at h <;> cases h
              · cases h

/-- A decided report has read its whole prelude, or knows that the topic does not fit. -/
lemma oversizedReport_eq_some {fixedByte : UInt8} {m headerLength : ℕ} {p : List UInt8}
    {r : OversizedMessage} (h : oversizedReport size fixedByte m headerLength p = .ok (some r)) :
    ¬ (p.length < headerLength + 2 ∨
      ∃ topicLength, unpack 2 (slice p headerLength (headerLength + 2)) = .ok topicLength ∧
        headerLength + 2 + topicLength + (if publishQos fixedByte > 0 then 2 else 0) ≤ size ∧
        p.length < headerLength + 2 + topicLength + (if publishQos fixedByte > 0 then 2 else 0)) := by
  rintro (hshort | ⟨topicLength, hu, hsize, hpre⟩)
  · unfold oversizedReport at h
    simp only [if_pos hshort] at h
    split at h <;> cases h
  · unfold oversizedReport at h
    simp only [hu, liftPy_ok, bind, Except.bind] at h
    rw [if_neg (show ¬ headerLength + 2 + topicLength +
      (if publishQos fixedByte > 0 then 2 else 0) > size by omega), if_pos hpre] at h
    split at h
    · cases h
    · split at h <;> cases h

namespace PacketDecoder

variable {size : ℕ} {d : PacketDecoder}

/-- An undecided drain report leaves the decoder as it is; it has room exactly when it is not
stuck. -/
lemma fillCapacity_of_no_report (hsize : 8 ≤ size) (hwf : d.Wf size) (hm : d.drainMode = .none)
    {fixedByte : UInt8} {m c : ℕ} (hfirst : d.live[0]? = some fixedByte)
    (hv : decodeVarlen d.live 1 d.live.length = .ok (m, c)) (hc : c ≠ 0) (hc4 : c ≤ 4)
    (hbig : 1 + c + m > size) (hrep : oversizedReport size fixedByte m (1 + c) d.live = .ok none) :
    0 < d.fillCapacity ↔ ¬ d.PreludeStraddles := by
  have hlive := hwf.length_live
  have hoff := hwf.offset_le
  have hle := hwf.length_le
  have hs := hwf.size_eq
  obtain ⟨htype, hprelude⟩ := oversizedReport_eq_none hrep
  have hcap : d.fillCapacity = size - d.bufferLength := by simp [fillCapacity, hm, hs]
  rw [hcap]
  constructor
  · rintro hpos ⟨-, hfull, -⟩
    omega
  · intro hstuck
    by_contra hfull
    refine hstuck ⟨hm, by omega, ?_, fixedByte, m, c, hfirst, hv, hc, by omega, htype, ?_⟩
    · -- with the cursor at the start the full buffer would hold the whole prelude
      rcases hprelude with hshort | ⟨topicLength, -, hfit, hpre⟩
      · omega
      · omega
    · rw [hs]
      exact hprelude

/-- A `None` from the buffer: there is room for a byte exactly when the state is not stuck.

**Proof sketch.** Without a complete header at most four bytes are unread, and the cursor is in
the first half, so there is room. A packet that fits and is incomplete is compacted when the
buffer is full. A drain that starts empties the buffer. What is left are the two undecided exits
of the drain path, `fillCapacity_of_no_report`. -/
lemma fillCapacity_of_buffered (hsize : 8 ≤ size) {d' : PacketDecoder} (hwf : d.Wf size)
    (hm : d.drainMode = .none) (hread : d.readNext = .ok (none, d')) :
    0 < d'.fillCapacity ↔ ¬ d.PreludeStraddles := by
  have hlive := hwf.length_live
  have hoff := hwf.offset_le
  have hle := hwf.length_le
  have hs := hwf.size_eq
  have hhalf := hwf.offset_half
  obtain ⟨hshort, herr, hinc⟩ := readNext_of_no_header hwf hm
  have hcap : d.fillCapacity = size - d.bufferLength := by simp [fillCapacity, hm, hs]
  -- a decoder that stays as it is with room in its buffer
  have hroom : d.bufferLength < size → (0 < d.fillCapacity ↔ ¬ d.PreludeStraddles) := by
    intro hlt
    refine iff_of_true (by omega) ?_
    rintro ⟨-, hfull, -⟩
    omega
  rcases scanPacket_cases size d.live with ⟨hlen, -⟩ | ⟨m, hlen, hv, -⟩ | ⟨e, hlen, hv, -⟩ |
    ⟨b, m, c, hlen, hfirst, hv, hc⟩
  · rw [hshort hlen] at hread
    cases hread
    exact hroom (by omega)
  · rw [hinc m hlen hv] at hread
    cases hread
    have := (decodeVarlenLoop_zero d.live 1 4 0 0 0 m hv).2
    exact hroom (by omega)
  · rw [herr e hlen hv] at hread
    cases hread
  · have hc4 := decodeVarlenLoop_consumed_le d.live 1 _ 4 0 0 0 m c hv
    rw [readNext_of_header hwf hm hlen hfirst hv hc] at hread
    by_cases hbig : 1 + c + m > size
    · rw [if_pos hbig, enterDrainPath_eq hwf b m (1 + c) (1 + c + m) hbig] at hread
      rcases hrep : oversizedReport size b m (1 + c) d.live with e | _ | r
      · rw [hrep] at hread
        cases hread
      · rw [hrep] at hread
        cases hread
        exact fillCapacity_of_no_report hsize hwf hm hfirst hv hc (by omega) hbig hrep
      · rw [hrep] at hread
        cases hread
        refine iff_of_true ?_ ?_
        · simp only [fillCapacity, enterOversizedDrain]
          omega
        · rintro ⟨-, -, -, b', m', c', hb', hv', -, -, -, hpre⟩
          rw [hfirst] at hb'
          rw [hv] at hv'
          cases hb'
          cases hv'
          rw [hs] at hpre
          exact oversizedReport_eq_some hrep hpre
    · rw [if_neg hbig] at hread
      have hfits : ¬ d.PreludeStraddles := by
        rintro ⟨-, -, -, b', m', c', -, hv', -, hbig', -⟩
        rw [hv] at hv'
        cases hv'
        omega
      by_cases hpart : d.live.length < 1 + c + m
      · rw [if_pos hpart] at hread
        cases hread
        refine iff_of_true ?_ hfits
        split
        · simp only [fillCapacity, compact, hm]
          omega
        · rename_i hnot
          rw [hcap]
          have hfull : ¬ (d.bufferLength = size ∧ d.readOffset > 0) := hnot
          omega
      · rw [if_neg hpart] at hread
        split at hread <;> cases hread

/-- **Progress in one call**: in every reachable state, `read_next` returning `None` leaves room
for at least one byte exactly when the state is not stuck. -/
lemma fillCapacity_pos_iff (hsize : 8 ≤ size) {d' : PacketDecoder} (hr : Reachable size d)
    (hread : d.readNext = .ok (none, d')) : 0 < d'.fillCapacity ↔ ¬ d.PreludeStraddles := by
  obtain ⟨p, hp⟩ := hr.holds
  cases hm : d.drainMode with
  | none => exact fillCapacity_of_buffered hsize hp.wf hm hread
  | oversized =>
    have hwf := hp.wf
    have hread' : d.readNext = .ok d.maybeFinishOversized := by
      unfold readNext; rw [hm]
    rw [hread', maybeFinishOversized] at hread
    split at hread
    · rename_i hrem
      cases hread
      refine iff_of_true ?_ (fun h => by have := h.1; rw [hm] at this; cases this)
      have hzero := hwf.drain_empty hm
      have hs := hwf.size_eq
      simp only [fillCapacity, hm]
      omega
    · cases hread

/-- Reading until `None` ends with a call that returned `None`, all of it inside the history. -/
lemma readAll_last : ∀ (fuel : ℕ) (d : PacketDecoder) (p : List UInt8),
    Reachable size d → d.Holds size p → d.pendingCalls ≤ fuel → (readAll fuel d).2.1 = none →
    ∃ d₀, Reachable size d₀ ∧ d₀.readNext = .ok (none, (readAll fuel d).2.2)
  | 0, d, p, _, _, hf, _ => by
    unfold pendingCalls at hf
    split at hf <;> omega
  | fuel + 1, d, p, hr, h, hf, he => by
    have hspec := readNext_spec h
    unfold readAll at he ⊢
    rcases hs : scanPacket size p with _ | e | ⟨a, n⟩
    · obtain ⟨d', hread, -⟩ := hspec.more hs
      rw [hread]
      exact ⟨d, hr, hread⟩
    · rw [hspec.fail e hs] at he
      cases he
    · obtain ⟨d', hread, hh, hc⟩ := hspec.item a n hs
      rw [hread] at he ⊢
      exact readAll_last fuel d' _ (.read hr hread) hh (by omega) he

/-- A legal piece keeps to the legal histories. -/
lemma feed_last {p c : List UInt8} (hr : Reachable size d) (h : d.Holds size p) (hnil : c ≠ [])
    (hc : c.length ≤ d.fillCapacity) (he : (d.feed c).2.1 = none) :
    ∃ d₀, Reachable size d₀ ∧ d₀.readNext = .ok (none, (d.feed c).2.2) := by
  refine readAll_last _ _ _ (.fill hr hnil hc) (fill_holds h hc) ?_ he
  unfold pendingCalls
  split <;> omega

end PacketDecoder

open PacketDecoder

/-- A legal run without an error ends where it started or with a call that returned `None`. -/
lemma run_last : ∀ (cs : List (List UInt8)) (d : PacketDecoder) (p : List UInt8),
    Reachable size d → (decoderReader size).Sim d p → (decoderReader size).LegalRun d cs →
    ((decoderReader size).run d cs).2.1 = none →
    ((decoderReader size).run d cs).2.2 = d ∨
      ∃ d₀, Reachable size d₀ ∧ d₀.readNext = .ok (none, ((decoderReader size).run d cs).2.2)
  | [], d, p, _, _, _, _ => .inl rfl
  | c :: cs, d, p, hr, hsim, hleg, he => by
    obtain ⟨⟨hnil, hc⟩, hcs⟩ := hleg
    have hf : (decoderReader size).feed d c = d.feed c := rfl
    have herror := (decoderReader size).feed_error hsim ⟨hnil, hc⟩
    rcases hfeed : d.feed c with ⟨as, _ | e, d'⟩
    · rw [hf, hfeed] at herror hcs
      have hsim' := (decoderReader size).feed_sim hsim ⟨hnil, hc⟩ herror.symm
      rw [hf, hfeed] at hsim'
      obtain ⟨d₀, hr₀, hread₀⟩ := feed_last hr hsim.1 hnil hc (by rw [hfeed])
      rw [hfeed] at hread₀
      have hrun : ((decoderReader size).run d (c :: cs)).2 = ((decoderReader size).run d' cs).2 := by
        simp only [Reader.run, hf, hfeed]
      rw [hrun] at he ⊢
      rcases run_last cs d' _ (.read hr₀ hread₀) hsim' (hcs rfl) he with heq | hlast
      · exact .inr ⟨d₀, hr₀, by rw [heq, hread₀]⟩
      · exact .inr hlast
    · have hrun : ((decoderReader size).run d (c :: cs)).2.1 = some e := by
        simp only [Reader.run, hf, hfeed]
      rw [hrun] at he
      cases he

open PacketDecoder

/-- **Progress.** In every reachable state, `read_next` returning `None` leaves room for at least
one more byte exactly when the state is not a stuck one. A stream of valid packets of any sizes,
handed over in legal pieces, never raises; once all of it is handed over all its packets have
been returned; and at every moment before there is room for the next byte unless the last call
was made in a stuck state.

**Proof sketch.** The first part is `fillCapacity_pos_iff`. For the second, the run returns what
the scanner says of the bytes handed over, a prefix of the stream, and the stream scans to its
packets (`Scanner.all_flatten`); its last call returned `None` (`run_last`). -/
theorem decoder_progress_iff (size : ℕ) (hsize : 8 ≤ size) :
    (∀ d d', Reachable size d → d.readNext = .ok (none, d') →
      (0 < d'.fillCapacity ↔ ¬ d.PreludeStraddles)) ∧
    (∀ (packets : List Inbound) (enc : Inbound → List UInt8) (cs : List (List UInt8))
        (u : List UInt8),
      (∀ a ∈ packets, scanPacket size (enc a) = .item a (enc a).length) →
      cs.flatten ++ u = (packets.map enc).flatten →
      (decoderReader size).LegalRun (new size) cs →
      ((decoderReader size).run (new size) cs).2.1 = none ∧
      (u = [] → ((decoderReader size).run (new size) cs).1 = packets) ∧
      (0 < ((decoderReader size).run (new size) cs).2.2.fillCapacity ∨
        ∃ d, Reachable size d ∧ d.PreludeStraddles ∧
          d.readNext = .ok (none, ((decoderReader size).run (new size) cs).2.2))) := by
  refine ⟨fun d d' hr hread => fillCapacity_pos_iff hsize hr hread, ?_⟩
  intro packets enc cs u henc hflat hleg
  obtain ⟨hitems, herror, -⟩ :=
    (decoderReader size).run_eq_all cs _ [] (decoderReader_new size) hleg
  rw [List.nil_append] at hitems herror
  have hall : (packetScanner size).all (packets.map enc).flatten = ⟨packets, none, []⟩ := by
    have := (packetScanner size).all_flatten enc packets [] henc
    rw [List.append_nil] at this
    rw [this, (packetScanner size).all_of_more (by simp [packetScanner, scanPacket])]
    simp [Output.prepend]
  -- an error in the bytes handed over would be an error of the whole stream
  have hnone : ((packetScanner size).all cs.flatten).error = none := by
    by_contra hne
    obtain ⟨e, he⟩ := Option.ne_none_iff_exists'.mp hne
    have := ((packetScanner size).all_append_of_error cs.flatten u he).2
    rw [hflat, hall] at this
    cases this
  refine ⟨by rw [herror, hnone], fun hu => ?_, ?_⟩
  · rw [hu, List.append_nil] at hflat
    rw [hitems, hflat, hall]
  · rcases run_last cs _ [] .new (decoderReader_new size) hleg (by rw [herror, hnone]) with
      heq | ⟨d, hr, hread⟩
    · left
      rw [heq]
      simp only [fillCapacity, new]
      omega
    · by_cases hstuck : d.PreludeStraddles
      · exact .inr ⟨d, hr, hstuck, hread⟩
      · exact .inl ((fillCapacity_pos_iff hsize hr hread).mpr hstuck)

/-- In an eight-byte buffer, a PINGRESP and the first byte of a PUBLISH leave room. -/
theorem decoder_progress_pingresp :
    0 < ((decoderReader 8).run (new 8) [[0xd0, 0x00, 0x30]]).2.2.fillCapacity :=
  have hfill : Reachable 8 ((new 8).fill [0xd0, 0x00, 0x30]) :=
    .fill .new (by decide) (by decide)
  ((decoder_progress_iff 8 (by decide)).1 _ _
    (.read hfill (r := some (.ack { packetType := PACKET_PINGRESP })) rfl) (by decide)).mpr
    (fun h => absurd h.2.1 (by decide))

/-- **The decoder can wedge.** An eight-byte buffer receives a PINGRESP and the first six bytes of
a PUBLISH of 102 bytes with a four-byte topic. The PINGRESP is returned, then `read_next` yields
`None`, and no byte can be received any more. -/
theorem decoder_wedges :
    ((decoderReader 8).LegalRun (new 8)
      [[0xd0, 0x00, 0x30, 0x64, 0x00, 0x04, 0x61, 0x62]]) ∧
    ((decoderReader 8).run (new 8)
      [[0xd0, 0x00, 0x30, 0x64, 0x00, 0x04, 0x61, 0x62]]).2.1 = none ∧
    ((decoderReader 8).run (new 8)
      [[0xd0, 0x00, 0x30, 0x64, 0x00, 0x04, 0x61, 0x62]]).2.2.fillCapacity = 0 ∧
    ¬ (∀ d d', Reachable 8 d → d.readNext = .ok (none, d') → 0 < d'.fillCapacity) := by
  refine ⟨by decide, by decide, by decide, fun h => ?_⟩
  have hfill : Reachable 8 ((new 8).fill
      [0xd0, 0x00, 0x30, 0x64, 0x00, 0x04, 0x61, 0x62]) := .fill .new (by decide) (by decide)
  have hread := Reachable.read hfill (r := some (.ack { packetType := PACKET_PINGRESP })) rfl
  exact absurd (h _ _ hread rfl) (by decide)

end ChuMicro.Mqtt
