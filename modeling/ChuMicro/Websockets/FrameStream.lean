import ChuMicro.Lib.Scan
import ChuMicro.Websockets.Wire

/-!
# The frame parser on a stream that arrives in pieces

`FrameParser.scan` says what the parser makes of a buffer when it gets all of it at once: it waits,
it fails, or it has read one frame. `feed` on a part of the buffer leaves a parser whose `scan` of
the rest gives the same answer, so that the frames do not depend on how the stream is cut.

## Main definitions

* `Websockets.Frame` — what `FrameParser` says of a frame it has read.
* `Websockets.FrameParser.scan` — the parser on a whole buffer.
* `Websockets.FrameParser.Waiting` — the states in which the parser waits for bytes.

## Main results

* `Websockets.FrameParser.feed_spec` — `feed` on any buffer, in terms of `scan`.
* `Websockets.scan_encodeFrame` — an encoded frame is read as that frame, whatever follows.
-/

namespace ChuMicro.Websockets

open Streaming

/-- What the parser says of the frame it has read. The payload of an oversized frame is drained. -/
structure Frame where
  fin : Bool
  opcode : ℕ
  hadMask : Bool
  reportedLength : ℕ
  oversized : Bool
  payload : List UInt8
  deriving DecidableEq

/-- An answer about a buffer, with `k` more symbols in front of it. -/
def shift {ε α : Type} (k : ℕ) : Scan ε α → Scan ε α
  | .more => .more
  | .fail e => .fail e
  | .item a n => .item a (k + n)

section Shift

variable {ε α : Type} {a : α} {e : ε} {k l n : ℕ} {r : Scan ε α}

@[simp] lemma shift_more : shift k (.more : Scan ε α) = .more := rfl

@[simp] lemma shift_fail : shift k (.fail e : Scan ε α) = .fail e := rfl

@[simp] lemma shift_item : shift k (.item a n : Scan ε α) = .item a (k + n) := rfl

lemma shift_shift : shift k (shift l r) = shift (k + l) r := by
  cases r <;> simp [add_assoc]

lemma shift_eq_fail : shift k r = .fail e ↔ r = .fail e := by
  cases r <;> simp

lemma shift_eq_item : shift k r = .item a n ↔ ∃ m, r = .item a m ∧ n = k + m := by
  cases r <;> simp [eq_comm]

end Shift

namespace FrameParser

/-- The frame the parser has read. -/
def frame (p : FrameParser) : Frame where
  fin := p.fin
  opcode := p.opcode
  hadMask := p.hadMask
  reportedLength := p.reportedLength
  oversized := p.oversized
  payload := p.payload

/-- The states in the order in which a frame goes through them. -/
def rank : FrameParseState → ℕ
  | .readingHeader => 4
  | .readingLen16 | .readingLen64 => 3
  | .readingMask => 2
  | .readingPayload | .drainingPayload => 1
  | .frameReady | .error => 0

/-- The parser on a buffer it gets all at once: stage by stage, each with the bytes it needs. -/
def scan (p : FrameParser) (data : List UInt8) : Scan Exn Frame :=
  if p.state = .frameReady then .item p.frame 0
  else if data.length < p.need then .more
  else
    match p.absorb (data.take p.need) with
    | (.error e, _) => .fail e
    | (.ok _, p') =>
      if rank p'.state < rank p.state then shift p.need (p'.scan (data.drop p.need)) else .more
termination_by rank p.state

/-- The parser waits for at least one byte. -/
structure Waiting (p : FrameParser) : Prop where
  not_ready : p.state ≠ .frameReady
  not_error : p.state ≠ .error
  need_pos : 0 < p.need

/-! ## One stage -/

section Stage

variable {p : FrameParser} {taken : List UInt8}

/-- The mask key goes on repeating across two pieces. -/
lemma applyMask_append (key : List UInt8) (start : ℕ) (a b : List UInt8) :
    applyMask key start (a ++ b) = applyMask key start a ++ applyMask key (start + a.length) b := by
  induction a generalizing start with
  | nil => simp [applyMask]
  | cons x a ih => simp [applyMask, ih, add_assoc, add_comm a.length 1]

@[simp] lemma length_applyMask (key : List UInt8) (start : ℕ) (a : List UInt8) :
    (applyMask key start a).length = a.length := by
  induction a generalizing start with
  | nil => rfl
  | cons x a ih => simp [applyMask, ih]

/-- Applying a mask twice gives the payload back. -/
lemma applyMask_applyMask (key : List UInt8) (start : ℕ) (a : List UInt8) :
    applyMask key start (applyMask key start a) = a := by
  induction a generalizing start with
  | nil => rfl
  | cons x a ih =>
    simp only [applyMask, ih, UInt8.xor_assoc, UInt8.xor_self, UInt8.xor_zero]

/-- The outcomes of a stage: the parser has failed, or it is in a state of rank at most `r` in
which it has a frame or waits for bytes. The cap is never changed. -/
structure Settles (p : FrameParser) (r : ℕ) (out : Except Exn Unit × FrameParser) : Prop where
  cap : out.2.maxPayloadBytes = p.maxPayloadBytes
  lastError : out.1.isOk → out.2.lastError = p.lastError
  failed : ∀ e, out.1 = .error e → out.2.state = .error
  rank_le : ∀ u, out.1 = .ok u → rank out.2.state ≤ r
  goes_on : ∀ u, out.1 = .ok u → out.2.state = .frameReady ∨ out.2.Waiting

lemma settles_fail (p : FrameParser) (r : ℕ) (message : String) :
    Settles p r (p.fail message) where
  cap := rfl
  lastError h := by simp [fail, Except.isOk, Except.toBool] at h
  failed _ _ := rfl
  rank_le _ h := by cases h
  goes_on _ h := by cases h

variable {q : FrameParser}

lemma settles_ok {r : ℕ} (hcap : q.maxPayloadBytes = p.maxPayloadBytes)
    (herr : q.lastError = p.lastError) (hr : rank q.state ≤ r)
    (hq : q.state = .frameReady ∨ q.Waiting) : Settles p r (.ok (), q) where
  cap := hcap
  lastError _ := herr
  failed _ h := by cases h
  rank_le _ _ := hr
  goes_on _ _ := hq

lemma Settles.mono {r r' : ℕ} {out : Except Exn Unit × FrameParser} (h : Settles q r out)
    (hcap : q.maxPayloadBytes = p.maxPayloadBytes) (herr : q.lastError = p.lastError)
    (hr : r ≤ r') : Settles p r' out where
  cap := h.cap.trans hcap
  lastError ho := (h.lastError ho).trans herr
  failed := h.failed
  rank_le u hu := (h.rank_le u hu).trans hr
  goes_on := h.goes_on

/-- After the mask a frame is complete or its payload follows. -/
lemma settles_afterMask (p : FrameParser) : Settles p 1 (.ok (), p.afterMask) := by
  unfold afterMask
  split_ifs with hover hdrain hlen
  · exact settles_ok rfl rfl (by simp [rank]) (.inl rfl)
  · refine settles_ok rfl rfl (by simp [rank]) (.inr ⟨by simp, by simp, ?_⟩)
    simp only [need]
    omega
  · exact settles_ok rfl rfl (by simp [rank]) (.inl rfl)
  · refine settles_ok rfl rfl (by simp [rank]) (.inr ⟨by simp, by simp, ?_⟩)
    simp only [need, List.length_nil]
    omega

/-- Marking a frame as oversized touches nothing else. -/
lemma markOversized_fields (p : FrameParser) :
    p.markOversized.maxPayloadBytes = p.maxPayloadBytes ∧
    p.markOversized.lastError = p.lastError ∧ p.markOversized.header = p.header := by
  unfold markOversized
  split_ifs <;> exact ⟨rfl, rfl, rfl⟩

/-- After the length comes the mask, or what comes after the mask. -/
lemma settles_afterLength (p : FrameParser) (hh : p.header = []) : Settles p 2 p.afterLength := by
  obtain ⟨hcap, herr, hhead⟩ := p.markOversized_fields
  unfold afterLength
  split_ifs with hctl hmask
  · exact settles_fail p 2 _
  · refine settles_ok hcap herr (by simp [rank]) (.inr ⟨by simp, by simp, ?_⟩)
    simp [need, fieldSize, hhead, hh]
  · exact (settles_afterMask _).mono hcap herr (by omega)

/-- After the first two bytes comes the length. -/
lemma settles_dispatchHeader (p : FrameParser) : Settles p 3 p.dispatchHeader := by
  unfold dispatchHeader
  dsimp only
  split_ifs
  · exact (settles_fail _ 3 _).mono rfl rfl le_rfl
  · exact (settles_fail _ 3 _).mono rfl rfl le_rfl
  · exact (settles_fail _ 3 _).mono rfl rfl le_rfl
  · exact (settles_afterLength _ rfl).mono rfl rfl (by omega)
  · exact settles_ok rfl rfl (by simp [rank]) (.inr ⟨by simp, by simp, by simp [need, fieldSize]⟩)
  · exact settles_ok rfl rfl (by simp [rank]) (.inr ⟨by simp, by simp, by simp [need, fieldSize]⟩)

/-- A header field that is complete settles the parser in a later state. -/
lemma settles_dispatchField (hs : q.state = .readingHeader ∨
    q.state = .readingLen16 ∨ q.state = .readingLen64 ∨ q.state = .readingMask) :
    Settles q (rank q.state - 1) q.dispatchField := by
  unfold dispatchField
  rcases hs with hs | hs | hs | hs
  · simp only [hs]
    exact settles_dispatchHeader q
  · simp only [hs]
    exact (settles_afterLength _ rfl).mono rfl rfl le_rfl
  · simp only [hs]
    exact (settles_afterLength _ rfl).mono rfl rfl le_rfl
  · simp only [hs]
    exact (settles_afterMask _).mono rfl rfl le_rfl

/-- **A stage that gets what it needs** ends, and a later one begins. -/
lemma settles_absorb (h : p.Waiting) (ht : taken.length = p.need) :
    Settles p (rank p.state - 1) (p.absorb taken) := by
  have hlen := ht
  unfold absorb
  cases hs : p.state with
  | readingPayload =>
    rw [need, hs] at hlen
    dsimp only at hlen ⊢
    rw [if_pos (by split_ifs <;> simp <;> omega)]
    exact settles_ok rfl rfl (by simp [rank]) (.inl rfl)
  | drainingPayload =>
    rw [need, hs] at hlen
    dsimp only at hlen ⊢
    rw [if_pos (by omega)]
    exact settles_ok rfl rfl (by simp [rank]) (.inl rfl)
  | frameReady => exact absurd hs h.not_ready
  | error => exact absurd hs h.not_error
  | readingHeader | readingLen16 | readingLen64 | readingMask =>
    rw [need, hs] at hlen
    dsimp only [fieldSize] at hlen
    dsimp only
    rw [if_neg (by simp only [fieldSize, List.length_append]; omega)]
    have hfield := settles_dispatchField (q := { p with header := p.header ++ taken })
      (by simp [hs])
    simp only [hs] at hfield
    exact hfield.mono rfl rfl le_rfl

/-- **A stage that gets less than it needs** keeps what it got and waits for the rest. -/
lemma absorb_partial (h : p.Waiting) (ht : taken.length < p.need) :
    ∃ p', p.absorb taken = (.ok (), p') ∧ p'.state = p.state ∧
      p'.need = p.need - taken.length ∧ p'.maxPayloadBytes = p.maxPayloadBytes ∧
      p'.lastError = p.lastError ∧
      ∀ more, p.absorb (taken ++ more) = p'.absorb more := by
  have hlen := ht
  cases hs : p.state with
  | readingPayload =>
    rw [need, hs] at hlen
    simp only at hlen
    refine ⟨{ p with payload := p.payload ++
      if p.hadMask then applyMask p.maskKey p.payload.length taken else taken }, ?_, hs, ?_, rfl,
      rfl, ?_⟩
    · simp only [absorb, hs]
      rw [if_neg (by split_ifs <;> simp <;> omega)]
    · simp only [need, hs]
      split_ifs <;> simp <;> omega
    · intro more
      simp only [absorb, hs]
      cases p.hadMask <;> simp [applyMask_append, List.append_assoc]
  | drainingPayload =>
    rw [need, hs] at hlen
    simp only at hlen
    refine ⟨{ p with drainRemaining := p.drainRemaining - taken.length }, ?_, hs, ?_, rfl, rfl, ?_⟩
    · simp only [absorb, hs]
      rw [if_neg (by omega)]
    · simp only [need, hs]
    · intro more
      simp only [absorb, hs, List.length_append, Nat.sub_sub]
  | frameReady => exact absurd hs h.not_ready
  | error => exact absurd hs h.not_error
  | readingHeader | readingLen16 | readingLen64 | readingMask =>
    rw [need, hs] at hlen
    simp only at hlen
    refine ⟨{ p with header := p.header ++ taken }, ?_, hs, ?_, rfl, rfl, ?_⟩
    · simp only [absorb, hs]
      rw [if_pos (by simp; omega)]
    · simp only [need, hs, List.length_append]
      omega
    · intro more
      simp only [absorb, hs, List.append_assoc]

end Stage

/-! ## A whole buffer -/

section Scan

variable {p : FrameParser} {data : List UInt8}

/-- A waiting parser has stages to go. -/
lemma Waiting.rank_pos (h : p.Waiting) : 0 < rank p.state := by
  have h1 := h.not_ready
  have h2 := h.not_error
  cases hs : p.state <;> simp_all [rank]

/-- A parser with a frame says so at once. -/
lemma scan_ready (h : p.state = .frameReady) : p.scan data = .item p.frame 0 := by
  rw [scan, if_pos h]

/-- A parser that waits for more than it gets goes on waiting. -/
lemma scan_short (h : p.Waiting) (hlen : data.length < p.need) : p.scan data = .more := by
  rw [scan, if_neg h.not_ready, if_pos hlen]

/-- A stage that fails fails the buffer. -/
lemma scan_failed (h : p.Waiting) (hlen : p.need ≤ data.length) {e : Exn} {p' : FrameParser}
    (habs : p.absorb (data.take p.need) = (.error e, p')) : p.scan data = .fail e := by
  rw [scan, if_neg h.not_ready, if_neg (by omega), habs]

/-- A stage that ends leaves the rest of the buffer to the next. -/
lemma scan_stage (h : p.Waiting) (hlen : p.need ≤ data.length) {p' : FrameParser}
    (habs : p.absorb (data.take p.need) = (.ok (), p')) :
    p.scan data = shift p.need (p'.scan (data.drop p.need)) := by
  have hset := @settles_absorb p (data.take p.need) h (by simp [hlen])
  rw [habs] at hset
  have hrank : rank p'.state ≤ rank p.state - 1 := hset.rank_le () rfl
  have hpos := h.rank_pos
  rw [scan, if_neg h.not_ready, if_neg (by omega), habs]
  dsimp only
  rw [if_pos (by omega)]

/-- What a waiting parser makes of a buffer: it waits, its stage fails, or its stage ends. -/
lemma scan_cases (h : p.Waiting) (data : List UInt8) :
    data.length < p.need ∨
    (p.need ≤ data.length ∧ ∃ e p', p.absorb (data.take p.need) = (.error e, p') ∧
      p'.state = .error) ∨
    (p.need ≤ data.length ∧ ∃ p', p.absorb (data.take p.need) = (.ok (), p') ∧
      rank p'.state < rank p.state ∧ p'.maxPayloadBytes = p.maxPayloadBytes ∧
      p'.lastError = p.lastError ∧ (p'.state = .frameReady ∨ p'.Waiting)) := by
  rcases Nat.lt_or_ge data.length p.need with hlt | hge
  · exact .inl hlt
  · have hset := @settles_absorb p (data.take p.need) h (by simp [hge])
    rcases habs : p.absorb (data.take p.need) with ⟨e | u, p'⟩
    · rw [habs] at hset
      exact .inr (.inl ⟨hge, e, p', rfl, hset.failed e rfl⟩)
    · rw [habs] at hset
      have hrank : rank p'.state ≤ rank p.state - 1 := hset.rank_le u rfl
      have hpos := h.rank_pos
      exact .inr (.inr ⟨hge, p', rfl, by omega, hset.cap, hset.lastError rfl, hset.goes_on u rfl⟩)

/-- **The answer on a buffer is final**: more bytes change nothing once the parser has a frame or
has failed.

**Proof sketch.** Induction on the rank of the state. The stage takes the same bytes from the longer
buffer, and the next one starts where it started. -/
lemma scan_append (h : p.state = .frameReady ∨ p.Waiting) (more : List UInt8)
    (hd : p.scan data ≠ .more) : p.scan (data ++ more) = p.scan data := by
  induction hr : rank p.state using Nat.strong_induction_on generalizing p data with
  | _ r ih =>
    rcases h with hready | hwait
    · rw [scan_ready hready, scan_ready hready]
    · rcases scan_cases hwait data with hlt | ⟨hge, e, p', habs, -⟩ | ⟨hge, p', habs, hlt, -, -, hp'⟩
      · exact absurd (scan_short hwait hlt) hd
      · have htake : (data ++ more).take p.need = data.take p.need :=
          List.take_append_of_le_length hge
        rw [scan_failed hwait hge habs,
          scan_failed hwait (by rw [List.length_append]; omega) (by rw [htake]; exact habs)]
      · have htake : (data ++ more).take p.need = data.take p.need :=
          List.take_append_of_le_length hge
        rw [scan_stage hwait hge habs] at hd ⊢
        rw [scan_stage hwait (by rw [List.length_append]; omega) (by rw [htake]; exact habs),
          List.drop_append_of_le_length hge, ih _ (hr ▸ hlt) hp' _ rfl]
        intro hmore
        rw [hmore] at hd
        exact hd rfl

/-- A frame ends inside the buffer. -/
lemma scan_item_le (h : p.state = .frameReady ∨ p.Waiting) {f : Frame} {n : ℕ}
    (hd : p.scan data = .item f n) : n ≤ data.length := by
  induction hr : rank p.state using Nat.strong_induction_on generalizing p data n with
  | _ r ih =>
    rcases h with hready | hwait
    · rw [scan_ready hready] at hd
      cases hd
      omega
    · rcases scan_cases hwait data with hlt | ⟨hge, e, p', habs, -⟩ | ⟨hge, p', habs, hlt, -, -, hp'⟩
      · rw [scan_short hwait hlt] at hd
        cases hd
      · rw [scan_failed hwait hge habs] at hd
        cases hd
      · rw [scan_stage hwait hge habs] at hd
        obtain ⟨m, hm, rfl⟩ := shift_eq_item.mp hd
        have hle := ih _ (hr ▸ hlt) hp' hm rfl
        rw [List.length_drop] at hle
        omega

/-- A waiting parser takes at least one byte before it has a frame. -/
lemma scan_item_pos (h : p.Waiting) {f : Frame} {n : ℕ} (hd : p.scan data = .item f n) :
    0 < n := by
  have hpos := h.need_pos
  rcases scan_cases h data with hlt | ⟨hge, e, p', habs, -⟩ | ⟨hge, p', habs, -⟩
  · rw [scan_short h hlt] at hd
    cases hd
  · rw [scan_failed h hge habs] at hd
    cases hd
  · rw [scan_stage h hge habs] at hd
    obtain ⟨m, -, rfl⟩ := shift_eq_item.mp hd
    omega

end Scan

/-! ## Feeding -/

/-- `p'` is `p` after it has taken `data` without completing a frame: it makes of what follows what
`p` makes of all of it. -/
structure Resumes (p : FrameParser) (data : List UInt8) (p' : FrameParser) : Prop where
  waiting : p'.Waiting
  cap : p'.maxPayloadBytes = p.maxPayloadBytes
  lastError : p'.lastError = p.lastError
  scan_append : ∀ t, p.scan (data ++ t) = shift data.length (p'.scan t)

/-- `p'` is `p` after it has read the frame `f`. -/
structure Reads (p : FrameParser) (f : Frame) (p' : FrameParser) : Prop where
  ready : p'.state = .frameReady
  frame_eq : p'.frame = f
  cap : p'.maxPayloadBytes = p.maxPayloadBytes
  lastError : p'.lastError = p.lastError

/-- What `feed` does with the bytes it gets, by what `scan` says of them. -/
structure Feeds (p : FrameParser) (data : List UInt8) (out : Except Exn ℕ × FrameParser) : Prop where
  more : p.scan data = .more → out.1 = .ok data.length ∧ Resumes p data out.2
  item : ∀ f n, p.scan data = .item f n → out.1 = .ok n ∧ Reads p f out.2
  fail : ∀ e, p.scan data = .fail e → out.1 = .error e ∧ out.2.state = .error

section Feed

variable {p p' : FrameParser} {data : List UInt8}

/-- Data that end inside a stage leave the parser to resume there. -/
lemma resumes_of_short (h : p.Waiting) (hlt : data.length < p.need) :
    ∃ p', p.absorb data = (.ok (), p') ∧ Resumes p data p' := by
  obtain ⟨p', habs, hstate, hneed, hcap, hlast, hmore⟩ := absorb_partial h hlt
  have hwait : p'.Waiting :=
    ⟨by rw [hstate]; exact h.not_ready, by rw [hstate]; exact h.not_error, by omega⟩
  refine ⟨p', habs, hwait, hcap, hlast, fun t => ?_⟩
  -- both sides compare what is there with the same need and take the same bytes
  rcases Nat.lt_or_ge t.length p'.need with ht | ht
  · rw [scan_short hwait ht, scan_short h (by rw [List.length_append]; omega)]
    rfl
  · have hlen : p.need ≤ (data ++ t).length := by rw [List.length_append]; omega
    have htake : (data ++ t).take p.need = data ++ t.take p'.need := by
      rw [List.take_append, List.take_of_length_le hlt.le, hneed]
    have hdrop : (data ++ t).drop p.need = t.drop p'.need := by
      rw [List.drop_append, List.drop_eq_nil_of_le hlt.le, hneed, List.nil_append]
    have hsame : p.absorb ((data ++ t).take p.need) = p'.absorb (t.take p'.need) := by
      rw [htake, hmore]
    rcases scan_cases hwait t with hlt' | ⟨hge, e, q, habs', -⟩ | ⟨hge, q, habs', -⟩
    · omega
    · rw [scan_failed hwait hge habs', scan_failed h hlen (hsame.trans habs')]
      rfl
    · rw [scan_stage hwait hge habs', scan_stage h hlen (hsame.trans habs'), hdrop, shift_shift,
        hneed, show data.length + (p.need - data.length) = p.need by omega]

/-- A stage that ends hands the rest of the data to what follows it. -/
lemma Feeds.of_stage {rest : Except Exn ℕ × FrameParser} (h : p.Waiting)
    (hge : p.need ≤ data.length) (habs : p.absorb (data.take p.need) = (.ok (), p'))
    (hcap : p'.maxPayloadBytes = p.maxPayloadBytes) (hlast : p'.lastError = p.lastError)
    (hrest : Feeds p' (data.drop p.need) rest) :
    Feeds p data (addConsumed p.need rest) := by
  have hscan := scan_stage h hge habs
  have hlen : p.need + (data.drop p.need).length = data.length := by
    rw [List.length_drop]
    omega
  refine ⟨fun hs => ?_, fun f n hs => ?_, fun e hs => ?_⟩
  · obtain ⟨hout, hres⟩ := hrest.more (by rw [hscan] at hs; cases hr : p'.scan (data.drop p.need) <;>
      simp_all)
    rcases rest with ⟨_ | consumed, p''⟩
    · cases hout
    · cases hout
      refine ⟨by rw [addConsumed, hlen], hres.waiting, hres.cap.trans hcap,
        hres.lastError.trans hlast, fun t => ?_⟩
      have htake : (data ++ t).take p.need = data.take p.need := List.take_append_of_le_length hge
      rw [scan_stage h (by rw [List.length_append]; omega) (by rw [htake]; exact habs),
        List.drop_append_of_le_length hge, hres.scan_append, shift_shift, hlen]
      rfl
  · rw [hscan] at hs
    obtain ⟨m, hm, rfl⟩ := shift_eq_item.mp hs
    obtain ⟨hout, hread⟩ := hrest.item f m hm
    rcases rest with ⟨_ | consumed, p''⟩
    · cases hout
    · cases hout
      exact ⟨rfl, hread.ready, hread.frame_eq, hread.cap.trans hcap, hread.lastError.trans hlast⟩
  · rw [hscan] at hs
    obtain ⟨hout, herr⟩ := hrest.fail e (shift_eq_fail.mp hs)
    rcases rest with ⟨_ | consumed, p''⟩
    · cases hout
      exact ⟨rfl, herr⟩
    · cases hout

/-- A waiting parser is left as it is by no bytes. -/
lemma feeds_nil (h : p.Waiting) : Feeds p [] (.ok 0, p) := by
  have hscan : p.scan [] = .more := scan_short h h.need_pos
  refine ⟨fun _ => ⟨rfl, h, rfl, rfl, fun t => ?_⟩, fun f n hs => ?_, fun e hs => ?_⟩
  · rw [List.nil_append]
    cases p.scan t <;> simp
  · rw [hscan] at hs
    cases hs
  · rw [hscan] at hs
    cases hs

/-- A parser that has a frame takes no more bytes. -/
lemma feeds_of_ready (h : p.state = .frameReady) : Feeds p data (.ok 0, p) where
  more hs := by rw [scan_ready h] at hs; cases hs
  item f n hs := by
    rw [scan_ready h] at hs
    cases hs
    exact ⟨rfl, h, rfl, rfl, rfl⟩
  fail e hs := by rw [scan_ready h] at hs; cases hs

/-- The loop of `feed`.

**Proof sketch.** Induction on the rounds. A round that gets what its stage needs hands the rest to
the next round; one that gets less has used up the data, and the parser it leaves asks for what is
missing of the same stage. -/
lemma feedLoop_spec {rounds : ℕ} (h : p.state = .frameReady ∨ p.Waiting)
    (hr : data.length ≤ rounds) : Feeds p data (feedLoop rounds p data) := by
  induction rounds generalizing p data with
  | zero =>
    have hnil : data = [] := List.eq_nil_of_length_eq_zero (by omega)
    subst hnil
    rcases h with hready | hwait
    · exact feeds_of_ready hready
    · exact feeds_nil hwait
  | succ rounds ih =>
    rcases h with hready | hwait
    · rw [feedLoop, if_pos (.inr (.inl hready))]
      exact feeds_of_ready hready
    by_cases hnil : data = []
    · subst hnil
      rw [feedLoop, if_pos (.inl rfl)]
      exact feeds_nil hwait
    rw [feedLoop, if_neg (by simp [hnil, hwait.not_ready, hwait.not_error])]
    have hpos := hwait.need_pos
    have hdata : 0 < data.length := List.length_pos_of_ne_nil hnil
    rcases scan_cases hwait data with hlt | ⟨hge, e, p', habs, herr⟩ |
      ⟨hge, p', habs, -, hcap, hlast, hp'⟩
    · -- the data run out inside the stage
      obtain ⟨p', habs, hres⟩ := resumes_of_short hwait hlt
      have hstop : feedLoop rounds p' [] = (.ok 0, p') := by
        cases rounds <;> simp [feedLoop]
      rw [List.take_of_length_le hlt.le, habs, List.drop_eq_nil_of_le hlt.le]
      dsimp only
      rw [hstop, Nat.min_eq_right hlt.le]
      refine ⟨fun _ => ⟨rfl, hres⟩, ?_, ?_⟩
      · intro f n hs
        rw [scan_short hwait hlt] at hs
        cases hs
      · intro e hs
        rw [scan_short hwait hlt] at hs
        cases hs
    · rw [habs]
      have hscan := scan_failed hwait hge habs
      refine ⟨fun hs => ?_, fun f n hs => ?_, fun e' hs => ?_⟩
      · rw [hscan] at hs
        cases hs
      · rw [hscan] at hs
        cases hs
      · rw [hscan] at hs
        cases hs
        exact ⟨rfl, herr⟩
    · rw [habs]
      dsimp only
      rw [Nat.min_eq_left hge]
      have hlen : (data.drop p.need).length ≤ rounds := by
        rw [List.length_drop]
        omega
      exact .of_stage hwait hge habs hcap hlast (ih hp' hlen)

/-- **`feed` in terms of `scan`.** -/
theorem feed_spec {chunk : List UInt8} {start : ℕ} (h : p.Waiting) :
    Feeds p (chunk.drop start) (p.feed chunk start) :=
  feedLoop_spec (.inr h) (by simp)

end Feed

end FrameParser

/-! ## Encoded frames -/

/-- The parser between two frames. -/
def FrameParser.fresh (cap : ℕ) (lastError : Option String) : FrameParser :=
  { maxPayloadBytes := cap, lastError }

open FrameParser

lemma waiting_fresh (cap : ℕ) (lastError : Option String) :
    (fresh cap lastError).Waiting :=
  ⟨by simp [fresh], by simp [fresh],
    by simp [fresh, need, fieldSize]⟩

/-- What a parser with the cap `cap` says of a frame. -/
def parsedFrame (cap opcode : ℕ) (payload : List UInt8) (fin masked : Bool) : Frame where
  fin := fin
  opcode := opcode
  hadMask := masked
  reportedLength := payload.length
  oversized := payload.length > cap
  payload := if payload.length > cap then [] else payload

variable {opcode : ℕ}

/-- The opcode and FIN bit in the first byte of a frame. -/
lemma firstByte_fields (h : opcode ∈ CONTROL_OPCODES ∨ opcode ∈ DATA_OPCODES) (fin : Bool) :
    let byte := (UInt8.ofNat ((if fin then 0x80 else 0) ||| (opcode &&& 0x0f))).toNat
    decide (byte / 128 = 1) = fin ∧ byte / 16 % 8 = 0 ∧ byte % 16 = opcode := by
  have hall : ∀ fin : Bool, ∀ opcode ∈ CONTROL_OPCODES ++ DATA_OPCODES,
      let byte := (UInt8.ofNat ((if fin then 0x80 else 0) ||| (opcode &&& 0x0f))).toNat
      decide (byte / 128 = 1) = fin ∧ byte / 16 % 8 = 0 ∧ byte % 16 = opcode := by decide
  exact hall fin opcode (List.mem_append.mpr h)

/-- The mask bit and length marker in the second byte of a frame. -/
lemma secondByte_fields {marker : ℕ} (h : marker < 128) (masked : Bool) :
    let byte := (UInt8.ofNat ((if masked then 0x80 else 0) ||| marker)).toNat
    decide (byte / 128 = 1) = masked ∧ byte % 128 = marker := by
  have hall : ∀ masked : Bool, ∀ marker < 128,
      let byte := (UInt8.ofNat ((if masked then 0x80 else 0) ||| marker)).toNat
      decide (byte / 128 = 1) = masked ∧ byte % 128 = marker := by decide
  exact hall masked marker h

/-- The mask key and the payload as they stand on the wire. -/
def wireBody (mask : Option (List UInt8)) (payload : List UInt8) : List UInt8 :=
  match mask with
  | some key => key ++ applyMask key 0 payload
  | none => payload

namespace FrameParser

variable {q : FrameParser} {payload t : List UInt8}

variable {wire : List UInt8}

/-- The payload stage reads the payload, with the mask taken off. -/
lemma scan_payload (hs : q.state = .readingPayload) (hempty : q.payload = [])
    (hlen : wire.length = q.reportedLength) (hpos : 0 < wire.length) :
    q.scan (wire ++ t) = .item
      { q.frame with payload := if q.hadMask then applyMask q.maskKey 0 wire else wire }
      wire.length := by
  have hneed : q.need = wire.length := by simp [need, hs, hempty, hlen]
  have hwait : q.Waiting := ⟨by simp [hs], by simp [hs], by omega⟩
  have habs : q.absorb wire = (.ok (), { q with
      payload := if q.hadMask then applyMask q.maskKey 0 wire else wire
      state := .frameReady }) := by
    simp only [absorb, hs, hempty, List.nil_append, List.length_nil]
    rw [if_pos (by split_ifs <;> simp [hlen])]
  rw [scan_stage hwait (by simp [hneed]) (by rw [hneed, List.take_left]; exact habs), hneed,
    scan_ready rfl]
  rfl

/-- The draining stage counts the payload off. -/
lemma scan_drain (hs : q.state = .drainingPayload) (hlen : wire.length = q.drainRemaining)
    (hpos : 0 < wire.length) : q.scan (wire ++ t) = .item q.frame wire.length := by
  have hneed : q.need = wire.length := by simp [need, hs, hlen]
  have hwait : q.Waiting := ⟨by simp [hs], by simp [hs], by omega⟩
  have habs : q.absorb wire =
      (.ok (), { q with drainRemaining := q.drainRemaining - wire.length, state := .frameReady }) := by
    simp only [absorb, hs]
    rw [if_pos (by omega)]
  rw [scan_stage hwait (by simp [hneed]) (by rw [hneed, List.take_left]; exact habs), hneed,
    scan_ready rfl]
  rfl

/-- The parser after the length of a frame and before its body. -/
structure AtBody (q : FrameParser) (mask : Option (List UInt8)) (payload : List UInt8) : Prop where
  header : q.header = []
  empty : q.payload = []
  not_oversized : q.oversized = false
  drain : q.drainRemaining = 0
  mask_eq : q.hadMask = mask.isSome
  length : q.reportedLength = payload.length
  control : q.opcode ∈ CONTROL_OPCODES → payload.length ≤ MAX_CONTROL_PAYLOAD_BYTES

/-- After the mask key the payload is read, or counted off if it exceeds the cap. -/
lemma scan_afterMask {mask : Option (List UInt8)} (hq : AtBody q mask payload) {q' : FrameParser}
    {key : List UInt8} (hq' : q' = { q.markOversized with maskKey := key })
    (hwire : wire = if q.hadMask then applyMask key 0 payload else payload) :
    q'.afterMask.scan (wire ++ t) =
      .item (parsedFrame q.maxPayloadBytes q.opcode payload q.fin mask.isSome) payload.length := by
  have hlen : wire.length = payload.length := by rw [hwire]; split_ifs <;> simp
  rcases Nat.lt_or_ge q.maxPayloadBytes payload.length with hbig | hfits
  · -- over the cap
    have hmark : q.markOversized =
        { q with oversized := true, drainRemaining := q.reportedLength } := by
      rw [markOversized, if_pos (by rw [hq.length]; exact hbig)]
    rw [hmark] at hq'
    subst hq'
    rw [afterMask, if_pos rfl, if_neg (by simp only [hq.length]; omega),
      scan_drain rfl (by simp [hlen, hq.length]) (by omega), hlen]
    simp [frame, parsedFrame, hq.mask_eq, hq.length, hq.empty, hbig]
  · have hmark : q.markOversized = q := by
      rw [markOversized, if_neg (by rw [hq.length]; omega)]
    rw [hmark] at hq'
    subst hq'
    rw [afterMask, if_neg (by simp [hq.not_oversized])]
    rcases Nat.eq_zero_or_pos payload.length with hzero | hpos
    · have hnil : payload = [] := List.eq_nil_of_length_eq_zero hzero
      rw [if_pos (by simp [hq.length, hzero]), scan_ready rfl, hzero]
      simp [frame, parsedFrame, hq.mask_eq, hq.length, hq.empty, hq.not_oversized, hnil]
    · rw [if_neg (by simp only [hq.length]; omega),
        scan_payload rfl rfl (by simp [hlen, hq.length]) (by omega), hlen]
      have hunmask : (if q.hadMask then applyMask key 0 wire else wire) = payload := by
        rw [hwire]
        split_ifs
        · exact applyMask_applyMask key 0 payload
        · rfl
      simp [frame, parsedFrame, hq.mask_eq.symm, hq.length, hq.not_oversized, hunmask,
        Nat.not_lt.mpr hfits]

/-- After the length the mask key is read, if there is one, and then the payload. -/
lemma scan_afterLength {mask : Option (List UInt8)} (hq : AtBody q mask payload)
    (hkey : ∀ key, mask = some key → key.length = 4) :
    ∃ q', q.afterLength = (.ok (), q') ∧
      q'.scan (wireBody mask payload ++ t) =
        .item (parsedFrame q.maxPayloadBytes q.opcode payload q.fin mask.isSome)
          (wireBody mask payload).length := by
  have hctl : ¬ (q.opcode ∈ CONTROL_OPCODES ∧ q.reportedLength > MAX_CONTROL_PAYLOAD_BYTES) := by
    rintro ⟨hop, hbig⟩
    have := hq.control hop
    rw [hq.length] at hbig
    omega
  obtain ⟨-, -, hhead⟩ := q.markOversized_fields
  rw [hq.header] at hhead
  cases mask with
  | none =>
    refine ⟨q.markOversized.afterMask, ?_, ?_⟩
    · rw [afterLength, if_neg hctl, if_neg (by simp [hq.mask_eq])]
    · have hsame : q.markOversized = { q.markOversized with maskKey := q.markOversized.maskKey } := rfl
      exact scan_afterMask hq hsame (by simp [hq.mask_eq, wireBody])
  | some key =>
    have hk := hkey key rfl
    refine ⟨{ q.markOversized with state := .readingMask }, ?_, ?_⟩
    · rw [afterLength, if_neg hctl, if_pos (by simp [hq.mask_eq])]
    · have hneed : ({ q.markOversized with state := .readingMask } : FrameParser).need = 4 := by
        simp [need, fieldSize, hhead]
      have hwait : ({ q.markOversized with state := .readingMask } : FrameParser).Waiting :=
        ⟨by simp, by simp, by omega⟩
      have habs : ({ q.markOversized with state := .readingMask } : FrameParser).absorb key =
          (.ok (), ({ q.markOversized with maskKey := key, state := .readingMask }
            : FrameParser).afterMask) := by
        simp only [absorb, hhead, List.nil_append]
        rw [if_neg (by simp [hk, fieldSize])]
        simp only [dispatchField]
        rw [List.take_of_length_le (by omega), ← hhead]
      have hstate : ({ q.markOversized with maskKey := key, state := .readingMask }
          : FrameParser).afterMask = ({ q.markOversized with maskKey := key }
            : FrameParser).afterMask := by
        simp only [afterMask]
      rw [wireBody, List.append_assoc, scan_stage hwait (by simp [hneed, hk])
        (by rw [hneed, ← hk, List.take_left]; exact habs), hneed, ← hk, List.drop_left, hstate,
        scan_afterMask hq rfl (by simp [hq.mask_eq])]
      simp

end FrameParser

/-- The bytes between the first two and the body, with the length marker they belong to. -/
def IsLength (length marker : ℕ) (extra : List UInt8) : Prop :=
  (marker = length ∧ marker < 126 ∧ extra = []) ∨
  (marker = 126 ∧ extra.length = 2 ∧ Bytes.ofBe extra = length) ∨
  (marker = 127 ∧ extra.length = 8 ∧ Bytes.ofBe extra = length)

/-- A packed length reads back. -/
lemma ofBe_of_pack {width value : ℕ} {packed : List UInt8} (h : liftPy (pack width value) = .ok packed) :
    packed.length = width ∧ Bytes.ofBe packed = value := by
  unfold pack at h
  split_ifs at h with hv
  · cases h
    exact ⟨Bytes.length_be _ _, Bytes.ofBe_be hv⟩
  · cases h

/-- The length field is the marker and the bytes that belong to it. -/
lemma lengthField_shape {maskBit length : ℕ} {field : List UInt8}
    (h : lengthField maskBit length = .ok field) :
    ∃ marker extra, IsLength length marker extra ∧
      field = UInt8.ofNat (maskBit ||| marker) :: extra := by
  unfold lengthField at h
  split_ifs at h with hsmall hmid
  · cases h
    exact ⟨length, [], .inl ⟨rfl, hsmall, rfl⟩, rfl⟩
  · obtain ⟨packed, hpacked, hcons⟩ := bind_eq_ok.mp h
    cases hcons
    obtain ⟨hl, hv⟩ := ofBe_of_pack hpacked
    exact ⟨126, packed, .inr (.inl ⟨rfl, hl, hv⟩), rfl⟩
  · obtain ⟨packed, hpacked, hcons⟩ := bind_eq_ok.mp h
    cases hcons
    obtain ⟨hl, hv⟩ := ofBe_of_pack hpacked
    exact ⟨127, packed, .inr (.inr ⟨rfl, hl, hv⟩), rfl⟩

/-- The parts of an encoded frame. -/
lemma encodeFrame_shape {payload b : List UInt8} {fin : Bool} {mask : Option (List UInt8)}
    (h : encodeFrame opcode payload fin mask = .ok b) :
    (opcode ∈ CONTROL_OPCODES → payload.length ≤ MAX_CONTROL_PAYLOAD_BYTES) ∧
    (∀ key, mask = some key → key.length = 4) ∧
    ∃ marker extra, IsLength payload.length marker extra ∧
      b = [UInt8.ofNat ((if fin then 0x80 else 0) ||| (opcode &&& 0x0f)),
        UInt8.ofNat ((if mask.isSome then 0x80 else 0) ||| marker)] ++
          (extra ++ wireBody mask payload) := by
  unfold encodeFrame at h
  rw [ite_eq_iff'] at h
  obtain ⟨hbad, h⟩ := h
  by_cases hctl : opcode ∈ CONTROL_OPCODES ∧ payload.length > MAX_CONTROL_PAYLOAD_BYTES
  · cases hbad hctl
  by_cases hmask : mask.any (fun key => key.length ≠ 4) = true
  · rw [if_pos hmask] at h
    cases h hctl
  rw [if_neg hmask] at h
  obtain ⟨field, hfield, h⟩ := bind_eq_ok.mp (h hctl)
  obtain ⟨marker, extra, hlength, rfl⟩ := lengthField_shape hfield
  refine ⟨fun hop => ?_, fun key hkey => ?_, marker, extra, hlength, ?_⟩
  · by_contra hbig
    exact hctl ⟨hop, by omega⟩
  · simpa [hkey] using hmask
  · cases mask <;> cases h <;> simp [wireBody]

namespace FrameParser

/-- The parser after the first two bytes of a frame, before anything is made of the marker. -/
def afterHeader (cap opcode : ℕ) (fin masked : Bool) (lastError : Option String) : FrameParser :=
  { maxPayloadBytes := cap, fin, opcode, hadMask := masked, lastError }

/-- The first two bytes of a well-formed frame are accepted, and the marker says what comes next. -/
lemma absorb_header {cap opcode marker : ℕ} {fin masked : Bool} {lastError : Option String}
    (hop : opcode ∈ CONTROL_OPCODES ∨ opcode ∈ DATA_OPCODES)
    (hfin : opcode ∈ CONTROL_OPCODES → fin = true) (hmarker : marker < 128) :
    (fresh cap lastError).absorb
      [UInt8.ofNat ((if fin then 0x80 else 0) ||| (opcode &&& 0x0f)),
        UInt8.ofNat ((if masked then 0x80 else 0) ||| marker)] =
      (if marker < 126 then
        { afterHeader cap opcode fin masked lastError with reportedLength := marker }.afterLength
      else if marker = 126 then
        (.ok (), { afterHeader cap opcode fin masked lastError with state := .readingLen16 })
      else (.ok (), { afterHeader cap opcode fin masked lastError with state := .readingLen64 })) := by
  obtain ⟨h1, h2, h3⟩ := firstByte_fields hop fin
  obtain ⟨h4, h5⟩ := secondByte_fields hmarker masked
  have hreserved : ¬ (opcode ∉ CONTROL_OPCODES ∧ opcode ∉ DATA_OPCODES) := by
    rintro ⟨hc, hd⟩
    exact hop.elim hc hd
  have hcontrol : ¬ (opcode ∈ CONTROL_OPCODES ∧ fin = false) := by
    rintro ⟨hc, hf⟩
    rw [hfin hc] at hf
    cases hf
  generalize UInt8.ofNat ((if fin then 0x80 else 0) ||| (opcode &&& 0x0f)) = first at *
  generalize UInt8.ofNat ((if masked then 0x80 else 0) ||| marker) = second at *
  have hfield : ¬ ([first, second] : List UInt8).length < fieldSize .readingHeader := by
    simp [fieldSize]
  simp only [absorb, fresh, List.nil_append, if_neg hfield, dispatchField, dispatchHeader,
    List.getD_cons_zero, List.getD_cons_succ, h1, h2, h3, h4, h5, afterHeader, ne_eq,
    not_true_eq_false, if_false, if_neg hcontrol, if_neg hreserved]

/-- The extended length field is read, and then the body. -/
lemma scan_extra {q : FrameParser} {mask : Option (List UInt8)} {payload extra t : List UInt8}
    (hs : q.state = .readingLen16 ∨ q.state = .readingLen64) (hl : extra.length = fieldSize q.state)
    (hq : AtBody { q with reportedLength := Bytes.ofBe extra } mask payload)
    (hkey : ∀ key, mask = some key → key.length = 4) :
    q.scan (extra ++ (wireBody mask payload ++ t)) =
      .item (parsedFrame q.maxPayloadBytes q.opcode payload q.fin mask.isSome)
        (extra.length + (wireBody mask payload).length) := by
  have hhead : q.header = [] := hq.header
  have hneed : q.need = extra.length := by
    rcases hs with hs | hs <;> simp [need, hl, hhead, hs]
  have hpos : 0 < extra.length := by
    rcases hs with hs | hs <;> simp [hl, hs, fieldSize]
  have hwait : q.Waiting := ⟨by rcases hs with hs | hs <;> simp [hs],
    by rcases hs with hs | hs <;> simp [hs], by omega⟩
  obtain ⟨q', hlength, hscan⟩ := scan_afterLength (t := t) hq hkey
  have habs : q.absorb extra = (.ok (), q') := by
    rcases hs with hs | hs
    · simp only [absorb, hs, hhead, List.nil_append]
      rw [hs] at hl
      rw [if_neg (by omega)]
      simp only [dispatchField]
      rw [List.take_of_length_le (by simp [hl, fieldSize]), ← hlength, ← hhead, hs]
    · simp only [absorb, hs, hhead, List.nil_append]
      rw [hs] at hl
      rw [if_neg (by omega)]
      simp only [dispatchField]
      rw [← hlength, ← hhead, hs]
  rw [scan_stage hwait (by simp [hneed]) (by rw [hneed, List.take_left]; exact habs), hneed,
    List.drop_left, hscan]
  rfl

end FrameParser

/-- **An encoded frame is read as that frame**, whatever follows it.

**Proof sketch.** The first two bytes give the opcode, the FIN bit and the length marker; the marker
leads to the length, in two or eight further bytes for long payloads, and the length to the body. -/
theorem scan_encodeFrame {cap : ℕ} {payload b t : List UInt8} {fin : Bool}
    {mask : Option (List UInt8)} {lastError : Option String}
    (h : encodeFrame opcode payload fin mask = .ok b)
    (hop : opcode ∈ CONTROL_OPCODES ∨ opcode ∈ DATA_OPCODES)
    (hfin : opcode ∈ CONTROL_OPCODES → fin = true) :
    (fresh cap lastError).scan (b ++ t) =
      .item (parsedFrame cap opcode payload fin mask.isSome) b.length := by
  obtain ⟨hctl, hkey, marker, extra, hlength, rfl⟩ := encodeFrame_shape h
  have hmarker : marker < 128 := by
    rcases hlength with ⟨-, hm, -⟩ | ⟨hm, -⟩ | ⟨hm, -⟩ <;> omega
  have hwait := waiting_fresh cap lastError
  have hneed : (fresh cap lastError).need = 2 := rfl
  have habs := @FrameParser.absorb_header cap opcode marker fin mask.isSome lastError hop hfin hmarker
  generalize UInt8.ofNat ((if fin then 0x80 else 0) ||| (opcode &&& 0x0f)) = first at *
  generalize UInt8.ofNat ((if mask.isSome then 0x80 else 0) ||| marker) = second at *
  rw [List.append_assoc, List.append_assoc]
  rcases hlength with ⟨rfl, hm, rfl⟩ | ⟨rfl, hl, hv⟩ | ⟨rfl, hl, hv⟩
  · -- the marker is the length
    rw [if_pos hm] at habs
    have hbody : FrameParser.AtBody { afterHeader cap opcode fin mask.isSome lastError
        with reportedLength := payload.length } mask payload :=
      ⟨rfl, rfl, rfl, rfl, rfl, rfl, hctl⟩
    obtain ⟨q', hq', hscan⟩ := scan_afterLength (t := t) hbody hkey
    rw [hq'] at habs
    rw [scan_stage hwait (by simp [hneed]) (by rw [hneed]; exact habs), hneed]
    simp only [List.nil_append, List.cons_append, List.drop_succ_cons, List.drop_zero]
    rw [hscan]
    simp [afterHeader]
    omega
  · -- the length follows in two bytes
    rw [if_neg (by omega), if_pos rfl] at habs
    rw [scan_stage hwait (by simp [hneed]) (by rw [hneed]; exact habs), hneed]
    simp only [List.cons_append, List.nil_append, List.drop_succ_cons, List.drop_zero]
    rw [scan_extra (.inl rfl) hl ⟨rfl, rfl, rfl, rfl, rfl, hv, hctl⟩ hkey]
    simp [afterHeader]
    omega
  · -- the length follows in eight bytes
    rw [if_neg (by omega), if_neg (by omega)] at habs
    rw [scan_stage hwait (by simp [hneed]) (by rw [hneed]; exact habs), hneed]
    simp only [List.cons_append, List.nil_append, List.drop_succ_cons, List.drop_zero]
    rw [scan_extra (.inr rfl) hl ⟨rfl, rfl, rfl, rfl, rfl, hv, hctl⟩ hkey]
    simp [afterHeader]
    omega

end ChuMicro.Websockets
