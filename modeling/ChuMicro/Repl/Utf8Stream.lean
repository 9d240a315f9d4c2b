import ChuMicro.Lib.Utf8
import Mathlib.Data.List.GetD

/-!
# The UTF-8 stream decoder of the serial monitor

`chumicro_repl/framing.py`: chunks of a serial stream are decoded as they arrive, and the tail of a
chunk that may be the start of an unfinished sequence waits for the next one. Where that tail starts
is found by a scan back from the end, which classifies bytes more loosely than UTF-8 does.

## Main definitions

* `Repl.utf8ContinuationStart` — the scan.
* `Repl.Utf8StreamDecoder` — the decoder, with `decode`, `flush` and `pending`.
* `Repl.Utf8StreamDecoder.decodeAll` — a run of `decode` over chunks.

## Main results

* `Repl.decodeReplace_cut` — cutting where the scan says loses nothing.
* `Repl.decode_chunks` — a run over any chunks decodes as the whole does at once, and never holds
  more than three bytes.
-/

namespace ChuMicro.Repl

open Utf8

/-! ## The scan -/

/-- `_MAX_UTF8_SEQUENCE_BYTES`. -/
def MAX_UTF8_SEQUENCE_BYTES : ℕ := 4

/-- `expected_length`, for a leading byte above ASCII that has one. -/
def expectedLength (byte : UInt8) : Option ℕ :=
  if byte &&& 0b11100000 = 0b11000000 then some 2
  else if byte &&& 0b11110000 = 0b11100000 then some 3
  else if byte &&& 0b11111000 = 0b11110000 then some 4
  else none

/-- The loop of `_utf8_continuation_start`, with `walk_index` one below the argument. -/
def walkBack (chunk : List UInt8) (stopAt : ℕ) : ℕ → ℕ
  | 0 => chunk.length
  | walkIndex + 1 =>
    if walkIndex < stopAt then chunk.length
    else
      let byte := chunk.getD walkIndex 0
      if byte &&& 0b11000000 ≠ 0b10000000 then
        if byte < 0x80 then chunk.length
        else
          match expectedLength byte with
          | none => chunk.length
          | some expected => if chunk.length - walkIndex < expected then walkIndex else chunk.length
      else walkBack chunk stopAt walkIndex

/-- `_utf8_continuation_start`. -/
def utf8ContinuationStart (chunk : List UInt8) : ℕ :=
  if chunk.length = 0 then 0
  else walkBack chunk (chunk.length - MAX_UTF8_SEQUENCE_BYTES) chunk.length

/-! ## The decoder -/

/-- `Utf8StreamDecoder`. -/
structure Utf8StreamDecoder where
  buffer : List UInt8

namespace Utf8StreamDecoder

/-- `Utf8StreamDecoder()`. -/
def new : Utf8StreamDecoder := ⟨[]⟩

/-- `Utf8StreamDecoder.decode`. -/
def decode (decoder : Utf8StreamDecoder) (chunk : List UInt8) : List Char × Utf8StreamDecoder :=
  if chunk = [] then ([], decoder)
  else
    let buffer := decoder.buffer ++ chunk
    let cut := utf8ContinuationStart buffer
    (decodeReplace (buffer.take cut), ⟨buffer.drop cut⟩)

/-- `Utf8StreamDecoder.flush`. -/
def flush (decoder : Utf8StreamDecoder) : List Char × Utf8StreamDecoder :=
  if decoder.buffer = [] then ([], decoder) else (decodeReplace decoder.buffer, ⟨[]⟩)

/-- `Utf8StreamDecoder.pending`. -/
def pending (decoder : Utf8StreamDecoder) : List UInt8 := decoder.buffer

/-- `decode` called on one chunk after another, the results joined. -/
def decodeAll (decoder : Utf8StreamDecoder) : List (List UInt8) → List Char × Utf8StreamDecoder
  | [] => ([], decoder)
  | chunk :: chunks =>
    let (text, decoder) := decoder.decode chunk
    let (texts, decoder) := decoder.decodeAll chunks
    (text ++ texts, decoder)

end Utf8StreamDecoder

/-! ## Where the scan cuts -/

/-- The mask of the scan singles out the continuation bytes. -/
lemma and_eq_iff_isContinuation (b : UInt8) :
    b &&& 0b11000000 = 0b10000000 ↔ IsContinuation b := by
  have h : ∀ n < 256, (UInt8.ofNat n &&& 0b11000000 = 0b10000000 ↔ 0x80 ≤ n ∧ n ≤ 0xBF) := by
    decide +kernel
  have hb := h b.toNat b.toNat_lt
  rwa [UInt8.ofNat_toNat] at hb

variable {b : UInt8} {p : Pending} {before continuations : List UInt8} {stopAt : ℕ}

/-- The scan expects of a lead the length of its sequence. -/
lemma expectedLength_of_lead (h : lead b.toNat = some p) :
    expectedLength b = some (p.spare + 2) := by
  have h2 : ∀ n < 256, 0xC2 ≤ n ∧ n ≤ 0xDF → expectedLength (UInt8.ofNat n) = some 2 := by
    decide +kernel
  have h3 : ∀ n < 256, 0xE0 ≤ n ∧ n ≤ 0xEF → expectedLength (UInt8.ofNat n) = some 3 := by
    decide +kernel
  have h4 : ∀ n < 256, 0xF0 ≤ n ∧ n ≤ 0xF4 → expectedLength (UInt8.ofNat n) = some 4 := by
    decide +kernel
  have hlt := b.toNat_lt
  rw [← UInt8.ofNat_toNat (x := b)]
  rcases lead_eq_some h with ⟨hlow, hhigh, hs, -⟩ | ⟨hlow, hhigh, hs, -⟩ | ⟨hlow, hhigh, hs, -⟩
  · rw [h2 _ hlt ⟨hlow, hhigh⟩, hs]
  · rw [h3 _ hlt ⟨hlow, hhigh⟩, hs]
  · rw [h4 _ hlt ⟨hlow, hhigh⟩, hs]

/-- No sequence is expected to be longer than four bytes. -/
lemma expectedLength_le {n : ℕ} (h : expectedLength b = some n) : n ≤ 4 := by
  unfold expectedLength at h
  split_ifs at h <;> cases h <;> omega

/-- **What the scan returns**: the end of the chunk, or the place of a byte that is no continuation,
with at most three bytes from there on. -/
lemma walkBack_spec (chunk : List UInt8) (stopAt n : ℕ) (hn : n ≤ chunk.length) :
    walkBack chunk stopAt n = chunk.length ∨
      ∃ before b rest, chunk = before ++ b :: rest ∧ walkBack chunk stopAt n = before.length ∧
        ¬ IsContinuation b ∧ rest.length ≤ 2 := by
  induction n with
  | zero => exact .inl rfl
  | succ i ih =>
    rw [walkBack]
    by_cases hstop : i < stopAt
    · exact .inl (if_pos hstop)
    rw [if_neg hstop]
    dsimp only
    by_cases hcont : chunk.getD i 0 &&& 0b11000000 ≠ 0b10000000
    · rw [if_pos hcont]
      split_ifs with hascii
      · exact .inl rfl
      cases hexp : expectedLength (chunk.getD i 0) with
      | none => exact .inl rfl
      | some expected =>
        dsimp only
        split_ifs with hshort
        · -- the bytes from the lead on are fewer than it asks for
          have hle := expectedLength_le hexp
          refine .inr ⟨chunk.take i, chunk.getD i 0, chunk.drop (i + 1), ?_, ?_, ?_, ?_⟩
          · rw [List.getD_eq_getElem _ _ (by omega), List.getElem_cons_drop, List.take_append_drop]
          · rw [List.length_take]
            omega
          · rwa [← and_eq_iff_isContinuation]
          · rw [List.length_drop]
            omega
        · exact .inl rfl
    · rw [if_neg hcont]
      exact ih (by omega)

/-- The scan goes back over continuation bytes. -/
lemma walkBack_continuations (hcont : ∀ x ∈ continuations, IsContinuation x)
    (hstop : stopAt ≤ before.length) {j : ℕ} (hj : j ≤ continuations.length) :
    walkBack (before ++ b :: continuations) stopAt (before.length + 1 + j) =
      walkBack (before ++ b :: continuations) stopAt (before.length + 1) := by
  induction j with
  | zero => rfl
  | succ j ih =>
    have hx : IsContinuation ((before ++ b :: continuations).getD (before.length + 1 + j) 0) := by
      rw [List.getD_append_right _ _ _ _ (by omega),
        show before.length + 1 + j - before.length = j + 1 by omega, List.getD_cons_succ,
        List.getD_eq_getElem _ _ (by omega)]
      exact hcont _ (List.getElem_mem _)
    rw [← add_assoc, walkBack, if_neg (by omega)]
    dsimp only
    rw [if_neg (not_not.mpr ((and_eq_iff_isContinuation _).mpr hx))]
    exact ih (by omega)

/-- **At a lead** the scan ends: it holds the sequence back where bytes of it are to come. -/
lemma walkBack_lead (hlead : lead b.toNat = some p) (hstop : stopAt ≤ before.length) :
    walkBack (before ++ b :: continuations) stopAt (before.length + 1) =
      if continuations.length ≤ p.spare then before.length
      else (before ++ b :: continuations).length := by
  have hge := le_of_lead hlead
  have hb : (before ++ b :: continuations).getD before.length 0 = b := by simp
  have hnot : b &&& 0b11000000 ≠ 0b10000000 := by
    rw [Ne, and_eq_iff_isContinuation]
    intro h
    rw [lead_of_isContinuation h] at hlead
    cases hlead
  have hascii : ¬ b < 0x80 := by
    rw [UInt8.lt_iff_toNat_lt]
    exact not_lt.mpr hge
  have hlength : (before ++ b :: continuations).length - before.length =
      continuations.length + 1 := by
    rw [List.length_append, List.length_cons]
    omega
  rw [walkBack, if_neg (by omega)]
  dsimp only
  rw [hb, if_pos hnot, if_neg hascii, expectedLength_of_lead hlead]
  dsimp only
  rw [hlength]
  exact if_congr (by omega) rfl rfl

/-- **The scan finds the lead of a sequence that is under way.** -/
lemma walkBack_of_pending (hlead : lead b.toNat = some p)
    (hcont : ∀ x ∈ continuations, IsContinuation x) (hshort : continuations.length ≤ p.spare)
    (hstop : stopAt ≤ before.length) {j : ℕ} (hj : j ≤ continuations.length) :
    walkBack (before ++ b :: continuations) stopAt (before.length + 1 + j) = before.length := by
  rw [walkBack_continuations hcont hstop hj, walkBack_lead hlead hstop, if_pos hshort]

/-- **Where the scan cuts**: at the end, with no sequence under way, or before a byte that is no
continuation, with at most three bytes from there on. -/
lemma utf8ContinuationStart_spec (buffer : List UInt8) :
    (utf8ContinuationStart buffer = buffer.length ∧ (run none buffer).1 = none) ∨
      ∃ before b rest, buffer = before ++ b :: rest ∧
        utf8ContinuationStart buffer = before.length ∧ ¬ IsContinuation b ∧ rest.length ≤ 2 := by
  rw [utf8ContinuationStart]
  split_ifs with hempty
  · rw [List.length_eq_zero_iff.mp hempty]
    exact .inl ⟨rfl, rfl⟩
  rcases walkBack_spec buffer (buffer.length - MAX_UTF8_SEQUENCE_BYTES) buffer.length le_rfl with
    hend | hcut
  · refine .inl ⟨hend, ?_⟩
    cases hrun : (run none buffer).1 with
    | none => rfl
    | some p =>
      obtain ⟨before, b, continuations, q, rfl, hlead, hcont, hlen⟩ := run_pending hrun
      have hspare : q.spare ≤ 2 := by
        rcases lead_eq_some hlead with ⟨-, -, hs, -⟩ | ⟨-, -, hs, -⟩ | ⟨-, -, hs, -⟩ <;> omega
      have hlength : (before ++ b :: continuations).length =
          before.length + 1 + continuations.length := by
        rw [List.length_append, List.length_cons]
        omega
      have hback : walkBack (before ++ b :: continuations)
          (before.length + 1 + continuations.length - 4)
          (before.length + 1 + continuations.length) = before.length :=
        walkBack_of_pending hlead hcont (by omega) (by omega) le_rfl
      rw [hlength, MAX_UTF8_SEQUENCE_BYTES, hback] at hend
      omega
  · exact .inr hcut

/-- **Cutting where the scan says loses nothing**, whatever comes after the buffer. -/
theorem decodeReplace_cut (buffer more : List UInt8) :
    decodeReplace (buffer ++ more) =
      decodeReplace (buffer.take (utf8ContinuationStart buffer)) ++
        decodeReplace (buffer.drop (utf8ContinuationStart buffer) ++ more) := by
  have hwhole : ∀ l, decodeReplace l = (run none l).2 ++ finish (run none l).1 := by
    intro l
    have h := decodeFrom_append none l []
    rwa [List.append_nil] at h
  rcases utf8ContinuationStart_spec buffer with ⟨hcut, hstate⟩ |
    ⟨before, b, rest, rfl, hcut, hcont, -⟩
  · rw [hcut, List.take_length, List.drop_length, hwhole buffer, hstate, decodeReplace,
      decodeFrom_append, hstate]
    simp [finish, decodeReplace]
  · rw [hcut, List.take_left, List.drop_left, hwhole before, List.append_assoc, decodeReplace,
      decodeFrom_append, List.cons_append, decodeFrom_of_not_isContinuation _ hcont,
      List.append_assoc]
    rfl

/-- **A whole sequence at the end** is not held back. -/
lemma utf8ContinuationStart_encoded (front : List UInt8) (c : Char) :
    utf8ContinuationStart (front ++ String.utf8EncodeChar c) =
      (front ++ String.utf8EncodeChar c).length := by
  obtain ⟨b, rest, henc⟩ := List.exists_cons_of_ne_nil (utf8EncodeChar_ne_nil c)
  have hfirst : [b] <+: String.utf8EncodeChar c := ⟨rest, henc.symm⟩
  rcases lead_of_isPrefix hfirst with ⟨hascii, hone, -⟩ | ⟨hsome, -⟩
  · have hbyte : (front ++ [b]).getD front.length 0 = b := by simp
    have hnot : b &&& 0b11000000 ≠ 0b10000000 := by
      rw [Ne, and_eq_iff_isContinuation]
      intro h
      have := h.1
      omega
    rw [hone, utf8ContinuationStart, List.length_append, List.length_singleton,
      if_neg (by omega), walkBack, if_neg (by rw [MAX_UTF8_SEQUENCE_BYTES]; omega)]
    dsimp only
    rw [hbyte, if_pos hnot, if_pos (UInt8.lt_iff_toNat_lt.mpr hascii), List.length_append,
      List.length_singleton]
  · obtain ⟨p, hlead⟩ := Option.isSome_iff_exists.mp hsome
    obtain ⟨-, -, -, htail⟩ := (reached_lead hlead).complete c hfirst
    have hspare : p.spare ≤ 2 := by
      rcases lead_eq_some hlead with ⟨-, -, hs, -⟩ | ⟨-, -, hs, -⟩ | ⟨-, -, hs, -⟩ <;> omega
    have hlength : (front ++ b :: tail c.toNat (p.spare + 1)).length =
        front.length + 1 + (tail c.toNat (p.spare + 1)).length := by
      rw [List.length_append, List.length_cons]
      omega
    have hcount := length_tail c.toNat (p.spare + 1)
    have hstop : front.length + 1 + (tail c.toNat (p.spare + 1)).length -
        MAX_UTF8_SEQUENCE_BYTES ≤ front.length := by
      rw [MAX_UTF8_SEQUENCE_BYTES]
      omega
    rw [htail, List.singleton_append, utf8ContinuationStart, hlength, if_neg (by omega),
      walkBack_continuations (fun x hx => isContinuation_of_mem_tail hx) hstop le_rfl,
      walkBack_lead hlead hstop, if_neg (by omega), hlength]

open Utf8StreamDecoder

/-- **Encoded text in one chunk** is decoded at once, and nothing is held back. -/
lemma decode_encoded {text : List Char} (h : text ≠ []) :
    new.decode (text.flatMap String.utf8EncodeChar) = (text, .new) := by
  obtain ⟨front, c, rfl⟩ := List.eq_nil_or_concat' text |>.resolve_left h
  have hne : (front ++ [c]).flatMap String.utf8EncodeChar ≠ [] := by
    rw [List.flatMap_append, List.flatMap_singleton]
    exact List.append_ne_nil_of_right_ne_nil _ (utf8EncodeChar_ne_nil c)
  have hcut := utf8ContinuationStart_encoded (front.flatMap String.utf8EncodeChar) c
  rw [← List.flatMap_singleton String.utf8EncodeChar c, ← List.flatMap_append] at hcut
  rw [decode, if_neg hne, new]
  dsimp only
  rw [List.nil_append, hcut, List.take_length, List.drop_length, decodeReplace_flatMap]

/-! ## Runs -/

/-- One call: what it returns and what it holds decode as the buffer and the chunk did. -/
lemma decode_spec (decoder : Utf8StreamDecoder) (chunk more : List UInt8) :
    (decoder.decode chunk).1 ++ decodeReplace ((decoder.decode chunk).2.buffer ++ more) =
      decodeReplace (decoder.buffer ++ chunk ++ more) := by
  rw [decode]
  split_ifs with hempty
  · simp [hempty]
  · exact (decodeReplace_cut _ more).symm

/-- One call holds at most three bytes, or those it held. -/
lemma length_decode_buffer_le {decoder : Utf8StreamDecoder} (chunk : List UInt8)
    (h : decoder.buffer.length ≤ 3) : (decoder.decode chunk).2.buffer.length ≤ 3 := by
  rw [decode]
  split_ifs with hempty
  · exact h
  · rcases utf8ContinuationStart_spec (decoder.buffer ++ chunk) with ⟨hcut, -⟩ |
      ⟨before, b, rest, hbuffer, hcut, -, hrest⟩
    · dsimp only
      rw [hcut, List.drop_length]
      simp
    · dsimp only
      rw [hcut, hbuffer, List.drop_left, List.length_cons]
      omega

/-- What `flush` returns is the buffer decoded. -/
lemma flush_fst (decoder : Utf8StreamDecoder) :
    decoder.flush.1 = decodeReplace decoder.buffer := by
  rw [flush]
  split_ifs with hempty
  · rw [hempty]
    rfl
  · rfl

/-- A run over chunks: what it returns and what it holds decode as the buffer and the chunks did,
and it never holds more than three bytes. -/
lemma decodeAll_spec (decoder : Utf8StreamDecoder) (chunks : List (List UInt8))
    (h : decoder.buffer.length ≤ 3) :
    (decoder.decodeAll chunks).1 ++ decodeReplace (decoder.decodeAll chunks).2.buffer =
      decodeReplace (decoder.buffer ++ chunks.flatten) ∧
    (decoder.decodeAll chunks).2.buffer.length ≤ 3 := by
  induction chunks generalizing decoder with
  | nil => exact ⟨by simp [decodeAll], h⟩
  | cons chunk chunks ih =>
    obtain ⟨htext, hlen⟩ := ih (decoder.decode chunk).2 (length_decode_buffer_le chunk h)
    refine ⟨?_, hlen⟩
    simp only [decodeAll, List.append_assoc]
    rw [htext, decode_spec, List.flatten_cons, List.append_assoc]

/-- **The decoder is chunk-invariant.** For any chunks, malformed or not, the results of `decode`
and `flush` joined are the whole decoded at once, with one replacement character for each maximal
ill-formed subpart, and at most three bytes are held back after them. -/
theorem decode_chunks (chunks : List (List UInt8)) :
    (new.decodeAll chunks).1 ++
        (new.decodeAll chunks).2.flush.1 = decodeReplace chunks.flatten ∧
      Decodes chunks.flatten (decodeReplace chunks.flatten) ∧
      (new.decodeAll chunks).2.pending.length ≤ 3 := by
  obtain ⟨htext, hlen⟩ := decodeAll_spec .new chunks (by simp [new])
  refine ⟨?_, decodes_iff.mpr rfl, hlen⟩
  rw [flush_fst, htext]
  rfl

/-- A surrogate cut in the middle, an overlong form and a smiley whose last byte is late. -/
example : (Utf8StreamDecoder.new.decodeAll
    [[0x61, 0xED], [0xA0, 0x80, 0xC0], [], [0xAF, 0xF0, 0x9F], [0x99], [0x82]]).1 =
      [Char.ofNat 0x61, REPLACEMENT, REPLACEMENT, REPLACEMENT, REPLACEMENT, REPLACEMENT,
        Char.ofNat 0x1F642] := by
  decide

end ChuMicro.Repl
