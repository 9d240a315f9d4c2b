import ChuMicro.Text
import ChuMicro.Repl.Utf8Stream

/-!
# Line endings

A board sends CR LF where a program writes LF. The two texts are compared by where words without
line breaks stand in them: they stand at corresponding places. A pair of symbols that ends in LF
stands only in the first, unless it is CR LF itself.

## Main definitions

* `Repl.crlf` — a text with every LF as CR LF.
* `Repl.crlfBytes` — the same for the bytes of a stream.
* `Repl.Plain` — a word without line breaks.

## Main results

* `Repl.exists_of_crlf_append` — a word found in the text with CR LF is one of the text.
* `Repl.not_lf_isInfix_crlf` — no LF without its CR.
-/

namespace ChuMicro.Repl

/-! ## Two symbols for one -/

section Generic

variable {α : Type} [DecidableEq α]

/-- Every `lf` replaced by `cr` and `lf`. -/
def insertCr (cr lf : α) : List α → List α
  | [] => []
  | c :: text => if c = lf then cr :: lf :: insertCr cr lf text else c :: insertCr cr lf text

/-- Two pieces are rewritten one after the other. -/
lemma insertCr_append (cr lf : α) (first second : List α) :
    insertCr cr lf (first ++ second) = insertCr cr lf first ++ insertCr cr lf second := by
  induction first with
  | nil => rfl
  | cons c first ih =>
    rw [List.cons_append, insertCr, insertCr, ih]
    by_cases hc : c = lf
    · rw [if_pos hc, if_pos hc]
      rfl
    · rw [if_neg hc, if_neg hc]
      rfl

/-- A word without line breaks stays as it is. -/
lemma insertCr_of_notMem {cr lf : α} {word : List α} (h : lf ∉ word) :
    insertCr cr lf word = word := by
  induction word with
  | nil => rfl
  | cons c word ih =>
    obtain ⟨hc, hword⟩ := List.ne_and_not_mem_of_not_mem_cons h
    rw [insertCr, if_neg (Ne.symm hc), ih hword]

end Generic

/-! ## Text -/

/-- `text.replace("\n", "\r\n")`. -/
def crlf (text : Str) : Str := insertCr '\r' '\n' text

@[simp] lemma crlf_nil : crlf [] = [] := rfl

/-- A line break. -/
@[simp] lemma crlf_cons_lf (text : Str) : crlf ('\n' :: text) = '\r' :: '\n' :: crlf text := rfl

/-- Any other character. -/
lemma crlf_cons {c : Char} (h : c ≠ '\n') (text : Str) : crlf (c :: text) = c :: crlf text :=
  if_neg h

@[simp] lemma crlf_append (first second : Str) :
    crlf (first ++ second) = crlf first ++ crlf second := insertCr_append _ _ first second

variable {word text : Str} {b : UInt8}

lemma crlf_of_notMem (h : '\n' ∉ word) : crlf word = word := insertCr_of_notMem h

/-- The text does not get shorter. -/
lemma length_le_length_crlf (text : Str) : text.length ≤ (crlf text).length := by
  induction text with
  | nil => exact le_rfl
  | cons c text ih =>
    by_cases hc : c = '\n'
    · subst hc
      simp only [crlf_cons_lf, List.length_cons]
      omega
    · simp only [crlf_cons hc, List.length_cons]
      omega

/-- Only the empty text becomes empty. -/
lemma crlf_eq_nil_iff : crlf text = [] ↔ text = [] := by
  constructor
  · intro h
    have hle := length_le_length_crlf text
    rw [h] at hle
    exact List.length_eq_zero_iff.mp (by simpa using hle)
  · rintro rfl
    rfl

/-! ## Words without line breaks -/

/-- A word without line breaks. -/
structure Plain (word : Str) : Prop where
  ne_nil : word ≠ []
  lf : '\n' ∉ word
  cr : '\r' ∉ word

instance (word : Str) : Decidable (Plain word) :=
  decidable_of_iff (word ≠ [] ∧ '\n' ∉ word ∧ '\r' ∉ word)
    ⟨fun h => ⟨h.1, h.2.1, h.2.2⟩, fun h => ⟨h.1, h.2, h.3⟩⟩

/-- A word in front of the text with CR LF is in front of the text. -/
lemma exists_of_crlf_front {rest : Str} (hlf : '\n' ∉ word) (hcr : '\r' ∉ word)
    (h : crlf text = word ++ rest) : ∃ more, text = word ++ more ∧ rest = crlf more := by
  induction word generalizing text with
  | nil => exact ⟨text, rfl, h.symm⟩
  | cons c word ih =>
    obtain ⟨-, hlf'⟩ := List.ne_and_not_mem_of_not_mem_cons hlf
    obtain ⟨hc, hcr'⟩ := List.ne_and_not_mem_of_not_mem_cons hcr
    cases text with
    | nil => cases h
    | cons d text =>
      by_cases hd : d = '\n'
      · subst hd
        exact absurd (List.cons.inj h).1 hc
      · rw [crlf_cons hd, List.cons_append, List.cons.injEq] at h
        obtain ⟨rfl, htail⟩ := h
        obtain ⟨more, rfl, hmore⟩ := ih hlf' hcr' htail
        exact ⟨more, rfl, hmore⟩

/-- **A word found in the text with CR LF** is found in the text, at the corresponding place.

**Proof sketch.** Induction on the text: the word starts with neither of the two symbols of a line
break. -/
theorem exists_of_crlf_append {before rest : Str} (hword : Plain word)
    (h : crlf text = before ++ (word ++ rest)) :
    ∃ first more, text = first ++ (word ++ more) ∧ before = crlf first ∧ rest = crlf more := by
  induction text generalizing before with
  | nil =>
    obtain ⟨-, hempty⟩ := List.append_eq_nil_iff.mp h.symm
    exact absurd (List.append_eq_nil_iff.mp hempty).1 hword.ne_nil
  | cons d text ih =>
    cases before with
    | nil =>
      obtain ⟨more, htext, hrest⟩ := exists_of_crlf_front hword.lf hword.cr h
      exact ⟨[], more, htext, rfl, hrest⟩
    | cons b before =>
      by_cases hd : d = '\n'
      · subst hd
        rw [crlf_cons_lf, List.cons_append, List.cons.injEq] at h
        obtain ⟨rfl, htail⟩ := h
        cases before with
        | nil =>
          -- the word would start with the LF
          obtain ⟨c, word, rfl⟩ := List.exists_cons_of_ne_nil hword.ne_nil
          exact absurd (List.mem_cons.mpr (.inl (List.cons.inj htail).1)) hword.lf
        | cons b before =>
          rw [List.cons_append, List.cons.injEq] at htail
          obtain ⟨rfl, htail⟩ := htail
          obtain ⟨first, more, rfl, rfl, hrest⟩ := ih htail
          exact ⟨'\n' :: first, more, rfl, rfl, hrest⟩
      · rw [crlf_cons hd, List.cons_append, List.cons.injEq] at h
        obtain ⟨rfl, htail⟩ := h
        obtain ⟨first, more, rfl, rfl, hrest⟩ := ih htail
        exact ⟨d :: first, more, rfl, (crlf_cons hd first).symm, hrest⟩

/-- A word stands in front of both texts or of none. -/
lemma isPrefix_crlf_iff (hword : Plain word) : word <+: crlf text ↔ word <+: text := by
  constructor
  · rintro ⟨rest, h⟩
    obtain ⟨more, rfl, -⟩ := exists_of_crlf_front hword.lf hword.cr h.symm
    exact List.prefix_append word more
  · rintro ⟨more, rfl⟩
    rw [crlf_append, crlf_of_notMem hword.lf]
    exact List.prefix_append word _

/-- A word stands in both texts or in none. -/
lemma isInfix_crlf_iff (hword : Plain word) : word <:+: crlf text ↔ word <:+: text := by
  constructor
  · rintro ⟨before, rest, h⟩
    rw [List.append_assoc] at h
    obtain ⟨first, more, rfl, -, -⟩ := exists_of_crlf_append hword h.symm
    exact ⟨first, more, by rw [List.append_assoc]⟩
  · rintro ⟨first, more, rfl⟩
    rw [crlf_append, crlf_append, crlf_of_notMem hword.lf]
    exact List.infix_append _ _ _

/-- **No LF without its CR.** -/
theorem not_lf_isInfix_crlf {c : Char} (hc : c ≠ '\r') (text : Str) :
    ¬ [c, '\n'] <:+: crlf text := by
  -- nor where something other than a CR stands before the text
  have hlf : ∀ text : Str, ¬ ['\n'] <+: crlf text := by
    intro text h
    cases text with
    | nil => simp at h
    | cons d text =>
      by_cases hd : d = '\n'
      · subst hd
        simp at h
      · rw [crlf_cons hd, List.cons_prefix_cons] at h
        exact hd h.1.symm
  induction text with
  | nil => simp
  | cons d text ih =>
    by_cases hd : d = '\n'
    · subst hd
      rw [crlf_cons_lf, List.infix_cons_iff, List.infix_cons_iff]
      rintro (h | h | h)
      · exact hc (List.cons_prefix_cons.mp h).1
      · exact hlf text (List.cons_prefix_cons.mp h).2
      · exact ih h
    · rw [crlf_cons hd, List.infix_cons_iff]
      rintro (h | h)
      · exact hlf text (List.cons_prefix_cons.mp h).2
      · exact ih h

/-! ## Bytes -/

/-- The bytes of a stream with LF as CR LF. -/
def crlfBytes (data : List UInt8) : List UInt8 := insertCr 0x0D 0x0A data

open Utf8 String in
/-- Only the byte of LF decodes to LF. -/
lemma lf_notMem_decodeReplace {data : List UInt8} (h : 0x0A ∉ data) :
    '\n' ∉ decodeReplace data := by
  have hdecodes : Decodes data (decodeReplace data) := decodes_iff.mpr rfl
  generalize decodeReplace data = text at hdecodes
  induction hdecodes with
  | nil => exact List.not_mem_nil
  | char c more ih =>
    rw [List.mem_append, not_or] at h
    refine List.not_mem_cons_of_ne_of_not_mem ?_ (ih h.2)
    rintro rfl
    exact h.1 (by decide)
  | replaced bad ne_nil ill piece maximal more ih =>
    rw [List.mem_append, not_or] at h
    exact List.not_mem_cons_of_ne_of_not_mem (by decide) (ih h.2)

open Utf8 in
/-- A line break is decoded by itself, whatever stands before it. -/
lemma decodeReplace_append_ascii (front rest : List UInt8) (hb : b.toNat < 0x80) :
    decodeReplace (front ++ b :: rest) =
      decodeReplace front ++ Char.ofNat b.toNat :: decodeReplace rest := by
  have hcont : ¬ IsContinuation b := fun h => by
    have := h.1
    omega
  have hfront := decodeFrom_append none front []
  rw [List.append_nil] at hfront
  rw [decodeReplace, decodeFrom_append, decodeFrom_of_not_isContinuation _ hcont, decodeReplace,
    hfront, List.append_assoc]
  congr 2
  rw [decodeFrom, step, start, if_pos hb]
  rfl

open Utf8 in
/-- **Decoding commutes with the line endings**, also where the bytes are malformed.

**Proof sketch.** Induction on the lines: each decodes by itself, and what it decodes to has no line
break. -/
lemma decodeReplace_crlfBytes (data : List UInt8) :
    decodeReplace (crlfBytes data) = crlf (decodeReplace data) := by
  induction hlen : data.length using Nat.strong_induction_on generalizing data with
  | _ n ih =>
    by_cases hlf : 0x0A ∈ data
    · obtain ⟨line, rest, rfl, hline⟩ := List.eq_append_cons_of_mem hlf
      have hrest := ih rest.length (by rw [← hlen]; simp; omega) rest rfl
      have hbytes : crlfBytes (line ++ 0x0A :: rest) = line ++ 0x0D :: 0x0A :: crlfBytes rest := by
        rw [crlfBytes, insertCr_append, insertCr_of_notMem hline]
        rfl
      have hcr : decodeReplace (line ++ 0x0D :: 0x0A :: crlfBytes rest) =
          decodeReplace line ++ '\r' :: decodeReplace (0x0A :: crlfBytes rest) :=
        decodeReplace_append_ascii line _ (by decide)
      have hbreak : decodeReplace (0x0A :: crlfBytes rest) =
          '\n' :: decodeReplace (crlfBytes rest) :=
        decodeReplace_append_ascii [] _ (by decide)
      have hline' : decodeReplace (line ++ 0x0A :: rest) =
          decodeReplace line ++ '\n' :: decodeReplace rest :=
        decodeReplace_append_ascii line rest (by decide)
      rw [hbytes, hcr, hbreak, hrest, hline', crlf_append, crlf_cons_lf,
        crlf_of_notMem (lf_notMem_decodeReplace hline)]
    · rw [crlfBytes, insertCr_of_notMem hlf, crlf_of_notMem (lf_notMem_decodeReplace hlf)]

/-! ## The decoder -/

open Utf8

/-- The scan does not go back over an ASCII byte. -/
lemma walkBack_append_ascii (front rest : List UInt8) (hb : b.toNat < 0x80) {n : ℕ}
    (hn : n ≤ rest.length) :
    walkBack (front ++ b :: rest) ((front ++ b :: rest).length - MAX_UTF8_SEQUENCE_BYTES)
        (front.length + 1 + n) =
      front.length + 1 + walkBack rest (rest.length - MAX_UTF8_SEQUENCE_BYTES) n := by
  have hlength : (front ++ b :: rest).length = front.length + 1 + rest.length := by
    rw [List.length_append, List.length_cons]
    omega
  induction n with
  | zero =>
    have hbyte : (front ++ b :: rest).getD front.length 0 = b := by simp
    have hnot : b &&& 0b11000000 ≠ 0b10000000 := by
      rw [Ne, and_eq_iff_isContinuation]
      intro h
      have := h.1
      omega
    rw [add_zero, walkBack, walkBack]
    split_ifs with hstop
    · exact hlength
    · dsimp only
      rw [hbyte, if_pos hnot, if_pos (UInt8.lt_iff_toNat_lt.mpr hb)]
      exact hlength
  | succ n ih =>
    have hbyte : (front ++ b :: rest).getD (front.length + 1 + n) 0 = rest.getD n 0 := by
      rw [List.getD_append_right _ _ _ _ (by omega),
        show front.length + 1 + n - front.length = n + 1 by omega, List.getD_cons_succ]
    have hshort : (front ++ b :: rest).length - (front.length + 1 + n) = rest.length - n := by
      omega
    rw [← add_assoc, walkBack, walkBack]
    by_cases hstop : n < rest.length - MAX_UTF8_SEQUENCE_BYTES
    · rw [if_pos hstop, if_pos (by omega), hlength]
    · rw [if_neg hstop, if_neg (by omega)]
      dsimp only
      rw [hbyte, hshort, ih (by omega)]
      split_ifs with hcont hascii
      · exact hlength
      · cases expectedLength (rest.getD n 0) with
        | none => exact hlength
        | some expected =>
          dsimp only
          split_ifs
          · rfl
          · exact hlength
      · rfl

/-- What the scan holds back lies after the last ASCII byte. -/
lemma utf8ContinuationStart_append_ascii (front rest : List UInt8) (hb : b.toNat < 0x80) :
    utf8ContinuationStart (front ++ b :: rest) = front.length + 1 + utf8ContinuationStart rest := by
  have hlength : (front ++ b :: rest).length = front.length + 1 + rest.length := by
    rw [List.length_append, List.length_cons]
    omega
  have hback := walkBack_append_ascii front rest hb le_rfl
  rw [utf8ContinuationStart, if_neg (by omega), hlength]
  rw [hlength] at hback
  rw [hback, utf8ContinuationStart]
  split_ifs with hempty
  · rw [hempty, walkBack, hempty]
  · rfl

/-- Bytes without LF, or what follows the last. -/
lemma exists_last_line {α : Type} [DecidableEq α] {lf : α} {data : List α} (h : lf ∈ data) :
    ∃ front line, data = front ++ lf :: line ∧ lf ∉ line := by
  obtain ⟨line, front, hdata, hline⟩ := List.eq_append_cons_of_mem (List.mem_reverse.mpr h)
  refine ⟨front.reverse, line.reverse, ?_, by simpa using hline⟩
  rw [← List.reverse_reverse data, hdata]
  simp

/-- **The scan cuts at corresponding places**, and holds back no line break. -/
lemma cut_crlfBytes (data : List UInt8) :
    (crlfBytes data).take (utf8ContinuationStart (crlfBytes data)) =
        crlfBytes (data.take (utf8ContinuationStart data)) ∧
      (crlfBytes data).drop (utf8ContinuationStart (crlfBytes data)) =
        data.drop (utf8ContinuationStart data) ∧
      0x0A ∉ data.drop (utf8ContinuationStart data) := by
  by_cases hlf : 0x0A ∈ data
  · obtain ⟨front, line, rfl, hline⟩ := exists_last_line hlf
    have hbytes : ∀ line : List UInt8, 0x0A ∉ line →
        crlfBytes (front ++ 0x0A :: line) = crlfBytes front ++ [0x0D] ++ 0x0A :: line := by
      intro line hline
      rw [crlfBytes, insertCr_append, insertCr, if_pos rfl, insertCr_of_notMem hline]
      simp [crlfBytes]
    have htake : ∀ (front : List UInt8) (n : ℕ),
        (front ++ 0x0A :: line).take (front.length + 1 + n) = front ++ 0x0A :: line.take n := by
      intro front n
      rw [add_assoc, List.take_length_add_append, Nat.add_comm 1 n, List.take_succ_cons]
    have hdrop : ∀ (front : List UInt8) (n : ℕ),
        (front ++ 0x0A :: line).drop (front.length + 1 + n) = line.drop n := by
      intro front n
      rw [add_assoc, List.drop_length_add_append, Nat.add_comm 1 n, List.drop_succ_cons]
    rw [hbytes line hline, utf8ContinuationStart_append_ascii _ _ (by decide),
      utf8ContinuationStart_append_ascii _ _ (by decide), htake, htake, hdrop, hdrop,
      hbytes _ fun h => hline (List.mem_of_mem_take h)]
    exact ⟨rfl, rfl, fun h => hline (List.mem_of_mem_drop h)⟩
  · have hsame : crlfBytes data = data := insertCr_of_notMem hlf
    rw [hsame]
    refine ⟨?_, rfl, fun h => hlf (List.mem_of_mem_drop h)⟩
    rw [crlfBytes, insertCr_of_notMem fun h => hlf (List.mem_of_mem_take h)]

/-- **One chunk with CR LF** decodes to the text with CR LF, and holds back the same bytes. -/
lemma decode_crlfBytes {decoder : Utf8StreamDecoder} (h : 0x0A ∉ decoder.buffer)
    (chunk : List UInt8) :
    decoder.decode (crlfBytes chunk) =
        (crlf (decoder.decode chunk).1, (decoder.decode chunk).2) ∧
      0x0A ∉ (decoder.decode chunk).2.buffer := by
  cases hchunk : chunk with
  | nil => exact ⟨rfl, h⟩
  | cons b rest =>
    rw [← hchunk]
    have hne : chunk ≠ [] := by simp [hchunk]
    have hne' : crlfBytes chunk ≠ [] := by
      rw [hchunk, crlfBytes, insertCr]
      split_ifs <;> simp
    have hbuffer : decoder.buffer ++ crlfBytes chunk = crlfBytes (decoder.buffer ++ chunk) := by
      rw [crlfBytes, crlfBytes, insertCr_append, insertCr_of_notMem h]
    obtain ⟨htake, hdrop, hlf⟩ := cut_crlfBytes (decoder.buffer ++ chunk)
    rw [Utf8StreamDecoder.decode, Utf8StreamDecoder.decode, if_neg hne, if_neg hne', hbuffer]
    dsimp only
    rw [htake, hdrop, decodeReplace_crlfBytes]
    exact ⟨rfl, hlf⟩

end ChuMicro.Repl
