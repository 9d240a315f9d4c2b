import Mathlib.Data.List.Infix
import Mathlib.Tactic.Ring

/-!
# UTF-8 with replacement

Decoding a byte string that may be malformed: a well-formed sequence is its character, and one
replacement character stands for each maximal ill-formed subpart, which is the longest piece that
begins a well-formed sequence, or else a single byte.

The decoder reads byte by byte. In the middle of a sequence it knows how many bytes are to come, the
range of the next one and the bits so far.

## Main definitions

* `Utf8.Pending`, `Utf8.step` — the middle of a sequence, and one byte of the decoder.
* `Utf8.decodeReplace` — the decoder.
* `Utf8.Decodes` — what the decoder is to compute, told by the encodings of characters.

## Main results

* `Utf8.decodes_iff` — the decoder computes what it is to compute, and nothing else fits.
* `Utf8.decodeFrom_append` — decoding in two pieces.
* `Utf8.run_pending` — a decoder in the middle of a sequence has read its lead and some continuation
  bytes last.
-/

namespace Utf8

open String (utf8EncodeChar)

/-! ## The decoder -/

/-- The replacement character. -/
def REPLACEMENT : Char := Char.ofNat 0xFFFD

/-- The middle of a sequence: `spare + 1` continuation bytes are to come, the next one lies between
`low` and `high`, and the bits so far are `point`. -/
structure Pending where
  spare : ℕ
  low : ℕ
  high : ℕ
  point : ℕ
  le_low : 0x80 ≤ low
  low_le : low ≤ high
  high_le : high ≤ 0xBF

/-- The lead of a sequence of several bytes. The range of the second byte rules out overlong forms,
surrogates and what lies above the last code point. -/
def lead (b : ℕ) : Option Pending :=
  if 0xC2 ≤ b ∧ b ≤ 0xDF then some ⟨0, 0x80, 0xBF, b - 0xC0, by omega, by omega, by omega⟩
  else if 0xE0 ≤ b ∧ b ≤ 0xEF then
    some ⟨1, if b = 0xE0 then 0xA0 else 0x80, if b = 0xED then 0x9F else 0xBF, b - 0xE0,
      by split_ifs <;> omega, by split_ifs <;> omega, by split_ifs <;> omega⟩
  else if 0xF0 ≤ b ∧ b ≤ 0xF4 then
    some ⟨2, if b = 0xF0 then 0x90 else 0x80, if b = 0xF4 then 0x8F else 0xBF, b - 0xF0,
      by split_ifs <;> omega, by split_ifs <;> omega, by split_ifs <;> omega⟩
  else none

/-- A byte between two sequences: the state after it and the text it yields. -/
def start (b : UInt8) : Option Pending × List Char :=
  if b.toNat < 0x80 then (none, [Char.ofNat b.toNat])
  else
    match lead b.toNat with
    | some p => (some p, [])
    | none => (none, [REPLACEMENT])

/-- The state after one more continuation byte. -/
def Pending.next (p : Pending) (b : UInt8) : Option Pending × List Char :=
  let point := p.point * 64 + (b.toNat - 0x80)
  match p.spare with
  | 0 => (none, [Char.ofNat point])
  | spare + 1 => (some ⟨spare, 0x80, 0xBF, point, by omega, by omega, by omega⟩, [])

/-- One byte: a byte that does not fit ends the sequence before it and is read anew. -/
def step (state : Option Pending) (b : UInt8) : Option Pending × List Char :=
  match state with
  | none => start b
  | some p =>
    if p.low ≤ b.toNat ∧ b.toNat ≤ p.high then p.next b
    else ((start b).1, REPLACEMENT :: (start b).2)

/-- The text of a sequence that the end of the input cuts off. -/
def finish : Option Pending → List Char
  | none => []
  | some _ => [REPLACEMENT]

/-- Decoding from a state to the end of the input. -/
def decodeFrom (state : Option Pending) : List UInt8 → List Char
  | [] => finish state
  | b :: rest => (step state b).2 ++ decodeFrom (step state b).1 rest

/-- **Decoding with replacement.** -/
def decodeReplace (data : List UInt8) : List Char := decodeFrom none data

/-- The state after some bytes, and the text they yield. -/
def run (state : Option Pending) : List UInt8 → Option Pending × List Char
  | [] => (state, [])
  | b :: rest =>
    ((run (step state b).1 rest).1, (step state b).2 ++ (run (step state b).1 rest).2)

/-- **Decoding in two pieces**: the second is decoded from where the first ends. -/
theorem decodeFrom_append (state : Option Pending) (l m : List UInt8) :
    decodeFrom state (l ++ m) = (run state l).2 ++ decodeFrom (run state l).1 m := by
  induction l generalizing state with
  | nil => rfl
  | cons b rest ih => rw [List.cons_append, decodeFrom, ih, run, List.append_assoc]

/-- The state after two pieces. -/
lemma run_append (state : Option Pending) (l m : List UInt8) :
    (run state (l ++ m)).1 = (run (run state l).1 m).1 := by
  induction l generalizing state with
  | nil => rfl
  | cons b rest ih =>
    rw [List.cons_append, run, run]
    exact ih _

/-- A byte of the form `10xxxxxx`. -/
def IsContinuation (b : UInt8) : Prop := 0x80 ≤ b.toNat ∧ b.toNat ≤ 0xBF

variable {b : UInt8} {p : Pending} {data : List UInt8}

/-- No lead is a continuation byte. -/
lemma lead_of_isContinuation (h : IsContinuation b) : lead b.toNat = none := by
  obtain ⟨hlow, hhigh⟩ := h
  rw [lead, if_neg (by omega), if_neg (by omega), if_neg (by omega)]

/-- Only a lead leaves the decoder in the middle of a sequence from between two. -/
lemma start_eq_some (h : (start b).1 = some p) : lead b.toNat = some p := by
  unfold start at h
  split_ifs at h
  split at h
  case h_1 q hq =>
    cases h
    exact hq
  case h_2 => cases h

/-- **A decoder in the middle of a sequence** has read its lead and some of its continuation bytes
last.

**Proof sketch.** Induction on the bytes from the end. The last byte is the lead itself, or it
continues the sequence that was under way before it. -/
theorem run_pending (h : (run none data).1 = some p) :
    ∃ before b continuations q, data = before ++ b :: continuations ∧ lead b.toNat = some q ∧
      (∀ x ∈ continuations, IsContinuation x) ∧ continuations.length + p.spare = q.spare := by
  induction data using List.reverseRecOn generalizing p with
  | nil => cases h
  | append_singleton before b ih =>
    rw [run_append, run, run] at h
    have hnew : lead b.toNat = some p →
        ∃ before' b' continuations q, before ++ [b] = before' ++ b' :: continuations ∧
          lead b'.toNat = some q ∧ (∀ x ∈ continuations, IsContinuation x) ∧
          continuations.length + p.spare = q.spare := fun hlead =>
      ⟨before, b, [], p, rfl, hlead, by simp, by simp⟩
    cases hstate : (run none before).1 with
    | none =>
      rw [hstate] at h
      exact hnew (start_eq_some h)
    | some q =>
      rw [hstate, step] at h
      by_cases hin : q.low ≤ b.toNat ∧ b.toNat ≤ q.high
      · rw [if_pos hin, Pending.next] at h
        obtain ⟨before', b', continuations, r, hdata, hlead, hcont, hlen⟩ := ih hstate
        cases hs : q.spare with
        | zero =>
          rw [hs] at h
          cases h
        | succ spare =>
          rw [hs] at h
          cases h
          have hge := q.le_low
          have hle := q.high_le
          refine ⟨before', b', continuations ++ [b], r, by rw [hdata]; simp, hlead, ?_, ?_⟩
          · intro x hx
            rcases List.mem_append.mp hx with hx | hx
            · exact hcont x hx
            · rw [List.mem_singleton.mp hx]
              exact ⟨by omega, by omega⟩
          · rw [List.length_append, List.length_singleton]
            dsimp only
            omega
      · rw [if_neg hin] at h
        exact hnew (start_eq_some h)

/-- **A byte that is no continuation starts anew** wherever the decoder stands. -/
lemma decodeFrom_of_not_isContinuation (state : Option Pending) {rest : List UInt8}
    (h : ¬ IsContinuation b) :
    decodeFrom state (b :: rest) = finish state ++ decodeFrom none (b :: rest) := by
  cases state with
  | none => rfl
  | some p =>
    have hge := p.le_low
    have hle := p.high_le
    have hout : ¬ (p.low ≤ b.toNat ∧ b.toNat ≤ p.high) := fun hin => h ⟨by omega, by omega⟩
    rw [decodeFrom, step, if_neg hout]
    rfl

/-! ## Encodings -/

/-- The last `n` bytes of the encoding of the code point `v`. -/
def tail (v : ℕ) : ℕ → List UInt8
  | 0 => []
  | n + 1 => UInt8.ofNat (0x80 + v / 64 ^ n % 64) :: tail v n

/-- The number of bytes. -/
lemma length_tail (v n : ℕ) : (tail v n).length = n := by
  induction n with
  | zero => rfl
  | succ n ih => rw [tail, List.length_cons, ih]

/-- All bytes but the first are continuation bytes. -/
lemma isContinuation_of_mem_tail {v n : ℕ} (h : b ∈ tail v n) : IsContinuation b := by
  induction n with
  | zero => cases h
  | succ n ih =>
    rcases List.mem_cons.mp h with rfl | h
    · rw [IsContinuation, UInt8.toNat_ofNat_of_lt' (by norm_num; omega)]
      omega
    · exact ih h

/-- The encoding of a character by the size of its code point. -/
lemma utf8EncodeChar_cases (c : Char) :
    (c.toNat < 0x80 ∧ utf8EncodeChar c = [UInt8.ofNat c.toNat]) ∨
    (0x80 ≤ c.toNat ∧ c.toNat < 0x800 ∧
      utf8EncodeChar c = UInt8.ofNat (0xC0 + c.toNat / 64) :: tail c.toNat 1) ∨
    (0x800 ≤ c.toNat ∧ c.toNat < 0x10000 ∧
      utf8EncodeChar c = UInt8.ofNat (0xE0 + c.toNat / 4096) :: tail c.toNat 2) ∨
    (0x10000 ≤ c.toNat ∧ c.toNat < 0x110000 ∧
      utf8EncodeChar c = UInt8.ofNat (0xF0 + c.toNat / 262144) :: tail c.toNat 3) := by
  have hlt : c.toNat < 0x110000 := by
    rcases c.valid with h | h
    · exact lt_trans h (by decide)
    · exact h.2
  have h64 : 64 ^ 0 = 1 ∧ 64 ^ 1 = 64 ∧ 64 ^ 2 = 4096 := by decide
  unfold String.utf8EncodeChar
  simp only [show c.val.toNat = c.toNat from rfl, tail, h64]
  split_ifs with h1 h2 h3
  · exact .inl ⟨by omega, rfl⟩
  · refine .inr (.inl ⟨by omega, by omega, ?_⟩)
    rw [show c.toNat / 64 % 32 + 0xC0 = 0xC0 + c.toNat / 64 by omega,
      show c.toNat % 64 + 0x80 = 0x80 + c.toNat / 1 % 64 by omega]
  · refine .inr (.inr (.inl ⟨by omega, by omega, ?_⟩))
    rw [show c.toNat / 4096 % 16 + 0xE0 = 0xE0 + c.toNat / 4096 by omega,
      show c.toNat / 64 % 64 + 0x80 = 0x80 + c.toNat / 64 % 64 by omega,
      show c.toNat % 64 + 0x80 = 0x80 + c.toNat / 1 % 64 by omega]
  · refine .inr (.inr (.inr ⟨by omega, by omega, ?_⟩))
    rw [show c.toNat / 262144 % 8 + 0xF0 = 0xF0 + c.toNat / 262144 by omega,
      show c.toNat / 4096 % 64 + 0x80 = 0x80 + c.toNat / 4096 % 64 by omega,
      show c.toNat / 64 % 64 + 0x80 = 0x80 + c.toNat / 64 % 64 by omega,
      show c.toNat % 64 + 0x80 = 0x80 + c.toNat / 1 % 64 by omega]

/-- A scalar value is the code point of its character. -/
lemma toNat_ofNat {v : ℕ} (h : v.isValidChar) : (Char.ofNat v).toNat = v := by
  rw [Char.ofNat, dif_pos h]
  rfl

/-- The three kinds of lead. -/
lemma lead_eq_some {b : ℕ} (h : lead b = some p) :
    (0xC2 ≤ b ∧ b ≤ 0xDF ∧ p.spare = 0 ∧ p.point = b - 0xC0 ∧ p.low = 0x80 ∧ p.high = 0xBF) ∨
    (0xE0 ≤ b ∧ b ≤ 0xEF ∧ p.spare = 1 ∧ p.point = b - 0xE0 ∧
      p.low = (if b = 0xE0 then 0xA0 else 0x80) ∧ p.high = (if b = 0xED then 0x9F else 0xBF)) ∨
    (0xF0 ≤ b ∧ b ≤ 0xF4 ∧ p.spare = 2 ∧ p.point = b - 0xF0 ∧
      p.low = (if b = 0xF0 then 0x90 else 0x80) ∧ p.high = (if b = 0xF4 then 0x8F else 0xBF)) := by
  unfold lead at h
  by_cases h1 : 0xC2 ≤ b ∧ b ≤ 0xDF
  · rw [if_pos h1] at h
    cases h
    exact .inl ⟨h1.1, h1.2, rfl, rfl, rfl, rfl⟩
  rw [if_neg h1] at h
  by_cases h2 : 0xE0 ≤ b ∧ b ≤ 0xEF
  · rw [if_pos h2] at h
    cases h
    exact .inr (.inl ⟨h2.1, h2.2, rfl, rfl, rfl, rfl⟩)
  rw [if_neg h2] at h
  by_cases h3 : 0xF0 ≤ b ∧ b ≤ 0xF4
  · rw [if_pos h3] at h
    cases h
    exact .inr (.inr ⟨h3.1, h3.2, rfl, rfl, rfl, rfl⟩)
  rw [if_neg h3] at h
  cases h

/-- The bytes `l` lead from between two sequences to `p`: the encodings that begin with `l` are
those of the code points that have the bits of `p` and a next byte in its range. -/
structure Reached (l : List UInt8) (p : Pending) : Prop where
  ne_nil : l ≠ []
  unfinished : ∀ c, ¬ utf8EncodeChar c <+: l
  sound : ∀ v, v / 64 ^ (p.spare + 1) = p.point → p.low ≤ 0x80 + v / 64 ^ p.spare % 64 →
    0x80 + v / 64 ^ p.spare % 64 ≤ p.high →
    ∃ c : Char, c.toNat = v ∧ utf8EncodeChar c = l ++ tail v (p.spare + 1)
  complete : ∀ c : Char, l <+: utf8EncodeChar c →
    c.toNat / 64 ^ (p.spare + 1) = p.point ∧ p.low ≤ 0x80 + c.toNat / 64 ^ p.spare % 64 ∧
      0x80 + c.toNat / 64 ^ p.spare % 64 ≤ p.high ∧
      utf8EncodeChar c = l ++ tail c.toNat (p.spare + 1)

/-- A byte in front of an encoding is its first. -/
lemma singleton_isPrefix_cons {a : UInt8} {l : List UInt8} (h : [a] <+: b :: l) :
    a.toNat = b.toNat := by
  rw [List.cons_prefix_cons] at h
  rw [h.1]

/-- **Every encoding of several bytes begins with a lead**, and one of a single byte is ASCII. -/
lemma lead_of_isPrefix {c : Char} (h : [b] <+: utf8EncodeChar c) :
    (b.toNat < 0x80 ∧ utf8EncodeChar c = [b] ∧ Char.ofNat b.toNat = c) ∨
      ((lead b.toNat).isSome ∧ 1 < (utf8EncodeChar c).length) := by
  obtain ⟨hlt, henc⟩ | ⟨hge, hlt, henc⟩ | ⟨hge, hlt, henc⟩ | ⟨hge, hlt, henc⟩ :=
    utf8EncodeChar_cases c
  · rw [henc] at h
    have hfirst := singleton_isPrefix_cons h
    have hb : b = UInt8.ofNat c.toNat := UInt8.toNat_inj.mp hfirst
    rw [UInt8.toNat_ofNat_of_lt' (by norm_num; omega)] at hfirst
    exact .inl ⟨by omega, by rw [henc, hb], by rw [hfirst, Char.ofNat_toNat]⟩
  · rw [henc] at h
    have hfirst := singleton_isPrefix_cons h
    rw [UInt8.toNat_ofNat_of_lt' (by norm_num; omega)] at hfirst
    refine .inr ⟨?_, by simp [henc, tail]⟩
    rw [lead, if_pos (by omega)]
    rfl
  · rw [henc] at h
    have hfirst := singleton_isPrefix_cons h
    rw [UInt8.toNat_ofNat_of_lt' (by norm_num; omega)] at hfirst
    refine .inr ⟨?_, by simp [henc, tail]⟩
    rw [lead, if_neg (by omega), if_pos (by omega)]
    rfl
  · rw [henc] at h
    have hfirst := singleton_isPrefix_cons h
    rw [UInt8.toNat_ofNat_of_lt' (by norm_num; omega)] at hfirst
    refine .inr ⟨?_, by simp [henc, tail]⟩
    rw [lead, if_neg (by omega), if_neg (by omega), if_pos (by omega)]
    rfl

/-- An encoding has at least one byte. -/
lemma utf8EncodeChar_ne_nil (c : Char) : utf8EncodeChar c ≠ [] := by
  obtain ⟨-, henc⟩ | ⟨-, -, henc⟩ | ⟨-, -, henc⟩ | ⟨-, -, henc⟩ := utf8EncodeChar_cases c
  all_goals
    rw [henc]
    exact List.cons_ne_nil _ _

/-- A lead is no ASCII byte. -/
lemma le_of_lead {b : ℕ} (h : lead b = some p) : 0x80 ≤ b := by
  rcases lead_eq_some h with h' | h' | h' <;> omega

/-- **A lead starts a sequence.** -/
lemma reached_lead (h : lead b.toNat = some p) : Reached [b] p := by
  have hb : UInt8.ofNat b.toNat = b := UInt8.ofNat_toNat
  have h64 : 64 ^ 0 = 1 ∧ 64 ^ 1 = 64 ∧ 64 ^ 2 = 4096 ∧ 64 ^ 3 = 262144 := by decide
  refine ⟨by simp, fun c hc => ?_, fun v hv hlow hhigh => ?_, fun c hc => ?_⟩
  · -- a sequence of one byte is ASCII
    have hle := hc.length_le
    have hpos := List.length_pos_of_ne_nil (utf8EncodeChar_ne_nil c)
    rw [List.length_singleton] at hle
    have heq : utf8EncodeChar c = [b] := hc.eq_of_length (by rw [List.length_singleton]; omega)
    rcases lead_of_isPrefix (b := b) (c := c) (by rw [heq]) with ⟨hlt, -⟩ | ⟨-, hlong⟩
    · have := le_of_lead h
      omega
    · simp [heq] at hlong
  · rcases lead_eq_some h with ⟨h1, h2, hs, hp, hl, hh⟩ | ⟨h1, h2, hs, hp, hl, hh⟩ |
      ⟨h1, h2, hs, hp, hl, hh⟩
    · simp only [hs, hp, hl, hh, zero_add, h64] at hv hlow hhigh ⊢
      have hc : (Char.ofNat v).toNat = v := toNat_ofNat (.inl (by omega))
      have hcases := utf8EncodeChar_cases (Char.ofNat v)
      rw [hc] at hcases
      obtain ⟨hlt, -⟩ | ⟨-, -, henc⟩ | ⟨hge, -⟩ | ⟨hge, -⟩ := hcases
      · omega
      · refine ⟨_, hc, ?_⟩
        rw [henc, show 0xC0 + v / 64 = b.toNat by omega, hb]
        rfl
      · omega
      · omega
    · simp only [hs, hp, hl, hh, Nat.reduceAdd, h64] at hv hlow hhigh ⊢
      -- the second byte rules out overlong forms and surrogates
      have hrange : 0x800 ≤ v ∧ (v < 0xD800 ∨ 0xDFFF < v) := by
        split_ifs at hlow hhigh <;> omega
      have hc : (Char.ofNat v).toNat = v := toNat_ofNat (by unfold Nat.isValidChar; omega)
      have hcases := utf8EncodeChar_cases (Char.ofNat v)
      rw [hc] at hcases
      obtain ⟨hlt, -⟩ | ⟨-, hlt, -⟩ | ⟨-, -, henc⟩ | ⟨hge, -⟩ := hcases
      · omega
      · omega
      · refine ⟨_, hc, ?_⟩
        rw [henc, show 0xE0 + v / 4096 = b.toNat by omega, hb]
        rfl
      · omega
    · simp only [hs, hp, hl, hh, Nat.reduceAdd, h64] at hv hlow hhigh ⊢
      -- the second byte rules out overlong forms and what lies above the last code point
      have hrange : 0x10000 ≤ v ∧ v < 0x110000 := by
        split_ifs at hlow hhigh <;> omega
      have hc : (Char.ofNat v).toNat = v := toNat_ofNat (.inr ⟨by omega, hrange.2⟩)
      have hcases := utf8EncodeChar_cases (Char.ofNat v)
      rw [hc] at hcases
      obtain ⟨hlt, -⟩ | ⟨-, hlt, -⟩ | ⟨-, hlt, -⟩ | ⟨-, -, henc⟩ := hcases
      · omega
      · omega
      · omega
      · refine ⟨_, hc, ?_⟩
        rw [henc, show 0xF0 + v / 262144 = b.toNat by omega, hb]
        rfl
  · have hsur : c.toNat < 0xD800 ∨ 0xDFFF < c.toNat := by
      rcases c.valid with hv | hv
      · exact .inl hv
      · exact .inr hv.1
    obtain ⟨hlt, henc⟩ | ⟨hge, hlt, henc⟩ | ⟨hge, hlt, henc⟩ | ⟨hge, hlt, henc⟩ :=
      utf8EncodeChar_cases c
    · rw [henc] at hc
      have hfirst := singleton_isPrefix_cons hc
      rw [UInt8.toNat_ofNat_of_lt' (by norm_num; omega)] at hfirst
      rcases lead_eq_some h with h' | h' | h' <;> omega
    · rw [henc] at hc ⊢
      have hfirst := singleton_isPrefix_cons hc
      rw [UInt8.toNat_ofNat_of_lt' (by norm_num; omega)] at hfirst
      rcases lead_eq_some h with ⟨h1, h2, hs, hp, hl, hh⟩ | h' | h'
      · simp only [hs, hp, hl, hh, zero_add, h64]
        refine ⟨by omega, by omega, by omega, ?_⟩
        rw [← hfirst, hb]
        rfl
      · omega
      · omega
    · rw [henc] at hc ⊢
      have hfirst := singleton_isPrefix_cons hc
      rw [UInt8.toNat_ofNat_of_lt' (by norm_num; omega)] at hfirst
      rcases lead_eq_some h with h' | ⟨h1, h2, hs, hp, hl, hh⟩ | h'
      · omega
      · simp only [hs, hp, hl, hh, Nat.reduceAdd, h64]
        refine ⟨by omega, by split_ifs <;> omega, by split_ifs <;> omega, ?_⟩
        rw [← hfirst, hb]
        rfl
      · omega
    · rw [henc] at hc ⊢
      have hfirst := singleton_isPrefix_cons hc
      rw [UInt8.toNat_ofNat_of_lt' (by norm_num; omega)] at hfirst
      rcases lead_eq_some h with h' | h' | ⟨h1, h2, hs, hp, hl, hh⟩
      · omega
      · omega
      · simp only [hs, hp, hl, hh, Nat.reduceAdd, h64]
        refine ⟨by omega, by split_ifs <;> omega, by split_ifs <;> omega, ?_⟩
        rw [← hfirst, hb]
        rfl

section Middle

variable {l : List UInt8} {p : Pending} {b : UInt8}

/-- The continuation byte that an encoding has next is in range. -/
lemma Reached.next_of_isPrefix (h : Reached l p) {c : Char} (hc : l ++ [b] <+: utf8EncodeChar c) :
    p.low ≤ b.toNat ∧ b.toNat ≤ p.high ∧
      b = UInt8.ofNat (0x80 + c.toNat / 64 ^ p.spare % 64) := by
  obtain ⟨-, hlow, hhigh, henc⟩ := h.complete c ((List.prefix_append l [b]).trans hc)
  rw [henc, List.prefix_append_right_inj, tail] at hc
  have hle := p.high_le
  have hb := singleton_isPrefix_cons hc
  rw [UInt8.toNat_ofNat_of_lt' (by norm_num; omega)] at hb
  exact ⟨by omega, by omega, UInt8.toNat_inj.mp (by
    rw [UInt8.toNat_ofNat_of_lt' (by norm_num; omega), hb])⟩

/-- **One more continuation byte** of a sequence that goes on. -/
lemma Reached.more (h : Reached l p) (hlow : p.low ≤ b.toNat) (hhigh : b.toNat ≤ p.high)
    {spare : ℕ} (hs : p.spare = spare + 1) :
    ∃ q, p.next b = (some q, []) ∧ q.spare = spare ∧ Reached (l ++ [b]) q := by
  have hge := p.le_low
  have hle := p.high_le
  obtain ⟨_, low, high, point, _, _, _⟩ := p
  subst hs
  refine ⟨_, rfl, rfl, ?_, ?_, ?_, ?_⟩
  · simp
  · intro c hc
    rcases List.prefix_concat_iff.mp hc with heq | hc
    · -- the sequence has bytes to come
      obtain ⟨-, -, -, henc⟩ := h.complete c (heq ▸ List.prefix_append l [b])
      rw [heq, List.append_cancel_left_eq] at henc
      simp [tail] at henc
    · exact h.unfinished c hc
  · intro v hv hl hh
    dsimp only at hv hlow hhigh hge hle
    have hdiv : v / 64 ^ (spare + 1 + 1) = v / 64 ^ (spare + 1) / 64 := by
      rw [pow_succ 64 (spare + 1), Nat.div_div_eq_div_mul]
    have hb : 0x80 + v / 64 ^ (spare + 1) % 64 = b.toNat := by omega
    obtain ⟨c, hc, henc⟩ := h.sound v (by dsimp only; omega) (by dsimp only; omega)
      (by dsimp only; omega)
    refine ⟨c, hc, ?_⟩
    rw [henc, tail, hb, UInt8.ofNat_toNat, List.append_assoc]
    rfl
  · intro c hc
    dsimp only at hlow hhigh hge hle
    obtain ⟨hpoint, -, -, henc⟩ := h.complete c ((List.prefix_append l [b]).trans hc)
    obtain ⟨-, -, hb⟩ := h.next_of_isPrefix hc
    dsimp only at hpoint hb henc
    have hdiv : c.toNat / 64 ^ (spare + 1 + 1) = c.toNat / 64 ^ (spare + 1) / 64 := by
      rw [pow_succ 64 (spare + 1), Nat.div_div_eq_div_mul]
    have hbyte : b.toNat = 0x80 + c.toNat / 64 ^ (spare + 1) % 64 := by
      rw [hb, UInt8.toNat_ofNat_of_lt' (by norm_num; omega)]
    refine ⟨by dsimp only; omega, by dsimp only; omega, by dsimp only; omega, ?_⟩
    rw [henc, tail, ← hb, List.append_assoc]
    rfl

/-- **The last continuation byte** of a sequence completes a character. -/
lemma Reached.last (h : Reached l p) (hlow : p.low ≤ b.toNat) (hhigh : b.toNat ≤ p.high)
    (hs : p.spare = 0) :
    ∃ c, p.next b = (none, [c]) ∧ utf8EncodeChar c = l ++ [b] := by
  have hge := p.le_low
  have hle := p.high_le
  have hpow : 64 ^ p.spare = 1 ∧ 64 ^ (p.spare + 1) = 64 := by
    rw [hs]
    decide
  obtain ⟨c, hc, henc⟩ := h.sound (p.point * 64 + (b.toNat - 0x80)) (by rw [hpow.2]; omega)
    (by rw [hpow.1]; omega) (by rw [hpow.1]; omega)
  refine ⟨c, ?_, ?_⟩
  · rw [Pending.next, hs, ← hc, Char.ofNat_toNat]
  · have hb : 0x80 + (p.point * 64 + (b.toNat - 0x80)) / 64 ^ 0 % 64 = b.toNat := by
      rw [pow_zero, Nat.div_one]
      omega
    rw [henc, hs, tail, hb, UInt8.ofNat_toNat, tail]

/-- A sequence in the middle begins an encoding. -/
lemma Reached.exists_encoding (h : Reached l p) :
    ∃ c : Char, l <+: utf8EncodeChar c ∧ l ≠ utf8EncodeChar c := by
  have hge := p.le_low
  have hll := p.low_le
  have hle := p.high_le
  have hpos : 0 < 64 ^ p.spare := Nat.pow_pos (by decide)
  have hdiv : ((p.point * 64 + (p.low - 0x80)) * 64 ^ p.spare) / 64 ^ p.spare =
      p.point * 64 + (p.low - 0x80) := Nat.mul_div_cancel _ hpos
  obtain ⟨c, -, henc⟩ := h.sound ((p.point * 64 + (p.low - 0x80)) * 64 ^ p.spare)
    (by rw [pow_succ, ← Nat.div_div_eq_div_mul, hdiv]; omega) (by rw [hdiv]; omega)
    (by rw [hdiv]; omega)
  refine ⟨c, henc ▸ List.prefix_append _ _, fun heq => h.unfinished c (heq ▸ List.prefix_rfl)⟩

end Middle

/-! ## What decoding is to compute -/

/-- A piece that begins the encoding of a character and is not all of it. -/
def IsInitial (l : List UInt8) : Prop := ∃ c, l <+: utf8EncodeChar c ∧ l ≠ utf8EncodeChar c

/-- **Decoding with replacement, told by encodings.** An encoding stands for its character. Where no
encoding begins, one replacement character stands for the maximal ill-formed subpart: the longest
piece that begins an encoding, or a single byte. -/
inductive Decodes : List UInt8 → List Char → Prop
  | nil : Decodes [] []
  | char (c : Char) {rest : List UInt8} {text : List Char} (more : Decodes rest text) :
      Decodes (utf8EncodeChar c ++ rest) (c :: text)
  | replaced (bad : List UInt8) {rest : List UInt8} {text : List Char} (ne_nil : bad ≠ [])
      (ill : ∀ c, ¬ utf8EncodeChar c <+: bad ++ rest)
      (piece : bad.length = 1 ∨ IsInitial bad)
      (maximal : ∀ l, l <+: bad ++ rest → IsInitial l → l.length ≤ bad.length)
      (more : Decodes rest text) : Decodes (bad ++ rest) (REPLACEMENT :: text)

/-- An encoding of one byte is ASCII. -/
lemma utf8EncodeChar_ascii (h : b.toNat < 0x80) : utf8EncodeChar (Char.ofNat b.toNat) = [b] := by
  have hc : (Char.ofNat b.toNat).toNat = b.toNat := toNat_ofNat (.inl (by omega))
  have hcases := utf8EncodeChar_cases (Char.ofNat b.toNat)
  rw [hc] at hcases
  obtain ⟨-, henc⟩ | h' | h' | h' := hcases
  · rw [henc, UInt8.ofNat_toNat]
  all_goals omega

/-- An encoding in front begins with the first byte. -/
lemma singleton_isPrefix_of_isPrefix {rest : List UInt8} {l : List UInt8} (hne : l ≠ [])
    (h : l <+: b :: rest) : [b] <+: l := by
  cases l with
  | nil => exact absurd rfl hne
  | cons a l =>
    rw [List.cons_prefix_cons] at h
    rw [h.1, List.cons_prefix_cons]
    exact ⟨rfl, List.nil_prefix⟩

/-- The decoder computes what it is to compute, between two sequences and in the middle of one.

**Proof sketch.** Induction on the bytes. A byte that does not fit a sequence ends it and is read
anew, so that the second part uses the first for the same bytes. -/
lemma decodes_decodeFrom (data : List UInt8) :
    Decodes data (decodeFrom none data) ∧
      ∀ l p, Reached l p → Decodes (l ++ data) (decodeFrom (some p) data) := by
  induction data with
  | nil =>
    refine ⟨.nil, fun l p h => ?_⟩
    refine .replaced l h.ne_nil ?_ (.inr h.exists_encoding) ?_ .nil
    · rw [List.append_nil]
      exact h.unfinished
    · intro m hm _
      rw [List.append_nil] at hm
      exact hm.length_le
  | cons b rest ih =>
    have hfirst : Decodes (b :: rest) (decodeFrom none (b :: rest)) := by
      rw [decodeFrom, step, start]
      by_cases hascii : b.toNat < 0x80
      · rw [if_pos hascii]
        have hdec := Decodes.char (Char.ofNat b.toNat) ih.1
        rwa [utf8EncodeChar_ascii hascii] at hdec
      · rw [if_neg hascii]
        cases hlead : lead b.toNat with
        | some p => exact ih.2 [b] p (reached_lead hlead)
        | none =>
          -- no encoding begins with this byte
          have hno : ∀ c, ¬ [b] <+: utf8EncodeChar c := by
            intro c hc
            rcases lead_of_isPrefix hc with ⟨hlt, -⟩ | ⟨hsome, -⟩
            · exact hascii hlt
            · rw [hlead] at hsome
              cases hsome
          refine .replaced [b] (by simp) ?_ (.inl rfl) ?_ ih.1
          · intro c hc
            exact hno c (singleton_isPrefix_of_isPrefix (utf8EncodeChar_ne_nil c) hc)
          · rintro m hm ⟨c, hc, -⟩
            by_contra hlong
            have hne : m ≠ [] := by
              rintro rfl
              simp at hlong
            exact hno c ((singleton_isPrefix_of_isPrefix hne hm).trans hc)
    refine ⟨hfirst, fun l p h => ?_⟩
    rw [decodeFrom, step]
    by_cases hin : p.low ≤ b.toNat ∧ b.toNat ≤ p.high
    · rw [if_pos hin]
      cases hs : p.spare with
      | zero =>
        obtain ⟨c, hnext, henc⟩ := h.last hin.1 hin.2 hs
        rw [hnext]
        have hdec := Decodes.char c ih.1
        rwa [henc, List.append_assoc, List.singleton_append] at hdec
      | succ spare =>
        obtain ⟨q, hnext, -, hq⟩ := h.more hin.1 hin.2 hs
        rw [hnext]
        have hdec := ih.2 (l ++ [b]) q hq
        rwa [List.append_assoc, List.singleton_append] at hdec
    · rw [if_neg hin]
      -- neither an encoding nor the beginning of one goes on with this byte
      have hno : ∀ c, ¬ l ++ [b] <+: utf8EncodeChar c := by
        intro c hc
        obtain ⟨hlow, hhigh, -⟩ := h.next_of_isPrefix hc
        exact hin ⟨hlow, hhigh⟩
      have hlong : ∀ m, m <+: l ++ b :: rest → l.length < m.length → l ++ [b] <+: m := by
        intro m hm hlt
        have hb : l ++ [b] <+: l ++ b :: rest := by
          rw [List.prefix_append_right_inj, List.cons_prefix_cons]
          exact ⟨rfl, List.nil_prefix⟩
        exact List.prefix_of_prefix_length_le hb hm (by
          rw [List.length_append, List.length_singleton]
          omega)
      refine .replaced l h.ne_nil ?_ (.inr h.exists_encoding) ?_ hfirst
      · intro c hc
        by_cases hlt : l.length < (utf8EncodeChar c).length
        · exact hno c (hlong _ hc hlt)
        · exact h.unfinished c
            (List.prefix_of_prefix_length_le hc (List.prefix_append l _) (by omega))
      · rintro m hm ⟨c, hc, -⟩
        by_contra hlt
        exact hno c ((hlong m hm (by omega)).trans hc)

/-- A well-formed sequence is its character, whatever follows it. -/
lemma decodeFrom_utf8EncodeChar (c : Char) (rest : List UInt8) :
    decodeFrom none (utf8EncodeChar c ++ rest) = c :: decodeFrom none rest := by
  -- from the middle of the sequence, by induction on what is left of it
  have hmiddle : ∀ (m l : List UInt8) (p : Pending), Reached l p → utf8EncodeChar c = l ++ m →
      decodeFrom (some p) (m ++ rest) = c :: decodeFrom none rest := by
    intro m
    induction m with
    | nil =>
      intro l p h henc
      rw [List.append_nil] at henc
      exact absurd (henc ▸ List.prefix_rfl) (h.unfinished c)
    | cons b m ih =>
      intro l p h henc
      have hc : l ++ [b] <+: utf8EncodeChar c := ⟨m, by rw [henc, List.append_assoc]; rfl⟩
      obtain ⟨hlow, hhigh, hb⟩ := h.next_of_isPrefix hc
      rw [List.cons_append, decodeFrom, step, if_pos ⟨hlow, hhigh⟩]
      cases hs : p.spare with
      | zero =>
        obtain ⟨hpoint, -, -, htail⟩ := h.complete c ((List.prefix_append l [b]).trans hc)
        rw [hs] at hpoint hb htail
        rw [pow_zero, Nat.div_one] at hb
        have hbyte : b.toNat = 0x80 + c.toNat % 64 := by
          rw [hb, UInt8.toNat_ofNat_of_lt' (by norm_num; omega)]
        have hcode : p.point * 64 + (b.toNat - 0x80) = c.toNat := by
          rw [zero_add, pow_one] at hpoint
          omega
        have hm : m = [] := by
          rw [henc, List.append_cancel_left_eq, tail, tail, List.cons.injEq] at htail
          exact htail.2
        rw [Pending.next, hs, hm, hcode, Char.ofNat_toNat]
        rfl
      | succ spare =>
        obtain ⟨q, hnext, -, hq⟩ := h.more hlow hhigh hs
        rw [hnext]
        exact ih (l ++ [b]) q hq (by rw [henc, List.append_assoc]; rfl)
  cases hb : utf8EncodeChar c with
  | nil => exact absurd hb (utf8EncodeChar_ne_nil c)
  | cons b m =>
    rw [List.cons_append, decodeFrom, step, start]
    rcases lead_of_isPrefix (b := b) (c := c) ⟨m, by rw [hb]; rfl⟩ with ⟨hlt, henc, hc⟩ |
      ⟨hsome, hlong⟩
    · rw [if_pos hlt, hc]
      rw [hb, List.cons.injEq] at henc
      rw [henc.2]
      rfl
    · obtain ⟨p, hp⟩ := Option.isSome_iff_exists.mp hsome
      have hge := le_of_lead hp
      rw [if_neg (by omega), hp]
      exact hmiddle m [b] p (reached_lead hp) hb

/-- No encoding begins another. -/
lemma eq_of_isPrefix {c d : Char} (h : utf8EncodeChar c <+: utf8EncodeChar d) : c = d := by
  obtain ⟨m, hm⟩ := h
  have hd := decodeFrom_utf8EncodeChar d []
  rw [List.append_nil, ← hm, decodeFrom_utf8EncodeChar, List.cons.injEq] at hd
  exact hd.1

/-- What decoding is to compute is determined. -/
lemma Decodes.unique {text text' : List Char} (h : Decodes data text) (h' : Decodes data text') :
    text = text' := by
  induction h generalizing text' with
  | nil =>
    generalize hdata : ([] : List UInt8) = data at h'
    cases h' with
    | nil => rfl
    | char c more => exact absurd hdata.symm (by simp)
    | replaced bad ne_nil ill piece maximal more => exact absurd hdata.symm (by simp [ne_nil])
  | @char c rest text more ih =>
    generalize hdata : utf8EncodeChar c ++ rest = data at h'
    cases h' with
    | nil => exact absurd hdata (by simp)
    | @char d rest' text' more' =>
      have hcd : c = d := by
        rcases List.prefix_or_prefix_of_prefix (List.prefix_append (utf8EncodeChar c) rest)
          (hdata ▸ List.prefix_append (utf8EncodeChar d) rest') with hpre | hpre
        · exact eq_of_isPrefix hpre
        · exact (eq_of_isPrefix hpre).symm
      subst hcd
      rw [List.append_cancel_left_eq] at hdata
      subst hdata
      rw [ih more']
    | replaced bad ne_nil ill piece maximal more' =>
      exact absurd (hdata ▸ List.prefix_append (utf8EncodeChar c) rest) (ill c)
  | @replaced bad rest text ne_nil ill piece maximal more ih =>
    generalize hdata : bad ++ rest = data at h'
    cases h' with
    | nil => exact absurd hdata (by simp [ne_nil])
    | @char d rest' text' more' =>
      exact absurd (hdata ▸ List.prefix_append (utf8EncodeChar d) rest') (ill d)
    | @replaced bad' rest' text' ne_nil' ill' piece' maximal' more' =>
      have hle : bad.length ≤ bad'.length := by
        rcases piece with hone | hinit
        · have := List.length_pos_of_ne_nil ne_nil'
          omega
        · exact maximal' bad (hdata ▸ List.prefix_append bad rest) hinit
      have hge : bad'.length ≤ bad.length := by
        rcases piece' with hone | hinit
        · have := List.length_pos_of_ne_nil ne_nil
          omega
        · exact maximal bad' (hdata ▸ List.prefix_append bad' rest') hinit
      obtain ⟨rfl, rfl⟩ := List.append_inj hdata (by omega)
      rw [ih more']

/-- **The decoder computes what it is to compute**, and nothing else fits. -/
theorem decodes_iff {text : List Char} : Decodes data text ↔ decodeReplace data = text := by
  constructor
  · intro h
    exact (decodes_decodeFrom data).1.unique h
  · rintro rfl
    exact (decodes_decodeFrom data).1

/-- Text that is encoded decodes to itself: nothing is replaced. -/
lemma decodeReplace_flatMap (text : List Char) :
    decodeReplace (text.flatMap utf8EncodeChar) = text := by
  induction text with
  | nil => rfl
  | cons c text ih =>
    rw [List.flatMap_cons, decodeReplace, decodeFrom_utf8EncodeChar]
    exact congrArg _ ih

end Utf8
