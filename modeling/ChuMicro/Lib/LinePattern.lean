import Mathlib.Data.List.Forall2
import Mathlib.Data.List.TakeWhile

/-!
# Patterns without choice

A regular expression that is a row of literals and repeated classes, `ab\s+(\d+)`, where no
repetition can end in two places: what follows it starts with a symbol outside of its class. Such a
pattern needs no backtracking, and at the front of a text it matches in one way at most.

## Main definitions

* `LinePattern.Atom` — a literal, or a class that is repeated or optional.
* `LinePattern.Accepts` — the language of a pattern, piece by piece.
* `LinePattern.scan` — a match at the front of a text, from left to right without going back.
* `LinePattern.Deterministic` — no repetition can end in two places.

## Main results

* `LinePattern.scan_flatten` — a deterministic pattern is matched where a text begins with a word of
  its language, and the pieces are those of the word.
* `LinePattern.takeWhile_append_of_forall` — the first run of a text that begins with a whole one.
-/

namespace LinePattern

universe u

/-- One part of a pattern. -/
inductive Atom (α : Type u) where
  /-- these symbols -/
  | lit (word : List α)
  /-- `p+` -/
  | many1 (p : α → Bool)
  /-- `p*` -/
  | many (p : α → Bool)
  /-- `p?` -/
  | opt (p : α → Bool)

variable {α : Type u}

/-! ## The language of a pattern -/

/-- The words of one part. -/
def Atom.Accepts : Atom α → List α → Prop
  | .lit word, piece => piece = word
  | .many1 p, piece => piece ≠ [] ∧ ∀ c ∈ piece, p c = true
  | .many p, piece => ∀ c ∈ piece, p c = true
  | .opt p, piece => piece.length ≤ 1 ∧ ∀ c ∈ piece, p c = true

/-- **The language of a pattern**, a piece for every part. -/
def Accepts (pattern : List (Atom α)) (pieces : List (List α)) : Prop :=
  List.Forall₂ Atom.Accepts pattern pieces

/-- No word of the pattern is empty, as far as the first part that says so. -/
def Solid : List (Atom α) → Prop
  | [] => False
  | .lit word :: pattern => word ≠ [] ∨ Solid pattern
  | .many1 _ :: _ => True
  | .many _ :: pattern => Solid pattern
  | .opt _ :: pattern => Solid pattern

/-- The word may begin with the symbol. -/
def Begins : List (Atom α) → α → Prop
  | [], _ => False
  | .lit word :: pattern, c => word.head? = some c ∨ word = [] ∧ Begins pattern c
  | .many1 p :: _, c => p c = true
  | .many p :: pattern, c => p c = true ∨ Begins pattern c
  | .opt p :: pattern, c => p c = true ∨ Begins pattern c

/-- **No repetition can end in two places.** -/
def Deterministic : List (Atom α) → Prop
  | [] => True
  | .lit _ :: pattern => Deterministic pattern
  | .many1 p :: pattern =>
    (∀ c, Begins pattern c → p c = false) ∧ Solid pattern ∧ Deterministic pattern
  | .many p :: pattern =>
    (∀ c, Begins pattern c → p c = false) ∧ Solid pattern ∧ Deterministic pattern
  | .opt p :: pattern =>
    (∀ c, Begins pattern c → p c = false) ∧ Solid pattern ∧ Deterministic pattern

variable {pattern : List (Atom α)} {pieces : List (List α)}

/-- What the first symbol of a word can be. -/
lemma begins_of_accepts (h : Accepts pattern pieces) {c : α} (hc : pieces.flatten.head? = some c) :
    Begins pattern c := by
  induction h with
  | nil => simp at hc
  | @cons atom piece pattern pieces hatom _ ih =>
    rw [List.flatten_cons, List.head?_append] at hc
    cases piece with
    | nil =>
      have hrest := ih (by simpa using hc)
      cases atom with
      | lit word => exact Or.inr ⟨hatom.symm, hrest⟩
      | many1 p => exact absurd rfl hatom.1
      | many p => exact Or.inr hrest
      | opt p => exact Or.inr hrest
    | cons d piece =>
      obtain rfl : d = c := by simpa using hc
      cases atom with
      | lit word => exact Or.inl (by rw [← (show d :: piece = word from hatom)]; rfl)
      | many1 p => exact hatom.2 d List.mem_cons_self
      | many p => exact Or.inl (hatom d List.mem_cons_self)
      | opt p => exact Or.inl (hatom.2 d List.mem_cons_self)

/-- A word of a solid pattern is not empty. -/
lemma flatten_ne_nil (h : Accepts pattern pieces) (hsolid : Solid pattern) :
    pieces.flatten ≠ [] := by
  induction h with
  | nil => exact hsolid.elim
  | @cons atom piece pattern pieces hatom _ ih =>
    rw [List.flatten_cons]
    intro hnil
    obtain ⟨hpiece, hrest⟩ := List.append_eq_nil_iff.mp hnil
    cases atom with
    | lit word =>
      rcases hsolid with hword | hsolid
      · exact hword ((show piece = word from hatom) ▸ hpiece)
      · exact ih hsolid hrest
    | many1 p => exact hatom.1 hpiece
    | many p => exact ih hsolid hrest
    | opt p => exact ih hsolid hrest

/-- A word of one pattern behind one of another. -/
lemma Accepts.append {first second : List (Atom α)} {pieces₁ pieces₂ : List (List α)}
    (h : Accepts first pieces₁) (h' : Accepts second pieces₂) :
    Accepts (first ++ second) (pieces₁ ++ pieces₂) := List.rel_append h h'

/-! ## Matching from left to right -/

/-- One part at the front of a text, as much as there is: the piece and the rest. -/
def Atom.scan [DecidableEq α] : Atom α → List α → Option (List α × List α)
  | .lit word, text => if word <+: text then some (word, text.drop word.length) else none
  | .many1 p, text =>
    if text.takeWhile p = [] then none else some (text.takeWhile p, text.dropWhile p)
  | .many p, text => some (text.takeWhile p, text.dropWhile p)
  | .opt p, text =>
    match text with
    | [] => some ([], [])
    | c :: rest => if p c then some ([c], rest) else some ([], c :: rest)

/-- **A match at the front of a text**: the pieces and the rest. -/
def scan [DecidableEq α] : List (Atom α) → List α → Option (List (List α) × List α)
  | [], text => some ([], text)
  | atom :: pattern, text => do
    let (piece, rest) ← atom.scan text
    let (pieces, rest) ← scan pattern rest
    pure (piece :: pieces, rest)

section Runs

variable {p : α → Bool} {run more : List α}

/-- The first run of a text that begins with a whole one. -/
theorem takeWhile_append_of_forall (h : ∀ c ∈ run, p c = true)
    (hmore : ∀ c, more.head? = some c → p c = false) :
    (run ++ more).takeWhile p = run ∧ (run ++ more).dropWhile p = more := by
  have hhead : more.takeWhile p = [] ∧ more.dropWhile p = more := by
    cases more with
    | nil => exact ⟨rfl, rfl⟩
    | cons c more => simp [hmore c rfl]
  rw [List.takeWhile_append_of_pos h, List.dropWhile_append_of_pos h, hhead.1, hhead.2]
  simp

end Runs

variable [DecidableEq α]

/-- One pattern behind another. -/
lemma scan_append_pattern (first second : List (Atom α)) (text : List α) :
    scan (first ++ second) text =
      (scan first text).bind fun found =>
        (scan second found.2).map fun found' => (found.1 ++ found'.1, found'.2) := by
  induction first generalizing text with
  | nil => cases h : scan second text <;> simp [scan, h]
  | cons atom first ih =>
    rw [List.cons_append, scan, scan]
    cases atom.scan text with
    | none => rfl
    | some found =>
      simp only [Option.bind_eq_bind, Option.bind_some, ih]
      cases scan first found.2 with
      | none => rfl
      | some found' => cases h : scan second found'.2 <;> simp [h]

/-- A run that something else follows. -/
lemma Atom.scan_many1 {p : α → Bool} {run more : List α} (h : (Atom.many1 p).Accepts run)
    (hmore : ∀ c, more.head? = some c → p c = false) :
    (Atom.many1 p).scan (run ++ more) = some (run, more) := by
  obtain ⟨htake, hdrop⟩ := takeWhile_append_of_forall h.2 hmore
  rw [Atom.scan, htake, hdrop, if_neg h.1]

/-- **A deterministic pattern matches every word of its language**, whatever stands behind it.

**Proof sketch.** Induction on the pattern. What follows a repetition is a word that is not empty
and begins outside of its class, so the run that is taken is exactly the piece. -/
theorem scan_flatten (h : Accepts pattern pieces) (hdet : Deterministic pattern) (rest : List α) :
    scan pattern (pieces.flatten ++ rest) = some (pieces, rest) := by
  induction h with
  | nil => rfl
  | @cons atom piece pattern pieces hatom hpieces ih =>
    -- what follows begins outside of a class that no word begins with
    have hnext : ∀ p : α → Bool, (∀ c, Begins pattern c → p c = false) → Solid pattern →
        ∀ c, (pieces.flatten ++ rest).head? = some c → p c = false := by
      intro p hp hsolid c hc
      obtain ⟨d, word, hword⟩ := List.exists_cons_of_ne_nil (flatten_ne_nil hpieces hsolid)
      obtain rfl : d = c := by simpa [hword] using hc
      exact hp d (begins_of_accepts hpieces (by rw [hword]; rfl))
    have hscan : atom.scan (piece ++ (pieces.flatten ++ rest)) =
        some (piece, pieces.flatten ++ rest) ∧ Deterministic pattern := by
      cases atom with
      | lit word =>
        obtain rfl : piece = word := hatom
        exact ⟨by rw [Atom.scan, if_pos (List.prefix_append _ _), List.drop_left], hdet⟩
      | many1 p =>
        obtain ⟨hp, hsolid, hdet⟩ := hdet
        exact ⟨Atom.scan_many1 hatom (hnext p hp hsolid), hdet⟩
      | many p =>
        obtain ⟨hp, hsolid, hdet⟩ := hdet
        obtain ⟨htake, hdrop⟩ := takeWhile_append_of_forall hatom (hnext p hp hsolid)
        exact ⟨by rw [Atom.scan, htake, hdrop], hdet⟩
      | opt p =>
        obtain ⟨hp, hsolid, hdet⟩ := hdet
        refine ⟨?_, hdet⟩
        match piece, hatom.1 with
        | [], _ =>
          cases htext : pieces.flatten ++ rest with
          | nil => rfl
          | cons c text =>
            have hc := hnext p hp hsolid c (by rw [htext]; rfl)
            simp [Atom.scan, hc]
        | [c], _ => simp [Atom.scan, hatom.2 c List.mem_cons_self]
    rw [List.flatten_cons, List.append_assoc, scan, hscan.1]
    simp [ih hscan.2]

end LinePattern
