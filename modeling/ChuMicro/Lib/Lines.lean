import ChuMicro.Lib.LiveBuffer
import Mathlib.Data.List.Chain

/-!
# Lines that end in two symbols

A stream of lines, each ended by two different symbols `a` and `b`. A line may contain either of
them, but not one after the other: it is *unbroken*. The *open line* of a stream is what stands
behind its last line end.

## Main definitions

* `Buffers.Unbroken` — there is no line end in the data.
* `Buffers.openLine` — the line that has not ended yet.

## Main results

* `Buffers.findSlice_eq_none_iff_unbroken` — a line end is found unless the data are unbroken.
* `Buffers.findSlice_unbroken_append` — an unbroken line ends at the first line end behind it.
* `Buffers.openLine_line_append` — a line that has ended is no part of the open line.
-/

namespace Buffers

universe u

variable {α : Type u} {a b : α} {data line more : List α}

/-! ## Unbroken data -/

/-- No symbol `a` stands right before a symbol `b`. -/
def Unbroken (a b : α) (data : List α) : Prop := data.IsChain fun x y => ¬ (x = a ∧ y = b)

instance [DecidableEq α] (a b : α) (data : List α) : Decidable (Unbroken a b data) :=
  inferInstanceAs (Decidable (data.IsChain _))

lemma unbroken_nil : Unbroken a b [] := List.isChain_nil

/-- Data without the first symbol are unbroken. -/
lemma unbroken_of_notMem (h : a ∉ data) : Unbroken a b data := by
  induction data with
  | nil => exact unbroken_nil
  | cons x data ih =>
    refine List.isChain_cons.mpr ⟨?_, ih fun hmem => h (List.mem_cons_of_mem x hmem)⟩
    rintro y - ⟨rfl, -⟩
    exact h List.mem_cons_self

/-- Unbroken data around a symbol that is neither of the two. -/
lemma Unbroken.append_cons {x : α} (h : Unbroken a b data) (h' : Unbroken a b more)
    (ha : x ≠ a) (hb : x ≠ b) : Unbroken a b (data ++ x :: more) := by
  refine List.isChain_append.mpr ⟨h, List.isChain_cons.mpr ⟨?_, h'⟩, ?_⟩
  · rintro y - ⟨hx, -⟩
    exact ha hx
  · rintro y - z hz ⟨-, rfl⟩
    exact hb (by simpa using hz)

/-- Data stay unbroken if the first symbol follows. -/
lemma Unbroken.concat (h : Unbroken a b data) (hab : a ≠ b) : Unbroken a b (data ++ [a]) := by
  refine List.isChain_append.mpr ⟨h, List.isChain_singleton a, ?_⟩
  rintro y - z hz ⟨-, rfl⟩
  exact hab (by simpa using hz)

lemma Unbroken.left (h : Unbroken a b (data ++ more)) : Unbroken a b data :=
  List.IsChain.left_of_append h

lemma Unbroken.infix (h : Unbroken a b data) (hmore : more <:+: data) : Unbroken a b more :=
  List.IsChain.infix h hmore

section Find

variable [DecidableEq α]

/-- **A line end is found unless the data are unbroken.** -/
theorem findSlice_eq_none_iff_unbroken : findSlice [a, b] data = none ↔ Unbroken a b data := by
  induction data with
  | nil => simp [findSlice, unbroken_nil]
  | cons x data ih =>
    have hpre : [a, b] <+: x :: data ↔ a = x ∧ data.head? = some b := by
      cases data <;> simp [List.cons_prefix_cons, eq_comm]
    rw [findSlice, Unbroken, List.isChain_cons]
    by_cases h : a = x ∧ data.head? = some b
    · rw [if_pos (hpre.mpr h)]
      refine iff_of_false (by simp) fun hall => ?_
      exact hall.1 b (by simp [h.2]) ⟨h.1.symm, rfl⟩
    · rw [if_neg fun hcon => h (hpre.mp hcon), Option.map_eq_none_iff, ih]
      refine ⟨fun hrest => ⟨?_, hrest⟩, And.right⟩
      rintro y hy ⟨rfl, rfl⟩
      exact h ⟨rfl, by simpa using hy⟩

/-- **An unbroken line ends at the first line end behind it.** -/
theorem findSlice_unbroken_append (hab : a ≠ b) (h : Unbroken a b line) (rest : List α) :
    findSlice [a, b] (line ++ [a, b] ++ rest) = some line.length := by
  apply findSlice_append
  rcases hfind : findSlice [a, b] (line ++ [a, b]) with _ | i
  · exfalso
    have hbroken := findSlice_eq_none_iff_unbroken.mp hfind
    rw [Unbroken, List.isChain_append] at hbroken
    exact (List.isChain_cons_cons.mp hbroken.2.1).1 ⟨rfl, rfl⟩
  · have hle := findSlice_le hfind
    rw [List.append_cons] at hfind
    have hlt := lt_of_findSlice_append (findSlice_eq_none_iff_unbroken.mpr (h.concat hab)) hfind
    simp only [List.length_append, List.length_cons, List.length_nil] at hle hlt ⊢
    congr 1
    omega

/-! ## The open line -/

/-- The open line, one symbol later. -/
def continueLine (a b : α) (line : List α) (x : α) : List α :=
  if [a, b] <:+ line ++ [x] then [] else line ++ [x]

/-- What stands behind the last line end. -/
def openLine (a b : α) (data : List α) : List α := data.foldl (continueLine a b) []

/-- The open line of unbroken data is all of them. -/
lemma openLine_of_unbroken (h : Unbroken a b data) : openLine a b data = data := by
  induction data using List.reverseRecOn with
  | nil => rfl
  | append_singleton data x ih =>
    have hnot : ¬ [a, b] <:+ data ++ [x] := by
      intro hsuffix
      have hpair := h.infix hsuffix.isInfix
      exact (List.isChain_cons_cons.mp hpair).1 ⟨rfl, rfl⟩
    have hdata := ih h.left
    rw [openLine] at hdata ⊢
    rw [List.foldl_append, hdata, List.foldl_cons, List.foldl_nil, continueLine, if_neg hnot]

/-- **A line that has ended is no part of the open line.** -/
theorem openLine_line_append (hab : a ≠ b) (h : Unbroken a b line) (rest : List α) :
    openLine a b (line ++ [a, b] ++ rest) = openLine a b rest := by
  have hline : openLine a b (line ++ [a, b]) = [] := by
    have hopen := openLine_of_unbroken (h.concat hab)
    rw [openLine] at hopen ⊢
    rw [List.append_cons, List.foldl_append, hopen, List.foldl_cons, List.foldl_nil, continueLine,
      if_pos ⟨line, by simp⟩]
  rw [openLine] at hline ⊢
  rw [List.foldl_append, hline, openLine]

/-- The open line is unbroken. -/
lemma unbroken_openLine (data : List α) : Unbroken a b (openLine a b data) := by
  induction data using List.reverseRecOn with
  | nil => exact unbroken_nil
  | append_singleton data x ih =>
    rw [openLine] at ih ⊢
    rw [List.foldl_append, List.foldl_cons, List.foldl_nil, continueLine]
    split_ifs with h
    · exact unbroken_nil
    · refine List.isChain_append.mpr ⟨ih, List.isChain_singleton x, ?_⟩
      rintro y hy z hz ⟨rfl, rfl⟩
      obtain ⟨init, hinit⟩ := List.getLast?_eq_some_iff.mp hy
      obtain rfl : x = z := by simpa using hz
      exact h ⟨init, by rw [hinit, List.append_assoc, List.cons_append, List.nil_append]⟩

/-- The next data are read on behind the open line. -/
lemma openLine_append (data more : List α) :
    openLine a b (data ++ more) = openLine a b (openLine a b data ++ more) := by
  have hopen := openLine_of_unbroken (unbroken_openLine (a := a) (b := b) data)
  rw [openLine, List.foldl_append, ← openLine]
  nth_rewrite 1 [← hopen]
  rw [openLine, ← List.foldl_append, ← openLine]

end Find

end Buffers
