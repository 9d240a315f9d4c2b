import Mathlib.Data.List.Basic
import Mathlib.Tactic.Ring

/-!
# Searching a buffer that is consumed from the front

`findSlice target data` is the position of the first occurrence of `target` in `data`. A
`LiveBuffer` is a buffer with a read offset: what stands in front of the offset has been consumed
and is thrown away once it is at least half of the buffer. The bytes that count are the *live* ones,
behind the offset; every operation is told in terms of them.

## Main definitions

* `Buffers.findSlice` — the first occurrence of a sequence.
* `Buffers.LiveBuffer` — a buffer with a read offset.

## Main results

* `Buffers.findSlice_append` — an occurrence stays where it is when more symbols arrive.
* `Buffers.findSlice_pair_line` — a line that does not contain the first terminator symbol ends at
  the first terminator.
* `Buffers.LiveBuffer.live_consume` — consuming drops live symbols, compaction or not.
-/

namespace Buffers

universe u

variable {α : Type u} [DecidableEq α]

/-! ## Searching -/

/-- The position of the first occurrence of `target` in `data`. -/
def findSlice (target : List α) : List α → Option ℕ
  | [] => if target = [] then some 0 else none
  | x :: data =>
    if target <+: x :: data then some 0 else (findSlice target data).map (· + 1)

variable {target data more : List α} {i : ℕ}

/-- An occurrence lies inside the data. -/
lemma findSlice_le (h : findSlice target data = some i) : i + target.length ≤ data.length := by
  induction data generalizing i with
  | nil =>
    rw [findSlice] at h
    split_ifs at h with hnil
    cases h
    simp [hnil]
  | cons x data ih =>
    rw [findSlice] at h
    split_ifs at h with hpre
    · cases h
      simpa using hpre.length_le
    · obtain ⟨j, hj, rfl⟩ := Option.map_eq_some_iff.mp h
      have := ih hj
      simp only [List.length_cons]
      omega

/-- The target stands where it was found. -/
lemma prefix_drop_of_findSlice (h : findSlice target data = some i) :
    target <+: data.drop i := by
  induction data generalizing i with
  | nil =>
    rw [findSlice] at h
    split_ifs at h with hnil
    simp [hnil]
  | cons x data ih =>
    rw [findSlice] at h
    split_ifs at h with hpre
    · cases h
      exact hpre
    · obtain ⟨j, hj, rfl⟩ := Option.map_eq_some_iff.mp h
      exact ih hj

/-- The data around the place where the target was found. -/
lemma eq_of_findSlice (h : findSlice target data = some i) :
    data = data.take i ++ (target ++ data.drop (i + target.length)) := by
  obtain ⟨t, ht⟩ := prefix_drop_of_findSlice h
  have hdrop : data.drop (i + target.length) = t := by
    rw [← List.drop_drop, ← ht, List.drop_left]
  rw [hdrop, ht, List.take_append_drop]

/-- **An occurrence stays the first one** when more symbols arrive. -/
theorem findSlice_append (h : findSlice target data = some i) (more : List α) :
    findSlice target (data ++ more) = some i := by
  induction data generalizing i with
  | nil =>
    rw [findSlice] at h
    split_ifs at h with hnil
    cases h
    subst hnil
    cases more <;> simp [findSlice]
  | cons x data ih =>
    rw [findSlice] at h
    rw [List.cons_append, findSlice]
    split_ifs at h with hpre
    · cases h
      have hlong : target <+: x :: (data ++ more) := hpre.trans (List.prefix_append _ _)
      rw [if_pos hlong]
    · obtain ⟨j, hj, rfl⟩ := Option.map_eq_some_iff.mp h
      have hnot : ¬ target <+: x :: (data ++ more) := by
        intro hcon
        have hle := findSlice_le hj
        apply hpre
        rw [← List.cons_append] at hcon
        exact List.prefix_of_prefix_length_le hcon (List.prefix_append _ _)
          (by simp only [List.length_cons]; omega)
      rw [if_neg hnot, ih hj]
      rfl

/-- Where there was none, a new occurrence ends in the new symbols. -/
lemma lt_of_findSlice_append (hnone : findSlice target data = none)
    (h : findSlice target (data ++ more) = some i) : data.length < i + target.length := by
  induction data generalizing i with
  | nil =>
    have htarget : target ≠ [] := by
      rintro rfl
      simp [findSlice] at hnone
    have := List.length_pos_of_ne_nil htarget
    simp only [List.length_nil]
    omega
  | cons x data ih =>
    rw [findSlice] at hnone
    split_ifs at hnone with hpre
    rw [List.cons_append, findSlice] at h
    split_ifs at h with hpre'
    · cases h
      by_contra hlen
      apply hpre
      rw [← List.cons_append] at hpre'
      exact List.prefix_of_prefix_length_le hpre' (List.prefix_append _ _) (by omega)
    · obtain ⟨j, hj, rfl⟩ := Option.map_eq_some_iff.mp h
      have := ih (by simpa using hnone) hj
      simp only [List.length_cons]
      omega

/-- An occurrence is found in every beginning of the data that contains it. -/
lemma findSlice_take {n : ℕ} (h : findSlice target data = some i) (hn : i + target.length ≤ n) :
    findSlice target (data.take n) = some i := by
  have hsplit : data.take n ++ data.drop n = data := List.take_append_drop n data
  have hle := findSlice_le h
  rcases hfind : findSlice target (data.take n) with _ | j
  · rw [← hsplit] at h
    have hlt := lt_of_findSlice_append hfind h
    rw [List.length_take] at hlt
    omega
  · have hj := findSlice_append hfind (data.drop n)
    rw [hsplit, h] at hj
    exact hj.symm

/-- The first occurrence is not found in a beginning of the data that ends before it. -/
lemma findSlice_take_eq_none {n : ℕ} (h : findSlice target data = some i)
    (hn : n < i + target.length) : findSlice target (data.take n) = none := by
  rcases hfind : findSlice target (data.take n) with _ | j
  · rfl
  · have hj := findSlice_append hfind (data.drop n)
    rw [List.take_append_drop, h] at hj
    cases hj
    have hle := findSlice_le hfind
    rw [List.length_take] at hle
    omega

/-- A line without the first symbol of the two-symbol terminator ends at the first terminator. -/
theorem findSlice_pair_line {a b : α} {line : List α} (h : a ∉ line) (rest : List α) :
    findSlice [a, b] (line ++ (a :: b :: rest)) = some line.length := by
  induction line with
  | nil => simp [findSlice]
  | cons x line ih =>
    have hx : a ≠ x := fun hax => h (by simp [hax])
    have hnot : ¬ [a, b] <+: x :: (line ++ (a :: b :: rest)) := by
      simp [List.cons_prefix_cons, hx]
    rw [List.cons_append, findSlice, if_neg hnot, ih fun hmem => h (List.mem_cons_of_mem x hmem)]
    rfl

/-- A symbol is found behind data without it. -/
lemma findSlice_singleton_append {a : α} (h : a ∉ data) (rest : List α) :
    findSlice [a] (data ++ a :: rest) = some data.length := by
  induction data with
  | nil => simp [findSlice]
  | cons x data ih =>
    have hx : a ≠ x := fun hax => h (by simp [hax])
    have hnot : ¬ [a] <+: x :: (data ++ a :: rest) := by simp [List.cons_prefix_cons, hx]
    rw [List.cons_append, findSlice, if_neg hnot, ih fun hmem => h (List.mem_cons_of_mem x hmem)]
    rfl

/-! ## Buffers -/

/-- The offset of an empty buffer is inside it. -/
lemma zero_le_length_nil (α : Type u) : 0 ≤ ([] : List α).length := Nat.zero_le _

/-- A buffer with a read offset inside it. -/
structure LiveBuffer (α : Type u) where
  buffer : List α := []
  readOffset : ℕ := 0
  inside : readOffset ≤ buffer.length := by exact zero_le_length_nil _
  deriving DecidableEq

namespace LiveBuffer

/-- The first occurrence of `target` in the buffer from position `start` on. -/
def find (b : LiveBuffer α) (target : List α) (start : ℕ) : Option ℕ :=
  (findSlice target (b.buffer.drop start)).map (start + ·)

/-- The first occurrence of `target` behind the offset, counted from it. -/
def liveFind (b : LiveBuffer α) (target : List α) : Option ℕ :=
  (b.find target b.readOffset).map (· - b.readOffset)

section

variable {α : Type u} (b : LiveBuffer α) (n : ℕ)

/-- The symbols behind the offset. -/
def live : List α := b.buffer.drop b.readOffset

/-- The number of live symbols. -/
def liveLen : ℕ := b.buffer.length - b.readOffset

/-- `n` live symbols from position `start` on. -/
def liveSlice (start n : ℕ) : List α := (b.buffer.drop (b.readOffset + start)).take n

/-- Move the offset, and throw the consumed symbols away once they are half of the buffer. An offset
behind the end of the buffer is always such a case. -/
def consume : LiveBuffer α :=
  if h : b.readOffset + n > 0 ∧ (b.readOffset + n) * 2 ≥ b.buffer.length then
    ⟨b.buffer.drop (b.readOffset + n), 0, Nat.zero_le _⟩
  else ⟨b.buffer, b.readOffset + n, by have := b.inside; omega⟩

/-- Append symbols. -/
def extend (data : List α) : LiveBuffer α :=
  ⟨b.buffer ++ data, b.readOffset, by have := b.inside; rw [List.length_append]; omega⟩

@[simp] lemma liveLen_eq : b.liveLen = b.live.length := by
  simp [liveLen, live]

@[simp] lemma liveSlice_zero : b.liveSlice 0 n = b.live.take n := rfl

@[simp] theorem live_consume : (b.consume n).live = b.live.drop n := by
  unfold consume live
  split_ifs
  · rw [List.drop_zero, List.drop_drop]
  · rw [List.drop_drop]

@[simp] lemma live_extend (data : List α) : (b.extend data).live = b.live ++ data := by
  rw [extend, live, live, List.drop_append_of_le_length b.inside]

end

@[simp] lemma liveFind_eq (b : LiveBuffer α) (target : List α) :
    b.liveFind target = findSlice target b.live := by
  rw [liveFind, find, Option.map_map]
  have hid : ((fun x => x - b.readOffset) ∘ fun x => b.readOffset + x) = id := by
    funext x
    simp
  rw [hid, Option.map_id]
  rfl

end LiveBuffer

end Buffers
