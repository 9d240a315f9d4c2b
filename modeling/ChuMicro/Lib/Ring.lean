import Mathlib.Data.List.Basic
import Mathlib.Data.Nat.Basic

/-!
# Rings

A `WrapRing` is a row of slots with a write index and a read index that both wrap at the end of the
row. It is empty when the indices agree, so one slot always stays free. `Holds r l` says that the
slots from the read index to the write index hold the symbols `l`, oldest first.

## Main definitions

* `Buffers.WrapRing` — slots with two indices.
* `Buffers.WrapRing.push`, `Buffers.WrapRing.pop` — the two ends.
* `Buffers.WrapRing.Holds` — what is in a ring.

## Main results

* `Buffers.WrapRing.Holds.push`, `Buffers.WrapRing.Holds.pop` — a ring is a queue.
-/

namespace Buffers

universe u

/-- Slots with a write index and a read index. -/
structure WrapRing (α : Type u) where
  slots : List α
  writeIndex : ℕ := 0
  readIndex : ℕ := 0
  deriving DecidableEq, Repr

namespace WrapRing

variable {α : Type u} {r : WrapRing α} {l : List α} {x : α}

/-- The index behind an index. -/
def next (r : WrapRing α) (index : ℕ) : ℕ := if index + 1 ≥ r.slots.length then 0 else index + 1

/-- Write a symbol, unless that would make the ring look empty. -/
def push (r : WrapRing α) (x : α) : Option (WrapRing α) :=
  if r.next r.writeIndex = r.readIndex then none
  else some { r with slots := r.slots.set r.writeIndex x, writeIndex := r.next r.writeIndex }

/-- Read the oldest symbol, if there is one. -/
def pop (r : WrapRing α) : Option (α × WrapRing α) :=
  if r.readIndex = r.writeIndex then none
  else r.slots[r.readIndex]?.map fun x => (x, { r with readIndex := r.next r.readIndex })

/-- The slots from the read index to the write index hold `l`. -/
structure Holds (r : WrapRing α) (l : List α) : Prop where
  room : l = [] ∨ l.length < r.slots.length
  read_lt : r.readIndex = 0 ∨ r.readIndex < r.slots.length
  write_eq : r.writeIndex =
    if r.readIndex + l.length < r.slots.length ∨ l = [] then r.readIndex + l.length
    else r.readIndex + l.length - r.slots.length
  slots_eq : ∀ i, i < l.length → r.slots[
    if r.readIndex + i < r.slots.length then r.readIndex + i
    else r.readIndex + i - r.slots.length]? = l[i]?

/-- A new ring holds nothing. -/
lemma holds_new (slots : List α) : Holds { slots } [] := by
  refine ⟨.inl rfl, .inl rfl, by simp, fun i hi => ?_⟩
  simp at hi

/-- A ring that holds nothing gives nothing. -/
lemma Holds.pop_nil (h : r.Holds []) : r.pop = none := by
  have hw := h.write_eq
  rw [pop, if_pos]
  simpa using hw.symm

/-- **The oldest symbol comes out first.** -/
theorem Holds.pop (h : r.Holds (x :: l)) : ∃ r', r.pop = some (x, r') ∧ r'.Holds l := by
  have hroom : l.length + 1 < r.slots.length := by
    rcases h.room with h | h
    · cases h
    · exact h
  have hread : r.readIndex < r.slots.length := by
    rcases h.read_lt with h | h <;> omega
  have hwrite := h.write_eq
  simp only [List.length_cons, reduceCtorEq, or_false] at hwrite
  have hne : r.readIndex ≠ r.writeIndex := by
    rw [hwrite]
    split_ifs <;> omega
  have hfirst := h.slots_eq 0 (by simp)
  rw [Nat.add_zero, if_pos hread, List.getElem?_cons_zero] at hfirst
  refine ⟨{ r with readIndex := r.next r.readIndex }, by rw [WrapRing.pop, if_neg hne, hfirst]; rfl, ?_⟩
  refine ⟨.inr (by dsimp only; omega), ?_, ?_, fun i hi => ?_⟩
  · unfold next
    dsimp only
    split_ifs
    · exact .inl rfl
    · exact .inr (by omega)
  · unfold next
    dsimp only
    rw [hwrite]
    by_cases hl : l = []
    · subst hl
      simp only [List.length_nil]
      split_ifs <;> omega
    · simp only [hl, or_false]
      split_ifs <;> omega
  · have hslot := h.slots_eq (i + 1) (by simpa using hi)
    rw [List.getElem?_cons_succ] at hslot
    rw [← hslot]
    congr 1
    unfold next
    dsimp only
    split_ifs <;> omega

/-- **A symbol that fits goes behind the others.** -/
theorem Holds.push (h : r.Holds l) {r' : WrapRing α} (hpush : r.push x = some r') :
    r'.Holds (l ++ [x]) := by
  unfold WrapRing.push at hpush
  split_ifs at hpush with hfull
  cases hpush
  have hwrite := h.write_eq
  -- a ring that takes a symbol has room for one more
  have hroom : l.length + 1 < r.slots.length := by
    by_contra hnot
    apply hfull
    unfold next
    by_cases hnil : l = []
    · subst hnil
      simp only [List.length_nil, Nat.add_zero, or_true, if_true] at hwrite hnot
      rcases h.read_lt with hr | hr <;> split_ifs <;> omega
    · have hlt := h.room.resolve_left hnil
      simp only [hnil, or_false] at hwrite
      rcases h.read_lt with hr | hr <;> rw [hwrite] <;> split_ifs <;> omega
  have hread : r.readIndex < r.slots.length := by
    rcases h.read_lt with hr | hr <;> omega
  have hwrite' : r.writeIndex = if r.readIndex + l.length < r.slots.length then
      r.readIndex + l.length else r.readIndex + l.length - r.slots.length := by
    rw [hwrite]
    by_cases hl : l = []
    · subst hl
      simp only [List.length_nil, Nat.add_zero, hread, or_true, if_true]
    · simp only [hl, or_false]
  have hlt : r.writeIndex < r.slots.length := by
    rw [hwrite']
    split_ifs <;> omega
  refine ⟨.inr (by simpa using hroom), by simpa using h.read_lt, ?_, fun i hi => ?_⟩
  · unfold next
    dsimp only
    rw [List.length_set, List.length_append, List.length_singleton, hwrite']
    simp only [List.append_eq_nil_iff, reduceCtorEq, and_false, or_false]
    split_ifs <;> omega
  · dsimp only
    rw [List.length_set]
    rw [List.length_append, List.length_singleton] at hi
    by_cases hlast : i = l.length
    · subst hlast
      rw [← hwrite', List.getElem?_set_self hlt, List.getElem?_append_right le_rfl, Nat.sub_self]
      rfl
    · rw [List.getElem?_append_left (by omega), ← h.slots_eq i (by omega)]
      refine List.getElem?_set_ne ?_
      rw [hwrite']
      split_ifs <;> omega

end WrapRing

end Buffers
