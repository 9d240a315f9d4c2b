import Mathlib.Algebra.GroupWithZero.Nat
import Mathlib.Algebra.Order.BigOperators.Group.List
import Mathlib.Algebra.Order.Group.Nat
import Mathlib.Logic.Relation
import Mathlib.Order.Bounds.Basic

/-!
# Walking a tree with a list of what is left

A walk takes the first node off a list and puts those it leads to into the list, until the list is
empty. Whether the list is used as a stack or as a queue does not matter to what is visited.

## Main definitions

* `Worklist` — where a node leads to, and where in the list that goes.
* `Worklist.visited` — the nodes in the order in which they are visited.

## Main results

* `Worklist.mem_visited` — the nodes that are visited are those that the list leads to.
* `Worklist.least_foldl` — what a loop that keeps the least value has kept.
-/

/-- A walk over nodes that lead to smaller ones, and where these go in the list. -/
structure Worklist (α : Type) where
  next : α → List α
  insert : List α → List α → List α
  size : α → ℕ
  smaller : ∀ n, ((next n).map size).sum < size n
  perm : ∀ new rest, (insert new rest).Perm (new ++ rest)

namespace Worklist

variable {α : Type}

section Walk

variable (w : Worklist α)

/-- What is left becomes less. -/
lemma sum_insert_lt (n : α) (rest : List α) :
    ((w.insert (w.next n) rest).map w.size).sum < ((n :: rest).map w.size).sum := by
  have hsmaller := w.smaller n
  rw [((w.perm _ rest).map w.size).sum_eq, List.map_append, List.sum_append, List.map_cons,
    List.sum_cons]
  omega

/-- The nodes in the order in which they are taken off the list. -/
def visited : List α → List α
  | [] => []
  | n :: rest => n :: visited (w.insert (w.next n) rest)
termination_by todo => (todo.map w.size).sum
decreasing_by exact w.sum_insert_lt n rest

@[simp] lemma visited_nil : w.visited [] = [] := by rw [visited]

lemma visited_cons (n : α) (rest : List α) :
    w.visited (n :: rest) = n :: w.visited (w.insert (w.next n) rest) := by rw [visited]

/-- One node leads to another one. -/
def Leads (n m : α) : Prop := Relation.ReflTransGen (fun a b => b ∈ w.next a) n m

/-- **The nodes that are visited** are those that the list leads to.

**Proof sketch.** Induction on what is left. A node leads to itself and to what the nodes lead to
that take its place in the list. -/
theorem mem_visited (todo : List α) {m : α} :
    m ∈ w.visited todo ↔ ∃ n ∈ todo, w.Leads n m := by
  induction todo using visited.induct w with
  | case1 => simp
  | case2 n rest ih =>
    rw [visited_cons, List.mem_cons, ih]
    constructor
    · rintro (rfl | ⟨a, ha, hleads⟩)
      · exact ⟨m, List.mem_cons_self, .refl⟩
      · rcases List.mem_append.mp ((w.perm _ _).mem_iff.mp ha) with ha | ha
        · exact ⟨n, List.mem_cons_self, .head ha hleads⟩
        · exact ⟨a, List.mem_cons_of_mem n ha, hleads⟩
    · rintro ⟨a, ha, hleads⟩
      rcases List.mem_cons.mp ha with rfl | ha
      · rcases hleads.cases_head with rfl | ⟨b, hb, hleads⟩
        · exact .inl rfl
        · exact .inr ⟨b, (w.perm _ _).mem_iff.mpr (List.mem_append_left _ hb), hleads⟩
      · exact .inr ⟨a, (w.perm _ _).mem_iff.mpr (List.mem_append_right _ ha), hleads⟩

end Walk

/-! ## The least value -/

section Least

variable {value : α → Option ℕ}

/-- A loop that keeps the least value so far. -/
def least (value : α → Option ℕ) (kept : Option ℕ) (n : α) : Option ℕ :=
  match value n, kept with
  | none, kept => kept
  | some new, none => some new
  | some new, some old => if new < old then some new else some old

/-- **What the loop has kept** is the least value of all, counting the one it began with. -/
theorem least_foldl (l : List α) (kept : Option ℕ) :
    (∀ m, l.foldl (least value) kept = some m ↔
      IsLeast {k | kept = some k ∨ ∃ n ∈ l, value n = some k} m) ∧
    (l.foldl (least value) kept = none ↔ kept = none ∧ ∀ n ∈ l, value n = none) := by
  induction l generalizing kept with
  | nil =>
    refine ⟨fun m => ?_, by simp⟩
    simp only [List.foldl_nil, List.not_mem_nil, false_and, exists_false, or_false]
    constructor
    · intro h
      refine ⟨h, fun k hk => ?_⟩
      have hkept : kept = some k := hk
      exact (Option.some.inj (h.symm.trans hkept)).le
    · exact fun h => h.1
  | cons x rest ih =>
    obtain ⟨ihsome, ihnone⟩ := ih (least value kept x)
    rw [List.foldl_cons]
    refine ⟨fun m => (ihsome m).trans ?_, ihnone.trans ?_⟩
    · -- the two sets differ by values that are not less than one that stays
      cases hx : value x with
      | none => simp [least, hx]
      | some new =>
        cases kept with
        | none => simp [least, hx, eq_comm]
        | some old =>
          have hmin : least value (some old) x = some (min new old) := by
            simp only [least, hx]
            split_ifs with hlt
            · rw [min_eq_left hlt.le]
            · rw [min_eq_right (not_lt.mp hlt)]
          rw [hmin]
          simp only [Option.some.injEq, List.mem_cons, exists_eq_or_imp, hx]
          constructor
          · rintro ⟨hmem, hle⟩
            refine ⟨?_, ?_⟩
            · rcases hmem with rfl | hrest
              · rcases min_choice new old with h | h
                · exact .inr (.inl h.symm)
                · exact .inl h.symm
              · exact .inr (.inr hrest)
            · rintro k (rfl | rfl | hrest)
              · exact (hle (.inl rfl)).trans (min_le_right _ _)
              · exact (hle (.inl rfl)).trans (min_le_left _ _)
              · exact hle (.inr hrest)
          · rintro ⟨hmem, hle⟩
            have hmin' : m ≤ min new old := le_min (hle (.inr (.inl rfl))) (hle (.inl rfl))
            refine ⟨?_, ?_⟩
            · rcases hmem with rfl | rfl | hrest
              · exact .inl (le_antisymm (min_le_right _ _) hmin')
              · exact .inl (le_antisymm (min_le_left _ _) hmin')
              · exact .inr hrest
            · rintro k (rfl | hrest)
              · exact hmin'
              · exact hle (.inr (.inr hrest))
    · cases hx : value x with
      | none => simp [least, hx]
      | some new =>
        cases kept with
        | none => simp [least, hx]
        | some old =>
          simp only [least, hx, List.mem_cons]
          split_ifs <;> simp

end Least

end Worklist
