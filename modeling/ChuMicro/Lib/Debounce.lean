import Mathlib.Data.List.Chain
import Mathlib.Data.Int.Order.Basic

/-!
# Debounced signals

A signal has a level at the start and changes at certain times; it consists of *stretches* of one
level. Debouncing a signal keeps the stretches that last for a while and, of several that follow
each other at one level, the first.

## Main definitions

* `Signals.Stretch`, `Signals.stretches` — the stretches of a signal.
* `Signals.debounced` — where a debounced signal changes, and to which level.

## Main results

* `Signals.isChain_debounced` — a debounced signal changes its level every time.
* `Signals.mem_debounced` — it changes where a long stretch starts.
-/

namespace Signals

universe u

variable {L : Type u}

/-- A time in which a signal keeps its level. The last one has no end. -/
structure Stretch (L : Type u) where
  level : L
  start : ℤ
  stop : Option ℤ
  deriving DecidableEq, Repr

/-- A stretch that lasts for `settle`, or to the end. -/
def Stretch.Settled (settle : ℤ) (s : Stretch L) : Prop := ∀ stop ∈ s.stop, settle ≤ stop - s.start

instance (settle : ℤ) (s : Stretch L) : Decidable (s.Settled settle) :=
  decidable_of_iff (s.stop.all fun stop => settle ≤ stop - s.start)
    (by simp [Stretch.Settled, Option.all_eq_true])

/-- The level that a signal is at in the end. -/
def lastLevel (level : L) (changes : List (L × ℤ)) : L := (changes.map Prod.fst).getLastD level

@[simp] lemma lastLevel_append_singleton (level : L) (changes : List (L × ℤ)) (x : L × ℤ) :
    lastLevel level (changes ++ [x]) = x.1 := by
  simp [lastLevel]

lemma lastLevel_cons (level : L) (x : L × ℤ) (changes : List (L × ℤ)) :
    lastLevel level (x :: changes) = lastLevel x.1 changes := by
  rw [lastLevel, List.map_cons, List.getLastD_cons, lastLevel]

variable [DecidableEq L]

/-- The stretches of a signal that is at `level` from `start` on and changes as told. A change to
the level that the signal is at is none. -/
def stretches (level : L) (start : ℤ) : List (L × ℤ) → List (Stretch L)
  | [] => [⟨level, start, none⟩]
  | (l, t) :: changes =>
    if l = level then stretches level start changes
    else ⟨level, start, some t⟩ :: stretches l t changes

/-- Where a debounced signal that starts at `believed` changes. -/
def debounced (settle : ℤ) (believed : L) : List (Stretch L) → List (L × ℤ)
  | [] => []
  | s :: rest =>
    if s.Settled settle ∧ s.level ≠ believed then (s.level, s.start) :: debounced settle s.level rest
    else debounced settle believed rest

variable {settle : ℤ} {believed level : L} {start : ℤ} {xs ys : List (Stretch L)}

/-- A signal is debounced from left to right. -/
lemma debounced_append (settle : ℤ) (believed : L) (xs ys : List (Stretch L)) :
    debounced settle believed (xs ++ ys) =
      debounced settle believed xs ++
        debounced settle (lastLevel believed (debounced settle believed xs)) ys := by
  induction xs generalizing believed with
  | nil => rfl
  | cons s xs ih =>
    rw [List.cons_append, debounced, debounced]
    split_ifs
    · rw [ih, lastLevel_cons, List.cons_append]
    · exact ih believed

/-- **A debounced signal changes its level every time.** -/
theorem isChain_debounced (settle : ℤ) (believed : L) (time : ℤ) (xs : List (Stretch L)) :
    List.IsChain (fun a b : L × ℤ => a.1 ≠ b.1) ((believed, time) :: debounced settle believed xs) := by
  induction xs generalizing believed time with
  | nil => exact List.isChain_singleton _
  | cons s xs ih =>
    rw [debounced]
    split_ifs with h
    · exact List.isChain_cons_cons.mpr ⟨h.2.symm, ih s.level s.start⟩
    · exact ih believed time

/-- **It changes where a long stretch starts**, to the level of that stretch. -/
theorem mem_debounced {x : L × ℤ} (h : x ∈ debounced settle believed xs) :
    ∃ s ∈ xs, s.Settled settle ∧ x = (s.level, s.start) := by
  induction xs generalizing believed with
  | nil => cases h
  | cons s xs ih =>
    rw [debounced] at h
    split_ifs at h with hs
    · rcases List.mem_cons.mp h with rfl | h
      · exact ⟨s, List.mem_cons_self, hs.1, rfl⟩
      · obtain ⟨s', hs', hx⟩ := ih h
        exact ⟨s', List.mem_cons_of_mem _ hs', hx⟩
    · obtain ⟨s', hs', hx⟩ := ih h
      exact ⟨s', List.mem_cons_of_mem _ hs', hx⟩

/-- Every stretch starts at the start or at a change. -/
lemma start_of_mem_stretches {changes : List (L × ℤ)} {s : Stretch L}
    (h : s ∈ stretches level start changes) : s.start = start ∨ ∃ change ∈ changes, change.2 = s.start := by
  induction changes generalizing level start with
  | nil =>
    rw [stretches, List.mem_singleton] at h
    exact .inl (h ▸ rfl)
  | cons change changes ih =>
    obtain ⟨l, t⟩ := change
    rw [stretches] at h
    split_ifs at h
    · exact (ih h).imp_right fun ⟨change, hmem, heq⟩ => ⟨change, List.mem_cons_of_mem _ hmem, heq⟩
    · rcases List.mem_cons.mp h with rfl | h
      · exact .inl rfl
      · refine .inr ?_
        rcases ih h with hstart | ⟨change, hmem, heq⟩
        · exact ⟨(l, t), List.mem_cons_self, hstart.symm⟩
        · exact ⟨change, List.mem_cons_of_mem _ hmem, heq⟩

/-- One more change ends the last stretch, or is none. -/
lemma stretches_append {closed : List (Stretch L)} {l : L} {t : ℤ} {changes : List (L × ℤ)}
    {last : L × ℤ} (h : stretches level start changes = closed ++ [⟨last.1, last.2, none⟩]) :
    stretches level start (changes ++ [(l, t)]) =
      if l = last.1 then closed ++ [⟨last.1, last.2, none⟩]
      else closed ++ [⟨last.1, last.2, some t⟩, ⟨l, t, none⟩] := by
  induction changes generalizing level start closed with
  | nil =>
    rw [stretches] at h
    obtain ⟨rfl, hlast⟩ := @List.append_inj' _ [] _ _ _ h rfl
    cases hlast
    rw [List.nil_append, stretches, stretches]
    rfl
  | cons change changes ih =>
    obtain ⟨l', t'⟩ := change
    rw [List.cons_append, stretches]
    rw [stretches] at h
    split_ifs at h ⊢ with hl hlast hlast
    · rw [ih h, if_pos hlast]
    · rw [ih h, if_neg hlast]
    all_goals
      cases closed with
      | nil => cases h
      | cons s closed =>
        rw [List.cons_append] at h
        obtain ⟨rfl, htail⟩ := List.cons.inj h
        first
          | rw [ih htail, if_pos hlast]; rfl
          | rw [ih htail, if_neg hlast]; rfl

end Signals
