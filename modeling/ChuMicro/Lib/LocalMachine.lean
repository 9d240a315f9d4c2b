import Mathlib.Data.List.Induction
import Mathlib.Data.Nat.Init

/-!
# Machines that read a buffer from the front

A *local machine* takes steps on a state and a buffer. A step only looks at a beginning of the
buffer: symbols that arrive later are still there, behind what the step leaves. Running such a
machine as far as it goes on a part of its input and then on the rest is the same as running it on
all of its input.

## Main definitions

* `Streaming.LocalMachine` — a machine, with the proofs that its steps are local and come to an end.
* `Streaming.LocalMachine.settle` — run as far as it goes.

## Main results

* `Streaming.LocalMachine.settle_preserves` — what every step keeps, a run keeps.
* `Streaming.LocalMachine.settle_append` — input that comes later is read as if it had come at once.
-/

namespace Streaming

universe u v

/-- A machine whose steps are local. -/
structure LocalMachine (σ : Type u) (β : Type v) where
  /-- one step, or nothing where more symbols are needed -/
  step : σ → List β → Option (σ × List β)
  /-- every step consumes symbols -/
  decreasing : ∀ {s l s' l'}, step s l = some (s', l') → l'.length < l.length
  /-- later symbols stay behind what a step leaves -/
  append : ∀ {s l s' l'}, step s l = some (s', l') → ∀ t, step s (l ++ t) = some (s', l' ++ t)

namespace LocalMachine

variable {σ : Type u} {β : Type v} (M : LocalMachine σ β)

/-- Run as far as it goes. -/
def settle (s : σ) (l : List β) : σ × List β :=
  match _h : M.step s l with
  | none => (s, l)
  | some (s', l') => settle s' l'
termination_by l.length
decreasing_by exact M.decreasing _h

variable {M} {s s' : σ} {l l' : List β}

/-- Where there is no step the run is over. -/
lemma settle_of_none (h : M.step s l = none) : M.settle s l = (s, l) := by
  rw [settle]
  split <;> simp_all

/-- A step is the first of the run. -/
lemma settle_of_some (h : M.step s l = some (s', l')) : M.settle s l = M.settle s' l' := by
  rw [settle]
  split <;> simp_all

/-- At the end of a run there is no step. -/
lemma step_settle (s : σ) (l : List β) : M.step (M.settle s l).1 (M.settle s l).2 = none := by
  induction hn : l.length using Nat.strong_induction_on generalizing s l with
  | _ n ih =>
    cases h : M.step s l with
    | none =>
      rw [settle_of_none h]
      exact h
    | some p =>
      obtain ⟨s', l'⟩ := p
      rw [settle_of_some h]
      exact ih _ (hn ▸ M.decreasing h) s' l' rfl

/-- What every step keeps, a run keeps. -/
theorem settle_preserves {P : σ → List β → Prop}
    (hstep : ∀ s l s' l', P s l → M.step s l = some (s', l') → P s' l') (h : P s l) :
    P (M.settle s l).1 (M.settle s l).2 := by
  induction hn : l.length using Nat.strong_induction_on generalizing s l with
  | _ n ih =>
    cases hs : M.step s l with
    | none =>
      rw [settle_of_none hs]
      exact h
    | some p =>
      obtain ⟨s', l'⟩ := p
      rw [settle_of_some hs]
      exact ih _ (hn ▸ M.decreasing hs) (hstep s l s' l' h hs) rfl

/-- **Input that comes later is read as if it had come at once.**

**Proof sketch.** Induction along the run on the first part: its steps are the steps of the run on
all of the input, and where it ends the other one goes on from the same state and buffer. -/
theorem settle_append (s : σ) (l t : List β) :
    M.settle s (l ++ t) = M.settle (M.settle s l).1 ((M.settle s l).2 ++ t) := by
  induction hn : l.length using Nat.strong_induction_on generalizing s l with
  | _ n ih =>
    cases h : M.step s l with
    | none => rw [settle_of_none h]
    | some p =>
      obtain ⟨s', l'⟩ := p
      rw [settle_of_some h, settle_of_some (M.append h t)]
      exact ih _ (hn ▸ M.decreasing h) s' l' rfl

end LocalMachine

end Streaming
