import Mathlib.Algebra.Order.Ring.Int
import Mathlib.Data.Int.ModEq
import Mathlib.Data.List.Chain
import Mathlib.Tactic.Ring

/-!
# Schedules that keep their phase

A schedule has a deadline and is asked again and again whether it is due. When it is, the deadline
moves on by whole periods, as many as it takes to lie ahead: missed periods are skipped, and a late
question does not shift the ones to come.

## Main definitions

* `Cadence.next` — the deadline after a question.
* `Cadence.run` — the questions at some times.
* `Cadence.KeepsPhase` — what is expected of such a schedule.
* `Cadence.Forward` — times that move forward by less than a bound.

## Main results

* `Cadence.keepsPhase_run` — a run is as expected.
* `Cadence.forall_run` — in a run with small steps every deadline is near the time it is asked at.
-/

namespace Cadence

/-- A question: the time and the deadline before it, the answer, and the deadline after it. -/
structure Call where
  now : ℤ
  before : ℤ
  fired : Bool
  after : ℤ

/-- The deadline after a question. -/
def next (period deadline now : ℤ) : ℤ :=
  if now < deadline then deadline else deadline + ((now - deadline) / period + 1) * period

/-- The questions at some times. -/
def run (period : ℤ) : ℤ → List ℤ → List Call
  | _, [] => []
  | deadline, now :: times =>
    ⟨now, deadline, decide (deadline ≤ now), next period deadline now⟩ ::
      run period (next period deadline now) times

@[simp] lemma run_nil (period deadline : ℤ) : run period deadline [] = [] := rfl

lemma run_cons (period deadline now : ℤ) (times : List ℤ) :
    run period deadline (now :: times) =
      ⟨now, deadline, decide (deadline ≤ now), next period deadline now⟩ ::
        run period (next period deadline now) times := rfl

/-- The questions that were answered with yes. -/
def fires (calls : List Call) : ℕ := calls.countP Call.fired

/-- **What is expected of a schedule whose first deadline is `first`**: a question is answered with
yes exactly from the deadline on, the next deadline then lies ahead by a period at most, all of them
lie whole periods apart, and at any time there have been no more fires than whole periods since the
time one period before the first deadline. -/
structure KeepsPhase (period first : ℤ) (calls : List Call) : Prop where
  congruent : ∀ c ∈ calls, c.before ≡ first [ZMOD period] ∧ c.after ≡ first [ZMOD period]
  fired_iff : ∀ c ∈ calls, c.fired = true ↔ c.before ≤ c.now
  ahead : ∀ c ∈ calls, c.fired = true → c.now < c.after ∧ c.after ≤ c.now + period
  kept : ∀ c ∈ calls, c.fired = false → c.after = c.before
  chained : ∀ c ∈ calls.head?, c.before = first
  chain : calls.IsChain fun c c' => c'.before = c.after
  fires_le : ∀ earlier c later, calls = earlier ++ c :: later →
    fires (earlier ++ [c]) ≤ ((c.now - (first - period)) / period).toNat

/-- Times that move forward, by less than `gap` from one to the next. -/
def Forward (gap previous : ℤ) (times : List ℤ) : Prop :=
  (previous :: times).IsChain fun a b => a ≤ b ∧ b < a + gap

variable {period first deadline now gap previous : ℤ} {times : List ℤ}

/-- A deadline that is due moves ahead, by a period at most. -/
lemma next_mem (hperiod : 0 < period) (hdue : deadline ≤ now) :
    now < next period deadline now ∧ next period deadline now ≤ now + period := by
  have hle := Int.ediv_mul_le (now - deadline) hperiod.ne'
  have hlt := Int.lt_ediv_add_one_mul_self (now - deadline) hperiod
  rw [next, if_neg (by omega)]
  have hsplit : ((now - deadline) / period + 1) * period =
      (now - deadline) / period * period + period := by ring
  omega

/-- A deadline that is due moves on by a period at least. -/
lemma add_period_le_next (hperiod : 0 < period) (hdue : deadline ≤ now) :
    deadline + period ≤ next period deadline now := by
  have hpos : 0 ≤ (now - deadline) / period * period :=
    mul_nonneg (Int.ediv_nonneg (by omega) hperiod.le) hperiod.le
  rw [next, if_neg (by omega)]
  have hsplit : ((now - deadline) / period + 1) * period =
      (now - deadline) / period * period + period := by ring
  omega

/-- It does so by whole periods. -/
lemma next_modEq : next period deadline now ≡ deadline [ZMOD period] := by
  unfold next
  split_ifs
  · exact Int.ModEq.refl _
  · exact Int.modEq_iff_dvd.mpr ⟨-((now - deadline) / period + 1), by ring⟩

/-- The deadline never goes back. -/
lemma le_next (hperiod : 0 < period) : deadline ≤ next period deadline now := by
  by_cases hdue : deadline ≤ now
  · have := add_period_le_next hperiod hdue
    omega
  · rw [next, if_pos (by omega)]

/-- The questions are asked at the given times. -/
lemma map_now_run : (run period deadline times).map Call.now = times := by
  induction times generalizing deadline with
  | nil => rfl
  | cons now times ih => rw [run_cons, List.map_cons, ih]

/-- Every question finds the deadline that the one before has left. -/
lemma isChain_run : (run period deadline times).IsChain fun c c' => c'.before = c.after := by
  induction times generalizing deadline with
  | nil => exact List.isChain_nil
  | cons now times ih =>
    refine List.isChain_cons.mpr ⟨fun c hc => ?_, ih⟩
    cases times with
    | nil => simp at hc
    | cons now' times => exact (Option.some.inj hc) ▸ rfl

variable {c : Call} {earlier later : List Call}

/-- What a question and its answer look like, whenever it is asked. -/
lemma call_of_mem_run (h : c ∈ run period deadline times) :
    c.fired = decide (c.before ≤ c.now) ∧ c.after = next period c.before c.now := by
  induction times generalizing deadline with
  | nil => simp at h
  | cons now times ih =>
    rcases List.mem_cons.mp h with rfl | h
    · exact ⟨rfl, rfl⟩
    · exact ih h

/-- Every deadline of a run lies whole periods from the first one. -/
lemma before_modEq (h : c ∈ run period deadline times) : c.before ≡ deadline [ZMOD period] := by
  induction times generalizing deadline with
  | nil => simp at h
  | cons now times ih =>
    rcases List.mem_cons.mp h with rfl | h
    · exact Int.ModEq.refl _
    · exact (ih h).trans next_modEq

/-- Every fire takes a period.

**Proof sketch.** Induction on the times before the last one. A fire moves the deadline on by at
least a period, and the deadline never goes back; the last deadline lies at most a period ahead of
the last fire, and nothing is asked before the previous time. -/
lemma fires_mul_le (hperiod : 0 < period) (h : run period deadline times = earlier ++ c :: later) :
    deadline + fires earlier * period ≤ c.before := by
  induction earlier generalizing deadline times with
  | nil =>
    cases times with
    | nil => simp at h
    | cons now times =>
      obtain ⟨rfl, -⟩ := List.cons.inj h
      simp [fires]
  | cons first earlier ih =>
    cases times with
    | nil => simp at h
    | cons now times =>
      obtain ⟨rfl, hrest⟩ := List.cons.inj h
      have hlater := ih hrest
      by_cases hdue : deadline ≤ now
      · have hnext := add_period_le_next hperiod hdue
        have hcount : (fires (⟨now, deadline, decide (deadline ≤ now),
            next period deadline now⟩ :: earlier) : ℤ) = fires earlier + 1 := by
          simp [fires, hdue]
        rw [hcount, add_mul, one_mul]
        omega
      · have hnext : deadline ≤ next period deadline now := le_next hperiod
        have hcount : fires (⟨now, deadline, decide (deadline ≤ now),
            next period deadline now⟩ :: earlier) = fires earlier := by
          simp [fires, hdue]
        rw [hcount]
        omega

/-- Once a deadline is near, all later ones are. -/
lemma before_le_of_near (hperiod : 0 < period) (hnear : deadline ≤ previous + period)
    (hforward : Forward gap previous times) :
    ∀ c ∈ run period deadline times, c.before ≤ c.now + period := by
  induction times generalizing deadline previous with
  | nil => simp
  | cons now times ih =>
    obtain ⟨hstep, hrest⟩ := List.isChain_cons_cons.mp hforward
    intro c hc
    rcases List.mem_cons.mp hc with rfl | hc
    · dsimp only
      omega
    · refine ih ?_ hrest c hc
      by_cases hdue : deadline ≤ now
      · exact (next_mem hperiod hdue).2
      · rw [next, if_pos (by omega)]
        omega

/-- After a fire the deadline is near. -/
lemma before_le_of_fires (hperiod : 0 < period) (hforward : Forward gap previous times)
    (h : run period deadline times = earlier ++ c :: later) (hfires : fires earlier ≠ 0) :
    c.before ≤ c.now + period := by
  induction earlier generalizing deadline previous times with
  | nil => exact absurd rfl hfires
  | cons first earlier ih =>
    cases times with
    | nil => simp at h
    | cons now times =>
      obtain ⟨rfl, hrest⟩ := List.cons.inj h
      obtain ⟨-, hforward'⟩ := List.isChain_cons_cons.mp hforward
      by_cases hdue : deadline ≤ now
      · exact before_le_of_near hperiod (next_mem hperiod hdue).2 hforward' c (by simp [hrest])
      · exact ih hforward' hrest (by simpa [fires, hdue] using hfires)

/-- **There are no more fires than whole periods.** -/
lemma fires_le_run (hperiod : 0 < period) (hforward : Forward gap previous times)
    (h : run period first times = earlier ++ c :: later) :
    fires (earlier ++ [c]) ≤ ((c.now - (first - period)) / period).toNat := by
  have hmul := fires_mul_le hperiod h
  have hdue := (call_of_mem_run (show c ∈ run period first times by simp [h])).1
  -- enough for all fires: their periods fit into the time
  have henough : (fires (earlier ++ [c]) : ℤ) * period ≤ c.now - (first - period) →
      fires (earlier ++ [c]) ≤ ((c.now - (first - period)) / period).toNat := by
    intro hfit
    have := (Int.le_ediv_iff_mul_le hperiod).mpr hfit
    omega
  by_cases hfired : c.before ≤ c.now
  · refine henough ?_
    have hcount : (fires (earlier ++ [c]) : ℤ) = fires earlier + 1 := by
      simp [fires, hdue, hfired]
    rw [hcount, add_mul, one_mul]
    omega
  · have hcount : fires (earlier ++ [c]) = fires earlier := by
      simp [fires, hdue, hfired]
    by_cases hzero : fires earlier = 0
    · rw [hcount, hzero]
      exact Nat.zero_le _
    · have hle := before_le_of_fires hperiod hforward h hzero
      refine henough ?_
      rw [hcount]
      omega

/-- **A run of a schedule is as expected.** -/
theorem keepsPhase_run (hperiod : 0 < period) (hforward : Forward gap previous times) :
    KeepsPhase period first (run period first times) where
  congruent c hc := by
    obtain ⟨-, hafter⟩ := call_of_mem_run hc
    have hbefore := before_modEq hc
    exact ⟨hbefore, hafter ▸ next_modEq.trans hbefore⟩
  fired_iff c hc := by rw [(call_of_mem_run hc).1, decide_eq_true_eq]
  ahead c hc hfired := by
    obtain ⟨hdue, hafter⟩ := call_of_mem_run hc
    rw [hafter]
    exact next_mem hperiod (by simpa [hdue] using hfired)
  kept c hc hfired := by
    obtain ⟨hdue, hafter⟩ := call_of_mem_run hc
    rw [hafter, next, if_pos (by simpa [hdue] using hfired)]
  chained c hc := by
    cases times with
    | nil => simp at hc
    | cons now times => exact (Option.some.inj hc) ▸ rfl
  chain := isChain_run
  fires_le earlier c later h := fires_le_run hperiod hforward h

/-- In a run whose times move forward by little, every question is asked near its deadline. -/
theorem forall_run (hperiod : 0 < period) {half : ℤ} (hgap : gap = half - period)
    (hprevious : previous ≤ deadline) (hnear : deadline < previous + half)
    (h : Forward gap previous times) :
    ∀ c ∈ run period deadline times, c.before - half < c.now ∧ c.now < c.before + gap := by
  induction times generalizing deadline previous with
  | nil => simp
  | cons now times ih =>
    obtain ⟨hstep, hrest⟩ := List.isChain_cons_cons.mp h
    intro c hc
    rcases List.mem_cons.mp hc with rfl | hc
    · exact ⟨by dsimp only; omega, by dsimp only; omega⟩
    · by_cases hdue : deadline ≤ now
      · have hnext := next_mem hperiod hdue
        exact ih (by omega) (by omega) hrest c hc
      · rw [next, if_pos (by omega)] at hc
        exact ih (by omega) (by omega) hrest c hc

end Cadence
