import ChuMicro.Lib.Cadence
import ChuMicro.Timing
import Mathlib.Data.List.Forall2

/-!
# Rates

`Rate` of `chumicro_timing/deadline.py`, and the step that moves a deadline on by whole periods,
which `Runner.tick` and `Button._advance` take as well. The step multiplies before it adds, so
`ticks_add` refuses it when the deadline has been missed for nearly half the ring.

## Main definitions

* `Rate` — a rate, with `Rate.new`, `Rate.due` and `Rate.reset`.
* `catchUp` — the step, whoever takes it.
* `trace`, `Tracks` — the calls of such a step, and how they compare with a schedule.

## Main results

* `catchUp_returns_iff` — when the step raises.
* `catchUp_ticksMs` — near its deadline, the step is that of a schedule in real time.
* `exists_trace` — so are all its calls, when the times move forward by little.
-/

namespace ChuMicro

/-! ## Rates -/

/-- `Rate`. -/
structure Rate where
  periodMs : ℤ
  nextDueMs : ℤ
  deriving DecidableEq

namespace Rate

/-- The message for a period of half the ring or more. -/
def TOO_LONG : String :=
  "period_ms must be < " ++ toString TICKS_HALFPERIOD ++ " (half the tick " ++
    "ring); a longer interval can never fire because " ++
    "ticks_diff saturates at half the ring"

/-- `Rate(period_ms, now_ms)`. -/
def new (periodMs nowMs : ℤ) : Except PyExn Rate := do
  if periodMs ≤ 0 then .error (.valueError "period_ms must be greater than zero")
  else if periodMs ≥ TICKS_HALFPERIOD then .error (.valueError TOO_LONG)
  else
    let nextDueMs ← ticksAdd nowMs periodMs
    .ok { periodMs, nextDueMs }

/-- `due`. A period is positive, so that the division rounds down. -/
def due (r : Rate) (nowMs : ℤ) : Except PyExn (Bool × Rate) :=
  let behind := ticksDiff nowMs r.nextDueMs
  if behind < 0 then .ok (false, r)
  else do
    let periodsMissed := behind / r.periodMs + 1
    let nextDueMs ← ticksAdd r.nextDueMs (periodsMissed * r.periodMs)
    .ok (true, { r with nextDueMs })

/-- `reset`. -/
def reset (r : Rate) (nowMs : ℤ) : Except PyExn Rate := do
  let nextDueMs ← ticksAdd nowMs r.periodMs
  .ok { r with nextDueMs }

/-- A call of `due`: what it says or raises, and the rate after it. -/
def call (r : Rate) (nowMs : ℤ) : Except PyExn Bool × Rate :=
  match r.due nowMs with
  | .ok (fired, r') => (.ok fired, r')
  | .error e => (.error e, r)

/-- The calls of `due` at some ticks: the rate before each, the tick, and what it says or raises. -/
def calls (r : Rate) : List ℤ → List (Rate × ℤ × Except PyExn Bool)
  | [] => []
  | nowMs :: ticks => (r, nowMs, (r.call nowMs).1) :: calls (r.call nowMs).2 ticks

/-- No call changes the period. -/
lemma forall_calls {periodMs : ℤ} {r : Rate} (hr : r.periodMs = periodMs) {ticks : List ℤ} :
    ∀ found ∈ r.calls ticks, found.1.periodMs = periodMs ∧
      found.2.2 = (found.1.call found.2.1).1 := by
  induction ticks generalizing r with
  | nil => simp [calls]
  | cons nowMs ticks ih =>
    intro found hfound
    rcases List.mem_cons.mp hfound with rfl | hfound
    · exact ⟨hr, rfl⟩
    · refine ih ?_ found hfound
      unfold call due
      dsimp only
      split_ifs
      · exact hr
      · cases ticksAdd r.nextDueMs
          ((ticksDiff nowMs r.nextDueMs / r.periodMs + 1) * r.periodMs) <;> exact hr

/-- What the constructor accepts. -/
lemma new_eq_ok {periodMs nowMs : ℤ} {r : Rate} (h : new periodMs nowMs = .ok r) :
    0 < periodMs ∧ periodMs < TICKS_HALFPERIOD ∧
      r = ⟨periodMs, (nowMs + periodMs) % TICKS_PERIOD⟩ := by
  unfold new at h
  split_ifs at h with hpos hhalf
  have hok : TicksOk periodMs := ⟨by omega, by omega⟩
  rw [ticksAdd_of_ok hok] at h
  exact ⟨by omega, by omega, (Except.ok.inj h).symm⟩

end Rate

/-! ## The step -/

/-- Whether a deadline is due, and the deadline after the question. -/
def catchUp (deadline period nowMs : ℤ) : Except PyExn (Bool × ℤ) :=
  let behind := ticksDiff nowMs deadline
  if behind < 0 then .ok (false, deadline)
  else (ticksAdd deadline ((behind / period + 1) * period)).map fun next => (true, next)

/-- The whole periods below half the ring. -/
def wholePeriods (period : ℤ) : ℤ := (TICKS_HALFPERIOD - 1) / period * period

section Step

variable {deadline period nowMs : ℤ}

/-- The step of a rate. -/
lemma Rate.due_eq_catchUp (r : Rate) (nowMs : ℤ) :
    r.due nowMs = (catchUp r.nextDueMs r.periodMs nowMs).map fun found =>
      (found.1, { r with nextDueMs := found.2 }) := by
  unfold due catchUp
  by_cases hbehind : ticksDiff nowMs r.nextDueMs < 0
  · simp [hbehind, Except.map]
  · simp only [hbehind, if_false]
    cases ticksAdd r.nextDueMs ((ticksDiff nowMs r.nextDueMs / r.periodMs + 1) * r.periodMs) <;> rfl

/-- The distance to the next deadline is more than `ticks_add` takes exactly when the deadline has
been missed by all the whole periods below half the ring. -/
lemma ticksOk_iff {behind : ℤ} (hperiod : 0 < period) (hbehind : 0 ≤ behind) :
    TicksOk ((behind / period + 1) * period) ↔ behind < wholePeriods period := by
  have hpos : 0 ≤ behind / period := Int.ediv_nonneg hbehind hperiod.le
  have hmul : 0 ≤ (behind / period + 1) * period := mul_nonneg (by omega) hperiod.le
  have hhalf := halfperiod_pos
  calc TicksOk ((behind / period + 1) * period)
      ↔ (behind / period + 1) * period ≤ TICKS_HALFPERIOD - 1 := by
        unfold TicksOk
        omega
    _ ↔ behind / period + 1 ≤ (TICKS_HALFPERIOD - 1) / period :=
        (Int.le_ediv_iff_mul_le hperiod).symm
    _ ↔ behind / period < (TICKS_HALFPERIOD - 1) / period := by omega
    _ ↔ behind < wholePeriods period := Int.ediv_lt_iff_lt_mul hperiod

/-- **When the step raises**: the deadline has been missed by all the whole periods below half the
ring. -/
theorem catchUp_returns_iff (hperiod : 0 < period) :
    (∃ found, catchUp deadline period nowMs = .ok found) ↔
      ticksDiff nowMs deadline < wholePeriods period := by
  have hwhole : 0 ≤ wholePeriods period :=
    mul_nonneg (Int.ediv_nonneg (by decide) hperiod.le) hperiod.le
  unfold catchUp
  by_cases hbehind : ticksDiff nowMs deadline < 0
  · simp only [hbehind, if_true]
    exact iff_of_true ⟨_, rfl⟩ (by omega)
  · rw [← ticksOk_iff hperiod (by omega)]
    simp only [hbehind, if_false]
    by_cases hok : TicksOk ((ticksDiff nowMs deadline / period + 1) * period)
    · rw [ticksAdd_of_ok hok]
      exact iff_of_true ⟨_, rfl⟩ hok
    · rw [ticksAdd_of_not hok]
      refine iff_of_false ?_ hok
      rintro ⟨found, hfound⟩
      cases hfound

/-- **Near its deadline the step is that of a schedule in real time.** -/
theorem catchUp_ticksMs {deadline now : ℤ} (hperiod : 0 < period)
    (hahead : deadline - TICKS_HALFPERIOD < now)
    (hbehind : now < deadline + (TICKS_HALFPERIOD - period)) :
    catchUp (ticksMs deadline) period (ticksMs now) =
      .ok (decide (deadline ≤ now), ticksMs (Cadence.next period deadline now)) := by
  have hdiff : ticksDiff (ticksMs now) (ticksMs deadline) = now - deadline :=
    ticksDiff_ticksMs (by omega) (by omega)
  have hsplit : ((now - deadline) / period + 1) * period =
      (now - deadline) / period * period + period := by ring
  simp only [catchUp, hdiff]
  by_cases hdue : deadline ≤ now
  · have hnext := Cadence.next_mem hperiod hdue
    rw [Cadence.next, if_neg (by omega)] at hnext ⊢
    have hok : TicksOk (((now - deadline) / period + 1) * period) := ⟨by omega, by omega⟩
    rw [if_neg (by omega), ticksAdd_ticksMs hok]
    simp [hdue, Except.map]
  · rw [Cadence.next, if_pos (by omega), if_pos (by omega)]
    simp [hdue]

end Step

/-! ## Many calls -/

/-- The calls of a step at some ticks: what each says, and the state after it. -/
def trace {σ : Type} (step : σ → ℤ → Except PyExn (Bool × σ)) :
    σ → List ℤ → Except PyExn (List (Bool × σ))
  | _, [] => .ok []
  | s, nowMs :: ticks => do
    let (fired, s') ← step s nowMs
    let later ← trace step s' ticks
    .ok ((fired, s') :: later)

/-- The calls say what the questions of a schedule say, and leave its deadlines. -/
def Tracks {σ : Type} (deadline : σ → ℤ) (questions : List Cadence.Call)
    (answers : List (Bool × σ)) : Prop :=
  List.Forall₂ (fun c answer => answer.1 = c.fired ∧ deadline answer.2 = ticksMs c.after)
    questions answers

section Trace

variable {σ : Type} {step : σ → ℤ → Except PyExn (Bool × σ)} {deadlineMs : σ → ℤ} {Inv : σ → Prop}
  {period : ℤ} (hperiod : 0 < period)
  (hstep : ∀ s nowMs fired next, Inv s → catchUp (deadlineMs s) period nowMs = .ok (fired, next) →
    ∃ s', step s nowMs = .ok (fired, s') ∧ deadlineMs s' = next ∧ Inv s')

include hperiod hstep

/-- Calls near their deadlines are the questions of a schedule in real time.

**Proof sketch.** Induction on the times. Near the deadline the step is that of the schedule, and
what it leaves is the tick of the next deadline. -/
lemma exists_trace_of_near {s : σ} {deadline : ℤ} {times : List ℤ} (hs : Inv s)
    (hdeadline : deadlineMs s = ticksMs deadline)
    (hall : ∀ c ∈ Cadence.run period deadline times,
      c.before - TICKS_HALFPERIOD < c.now ∧ c.now < c.before + (TICKS_HALFPERIOD - period)) :
    ∃ answers, trace step s (times.map ticksMs) = .ok answers ∧
      Tracks deadlineMs (Cadence.run period deadline times) answers := by
  induction times generalizing s deadline with
  | nil => exact ⟨[], rfl, .nil⟩
  | cons now times ih =>
    obtain ⟨hahead, hbehind⟩ := hall _ List.mem_cons_self
    obtain ⟨s', hs', hdeadline', hinv'⟩ := hstep s (ticksMs now) _ _ hs
      (hdeadline ▸ catchUp_ticksMs hperiod hahead hbehind)
    obtain ⟨answers, hanswers, htracks⟩ := ih hinv' hdeadline'
      fun c hc => hall c (List.mem_cons_of_mem _ hc)
    refine ⟨(_, s') :: answers, ?_, .cons ⟨rfl, hdeadline'⟩ htracks⟩
    rw [List.map_cons, trace, hs']
    simp only [bind, Except.bind, hanswers]

/-- **Calls at times that move forward by little are the questions of a schedule in real time.** -/
theorem exists_trace {s : σ} {deadline previous : ℤ} {times : List ℤ} (hs : Inv s)
    (hdeadline : deadlineMs s = ticksMs deadline) (hprevious : previous ≤ deadline)
    (hnear : deadline < previous + TICKS_HALFPERIOD)
    (hforward : Cadence.Forward (TICKS_HALFPERIOD - period) previous times) :
    ∃ answers, trace step s (times.map ticksMs) = .ok answers ∧
      Tracks deadlineMs (Cadence.run period deadline times) answers :=
  exists_trace_of_near hperiod hstep hs hdeadline
    (Cadence.forall_run hperiod rfl hprevious hnear hforward)

end Trace

end ChuMicro
