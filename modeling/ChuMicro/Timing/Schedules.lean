import ChuMicro.Buttons.Gestures
import ChuMicro.Runner.Tasks
import ChuMicro.Timing.Rate

/-!
# Everything that keeps its phase

`Rate.due`, the deadline of a task with `preserve_phase` in `Runner.tick`, and the auto-repeat of
`Button._advance` are one step. As long as the times move forward by less than half the ring minus a
period, each of them is a schedule in real time, across any number of wraps. After a stall of all
the whole periods below half the ring each of them raises.

## Main definitions

* `Tasks.TaskHandle.schedule` — what a tick does to the deadline of a task.
* `Buttons.Button.held` — a check of a key that stays down.

## Main results

* `phases_kept` — all three keep their phase.
* `returns_iff` — when each of them returns.
-/

namespace ChuMicro

/-! ## A task -/

namespace Tasks

/-- What a tick does to the deadline of a task, and whether it is due. -/
def TaskHandle.schedule (h : TaskHandle) (nowMs : ℤ) : Except PyExn (Bool × TaskHandle) :=
  if h.isDue nowMs then
    (h.rescheduled nowMs).map fun next => (true, { h with nextDueMs := next })
  else .ok (false, h)

/-- The step of a task with a period that keeps its phase. -/
lemma schedule_eq_catchUp {h : TaskHandle} {deadline period : ℤ} (hphase : h.preservePhase = true)
    (hdeadline : h.nextDueMs = some deadline) (hperiod : h.periodMs = some period) (nowMs : ℤ) :
    h.schedule nowMs = (catchUp deadline period nowMs).map fun found =>
      (found.1, { h with nextDueMs := some found.2 }) := by
  unfold TaskHandle.schedule TaskHandle.isDue TaskHandle.rescheduled catchUp
  rw [hdeadline, hperiod, hphase]
  by_cases hbehind : ticksDiff nowMs deadline < 0
  · have hnot : ¬ 0 ≤ ticksDiff nowMs deadline := by omega
    obtain ⟨checked, periodMs, nextDueMs, runCount, preservePhase, active, limit⟩ := h
    obtain rfl : nextDueMs = some deadline := hdeadline
    obtain rfl : periodMs = some period := hperiod
    obtain rfl : preservePhase = true := hphase
    simp [hbehind, hnot, Except.map]
  · have hdue : 0 ≤ ticksDiff nowMs deadline := by omega
    simp only [hbehind, hdue, decide_true, if_true, if_false]
    cases ticksAdd deadline ((ticksDiff nowMs deadline / period + 1) * period) <;> rfl

end Tasks

/-! ## A button -/

namespace Buttons.Button

/-- A check of a key that stays down, and whether it repeats. -/
def held (b : Button) (nowMs : ℤ) : Except PyExn (Bool × Button) :=
  (b.check [] nowMs).map fun found => (found.2.justRepeated, found.2)

section Held

variable {b : Button} {nowMs : ℤ}

/-- The repeat of a button. -/
lemma advanceRepeat_eq_catchUp (hperiod : 0 < b.durations.repeatMs) :
    b.advanceRepeat nowMs =
      (catchUp b.repeatNextMs b.durations.repeatMs nowMs).map fun found =>
        { b with repeatNextMs := found.2, justRepeated := b.justRepeated || found.1 } := by
  unfold advanceRepeat catchUp
  by_cases hbehind : ticksDiff nowMs b.repeatNextMs < 0
  · have hnot : ¬ ticksDiff nowMs b.repeatNextMs ≥ 0 := by omega
    simp [hbehind, hnot, Except.map]
  · have hdue : ticksDiff nowMs b.repeatNextMs ≥ 0 := by omega
    simp only [hbehind, hdue, hperiod, and_self, if_true, if_false]
    cases ticksAdd b.repeatNextMs
      ((ticksDiff nowMs b.repeatNextMs / b.durations.repeatMs + 1) * b.durations.repeatMs)
    · rfl
    · simp [bind, Except.bind, Except.map]

/-- What a check leaves alone. -/
structure SameRepeat (b b' : Button) : Prop where
  durations : b'.durations = b.durations
  pressed : b'.pressed = b.pressed
  repeatNextMs : b'.repeatNextMs = b.repeatNextMs
  justRepeated : b'.justRepeated = b.justRepeated

lemma sameRepeat_advanceLongPress (b : Button) : SameRepeat b b.advanceLongPress := by
  unfold advanceLongPress
  split_ifs <;> exact ⟨rfl, rfl, rfl, rfl⟩

lemma sameRepeat_advanceHold (b : Button) : SameRepeat b b.advanceHold := by
  unfold advanceHold
  split_ifs <;> exact ⟨rfl, rfl, rfl, rfl⟩

lemma sameRepeat_advanceSeries (b : Button) (nowMs : ℤ) : SameRepeat b (b.advanceSeries nowMs) := by
  unfold advanceSeries
  split_ifs <;> exact ⟨rfl, rfl, rfl, rfl⟩

/-- `_advance` of a key that is down: its repeat is the only part that may raise. -/
lemma advance_eq (hpressed : b.pressed = true) :
    b.advance nowMs =
      (({ b with heldMs := max (ticksDiff nowMs b.pressMs) 0 } : Button).advanceLongPress.advanceRepeat
        nowMs).map fun b =>
          let b := b.advanceHold.advanceSeries nowMs
          (b.justPressed || b.justReleased || b.justLongPressed || b.justRepeated || b.justClicked,
            b) := by
  unfold advance
  rw [if_pos hpressed]
  dsimp only
  cases ({ b with heldMs := max (ticksDiff nowMs b.pressMs) 0 } : Button).advanceLongPress.advanceRepeat
    nowMs <;> rfl

/-- **A key that is down repeats by the step**, and raises where the step does. -/
lemma advance_spec (hpressed : b.pressed = true) (hperiod : 0 < b.durations.repeatMs) :
    match catchUp b.repeatNextMs b.durations.repeatMs nowMs with
    | .error e => b.advance nowMs = .error e
    | .ok (fired, next) => ∃ any b', b.advance nowMs = .ok (any, b') ∧ b'.durations = b.durations ∧
        b'.pressed = true ∧ b'.repeatNextMs = next ∧ b'.justRepeated = (b.justRepeated || fired) := by
  have hlong := sameRepeat_advanceLongPress { b with heldMs := max (ticksDiff nowMs b.pressMs) 0 }
  have hrepeat := @advanceRepeat_eq_catchUp
    ({ b with heldMs := max (ticksDiff nowMs b.pressMs) 0 } : Button).advanceLongPress nowMs
    (by rw [hlong.durations]; exact hperiod)
  rw [hlong.repeatNextMs, hlong.durations] at hrepeat
  rw [advance_eq hpressed, hrepeat]
  cases catchUp b.repeatNextMs b.durations.repeatMs nowMs with
  | error e => rfl
  | ok found =>
    obtain ⟨fired, next⟩ := found
    refine ⟨_, _, rfl, ?_, ?_, ?_, ?_⟩
    · rw [(sameRepeat_advanceSeries _ nowMs).durations, (sameRepeat_advanceHold _).durations]
    · rw [(sameRepeat_advanceSeries _ nowMs).pressed, (sameRepeat_advanceHold _).pressed]
      exact hlong.pressed.trans hpressed
    · rw [(sameRepeat_advanceSeries _ nowMs).repeatNextMs, (sameRepeat_advanceHold _).repeatNextMs]
    · rw [(sameRepeat_advanceSeries _ nowMs).justRepeated, (sameRepeat_advanceHold _).justRepeated]
      exact congrArg (· || fired) hlong.justRepeated

end Held

end Buttons.Button

/-! ## The three of them -/

open Buttons.Button

section Kept

variable {period anchor : ℤ} {times : List ℤ}

/-- A rate keeps its phase. -/
lemma rate_keeps_phase {r : Rate} (hr : Rate.new period (ticksMs anchor) = .ok r)
    (hforward : Cadence.Forward (TICKS_HALFPERIOD - period) anchor times) :
    ∃ answers, trace Rate.due r (times.map ticksMs) = .ok answers ∧
      Tracks Rate.nextDueMs (Cadence.run period (anchor + period) times) answers := by
  obtain ⟨hperiod, hhalf, rfl⟩ := Rate.new_eq_ok hr
  refine @exists_trace _ _ _ (fun r => r.periodMs = period) _ hperiod ?_ _ _ _ _ rfl ?_ (by omega)
    (by omega) hforward
  · rintro s nowMs fired next rfl hstep
    exact ⟨{ s with nextDueMs := next }, by rw [Rate.due_eq_catchUp, hstep]; rfl, rfl, rfl⟩
  · rw [ticksMs, ticksMs, Int.emod_add_emod]

/-- A task with `preserve_phase` keeps its phase. -/
lemma task_keeps_phase {h : Tasks.TaskHandle} {delay due : ℤ} (hphase : h.preservePhase = true)
    (hperiod : h.periodMs = some period) (hpos : 0 < period)
    (hdue : ticksAdd (ticksMs anchor) delay = .ok due) (hnext : h.nextDueMs = some due)
    (hforward : Cadence.Forward (TICKS_HALFPERIOD - period) (min anchor (anchor + delay)) times) :
    ∃ answers, trace Tasks.TaskHandle.schedule h (times.map ticksMs) = .ok answers ∧
      Tracks (fun h => h.nextDueMs.getD 0) (Cadence.run period (anchor + delay) times) answers := by
  have hok : TicksOk delay := by
    by_contra hnot
    rw [ticksAdd_of_not hnot] at hdue
    cases hdue
  rw [ticksAdd_ticksMs hok] at hdue
  obtain rfl := Except.ok.inj hdue
  obtain ⟨-, hlt⟩ := hok
  have hhalf := halfperiod_pos
  refine @exists_trace _ _ _ (fun h => h.preservePhase = true ∧ h.periodMs = some period ∧
    h.nextDueMs.isSome) _ hpos ?_ _ _ _ _ ⟨hphase, hperiod, by rw [hnext]; rfl⟩ (by rw [hnext]; rfl)
    (by omega) (by omega) hforward
  rintro s nowMs fired next ⟨hs, hsperiod, hsome⟩ hstep
  obtain ⟨deadline, hdeadline⟩ := Option.isSome_iff_exists.mp hsome
  rw [hdeadline] at hstep
  refine ⟨{ s with nextDueMs := some next }, ?_, rfl, hs, hsperiod, rfl⟩
  rw [Tasks.schedule_eq_catchUp hs hdeadline hsperiod,
    show catchUp deadline period nowMs = .ok (fired, next) from hstep]
  rfl

/-- A check of a key that stays down is the step. -/
lemma held_of_catchUp {b : Buttons.Button} {nowMs : ℤ} {fired : Bool} {next : ℤ}
    (hpressed : b.pressed = true) (hpos : 0 < b.durations.repeatMs)
    (hstep : catchUp b.repeatNextMs b.durations.repeatMs nowMs = .ok (fired, next)) :
    ∃ b', b.held nowMs = .ok (fired, b') ∧ b'.repeatNextMs = next ∧ b'.durations = b.durations ∧
      b'.pressed = true := by
  have hspec := @Buttons.Button.advance_spec b.beginTick nowMs hpressed hpos
  rw [show catchUp b.beginTick.repeatNextMs b.beginTick.durations.repeatMs nowMs =
    .ok (fired, next) from hstep] at hspec
  obtain ⟨any, b', hadvance, hdurations, hpressed', hnext, hfired⟩ := hspec
  refine ⟨b', ?_, hnext, hdurations, hpressed'⟩
  have hcheck : b.check [] nowMs = .ok (any, b') := hadvance
  rw [held, hcheck]
  exact congrArg (fun fired => Except.ok (fired, b')) (by rw [hfired]; rfl)

/-- A button that repeats keeps its phase, from the check that drains the press. -/
lemma button_keeps_phase {b : Buttons.Button} {time : ℤ} (hperiod : b.durations.repeatMs = period)
    (hpos : 0 < period) (hup : b.pressed = false) (hdelay : TicksOk b.durations.repeatDelayMs)
    (hforward : Cadence.Forward (TICKS_HALFPERIOD - period)
      (min anchor (anchor + b.durations.repeatDelayMs)) (time :: times)) :
    ∃ any b' answers, b.check [⟨0, true, ticksMs anchor⟩] (ticksMs time) = .ok (any, b') ∧
      trace held b' (times.map ticksMs) = .ok answers ∧
      Tracks Buttons.Button.repeatNextMs
        (Cadence.run period (anchor + b.durations.repeatDelayMs) (time :: times))
        ((b'.justRepeated, b') :: answers) := by
  subst hperiod
  -- the press
  set pressed := { b.beginTick with
    pressed := true
    pressMs := ticksMs anchor
    longFired := false
    repeatNextMs := ticksMs (anchor + b.durations.repeatDelayMs)
    clickPending := false
    pressIsClick := true
    justPressed := true } with hpressed
  have hdrain : b.beginTick.drain [⟨0, true, ticksMs anchor⟩] = .ok pressed := by
    have hedge : b.beginTick.applyEdge true (ticksMs anchor) = .ok pressed := by
      have hne : true ≠ b.beginTick.pressed := by
        rw [show b.beginTick.pressed = b.pressed from rfl, hup]
        exact Bool.noConfusion
      unfold applyEdge
      rw [if_neg hne, if_pos rfl,
        show b.beginTick.durations.repeatDelayMs = b.durations.repeatDelayMs from rfl,
        ticksAdd_ticksMs hdelay]
      rfl
    rw [drain, List.foldlM_cons]
    rw [if_pos rfl, hedge]
    rfl
  obtain ⟨-, hlt⟩ := hdelay
  have hhalf := halfperiod_pos
  have hall : ∀ c ∈ Cadence.run b.durations.repeatMs (anchor + b.durations.repeatDelayMs)
      (time :: times), c.before - TICKS_HALFPERIOD < c.now ∧
        c.now < c.before + (TICKS_HALFPERIOD - b.durations.repeatMs) :=
    Cadence.forall_run hpos rfl (by omega) (by omega) hforward
  -- the first question is asked in the same check
  obtain ⟨hahead, hbehind⟩ := hall _ List.mem_cons_self
  have hspec := @Buttons.Button.advance_spec pressed (ticksMs time) rfl hpos
  rw [show catchUp pressed.repeatNextMs pressed.durations.repeatMs (ticksMs time) = _ from
    catchUp_ticksMs hpos hahead hbehind] at hspec
  obtain ⟨any, b', hadvance, hdurations, hdown, hnext, hfired⟩ := hspec
  have hstep : ∀ (s : Buttons.Button) (nowMs : ℤ) (fired : Bool) (next : ℤ),
      s.durations = b.durations ∧ s.pressed = true →
      catchUp s.repeatNextMs b.durations.repeatMs nowMs = .ok (fired, next) →
      ∃ s', s.held nowMs = .ok (fired, s') ∧ s'.repeatNextMs = next ∧
        s'.durations = b.durations ∧ s'.pressed = true := by
    intro s nowMs fired next hs hcatch
    rw [← hs.1] at hcatch
    obtain ⟨s', hheld, hnext', hdurations', hdown'⟩ :=
      held_of_catchUp hs.2 (by rw [hs.1]; exact hpos) hcatch
    exact ⟨s', hheld, hnext', hdurations'.trans hs.1, hdown'⟩
  obtain ⟨answers, hanswers, htracks⟩ := exists_trace_of_near hpos hstep ⟨hdurations, hdown⟩ hnext
    fun c hc => hall c (List.mem_cons_of_mem _ hc)
  refine ⟨any, b', answers, ?_, hanswers, .cons ⟨?_, hnext⟩ htracks⟩
  · rw [check, hdrain]
    exact hadvance
  · rw [hfired]
    rfl

end Kept

/-- **Rates, tasks with `preserve_phase` and repeating buttons keep their phase.** Their calls at
times that move forward by less than half the ring minus a period, from the time the first deadline
is counted from, or from the first deadline if that is earlier, say what the questions of a schedule
in real time say, and leave the ticks of its deadlines. The first check of a button drains the
press.

**Proof sketch.** All three take the same step, and near its deadline that is the step of a
schedule. -/
theorem phases_kept (period anchor : ℤ) (times : List ℤ) :
    (∀ r, Rate.new period (ticksMs anchor) = .ok r →
      Cadence.Forward (TICKS_HALFPERIOD - period) anchor times →
      ∃ calls answers, Cadence.KeepsPhase period (anchor + period) calls ∧
        calls.map Cadence.Call.now = times ∧
        trace Rate.due r (times.map ticksMs) = .ok answers ∧
        Tracks Rate.nextDueMs calls answers) ∧
    (∀ (h : Tasks.TaskHandle) (delay due : ℤ), h.preservePhase = true → h.periodMs = some period →
      0 < period → ticksAdd (ticksMs anchor) delay = .ok due → h.nextDueMs = some due →
      Cadence.Forward (TICKS_HALFPERIOD - period) (min anchor (anchor + delay)) times →
      ∃ calls answers, Cadence.KeepsPhase period (anchor + delay) calls ∧
        calls.map Cadence.Call.now = times ∧
        trace Tasks.TaskHandle.schedule h (times.map ticksMs) = .ok answers ∧
        Tracks (fun h => h.nextDueMs.getD 0) calls answers) ∧
    ∀ (b : Buttons.Button) (time : ℤ), b.durations.repeatMs = period → 0 < period →
      b.pressed = false → TicksOk b.durations.repeatDelayMs →
      Cadence.Forward (TICKS_HALFPERIOD - period) (min anchor (anchor + b.durations.repeatDelayMs))
        (time :: times) →
      ∃ calls any b' answers, Cadence.KeepsPhase period (anchor + b.durations.repeatDelayMs) calls ∧
        calls.map Cadence.Call.now = time :: times ∧
        b.check [⟨0, true, ticksMs anchor⟩] (ticksMs time) = .ok (any, b') ∧
        trace held b' (times.map ticksMs) = .ok answers ∧
        Tracks Buttons.Button.repeatNextMs calls ((b'.justRepeated, b') :: answers) := by
  refine ⟨fun r hr hforward => ?_, fun h delay due hphase hperiod hpos hdue hnext hforward => ?_,
    fun b time hperiod hpos hup hdelay hforward => ?_⟩
  · obtain ⟨answers, hanswers, htracks⟩ := rate_keeps_phase hr hforward
    exact ⟨_, answers, Cadence.keepsPhase_run (Rate.new_eq_ok hr).1 hforward, Cadence.map_now_run,
      hanswers, htracks⟩
  · obtain ⟨answers, hanswers, htracks⟩ :=
      task_keeps_phase hphase hperiod hpos hdue hnext hforward
    exact ⟨_, answers, Cadence.keepsPhase_run hpos hforward, Cadence.map_now_run, hanswers, htracks⟩
  · obtain ⟨any, b', answers, hcheck, hanswers, htracks⟩ :=
      button_keeps_phase hperiod hpos hup hdelay hforward
    exact ⟨_, any, b', answers, Cadence.keepsPhase_run hpos hforward, Cadence.map_now_run, hcheck,
      hanswers, htracks⟩

/-- A period of a second, at 1.5 and 4.2 seconds; a task with a delay, and a button. -/
theorem phases_kept_seconds :
    (∃ calls answers, Cadence.KeepsPhase 1000 (0 + 1000) calls ∧
      calls.map Cadence.Call.now = [1500, 4200] ∧
      trace Rate.due ⟨1000, 1000⟩ ([1500, 4200].map ticksMs) = .ok answers ∧
      Tracks Rate.nextDueMs calls answers) ∧
    (∃ calls answers, Cadence.KeepsPhase 1000 (0 + 250) calls ∧
      calls.map Cadence.Call.now = [1500, 4200] ∧
      trace Tasks.TaskHandle.schedule ⟨false, some 1000, some 250, none, true, true, none⟩
        ([1500, 4200].map ticksMs) = .ok answers ∧
      Tracks (fun h => h.nextDueMs.getD 0) calls answers) ∧
    ∃ calls any b' answers, Cadence.KeepsPhase 1000 (0 + 500) calls ∧
      calls.map Cadence.Call.now = 10 :: [1500, 4200] ∧
      ({ durations := { repeatMs := 1000 } } : Buttons.Button).check [⟨0, true, ticksMs 0⟩]
        (ticksMs 10) = .ok (any, b') ∧
      trace held b' ([1500, 4200].map ticksMs) = .ok answers ∧
      Tracks Buttons.Button.repeatNextMs calls ((b'.justRepeated, b') :: answers) := by
  have hforward : ∀ first : ℤ, 0 ≤ first → Cadence.Forward (TICKS_HALFPERIOD - 1000)
      (min 0 (0 + first)) [1500, 4200] ∧ Cadence.Forward (TICKS_HALFPERIOD - 1000)
      (min 0 (0 + first)) (10 :: [1500, 4200]) := by
    intro first hfirst
    rw [zero_add, min_eq_left hfirst]
    exact ⟨by simp [Cadence.Forward, TICKS_HALFPERIOD], by simp [Cadence.Forward, TICKS_HALFPERIOD]⟩
  have hnew : Rate.new 1000 (ticksMs 0) = .ok ⟨1000, 1000⟩ := by
    rw [Rate.new, if_neg (by decide), if_neg (by decide), ticksAdd_of_ok (by decide)]
    rfl
  obtain ⟨hrate, htask, hbutton⟩ := phases_kept 1000 0 [1500, 4200]
  refine ⟨hrate ⟨1000, 1000⟩ hnew (hforward 0 le_rfl).1,
    htask ⟨false, some 1000, some 250, none, true, true, none⟩ 250 250 rfl rfl (by decide) ?_ rfl
      (hforward 250 (by decide)).1,
    hbutton { durations := { repeatMs := 1000 } } 10 rfl (by decide) rfl (by decide)
      (hforward 500 (by decide)).2⟩
  rw [ticksAdd_of_ok (by decide)]
  rfl

/-- A task with a period of a second that starts after 250 ms, and a key that repeats every second
after a delay of 100 ms: both have fired once where no whole period has passed since the time their
first deadline is counted from. -/
theorem fires_before_a_period :
    ticksAdd (ticksMs 0) 250 = .ok 250 ∧
      trace Tasks.TaskHandle.schedule ⟨false, some 1000, some 250, none, true, true, none⟩
          [ticksMs 250] = .ok [(true, ⟨false, some 1000, some 1250, none, true, true, none⟩)] ∧
      (∃ any b', ({ durations := { repeatDelayMs := 100, repeatMs := 1000 } } :
          Buttons.Button).check [⟨0, true, ticksMs 0⟩] (ticksMs 100) = .ok (any, b') ∧
        b'.justRepeated = true) ∧
      (250 - 0 : ℤ) / 1000 < 1 ∧ (100 - 0 : ℤ) / 1000 < 1 := by
  refine ⟨ticksAdd_of_ok (by decide), ?_, ?_, by decide, by decide⟩
  · have hstep : catchUp 250 1000 (ticksMs 250) = .ok (true, 1250) := by
      unfold catchUp
      rw [if_neg (by decide), ticksAdd_of_ok (by decide)]
      rfl
    rw [trace, Tasks.schedule_eq_catchUp rfl rfl rfl, hstep]
    rfl
  · obtain ⟨any, b', answers, hcheck, -, htracks⟩ := @button_keeps_phase 1000 0 []
      { durations := { repeatDelayMs := 100, repeatMs := 1000 } } 100 rfl (by decide) rfl (by decide)
      (by simp [Cadence.Forward, TICKS_HALFPERIOD])
    cases htracks with
    | cons hfirst _ => exact ⟨any, b', hcheck, hfirst.1⟩

/-- **When `Rate.due`, `Runner.tick` and `Button._advance` return**: unless they find a deadline
that has been missed by all the whole periods below half the ring. -/
theorem returns_iff (period nowMs : ℤ) :
    (∀ (anchor : ℤ) (r : Rate), Rate.new period anchor = .ok r → ∀ ticks : List ℤ,
      (∀ call ∈ r.calls ticks, ∃ fired, call.2.2 = .ok fired) ↔
        ∀ call ∈ r.calls ticks,
          ticksDiff call.2.1 call.1.nextDueMs < wholePeriods period) ∧
    (∀ (h : Tasks.TaskHandle) (due : ℤ), h.preservePhase = true →
      h.nextDueMs = some due → h.periodMs = some period → 0 < period →
      ((∃ found, h.schedule nowMs = .ok found) ↔ ticksDiff nowMs due < wholePeriods period)) ∧
    ∀ b : Buttons.Button,
      (∃ found, b.advance nowMs = .ok found) ↔
        (b.pressed = true → 0 < b.durations.repeatMs →
          ticksDiff nowMs b.repeatNextMs < wholePeriods b.durations.repeatMs) := by
  refine ⟨fun anchor r hr ticks => ?_,
    fun h due hphase hdue hperiod hpos => ?_, fun b => ?_⟩
  · have hperiod := Rate.new_eq_ok hr
    have hall : ∀ call ∈ r.calls ticks, call.1.periodMs = period ∧
        call.2.2 = (call.1.call call.2.1).1 :=
      Rate.forall_calls (by rw [hperiod.2.2])
    refine forall₂_congr fun call hcall => ?_
    obtain ⟨hsame, hanswer⟩ := hall call hcall
    rw [hanswer, ← hsame, ← catchUp_returns_iff (hsame ▸ hperiod.1), Rate.call,
      Rate.due_eq_catchUp]
    cases catchUp call.1.nextDueMs call.1.periodMs call.2.1 with
    | error e => exact iff_of_false (by rintro ⟨_, h⟩; cases h) (by rintro ⟨_, h⟩; cases h)
    | ok found => exact iff_of_true ⟨_, rfl⟩ ⟨_, rfl⟩
  · rw [← catchUp_returns_iff hpos, Tasks.schedule_eq_catchUp hphase hdue hperiod]
    cases catchUp due period nowMs with
    | error e => exact iff_of_false (by rintro ⟨_, h⟩; cases h) (by rintro ⟨_, h⟩; cases h)
    | ok found => exact iff_of_true ⟨_, rfl⟩ ⟨_, rfl⟩
  · by_cases hpressed : b.pressed = true
    · by_cases hpos : 0 < b.durations.repeatMs
      · have hspec := @Buttons.Button.advance_spec b nowMs hpressed hpos
        rw [imp_iff_right hpressed, imp_iff_right hpos, ← catchUp_returns_iff hpos]
        cases hcatch : catchUp b.repeatNextMs b.durations.repeatMs nowMs with
        | error e =>
          rw [hcatch] at hspec
          rw [show b.advance nowMs = .error e from hspec]
          exact iff_of_false (by rintro ⟨_, h⟩; cases h) (by rintro ⟨_, h⟩; cases h)
        | ok found =>
          rw [hcatch] at hspec
          obtain ⟨any, b', hadvance, -⟩ := hspec
          exact iff_of_true ⟨_, hadvance⟩ ⟨_, rfl⟩
      · refine iff_of_true ?_ fun _ h => absurd h hpos
        rw [advance_eq hpressed, advanceRepeat, if_neg]
        · exact ⟨_, rfl⟩
        · rw [(sameRepeat_advanceLongPress _).durations]
          exact fun h => hpos h.1
    · refine iff_of_true ?_ fun h => absurd h hpressed
      unfold advance
      rw [if_neg hpressed]
      exact ⟨_, rfl⟩

/-- A period of a second, called for the first time after 1.5 seconds. -/
theorem returns_iff_second :
    ((∀ call ∈ (⟨1000, 1000⟩ : Rate).calls [1500], ∃ fired, call.2.2 = .ok fired) ↔
      ∀ call ∈ (⟨1000, 1000⟩ : Rate).calls [1500],
        ticksDiff call.2.1 call.1.nextDueMs < wholePeriods 1000) ∧
    ((∃ found, (⟨false, some 1000, some 250, none, true, true, none⟩ :
        Tasks.TaskHandle).schedule 1500 = .ok found) ↔ ticksDiff 1500 250 < wholePeriods 1000) ∧
    ((∃ found, ({ durations := { repeatMs := 1000 }, pressed := true } :
        Buttons.Button).advance 1500 = .ok found) ↔
      (true = true → 0 < (1000 : ℤ) → ticksDiff 1500 0 < wholePeriods 1000)) := by
  have hnew : Rate.new 1000 0 = .ok ⟨1000, 1000⟩ := by
    rw [Rate.new, if_neg (by decide), if_neg (by decide), ticksAdd_of_ok (by decide)]
    rfl
  obtain ⟨hrate, htask, hbutton⟩ := returns_iff 1000 1500
  exact ⟨hrate 0 ⟨1000, 1000⟩ hnew [1500],
    htask ⟨false, some 1000, some 250, none, true, true, none⟩ 250 rfl rfl rfl (by decide),
    hbutton { durations := { repeatMs := 1000 }, pressed := true }⟩

/-- A rate, a task and a button with a period of a second that are left alone for 268435 seconds
after a deadline: every one of them raises. -/
theorem long_stall_raises :
    Rate.new 1000 0 = .ok ⟨1000, 1000⟩ ∧
      (⟨1000, 1000⟩ : Rate).due 268436000 = .error (.overflowError "ticks interval overflow") ∧
      (⟨false, some 1000, some 1000, none, true, true, none⟩ : Tasks.TaskHandle).schedule 268436000 =
        .error (.overflowError "ticks interval overflow") ∧
      ({ durations := { repeatMs := 1000 }, pressed := true, repeatNextMs := 1000 } :
        Buttons.Button).advance 268436000 = .error (.overflowError "ticks interval overflow") := by
  have hstep : catchUp 1000 1000 268436000 = .error (.overflowError "ticks interval overflow") := by
    unfold catchUp
    rw [if_neg (by decide), ticksAdd_of_not (by decide)]
    rfl
  refine ⟨?_, ?_, ?_, ?_⟩
  · rw [Rate.new, if_neg (by decide), if_neg (by decide), ticksAdd_of_ok (by decide)]
    rfl
  · rw [Rate.due_eq_catchUp, hstep]
    rfl
  · rw [Tasks.schedule_eq_catchUp rfl rfl rfl, hstep]
    rfl
  · have hspec := @Buttons.Button.advance_spec
      { durations := { repeatMs := 1000 }, pressed := true, repeatNextMs := 1000 } 268436000 rfl
      (by decide)
    rw [hstep] at hspec
    exact hspec

end ChuMicro
