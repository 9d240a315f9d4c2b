import ChuMicro.Buttons.GestureRuns
import ChuMicro.Timing.Deadlines
import ChuMicro.Timing.Schedules

/-!
# Deadlines of buttons

`Button.next_deadline` and the panel `Buttons` of `chumicro_buttons/core.py`. A runner sleeps until
the deadline that they report, so nothing may happen before it: whatever fires at a check has to be
what some deadline was reported for.

## Main definitions

* `Buttons.Button.nextDeadline` — `Button.next_deadline`.
* `Buttons.Panel` — a panel, with `check` and `nextDeadline`.
* `Buttons.Button.Reached`, `Buttons.Panel.Reached` — what checks lead to.
* `Buttons.Button.recognition` — what gestures are recognised by.

## Main results

* `Buttons.next_deadline_sound` — the deadline of a button or of a panel that has been checked is
  later than the check, and before it nothing happens.
-/

namespace ChuMicro.Buttons

/-! ## Deadlines -/

namespace Button

/-- The part of `next_deadline` for the long press. -/
def longPressDeadline (b : Button) : Except PyExn (Option ℤ) :=
  if 0 < b.durations.longPressMs ∧ ¬ b.longFired then do
    let deadline ← ticksAdd b.pressMs b.durations.longPressMs
    .ok (some deadline)
  else .ok none

/-- The part of `next_deadline` for the repeat. -/
def repeatDeadline (b : Button) (nearest : Option ℤ) : Option ℤ :=
  if 0 < b.durations.repeatMs then earlier nearest (some b.repeatNextMs) else nearest

/-- The part of `next_deadline` for a press that is not a hold yet. -/
def holdDeadline (b : Button) (nearest : Option ℤ) : Except PyExn (Option ℤ) :=
  if 0 < b.durations.clickMs ∧ b.pressIsClick then do
    let candidate ← ticksAdd b.pressMs b.durations.clickMs
    .ok (earlier nearest (some candidate))
  else .ok nearest

/-- The part of `next_deadline` for a click series. -/
def seriesDeadline (b : Button) (nearest : Option ℤ) : Option ℤ :=
  if b.clickPending then earlier nearest (some b.clickDeadlineMs) else nearest

/-- `Button.next_deadline`. -/
def nextDeadline (b : Button) : Except PyExn (Option ℤ) :=
  if b.pressed then do
    let nearest ← b.longPressDeadline
    let nearest ← b.holdDeadline (b.repeatDeadline nearest)
    .ok (b.seriesDeadline nearest)
  else .ok (b.seriesDeadline none)

/-- The ticks at which the timers that are armed fire: those of a key that is down, and that of a
click series. -/
def armed (b : Button) : List ℤ :=
  (if b.pressed then
    (if 0 < b.durations.longPressMs ∧ ¬ b.longFired then
        [(b.pressMs + b.durations.longPressMs) % TICKS_PERIOD]
      else []) ++
    (if 0 < b.durations.repeatMs then [b.repeatNextMs] else []) ++
    if 0 < b.durations.clickMs ∧ b.pressIsClick then
        [(b.pressMs + b.durations.clickMs) % TICKS_PERIOD]
      else []
  else []) ++
  if b.clickPending then [b.clickDeadlineMs] else []

/-- What gestures are recognised by: all but what a check has just reported and how long the key has
been down. -/
def recognition (b : Button) : Button := { b.beginTick with heldMs := 0 }

/-- Checks at these ticks without any edge. -/
def watch : List ℤ → Button → Except PyExn (List Bool × Button)
  | [], b => .ok ([], b)
  | nowMs :: ticks, b => do
    let (fired, b) ← b.check [] nowMs
    let (reports, b) ← watch ticks b
    .ok (fired :: reports, b)

end Button

/-! ## A panel -/

/-- `Buttons`, a panel of keys, without its source and its callbacks. -/
structure Panel where
  keys : List Button
  deriving DecidableEq, Repr

namespace Panel

/-- The keys of `Buttons.__init__`. -/
def new (durations : Durations) (keyCount : ℕ) : Panel := ⟨List.replicate keyCount { durations }⟩

/-- One round of the loop of `check` over the edges of the source. -/
def applyEdge (keys : List Button) (event : Event) : Except PyExn (List Button) :=
  match keys[event.key]? with
  | none => .error .indexError
  | some key => do
    let key ← key.applyEdge event.pressed event.ms
    .ok (keys.set event.key key)

/-- The loop of `check` over the keys. -/
def advance (nowMs : ℤ) : List Button → Except PyExn (Bool × List Button)
  | [] => .ok (false, [])
  | key :: keys => do
    let (fired, key) ← key.advance nowMs
    let (others, keys) ← advance nowMs keys
    .ok (fired || others, key :: keys)

/-- `Buttons.check`, for the edges that its source has. -/
def check (panel : Panel) (events : List Event) (nowMs : ℤ) : Except PyExn (Bool × Panel) := do
  let keys ← events.foldlM applyEdge (panel.keys.map Button.beginTick)
  let (fired, keys) ← advance nowMs keys
  .ok (fired, ⟨keys⟩)

/-- `Buttons.next_deadline`. -/
def nextDeadline (panel : Panel) : Except PyExn (Option ℤ) :=
  panel.keys.foldlM (fun nearest key => do
    let candidate ← key.nextDeadline
    .ok (earlier nearest candidate)) none

/-- What gestures are recognised by, key by key. -/
def recognition (panel : Panel) : List Button := panel.keys.map Button.recognition

/-- Checks at these ticks without any edge. -/
def watch : List ℤ → Panel → Except PyExn (List Bool × Panel)
  | [], panel => .ok ([], panel)
  | nowMs :: ticks, panel => do
    let (fired, panel) ← panel.check [] nowMs
    let (reports, panel) ← watch ticks panel
    .ok (fired :: reports, panel)

end Panel

/-! ## Runs -/

/-- Durations that a timer can be armed with. -/
structure Durations.InRing (d : Durations) : Prop where
  longPress : d.longPressMs < TICKS_HALFPERIOD
  click : d.clickMs < TICKS_HALFPERIOD

/-- **A check after another one that comes in time for the tick ring**: no edge is later than it,
and no span that it measures is half a period or longer. These are the time since the last check, if
a timer was armed then; the times since the edges, and since the first repeat of a press; and the
times for which keys have been down. -/
structure Timely (d : Durations) (prev : ℤ) (keys : List Button) (events : List Event) (now : ℤ) :
    Prop where
  gap : ∀ key ∈ keys, key.armed ≠ [] → 0 ≤ ticksDiff now prev
  holds : ∀ key ∈ keys, key.pressed = true → 0 ≤ ticksDiff now key.pressMs
  edges : ∀ e ∈ events, 0 ≤ ticksDiff now e.ms
  repeats : 0 < d.repeatMs →
    ∀ e ∈ events, ticksDiff now e.ms - d.repeatDelayMs < TICKS_HALFPERIOD

/-- The states of a button, each with the tick of the last check. -/
inductive Button.Reached (d : Durations) : ℤ → Button → Prop where
  | new (now : ℤ) : Reached d now { durations := d }
  | check {prev now : ℤ} {b b' : Button} {events : List Event} {fired : Bool}
      (before : Reached d prev b) (timely : Timely d prev [b] events now)
      (returns : b.check events now = .ok (fired, b')) : Reached d now b'

/-- The states of a panel, each with the tick of the last check. -/
inductive Panel.Reached (d : Durations) (keyCount : ℕ) : ℤ → Panel → Prop where
  | new (now : ℤ) : Reached d keyCount now (Panel.new d keyCount)
  | check {prev now : ℤ} {panel panel' : Panel} {events : List Event} {fired : Bool}
      (before : Reached d keyCount prev panel) (timely : Timely d prev panel.keys events now)
      (returns : panel.check events now = .ok (fired, panel')) : Reached d keyCount now panel'

namespace Button

variable {d : Durations} {prev now t : ℤ} {b b' : Button}

/-! ## One check -/

variable {deadline ms : ℤ} {l : List ℤ} {nearest : Option ℤ}

/-- The timers that are armed, one by one. -/
lemma mem_armed : deadline ∈ b.armed ↔
    (b.pressed = true ∧
      (0 < b.durations.longPressMs ∧ b.longFired = false ∧
          deadline = (b.pressMs + b.durations.longPressMs) % TICKS_PERIOD ∨
        0 < b.durations.repeatMs ∧ deadline = b.repeatNextMs ∨
        0 < b.durations.clickMs ∧ b.pressIsClick = true ∧
          deadline = (b.pressMs + b.durations.clickMs) % TICKS_PERIOD)) ∨
      b.clickPending = true ∧ deadline = b.clickDeadlineMs := by
  simp only [armed, List.mem_append, List.mem_ite_nil_right, List.mem_singleton, Bool.not_eq_true,
    and_assoc, or_assoc]

/-- **After a check**: every timer that is armed fires later. -/
structure Settled (d : Durations) (now : ℤ) (b : Button) : Prop where
  durations : b.durations = d
  press : b.pressed = true → 0 ≤ ticksDiff now b.pressMs
  longPress : b.pressed = true → 0 < d.longPressMs → b.longFired = false →
    ticksDiff now b.pressMs < d.longPressMs
  hold : b.pressed = true → 0 < d.clickMs → b.pressIsClick = true →
    ticksDiff now b.pressMs < d.clickMs
  repeats : b.pressed = true → 0 < d.repeatMs → ChuMicro.Ahead b.repeatNextMs now
  series : b.clickPending = true → ChuMicro.Ahead b.clickDeadlineMs now

/-- **In the course of a check**: every timer that is armed fires less than half a period before or
after it. -/
structure InReach (d : Durations) (now : ℤ) (b : Button) : Prop where
  durations : b.durations = d
  press : b.pressed = true → 0 ≤ ticksDiff now b.pressMs
  repeats : b.pressed = true → 0 < d.repeatMs →
    -(TICKS_HALFPERIOD : ℤ) < ticksDiff b.repeatNextMs now
  series : b.clickPending = true → -(TICKS_HALFPERIOD : ℤ) < ticksDiff b.clickDeadlineMs now

/-- A deadline that was ahead of the last check is in reach of the next one. -/
lemma inReach_of_ahead (h : ChuMicro.Ahead deadline prev) (hgap : 0 ≤ ticksDiff now prev) :
    -(TICKS_HALFPERIOD : ℤ) < ticksDiff deadline now := by
  unfold ChuMicro.Ahead ticksDiff TICKS_PERIOD TICKS_HALFPERIOD at *
  omega

/-- A new check. -/
lemma Settled.beginTick (h : Settled d prev b)
    (hgap : b.armed ≠ [] → 0 ≤ ticksDiff now prev)
    (hhold : b.pressed = true → 0 ≤ ticksDiff now b.pressMs) : InReach d now b.beginTick where
  durations := h.durations
  press := hhold
  repeats hpressed hrepeat := by
    refine inReach_of_ahead (h.repeats hpressed hrepeat) (hgap ?_)
    rw [← h.durations] at hrepeat
    exact List.ne_nil_of_mem (mem_armed.mpr (.inl ⟨hpressed, .inr (.inl ⟨hrepeat, rfl⟩)⟩))
  series hpending := by
    refine inReach_of_ahead (h.series hpending) (hgap ?_)
    exact List.ne_nil_of_mem (mem_armed.mpr (.inr ⟨hpending, rfl⟩))

/-- A timer that is set from an edge is in reach of the check. -/
lemma inReach_of_ticksAdd {eventMs : ℤ} (hadd : ticksAdd eventMs ms = .ok deadline)
    (hedge : 0 ≤ ticksDiff now eventMs) (hspan : ticksDiff now eventMs - ms < TICKS_HALFPERIOD) :
    -(TICKS_HALFPERIOD : ℤ) < ticksDiff deadline now := by
  have hok : TicksOk ms := by
    by_contra hbad
    rw [ticksAdd_of_not hbad] at hadd
    cases hadd
  have hback : ticksDiff eventMs now = -ticksDiff now eventMs :=
    ticksDiff_comm (by unfold TICKS_HALFPERIOD; omega)
  have hhigh := hok.2
  have hd : ticksDiff deadline now = ticksDiff eventMs now + ms :=
    ticksDiff_of_ticksAdd hadd (by rw [hback]; omega) (by rw [hback]; omega)
  rw [hd, hback]
  omega

/-- An edge. -/
lemma InReach.applyEdge (h : InReach d now b) {pressed : Bool} {eventMs : ℤ}
    (hedge : 0 ≤ ticksDiff now eventMs)
    (hrepeats : 0 < d.repeatMs → ticksDiff now eventMs - d.repeatDelayMs < TICKS_HALFPERIOD)
    (hb : b.applyEdge pressed eventMs = .ok b') : InReach d now b' := by
  have hdurations := h.durations
  unfold Button.applyEdge at hb
  split_ifs at hb with hsame hpressed
  · cases hb
    exact h
  · obtain ⟨next, hnext, hb⟩ := bind_eq_ok.mp hb
    cases hb
    rw [hdurations] at hnext
    exact ⟨hdurations, fun _ => hedge, fun _ hrepeat =>
      inReach_of_ticksAdd hnext hedge (hrepeats hrepeat), nofun⟩
  · dsimp only at hb
    split_ifs at hb with hclick
    · obtain ⟨deadline, hdeadline, hb⟩ := bind_eq_ok.mp hb
      cases hb
      have hbound := (ticksDiff_bounds now eventMs).2
      exact ⟨hdurations, nofun, nofun, fun _ =>
        inReach_of_ticksAdd hdeadline hedge (by have := hclick.1; omega)⟩
    · cases hb
      exact ⟨hdurations, nofun, nofun, h.series⟩

/-- All edges of a check. -/
lemma InReach.drain (h : InReach d now b) {events : List Event}
    (hedges : ∀ e ∈ events, 0 ≤ ticksDiff now e.ms)
    (hrepeats : 0 < d.repeatMs →
      ∀ e ∈ events, ticksDiff now e.ms - d.repeatDelayMs < TICKS_HALFPERIOD)
    (hb : b.drain events = .ok b') : InReach d now b' := by
  induction events generalizing b with
  | nil =>
    cases hb
    exact h
  | cons e events ih =>
    obtain ⟨next, hnext, hb⟩ := bind_eq_ok.mp hb
    refine ih ?_ (fun e he => hedges e (List.mem_cons_of_mem _ he))
      (fun hr e he => hrepeats hr e (List.mem_cons_of_mem _ he)) hb
    dsimp only at hnext
    split_ifs at hnext with hkey
    · exact h.applyEdge (hedges e List.mem_cons_self)
        (fun hr => hrepeats hr e List.mem_cons_self) hnext
    · cases hnext
      exact h

/-- The repeat after it has been advanced. -/
lemma advanceRepeat_spec (hreach : 0 < b.durations.repeatMs →
      -(TICKS_HALFPERIOD : ℤ) < ticksDiff b.repeatNextMs now)
    (hb : b.advanceRepeat now = .ok b') : ∃ (next : ℤ) (fires : Bool),
      b' = { b with repeatNextMs := next, justRepeated := fires } ∧
        (0 < b.durations.repeatMs → ChuMicro.Ahead next now) := by
  unfold advanceRepeat at hb
  dsimp only at hb
  split_ifs at hb with hdue
  · obtain ⟨next, hnext, hb⟩ := bind_eq_ok.mp hb
    cases hb
    refine ⟨next, true, rfl, fun hrepeat => ?_⟩
    have hback := ticksDiff_comm (hreach hrepeat)
    have hmissed : ticksDiff now b.repeatNextMs / b.durations.repeatMs * b.durations.repeatMs ≤
        ticksDiff now b.repeatNextMs := Int.ediv_mul_le _ hrepeat.ne'
    have hmissed' := Int.lt_ediv_add_one_mul_self (ticksDiff now b.repeatNextMs) hrepeat
    have hok : TicksOk ((ticksDiff now b.repeatNextMs / b.durations.repeatMs + 1) *
        b.durations.repeatMs) := by
      by_contra hbad
      rw [ticksAdd_of_not hbad] at hnext
      cases hnext
    have hbelow := hok.2
    have hdiff : ticksDiff next now = ticksDiff b.repeatNextMs now +
        (ticksDiff now b.repeatNextMs / b.durations.repeatMs + 1) * b.durations.repeatMs :=
      ticksDiff_of_ticksAdd hnext (by omega) (by omega)
    unfold ChuMicro.Ahead
    omega
  · cases hb
    refine ⟨b.repeatNextMs, b.justRepeated, rfl, fun hrepeat => ?_⟩
    have hback := ticksDiff_comm (hreach hrepeat)
    unfold ChuMicro.Ahead
    by_contra hnot
    exact hdue ⟨hrepeat, by omega⟩

/-- The series after it has been advanced. -/
lemma advanceSeries_spec (b : Button)
    (hreach : b.clickPending = true → -(TICKS_HALFPERIOD : ℤ) < ticksDiff b.clickDeadlineMs now) :
    ∃ (pending : Bool) (count pendingClicks : ℕ) (clicked : Bool), b.advanceSeries now =
        { b with
          clickPending := pending
          clickCount := count
          pendingClicks := pendingClicks
          justClicked := clicked } ∧
      (pending = true → ChuMicro.Ahead b.clickDeadlineMs now) := by
  unfold advanceSeries
  split_ifs with hdue
  · exact ⟨false, b.pendingClicks, 0, true, rfl, nofun⟩
  · refine ⟨b.clickPending, b.clickCount, b.pendingClicks, b.justClicked, rfl, fun hpending => ?_⟩
    have hback := ticksDiff_comm (hreach hpending)
    unfold ChuMicro.Ahead
    by_contra hnot
    exact hdue ⟨hpending, by omega⟩

/-- **The end of a check.** -/
lemma InReach.advance (h : InReach d now b) {fired : Bool}
    (hb : b.advance now = .ok (fired, b')) : Settled d now b' := by
  have hdurations := h.durations
  cases hpressed : b.pressed with
  | false =>
    unfold Button.advance at hb
    rw [if_neg (by rw [hpressed]; exact nofun), ok_bind] at hb
    obtain ⟨pending, count, clicks, clicked, hseries, hahead⟩ := advanceSeries_spec b h.series
    dsimp only at hb
    rw [hseries] at hb
    cases hb
    refine ⟨hdurations, ?_, ?_, ?_, ?_, hahead⟩
    all_goals exact fun hp => nomatch hpressed.symm.trans hp
  | true =>
    have hpress := h.press hpressed
    rw [advance_eq hpressed] at hb
    obtain ⟨fires, hlong, hfires⟩ :=
      advanceLongPress_eq { b with heldMs := max (ticksDiff now b.pressMs) 0 }
    rw [hlong] at hb
    cases hrepeat : advanceRepeat _ now with
    | error e =>
      rw [hrepeat] at hb
      cases hb
    | ok c =>
      obtain ⟨next, repeats, rfl, hnext⟩ := advanceRepeat_spec
        (by exact fun hr => h.repeats hpressed (hdurations ▸ hr)) hrepeat
      rw [hrepeat] at hb
      obtain ⟨holds, count, hhold, hholds, -⟩ := advanceHold_eq
        { b with
          longFired := b.longFired || fires
          justLongPressed := b.justLongPressed || fires
          heldMs := max (ticksDiff now b.pressMs) 0
          repeatNextMs := next
          justRepeated := repeats }
      have hheld : max (ticksDiff now b.pressMs) 0 = ticksDiff now b.pressMs := max_eq_left hpress
      dsimp only at hhold hholds hfires
      rw [hheld, hdurations] at hholds hfires
      obtain ⟨-, rfl⟩ := Prod.mk.inj (Except.ok.inj hb)
      rw [hhold]
      obtain ⟨pending, _, _, _, hseries, hahead⟩ := advanceSeries_spec
        { b with
          longFired := b.longFired || fires
          justLongPressed := b.justLongPressed || fires
          heldMs := max (ticksDiff now b.pressMs) 0
          repeatNextMs := next
          justRepeated := repeats
          pressIsClick := b.pressIsClick && !holds
          clickCount := count
          pendingClicks := if holds then 0 else b.pendingClicks
          justClicked := b.justClicked || (holds && decide (b.pendingClicks > 0)) } h.series
      rw [hseries]
      refine ⟨hdurations, fun _ => hpress, fun _ hpos hfired => ?_, fun _ hpos hclick => ?_,
        fun _ hpos => hnext (hdurations ▸ hpos), hahead⟩
      · -- a long press that has not fired is not due
        obtain ⟨hbefore, hnot⟩ := Bool.or_eq_false_iff.mp hfired
        by_contra hdue
        exact nomatch hnot.symm.trans (hfires.mpr ⟨hpos, hbefore, not_lt.mp hdue⟩)
      · -- a press that is still a click has not outlived the window
        obtain ⟨hbefore, hnot⟩ := Bool.and_eq_true_iff.mp hclick
        by_contra hdue
        exact nomatch ((Bool.not_eq_true' _).mp hnot).symm.trans
          (hholds.mpr ⟨hpos, hbefore, not_lt.mp hdue⟩)

/-- A timer that is set from a press, which it has outlived for less than its span. -/
lemma press_timer {pressMs : ℤ} (hring : ms < TICKS_HALFPERIOD) (hpress : 0 ≤ ticksDiff now pressMs)
    (hheld : ticksDiff now pressMs < ms) :
    ticksAdd pressMs ms = .ok ((pressMs + ms) % TICKS_PERIOD) ∧
      ticksDiff ((pressMs + ms) % TICKS_PERIOD) now = ms - ticksDiff now pressMs := by
  have hback : ticksDiff pressMs now = -ticksDiff now pressMs :=
    ticksDiff_comm (by unfold TICKS_HALFPERIOD; omega)
  have hadd : ticksAdd pressMs ms = .ok ((pressMs + ms) % TICKS_PERIOD) :=
    ticksAdd_of_ok ⟨by unfold TICKS_HALFPERIOD; omega, hring⟩
  have hdeadline : ticksDiff ((pressMs + ms) % TICKS_PERIOD) now = ticksDiff pressMs now + ms :=
    ticksDiff_of_ticksAdd hadd (by rw [hback]; unfold TICKS_HALFPERIOD; omega)
      (by rw [hback]; omega)
  exact ⟨hadd, by omega⟩

/-- A span from a press, up to a tick before the deadline at which it would be long enough. -/
lemma held_lt {pressMs : ℤ} (hring : ms < TICKS_HALFPERIOD) (hpress : 0 ≤ ticksDiff now pressMs)
    (hle : 0 ≤ ticksDiff t now)
    (hlt : ticksDiff t now < ticksDiff ((pressMs + ms) % TICKS_PERIOD) now)
    (hheld : ticksDiff now pressMs < ms) : max (ticksDiff t pressMs) 0 < ms := by
  have hdeadline := (press_timer hring hpress hheld).2
  have hspan : ticksDiff t pressMs = ticksDiff t now + ticksDiff now pressMs :=
    ticksDiff_add (by unfold TICKS_HALFPERIOD; omega) (by omega)
  omega

/-- A timer that fires later has not run out at an earlier tick. -/
lemma not_due (hle : 0 ≤ ticksDiff t now) (hlt : ticksDiff t now < ticksDiff deadline now) :
    ticksDiff t deadline < 0 := by
  have hlater := ticksDiff_later hle hlt.le
  have hback : ticksDiff t deadline = -ticksDiff deadline t :=
    ticksDiff_comm (by unfold TICKS_HALFPERIOD; omega)
  omega

/-- A key that is down, after a check at which nothing happens. -/
def waits (b : Button) (nowMs : ℤ) : Button :=
  { b.beginTick with heldMs := max (ticksDiff nowMs b.pressMs) 0 }

/-- **Before the deadline** nothing happens at a check. -/
lemma Settled.quiet (h : Settled d now b) (hring : d.InRing)
    (ht : ∀ deadline ∈ b.armed, 0 ≤ ticksDiff t now ∧ ticksDiff t now < ticksDiff deadline now) :
    ∃ b', b.check [] t = .ok (false, b') ∧ b'.recognition = b.recognition := by
  have hdurations := h.durations
  have hcheck : b.check [] t = b.beginTick.advance t := rfl
  have hseries : ∀ c : Button, c.clickPending = b.clickPending →
      c.clickDeadlineMs = b.clickDeadlineMs → c.advanceSeries t = c := by
    intro c hpending hdeadline
    unfold advanceSeries
    rw [hpending, hdeadline]
    refine if_neg ?_
    rintro ⟨hpending, hdue⟩
    obtain ⟨hle, hlt⟩ := ht _ (mem_armed.mpr (.inr ⟨hpending, rfl⟩))
    exact absurd (not_due hle hlt) (not_lt.mpr hdue)
  cases hpressed : b.pressed with
  | false =>
    refine ⟨b.beginTick, ?_, rfl⟩
    have hup : ¬ b.beginTick.pressed = true := by
      change ¬ b.pressed = true
      rw [hpressed]
      exact nofun
    rw [hcheck, Button.advance, if_neg hup, ok_bind]
    dsimp only
    rw [hseries b.beginTick rfl rfl]
    rfl
  | true =>
    have hpress := h.press hpressed
    have hlong : (b.waits t).advanceLongPress = b.waits t := by
      refine if_neg ?_
      rintro ⟨hpos, hfired, hdue⟩
      rw [Bool.not_eq_true] at hfired
      obtain ⟨hle, hlt⟩ := ht _ (mem_armed.mpr (.inl ⟨hpressed, .inl ⟨hpos, hfired, rfl⟩⟩))
      refine absurd (held_lt (hdurations ▸ hring.longPress) hpress hle hlt ?_) (not_lt.mpr hdue)
      exact hdurations ▸ h.longPress hpressed (hdurations ▸ hpos) hfired
    have hrepeat : (b.waits t).advanceRepeat t = .ok (b.waits t) := by
      refine if_neg ?_
      rintro ⟨hpos, hdue⟩
      obtain ⟨hle, hlt⟩ := ht _ (mem_armed.mpr (.inl ⟨hpressed, .inr (.inl ⟨hpos, rfl⟩)⟩))
      exact absurd (not_due hle hlt) (not_lt.mpr hdue)
    have hhold : (b.waits t).advanceHold = b.waits t := by
      refine if_neg ?_
      rintro ⟨hpos, hclick, hdue⟩
      obtain ⟨hle, hlt⟩ := ht _ (mem_armed.mpr (.inl ⟨hpressed, .inr (.inr ⟨hpos, hclick, rfl⟩)⟩))
      refine absurd (held_lt (hdurations ▸ hring.click) hpress hle hlt ?_) (not_lt.mpr hdue)
      exact hdurations ▸ h.hold hpressed (hdurations ▸ hpos) hclick
    refine ⟨b.waits t, ?_, rfl⟩
    rw [hcheck]
    refine (@advance_eq b.beginTick t hpressed).trans ?_
    change Except.map _ ((b.waits t).advanceLongPress.advanceRepeat t) = _
    rw [hlong, hrepeat, Except.map]
    dsimp only
    rw [hhold, hseries (b.waits t) rfl rfl]
    rfl

/-- The scan for the nearest deadline, timer by timer. -/
lemma Settled.longPressDeadline (h : Settled d now b) (hring : d.InRing)
    (hpressed : b.pressed = true) :
    ∃ nearest, b.longPressDeadline = .ok nearest ∧
      Nearest now (if 0 < b.durations.longPressMs ∧ ¬ b.longFired then
        [(b.pressMs + b.durations.longPressMs) % TICKS_PERIOD] else []) nearest := by
  have hdurations := h.durations
  unfold Button.longPressDeadline
  split_ifs with harmed
  · obtain ⟨hpos, hfired⟩ := harmed
    rw [Bool.not_eq_true] at hfired
    have hheld := h.longPress hpressed (hdurations ▸ hpos) hfired
    rw [hdurations]
    obtain ⟨hadd, hdiff⟩ := press_timer hring.longPress (h.press hpressed) hheld
    rw [hadd]
    exact ⟨_, rfl, nearest_singleton (by unfold ChuMicro.Ahead; omega)⟩
  · exact ⟨none, rfl, nearest_nil now⟩

lemma Settled.repeatDeadline (h : Settled d now b) (hpressed : b.pressed = true)
    (hnearest : Nearest now l nearest) :
    Nearest now (l ++ if 0 < b.durations.repeatMs then [b.repeatNextMs] else [])
      (b.repeatDeadline nearest) := by
  unfold Button.repeatDeadline
  split_ifs with hpos
  · exact hnearest.earlier (nearest_singleton (h.repeats hpressed (h.durations ▸ hpos)))
  · rw [List.append_nil]
    exact hnearest

lemma Settled.holdDeadline (h : Settled d now b) (hring : d.InRing) (hpressed : b.pressed = true)
    (hnearest : Nearest now l nearest) :
    ∃ nearest', b.holdDeadline nearest = .ok nearest' ∧
      Nearest now (l ++ if 0 < b.durations.clickMs ∧ b.pressIsClick then
        [(b.pressMs + b.durations.clickMs) % TICKS_PERIOD] else []) nearest' := by
  have hdurations := h.durations
  unfold Button.holdDeadline
  split_ifs with harmed
  · obtain ⟨hpos, hclick⟩ := harmed
    have hheld := h.hold hpressed (hdurations ▸ hpos) hclick
    rw [hdurations]
    obtain ⟨hadd, hdiff⟩ := press_timer hring.click (h.press hpressed) hheld
    rw [hadd]
    refine ⟨_, rfl, hnearest.earlier (nearest_singleton ?_)⟩
    unfold ChuMicro.Ahead
    omega
  · rw [List.append_nil]
    exact ⟨nearest, rfl, hnearest⟩

lemma Settled.seriesDeadline (h : Settled d now b) (hnearest : Nearest now l nearest) :
    Nearest now (l ++ if b.clickPending then [b.clickDeadlineMs] else [])
      (b.seriesDeadline nearest) := by
  unfold Button.seriesDeadline
  split_ifs with hpending
  · exact hnearest.earlier (nearest_singleton (h.series hpending))
  · rw [List.append_nil]
    exact hnearest

/-- **The reported deadline** is the nearest of those of the timers that are armed. -/
lemma Settled.nextDeadline (h : Settled d now b) (hring : d.InRing) :
    ∃ nearest, b.nextDeadline = .ok nearest ∧ Nearest now b.armed nearest := by
  unfold Button.nextDeadline armed
  by_cases hpressed : b.pressed = true
  · rw [if_pos hpressed, if_pos hpressed]
    obtain ⟨nearest, hnearest, hall⟩ := h.longPressDeadline hring hpressed
    obtain ⟨nearest', hnearest', hall'⟩ :=
      h.holdDeadline hring hpressed (h.repeatDeadline hpressed hall)
    rw [hnearest, ok_bind, hnearest', ok_bind]
    exact ⟨_, rfl, h.seriesDeadline hall'⟩
  · rw [if_neg hpressed, if_neg hpressed]
    exact ⟨_, rfl, h.seriesDeadline (nearest_nil now)⟩

/-! ## Runs of a button -/

/-- What fires next is told by what gestures are recognised by. -/
lemma settled_recognition : Settled d now b.recognition ↔ Settled d now b :=
  ⟨fun h => ⟨h.durations, h.press, h.longPress, h.hold, h.repeats, h.series⟩,
    fun h => ⟨h.durations, h.press, h.longPress, h.hold, h.repeats, h.series⟩⟩

lemma armed_recognition : b.recognition.armed = b.armed := rfl

/-- A button that has just been made has no timer armed. -/
lemma settled_new (d : Durations) (now : ℤ) : Settled d now { durations := d } :=
  ⟨rfl, nofun, nofun, nofun, nofun, nofun⟩

/-- **Every button that has been checked is settled.** -/
lemma Reached.settled (h : Reached d now b) : Settled d now b := by
  induction h with
  | new now => exact settled_new d now
  | check before timely returns ih =>
    obtain ⟨drained, hdrained, hadvance⟩ := bind_eq_ok.mp returns
    have hreach := ih.beginTick (timely.gap _ (List.mem_singleton_self _))
      (timely.holds _ (List.mem_singleton_self _))
    exact (hreach.drain timely.edges timely.repeats hdrained).advance hadvance

/-- **Before the deadline** nothing happens at any number of checks. -/
lemma Settled.watch (h : Settled d now b) (hring : d.InRing) (ticks : List ℤ)
    (hticks : ∀ t ∈ ticks, ∀ deadline ∈ b.armed,
      0 ≤ ticksDiff t now ∧ ticksDiff t now < ticksDiff deadline now) :
    ∃ b', watch ticks b = .ok (ticks.map fun _ => false, b') ∧ b'.recognition = b.recognition := by
  induction ticks generalizing b with
  | nil => exact ⟨b, rfl, rfl⟩
  | cons t ticks ih =>
    obtain ⟨next, hcheck, hsame⟩ := h.quiet hring (hticks t List.mem_cons_self)
    have hnext : Settled d now next := by
      rw [← settled_recognition, hsame, settled_recognition]
      exact h
    obtain ⟨b', hwatch, hsame'⟩ := ih hnext fun t ht => by
      rw [← armed_recognition, hsame, armed_recognition]
      exact hticks t (List.mem_cons_of_mem _ ht)
    refine ⟨b', ?_, hsame'.trans hsame⟩
    rw [Button.watch, hcheck, ok_bind]
    dsimp only
    rw [hwatch, ok_bind]
    rfl

end Button

/-! ## Runs of a panel -/

namespace Panel

open Button

variable {d : Durations} {keyCount : ℕ} {prev now : ℤ} {panel panel' : Panel}
  {keys keys' : List Button}

/-- An edge of one of the keys. -/
lemma inReach_applyEdge {e : Event} (hkeys : ∀ key ∈ keys, InReach d now key)
    (hedge : 0 ≤ ticksDiff now e.ms)
    (hrepeats : 0 < d.repeatMs → ticksDiff now e.ms - d.repeatDelayMs < TICKS_HALFPERIOD)
    (h : applyEdge keys e = .ok keys') : ∀ key ∈ keys', InReach d now key := by
  unfold Panel.applyEdge at h
  cases hkey : keys[e.key]? with
  | none =>
    rw [hkey] at h
    cases h
  | some key =>
    rw [hkey] at h
    obtain ⟨next, hnext, h⟩ := bind_eq_ok.mp h
    cases h
    intro other hmem
    obtain hmem | rfl := List.mem_or_eq_of_mem_set hmem
    · exact hkeys other hmem
    · exact (hkeys key (List.mem_of_getElem? hkey)).applyEdge hedge hrepeats hnext

/-- All edges of a check. -/
lemma inReach_edges {events : List Event} (hkeys : ∀ key ∈ keys, InReach d now key)
    (hedges : ∀ e ∈ events, 0 ≤ ticksDiff now e.ms)
    (hrepeats : 0 < d.repeatMs →
      ∀ e ∈ events, ticksDiff now e.ms - d.repeatDelayMs < TICKS_HALFPERIOD)
    (h : events.foldlM applyEdge keys = .ok keys') : ∀ key ∈ keys', InReach d now key := by
  induction events generalizing keys with
  | nil =>
    cases h
    exact hkeys
  | cons e events ih =>
    obtain ⟨next, hnext, h⟩ := bind_eq_ok.mp h
    refine ih ?_ (fun e he => hedges e (List.mem_cons_of_mem _ he))
      (fun hr e he => hrepeats hr e (List.mem_cons_of_mem _ he)) h
    exact inReach_applyEdge hkeys (hedges e List.mem_cons_self)
      (fun hr => hrepeats hr e List.mem_cons_self) hnext

/-- The end of a check, key by key. -/
lemma settled_advance {fired : Bool} (hkeys : ∀ key ∈ keys, InReach d now key)
    (h : advance now keys = .ok (fired, keys')) : ∀ key ∈ keys', Settled d now key := by
  induction keys generalizing fired keys' with
  | nil =>
    cases h
    exact List.forall_mem_nil _
  | cons key keys ih =>
    obtain ⟨⟨first, next⟩, hnext, h⟩ := bind_eq_ok.mp h
    obtain ⟨⟨others, rest⟩, hrest, h⟩ := bind_eq_ok.mp h
    cases h
    intro other hmem
    obtain rfl | hmem := List.mem_cons.mp hmem
    · exact (hkeys key List.mem_cons_self).advance hnext
    · exact ih (fun key hkey => hkeys key (List.mem_cons_of_mem _ hkey)) hrest other hmem

/-- **Every key of a panel that has been checked is settled.** -/
lemma Reached.settled (h : Reached d keyCount now panel) :
    ∀ key ∈ panel.keys, Settled d now key := by
  induction h with
  | new now =>
    intro key hmem
    rw [List.eq_of_mem_replicate hmem]
    exact settled_new d now
  | check before timely returns ih =>
    obtain ⟨drained, hdrained, h⟩ := bind_eq_ok.mp returns
    obtain ⟨⟨fired, keys⟩, hadvance, h⟩ := bind_eq_ok.mp h
    cases h
    refine settled_advance (inReach_edges ?_ timely.edges timely.repeats hdrained) hadvance
    intro key hmem
    obtain ⟨old, hold, rfl⟩ := List.mem_map.mp hmem
    exact (ih old hold).beginTick (timely.gap old hold) (timely.holds old hold)

/-- The scan for the nearest deadline, key by key. -/
lemma nextDeadline_keys (hring : d.InRing) (hkeys : ∀ key ∈ keys, Settled d now key) {l : List ℤ}
    {nearest : Option ℤ} (hnearest : Nearest now l nearest) :
    ∃ nearest', keys.foldlM (fun nearest (key : Button) => do
        let candidate ← key.nextDeadline
        .ok (earlier nearest candidate)) nearest = (.ok nearest' : Except PyExn (Option ℤ)) ∧
      Nearest now (l ++ keys.flatMap armed) nearest' := by
  induction keys generalizing l nearest with
  | nil =>
    rw [List.flatMap_nil, List.append_nil]
    exact ⟨nearest, rfl, hnearest⟩
  | cons key keys ih =>
    obtain ⟨candidate, hcandidate, hall⟩ := (hkeys key List.mem_cons_self).nextDeadline hring
    rw [List.foldlM_cons, hcandidate, ok_bind, ok_bind, List.flatMap_cons, ← List.append_assoc]
    exact ih (fun key hkey => hkeys key (List.mem_cons_of_mem _ hkey)) (hnearest.earlier hall)

/-- **The reported deadline** is the nearest of those of the timers of all keys. -/
lemma nextDeadline_spec (hring : d.InRing) (hkeys : ∀ key ∈ panel.keys, Settled d now key) :
    ∃ nearest, panel.nextDeadline = .ok nearest ∧
      Nearest now (panel.keys.flatMap armed) nearest :=
  nextDeadline_keys hring hkeys (nearest_nil now)

/-- A check of keys that nothing happens at. -/
lemma quiet_keys {t : ℤ} (hring : d.InRing) (hkeys : ∀ key ∈ keys, Settled d now key)
    (ht : ∀ deadline ∈ keys.flatMap armed,
      0 ≤ ticksDiff t now ∧ ticksDiff t now < ticksDiff deadline now) :
    ∃ keys', advance t (keys.map Button.beginTick) = .ok (false, keys') ∧
      keys'.map Button.recognition = keys.map Button.recognition := by
  induction keys with
  | nil => exact ⟨[], rfl, rfl⟩
  | cons key keys ih =>
    rw [List.flatMap_cons] at ht
    obtain ⟨next, hnext, hsame⟩ := (hkeys key List.mem_cons_self).quiet hring
      fun deadline hmem => ht deadline (List.mem_append_left _ hmem)
    obtain ⟨rest, hrest, hsame'⟩ := ih (fun key hkey => hkeys key (List.mem_cons_of_mem _ hkey))
      fun deadline hmem => ht deadline (List.mem_append_right _ hmem)
    refine ⟨next :: rest, ?_, congrArg₂ List.cons hsame hsame'⟩
    have hadvance : key.beginTick.advance t = .ok (false, next) := hnext
    rw [List.map_cons, Panel.advance, hadvance, ok_bind]
    dsimp only
    rw [hrest, ok_bind]
    rfl

/-- The timers of all keys are told by what gestures are recognised by. -/
lemma armed_keys (keys : List Button) :
    (keys.map Button.recognition).flatMap armed = keys.flatMap armed := by
  rw [List.flatMap_map]
  rfl

/-- **Before the deadline** nothing happens at any number of checks. -/
lemma watch_quiet (hring : d.InRing) (hkeys : ∀ key ∈ panel.keys, Settled d now key)
    (ticks : List ℤ) (hticks : ∀ t ∈ ticks, ∀ deadline ∈ panel.keys.flatMap armed,
      0 ≤ ticksDiff t now ∧ ticksDiff t now < ticksDiff deadline now) :
    ∃ panel', watch ticks panel = .ok (ticks.map fun _ => false, panel') ∧
      panel'.recognition = panel.recognition := by
  induction ticks generalizing panel with
  | nil => exact ⟨panel, rfl, rfl⟩
  | cons t ticks ih =>
    obtain ⟨keys', hadvance, hsame⟩ := quiet_keys hring hkeys (hticks t List.mem_cons_self)
    have hcheck : panel.check [] t = .ok (false, ⟨keys'⟩) := by
      unfold check
      rw [List.foldlM_nil]
      refine (ok_bind _ _).trans ?_
      rw [hadvance, ok_bind]
    have hkeys' : ∀ key ∈ keys', Settled d now key := by
      intro key hmem
      have hrecognition : key.recognition ∈ keys'.map Button.recognition :=
        List.mem_map_of_mem hmem
      rw [hsame] at hrecognition
      obtain ⟨old, hold, heq⟩ := List.mem_map.mp hrecognition
      rw [← settled_recognition, ← heq, settled_recognition]
      exact hkeys old hold
    have harmed : keys'.flatMap armed = panel.keys.flatMap armed := by
      rw [← armed_keys, hsame, armed_keys]
    obtain ⟨panel', hwatch, hsame'⟩ := @ih ⟨keys'⟩ hkeys' fun t ht => by
      rw [harmed]
      exact hticks t (List.mem_cons_of_mem _ ht)
    refine ⟨panel', ?_, hsame'.trans hsame⟩
    rw [Panel.watch, hcheck, ok_bind]
    dsimp only
    rw [hwatch, ok_bind]
    rfl

end Panel

/-! ## Both -/

/-- **A deadline that a button or a panel reports after a check is sound**: it is later than the
check, and at any number of checks before it without new edges nothing is reported, nothing raises
and what gestures are recognised by stays as it is. So does it for ever where no deadline is
reported. -/
theorem next_deadline_sound (d : Durations) (hring : d.InRing) :
    (∀ now b, Button.Reached d now b → ∃ deadline, b.nextDeadline = .ok deadline ∧
      (∀ tick, deadline = some tick → ChuMicro.Ahead tick now) ∧
      ∀ ticks : List ℤ, (∀ t ∈ ticks, ComesBefore now deadline t) →
        ∃ b', Button.watch ticks b = .ok (ticks.map fun _ => false, b') ∧
          b'.recognition = b.recognition) ∧
    ∀ keyCount now panel, Panel.Reached d keyCount now panel →
      ∃ deadline, panel.nextDeadline = .ok deadline ∧
        (∀ tick, deadline = some tick → ChuMicro.Ahead tick now) ∧
        ∀ ticks : List ℤ, (∀ t ∈ ticks, ComesBefore now deadline t) →
          ∃ panel', Panel.watch ticks panel = .ok (ticks.map fun _ => false, panel') ∧
            panel'.recognition = panel.recognition := by
  constructor
  · intro now b hreached
    obtain ⟨deadline, hdeadline, hnearest⟩ := hreached.settled.nextDeadline hring
    refine ⟨deadline, hdeadline, hnearest.ahead, fun ticks hticks => ?_⟩
    exact hreached.settled.watch hring ticks fun t ht => hnearest.comesBefore (hticks t ht)
  · intro keyCount now panel hreached
    obtain ⟨deadline, hdeadline, hnearest⟩ := Panel.nextDeadline_spec hring hreached.settled
    refine ⟨deadline, hdeadline, hnearest.ahead, fun ticks hticks => ?_⟩
    exact Panel.watch_quiet hring hreached.settled ticks fun t ht =>
      hnearest.comesBefore (hticks t ht)

/-- A panel of two keys, one of which goes down ten milliseconds before a check. -/
def pressedPanel : Panel :=
  ⟨[{ durations := { repeatMs := 100 }
      pressed := true
      justPressed := true
      heldMs := 10
      pressMs := 990
      repeatNextMs := 1490
      pressIsClick := true }, { durations := { repeatMs := 100 } }]⟩

theorem next_deadline_sound_pressed :
    ∃ deadline, pressedPanel.nextDeadline = .ok deadline ∧
      (∀ tick, deadline = some tick → ChuMicro.Ahead tick 1000) ∧
      ∀ ticks : List ℤ, (∀ t ∈ ticks, ComesBefore 1000 deadline t) →
        ∃ panel', Panel.watch ticks pressedPanel = .ok (ticks.map fun _ => false, panel') ∧
          panel'.recognition = pressedPanel.recognition := by
  have hring : Durations.InRing { repeatMs := 100 } := ⟨by decide, by decide⟩
  refine (next_deadline_sound _ hring).2 2 1000 pressedPanel ?_
  refine @Panel.Reached.check _ _ 0 1000 _ _ [⟨0, true, 990⟩] true (.new 0) ?_ (by decide +kernel)
  exact ⟨by decide, by decide, by decide, by decide⟩

end ChuMicro.Buttons
