import ChuMicro.Buttons.Capture
import ChuMicro.Lib.Series

/-!
# Gestures

`Button` of `chumicro_buttons/core.py`: what one key's debounced edges mean. A check drains the
edges that its source has, each with the tick at which it happened, and then advances the timers to
the tick of the check.

A `Session` is a button that is checked again and again. Its edges are given by their real times,
presses and releases in turn, and a check drains those that have happened by then.

## Main definitions

* `Buttons.Button` — a button, with `applyEdge`, `advance` and `check`.
* `Buttons.Session` — a button in a loop, with what it has published.
* `Buttons.presses`, `Buttons.clicks`, `Buttons.longPresses` — what edges mean.
* `Buttons.Prompt` — checks that come in time to see what they have to.
-/

namespace ChuMicro.Buttons

open Signals

/-! ## The button -/

/-- The durations that a button is made with. -/
structure Durations where
  longPressMs : ℤ := 500
  repeatMs : ℤ := 0
  repeatDelayMs : ℤ := 500
  clickMs : ℤ := 0
  deriving DecidableEq, Repr

/-- `Button`, without its source and its callbacks. -/
structure Button where
  durations : Durations
  pressed : Bool := false
  justPressed : Bool := false
  justReleased : Bool := false
  justLongPressed : Bool := false
  justRepeated : Bool := false
  justClicked : Bool := false
  heldMs : ℤ := 0
  clickCount : ℕ := 0
  pressMs : ℤ := 0
  longFired : Bool := false
  repeatNextMs : ℤ := 0
  pendingClicks : ℕ := 0
  clickDeadlineMs : ℤ := 0
  clickPending : Bool := false
  pressIsClick : Bool := false
  deriving DecidableEq, Repr

namespace Button

/-- `_begin_tick`. -/
def beginTick (b : Button) : Button :=
  { b with
    justPressed := false
    justReleased := false
    justLongPressed := false
    justRepeated := false
    justClicked := false }

/-- `_apply_edge`. -/
def applyEdge (b : Button) (pressed : Bool) (eventMs : ℤ) : Except PyExn Button :=
  if pressed = b.pressed then .ok b
  else if pressed then do
    let repeatNextMs ← ticksAdd eventMs b.durations.repeatDelayMs
    .ok { b with
      pressed := true
      pressMs := eventMs
      longFired := false
      repeatNextMs := repeatNextMs
      clickPending := false
      pressIsClick := true
      justPressed := true }
  else do
    let b := { b with
      pressed := false
      heldMs := max (ticksDiff eventMs b.pressMs) 0
      justReleased := true }
    if 0 < b.durations.clickMs ∧ b.pressIsClick then
      let clickDeadlineMs ← ticksAdd eventMs b.durations.clickMs
      .ok { b with
        pendingClicks := b.pendingClicks + 1
        clickDeadlineMs := clickDeadlineMs
        clickPending := true }
    else .ok b

/-- The part of `_advance` that fires a long press. -/
def advanceLongPress (b : Button) : Button :=
  if 0 < b.durations.longPressMs ∧ ¬ b.longFired ∧ b.heldMs ≥ b.durations.longPressMs then
    { b with longFired := true, justLongPressed := true }
  else b

/-- The part of `_advance` that repeats. -/
def advanceRepeat (b : Button) (nowMs : ℤ) : Except PyExn Button :=
  let behindMs := ticksDiff nowMs b.repeatNextMs
  if 0 < b.durations.repeatMs ∧ behindMs ≥ 0 then do
    let periodsMissed := behindMs / b.durations.repeatMs + 1
    let repeatNextMs ← ticksAdd b.repeatNextMs (periodsMissed * b.durations.repeatMs)
    .ok { b with repeatNextMs := repeatNextMs, justRepeated := true }
  else .ok b

/-- The part of `_advance` for a press that has outlived the click window: it is a hold, and it
closes the series that was open. -/
def advanceHold (b : Button) : Button :=
  if 0 < b.durations.clickMs ∧ b.pressIsClick ∧ b.heldMs ≥ b.durations.clickMs then
    if b.pendingClicks > 0 then
      { b with
        pressIsClick := false, clickCount := b.pendingClicks
        pendingClicks := 0, justClicked := true }
    else { b with pressIsClick := false }
  else b

/-- The part of `_advance` that closes a click series. -/
def advanceSeries (b : Button) (nowMs : ℤ) : Button :=
  if b.clickPending ∧ ticksDiff nowMs b.clickDeadlineMs ≥ 0 then
    { b with clickPending := false, clickCount := b.pendingClicks, pendingClicks := 0, justClicked := true }
  else b

/-- `_advance`. It returns whether the tick has produced something. -/
def advance (b : Button) (nowMs : ℤ) : Except PyExn (Bool × Button) := do
  let b ← if b.pressed then do
      let b := { b with heldMs := max (ticksDiff nowMs b.pressMs) 0 }
      let b ← b.advanceLongPress.advanceRepeat nowMs
      .ok b.advanceHold
    else .ok b
  let b := b.advanceSeries nowMs
  .ok (b.justPressed || b.justReleased || b.justLongPressed || b.justRepeated || b.justClicked, b)

/-- The loop of `check` over the edges of the source. A lone button owns key 0. -/
def drain (b : Button) (events : List Event) : Except PyExn Button :=
  events.foldlM (fun b event => if event.key = 0 then b.applyEdge event.pressed event.ms else .ok b) b

/-- `check`, for the edges that its source has. -/
def check (b : Button) (events : List Event) (nowMs : ℤ) : Except PyExn (Bool × Button) := do
  let b ← b.beginTick.drain events
  b.advance nowMs

end Button

/-! ## A button in a loop -/

/-- Presses and releases in turn, at these times. -/
def eventsFrom (level : Bool) : List ℤ → List Event
  | [] => []
  | time :: times => ⟨0, !level, ticksMs time⟩ :: eventsFrom (!level) times

/-- A button in a loop: the times of the edges that it has not seen, the level and the time of the
last one that it has seen, the values of `click_count` that were published, and the times of the
presses for which `just_long_pressed` was true. -/
structure Session where
  button : Button
  rest : List ℤ
  level : Bool := false
  last : ℤ := 0
  published : List ℕ := []
  longs : List ℤ := []

namespace Session

/-- A check at a real time. Edges arrive at the first check at or after their time. -/
def check (s : Session) (time : ℤ) : Except PyExn Session := do
  let batch := s.rest.takeWhile (· ≤ time)
  let events := eventsFrom s.level batch
  let (_, b) ← s.button.check events (ticksMs time)
  let last := batch.getLastD s.last
  .ok {
    button := b
    rest := s.rest.dropWhile (· ≤ time)
    level := (events.map Event.pressed).getLastD s.level
    last := last
    published := s.published ++ if b.justClicked then [b.clickCount] else []
    longs := s.longs ++ if b.justLongPressed then [last] else [] }

end Session

/-- A button that has just been made is checked at these times. -/
def watch (durations : Durations) (edges checks : List ℤ) : Except PyExn Session :=
  checks.foldlM Session.check { button := { durations }, rest := edges }

/-! ## What edges mean -/

/-- The presses among edges, with the times of their releases. -/
def presses : List ℤ → List (ℤ × Option ℤ)
  | [] => []
  | [press] => [(press, none)]
  | press :: release :: edges => (press, some release) :: presses edges

/-- The presses that are clicks: those held for less than `click_ms`. -/
def clicks (durations : Durations) (edges : List ℤ) : List (ℤ × ℤ) :=
  (presses edges).filterMap fun (press, release) =>
    release.bind fun release => if release - press < durations.clickMs then some (press, release) else none

/-- The presses that are held for `long_press_ms`. -/
def longPresses (durations : Durations) (edges : List ℤ) : List ℤ :=
  (presses edges).filterMap fun (press, release) =>
    if 0 < durations.longPressMs ∧ ∀ time ∈ release, durations.longPressMs ≤ time - press then some press
    else none

/-- Checks come in time: while a key has been held for `click_ms` or `long_press_ms` there is a
check before its release, when no press follows a click for `click_ms` there is a check before the
next press, and checks are close enough together for the ticks of the repeats. -/
structure Prompt (durations : Durations) (edges checks : List ℤ) : Prop where
  clickMs_lt : durations.clickMs < TICKS_HALFPERIOD
  repeatDelayMs_lt : |durations.repeatDelayMs| < TICKS_HALFPERIOD
  delivered : ∀ edge ∈ edges, ∃ t ∈ checks, edge ≤ t
  held : ∀ before press after, edges = before ++ press :: after → Even before.length →
    ∀ ms, ms = durations.clickMs ∨ ms = durations.longPressMs → 0 < ms →
    (∀ release ∈ after.head?, ms ≤ release - press) →
    ∃ t ∈ checks, press + ms ≤ t ∧ t < press + TICKS_HALFPERIOD ∧ ∀ release ∈ after.head?, t < release
  quiet : ∀ before press release after, edges = before ++ press :: release :: after → Even before.length →
    release - press < durations.clickMs →
    (∀ next ∈ after.head?, durations.clickMs ≤ next - release) →
    ∃ t ∈ checks, release + durations.clickMs ≤ t ∧
      t < release + durations.clickMs + TICKS_HALFPERIOD ∧ ∀ next ∈ after.head?, t < next
  repeats : 0 < durations.repeatMs →
    ∀ before press after, edges = before ++ press :: after → Even before.length →
    ∀ t ∈ checks, press ≤ t → (∀ release ∈ after.head?, t < release) →
    t - (press + durations.repeatDelayMs) + durations.repeatMs < TICKS_HALFPERIOD ∨
      ∃ t' ∈ checks, press ≤ t' ∧ t' < t ∧ t - t' + durations.repeatMs < TICKS_HALFPERIOD

end ChuMicro.Buttons
