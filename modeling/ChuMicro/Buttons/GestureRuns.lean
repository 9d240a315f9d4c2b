import ChuMicro.Buttons.Gestures
import ChuMicro.Buttons.CaptureRuns
import Mathlib.Data.List.TakeWhile

/-!
# What gestures depend on

Edges come with the ticks at which they happened, but a timer of a button runs out only when a check
sees it. So what a button publishes is told by its edges alone when checks come in time, and depends
on the checks otherwise: a long hold that a loop sees only when it is over is counted as a click.

## Main definitions

* `Buttons.Up`, `Buttons.Down` — what is true of a button whose key is up or down.
* `Buttons.Watched` — what every session keeps.

## Main results

* `Buttons.gestures_of_edges` — what is published is told by the edges.
-/

namespace ChuMicro.Buttons

open Signals

/-! ## Ticks -/

/-- Ticks that seem far apart are far apart. -/
lemma le_of_le_ticksDiff {ms start now : ℤ} (hnow : start ≤ now)
    (h : ms ≤ ticksDiff (ticksMs now) (ticksMs start)) : start + ms ≤ now := by
  by_cases hnear : |now - start| < TICKS_HALFPERIOD
  · rw [ticksDiff_ticksMs (abs_lt.mp hnear).1.le (abs_lt.mp hnear).2] at h
    omega
  · have hlt : ticksDiff (ticksMs now) (ticksMs start) < TICKS_HALFPERIOD := by
      unfold ticksDiff
      simp only [TICKS_HALFPERIOD, TICKS_PERIOD]
      push_cast
      omega
    rw [not_lt, abs_of_nonneg (by omega)] at hnear
    omega

/-- A deadline that seems to be over is over. -/
lemma le_of_ticksDiff_nonneg {deadline now : ℤ} (hnow : deadline - now < TICKS_HALFPERIOD)
    (h : 0 ≤ ticksDiff (ticksMs now) (ticksMs deadline)) : deadline ≤ now := by
  by_contra hlt
  rw [ticksDiff_ticksMs (by omega) (by omega)] at h
  omega

/-! ## Presses that are over -/

/-- The times of the edges of presses that are over. -/
def edgesOf (finished : List (ℤ × ℤ)) : List ℤ := finished.flatMap fun h => [h.1, h.2]

lemma even_length_edgesOf (finished : List (ℤ × ℤ)) : Even (edgesOf finished).length := by
  induction finished with
  | nil => exact Even.zero
  | cons h finished ih =>
    rw [edgesOf, List.flatMap_cons, List.length_append]
    exact even_two.add ih

lemma edgesOf_concat (finished : List (ℤ × ℤ)) (h : ℤ × ℤ) :
    edgesOf (finished ++ [h]) = edgesOf finished ++ [h.1, h.2] := by
  rw [edgesOf, List.flatMap_append]
  rfl

lemma presses_append (finished : List (ℤ × ℤ)) (edges : List ℤ) :
    presses (edgesOf finished ++ edges) = finished.map (fun h => (h.1, some h.2)) ++ presses edges := by
  induction finished with
  | nil => rfl
  | cons h finished ih =>
    rw [List.map_cons, List.cons_append, ← ih]
    rfl

/-- The clicks among presses that are over. -/
def clicksOf (durations : Durations) (finished : List (ℤ × ℤ)) : List (ℤ × ℤ) :=
  finished.filter fun h => h.2 - h.1 < durations.clickMs

/-- The long presses among presses that are over. -/
def longsOf (durations : Durations) (finished : List (ℤ × ℤ)) : List ℤ :=
  (finished.filter fun h => 0 < durations.longPressMs ∧ durations.longPressMs ≤ h.2 - h.1).map Prod.fst

lemma clicks_append (durations : Durations) (finished : List (ℤ × ℤ)) (edges : List ℤ) :
    clicks durations (edgesOf finished ++ edges) =
      clicksOf durations finished ++ clicks durations edges := by
  rw [clicks, presses_append, List.filterMap_append, List.filterMap_map, clicksOf,
    ← List.filterMap_eq_filter]
  congr 1
  refine List.filterMap_congr fun h _ => ?_
  simp [Option.guard]

lemma longPresses_append (durations : Durations) (finished : List (ℤ × ℤ)) (edges : List ℤ) :
    longPresses durations (edgesOf finished ++ edges) =
      longsOf durations finished ++ longPresses durations edges := by
  rw [longPresses, presses_append, List.filterMap_append, List.filterMap_map, longsOf]
  congr 1
  rw [← List.filterMap_eq_filter, List.map_filterMap]
  refine List.filterMap_congr fun h _ => ?_
  simp [Option.guard]

/-! ## A key that is up, and a key that is down -/

/-- The clicks so far have been published, but for those of the last series. -/
structure Tally (d : Durations) (finished closed series : List (ℤ × ℤ)) (b : Button)
    (published : List ℕ) : Prop where
  clicks_eq : clicksOf d finished = closed ++ series
  ends : EndsInSeries d.clickMs closed series
  published_eq : published = seriesLengths d.clickMs closed
  pending_eq : b.pendingClicks = series.length
  disabled : d.clickMs ≤ 0 → closed = [] ∧ series = []

/-- What is true of a button whose key is up: a series is open as long as no check has seen its end.
-/
structure Up (d : Durations) (seen : List ℤ) (finished closed series : List (ℤ × ℤ)) (b : Button)
    (published : List ℕ) (longs : List ℤ) : Prop extends Tally d finished closed series b published where
  pressed_eq : b.pressed = false
  longs_eq : longs = longsOf d finished
  pending_iff : b.clickPending = true ↔ series ≠ []
  last : ∀ x ∈ series.getLast?, finished.getLast? = some x ∧ b.clickDeadlineMs = ticksMs (x.2 + d.clickMs) ∧
    ∀ t ∈ seen, x.2 + d.clickMs ≤ t → x.2 + d.clickMs + TICKS_HALFPERIOD ≤ t
  quiet : series = [] → ∀ x ∈ closed.getLast?, ∃ t ∈ seen, x.2 + d.clickMs ≤ t

/-- When the next repeat of a key is due that is down since `press`. -/
def DueAt (d : Durations) (seen : List ℤ) (press next : ℤ) : Prop :=
  press + d.repeatDelayMs ≤ next ∧ (∀ t ∈ seen, press ≤ t → t < next) ∧
    (next = press + d.repeatDelayMs ∨ d.repeatMs < TICKS_HALFPERIOD ∧ ∃ t ∈ seen, next ≤ t + d.repeatMs)

/-- What is true of a button whose key is down since `press`: it is a hold or a long press as soon
as a check has seen that. -/
structure Down (d : Durations) (seen : List ℤ) (finished closed series : List (ℤ × ℤ)) (press : ℤ)
    (b : Button) (published : List ℕ) (longs : List ℤ) : Prop
    extends Tally d finished closed series b published where
  pressed_eq : b.pressed = true
  pressMs_eq : b.pressMs = ticksMs press
  clickPending_eq : b.clickPending = false
  longs_eq : longs = longsOf d finished ++ if b.longFired then [press] else []
  long_of_fired : b.longFired = true → 0 < d.longPressMs ∧ ∃ t ∈ seen, press + d.longPressMs ≤ t
  fired_of_long : 0 < d.longPressMs → ∀ t ∈ seen, press + d.longPressMs ≤ t →
    t < press + TICKS_HALFPERIOD → b.longFired = true
  click : b.pressIsClick = true → (∀ x ∈ series.getLast?, press - x.2 < d.clickMs) ∧
    (series = [] → ∀ x ∈ closed.getLast?, x.2 + d.clickMs ≤ press)
  hold : b.pressIsClick = false → series = [] ∧ 0 < d.clickMs ∧ (∃ t ∈ seen, press + d.clickMs ≤ t) ∧
    ∀ x ∈ closed.getLast?, ∃ t ∈ seen, x.2 + d.clickMs ≤ t
  hold_of_long : 0 < d.clickMs → ∀ t ∈ seen, press + d.clickMs ≤ t → t < press + TICKS_HALFPERIOD →
    b.pressIsClick = false
  next : 0 < d.repeatMs → ∃ next, b.repeatNextMs = ticksMs next ∧ DueAt d seen press next

section Edges

variable {d : Durations} {seen longs : List ℤ} {finished closed series : List (ℤ × ℤ)} {b : Button}
  {published : List ℕ} {press time : ℤ}

lemma clicksOf_concat (d : Durations) (finished : List (ℤ × ℤ)) (h : ℤ × ℤ) :
    clicksOf d (finished ++ [h]) = clicksOf d finished ++ if h.2 - h.1 < d.clickMs then [h] else [] := by
  rw [clicksOf, List.filter_append, clicksOf]
  congr 1
  by_cases hclick : h.2 - h.1 < d.clickMs <;> simp [hclick]

lemma longsOf_concat (d : Durations) (finished : List (ℤ × ℤ)) (h : ℤ × ℤ) :
    longsOf d (finished ++ [h]) = longsOf d finished ++
      if 0 < d.longPressMs ∧ d.longPressMs ≤ h.2 - h.1 then [h.1] else [] := by
  rw [longsOf, List.filter_append, List.map_append, longsOf]
  congr 1
  by_cases hlong : 0 < d.longPressMs ∧ d.longPressMs ≤ h.2 - h.1 <;> simp [hlong]

/-- A button whose durations are `d` and that has nothing to tell of clicks and long presses. -/
structure Silent (d : Durations) (b : Button) : Prop where
  durations_eq : b.durations = d
  justClicked_eq : b.justClicked = false
  justLongPressed_eq : b.justLongPressed = false

/-- **The key goes down.** -/
lemma Up.goesDown (h : Up d seen finished closed series b published longs) (hb : Silent d b)
    (hdelay : |d.repeatDelayMs| < TICKS_HALFPERIOD) (hseen : ∀ t ∈ seen, t < time)
    (hnear : ∀ x ∈ series.getLast?, time - x.2 < d.clickMs) :
    ∃ b', b.applyEdge true (ticksMs time) = .ok b' ∧ Silent d b' ∧
      Down d seen finished closed series time b' published longs := by
  have happly : b.applyEdge true (ticksMs time) = .ok { b with
      pressed := true
      pressMs := ticksMs time
      longFired := false
      repeatNextMs := ticksMs (time + d.repeatDelayMs)
      clickPending := false
      pressIsClick := true
      justPressed := true } := by
    rw [Button.applyEdge, if_neg (by simp [h.pressed_eq]), if_pos rfl, hb.durations_eq,
      ticksAdd_ticksMs (abs_lt.mp hdelay), ok_bind]
  refine ⟨_, happly, ⟨hb.durations_eq, hb.justClicked_eq, hb.justLongPressed_eq⟩,
    ⟨h.clicks_eq, h.ends, h.published_eq, h.pending_eq, h.disabled⟩, rfl, rfl, rfl, ?_, ?_, ?_,
      fun _ => ⟨hnear, ?_⟩,
    ?_, ?_, ?_⟩
  · rw [h.longs_eq]
    exact (List.append_nil _).symm
  · intro hfired
    cases hfired
  · intro hlong t ht hge
    have := hseen t ht
    omega
  · intro hnil x hx
    obtain ⟨t, ht, hge⟩ := h.quiet hnil x hx
    have := hseen t ht
    omega
  · intro hfalse
    cases hfalse
  · intro hclick t ht hge
    have := hseen t ht
    omega
  · intro hrepeat
    refine ⟨time + d.repeatDelayMs, rfl, le_rfl, fun t ht hge => ?_, .inl rfl⟩
    have := hseen t ht
    omega

/-- **The key goes up** after a hold that the checks have seen, or after a click. -/
lemma Down.goesUp (h : Down d seen finished closed series press b published longs) (hb : Silent d b)
    (hclickMs : d.clickMs < TICKS_HALFPERIOD) (hseen : ∀ t ∈ seen, t < time) (hle : press ≤ time)
    (hhold : 0 < d.clickMs → d.clickMs ≤ time - press → b.pressIsClick = false)
    (hlong : 0 < d.longPressMs → d.longPressMs ≤ time - press → b.longFired = true) :
    ∃ b' series', b.applyEdge false (ticksMs time) = .ok b' ∧ Silent d b' ∧
      Up d seen (finished ++ [(press, time)]) closed series' b' published longs := by
  have hlongs : longs = longsOf d (finished ++ [(press, time)]) := by
    rw [longsOf_concat, h.longs_eq]
    congr 1
    by_cases hfired : b.longFired = true
    · obtain ⟨hpos, t, ht, hge⟩ := h.long_of_fired hfired
      have := hseen t ht
      rw [if_pos hfired, if_pos ⟨hpos, by dsimp only; omega⟩]
    · rw [if_neg hfired, if_neg fun hcond => hfired (hlong hcond.1 hcond.2)]
  have hne : ¬ false = b.pressed := by simp [h.pressed_eq]
  by_cases hclick : 0 < d.clickMs ∧ b.pressIsClick = true
  · -- the press is a click
    obtain ⟨hpos, his⟩ := hclick
    have hshort : time - press < d.clickMs := by
      by_contra hnot
      have := hhold hpos (by omega)
      rw [his] at this
      cases this
    obtain ⟨hnear, happart⟩ := h.click his
    have happly : b.applyEdge false (ticksMs time) = .ok { b with
        pressed := false
        heldMs := max (ticksDiff (ticksMs time) b.pressMs) 0
        justReleased := true
        pendingClicks := b.pendingClicks + 1
        clickDeadlineMs := ticksMs (time + d.clickMs)
        clickPending := true } := by
      rw [Button.applyEdge, if_neg hne, if_neg (by simp)]
      dsimp only
      rw [hb.durations_eq, if_pos ⟨hpos, his⟩, ticksAdd_ticksMs ⟨by omega, by omega⟩, ok_bind]
    refine ⟨_, series ++ [(press, time)], happly,
      ⟨hb.durations_eq, hb.justClicked_eq, hb.justLongPressed_eq⟩,
      ⟨?_, h.ends.concat hnear happart, h.published_eq, ?_, fun hdisabled => ?_⟩, rfl, hlongs, ?_, ?_, ?_⟩
    · rw [clicksOf_concat, if_pos hshort, h.clicks_eq, List.append_assoc]
    · rw [List.length_append, ← h.pending_eq]
      rfl
    · omega
    · simp
    · intro x hx
      rw [List.getLast?_concat, Option.mem_some_iff] at hx
      subst hx
      refine ⟨List.getLast?_concat, rfl, fun t ht hge => ?_⟩
      have := hseen t ht
      dsimp only at hge
      omega
    · simp
  · -- the press is none, or clicks are not counted
    have happly : b.applyEdge false (ticksMs time) = .ok { b with
        pressed := false
        heldMs := max (ticksDiff (ticksMs time) b.pressMs) 0
        justReleased := true } := by
      rw [Button.applyEdge, if_neg hne, if_neg (by simp)]
      dsimp only
      rw [hb.durations_eq, if_neg hclick]
    have hcases : series = [] ∧ d.clickMs ≤ time - press ∧
        ∀ x ∈ closed.getLast?, ∃ t ∈ seen, x.2 + d.clickMs ≤ t := by
      by_cases hpos : 0 < d.clickMs
      · obtain ⟨hnil, -, ⟨t, ht, hge⟩, hquiet⟩ := h.hold (by simpa [hpos] using hclick)
        have := hseen t ht
        exact ⟨hnil, by omega, hquiet⟩
      · obtain ⟨hclosed, hnil⟩ := h.disabled (by omega)
        refine ⟨hnil, by omega, ?_⟩
        rw [hclosed]
        simp
    obtain ⟨hnil, hlong', hquiet⟩ := hcases
    refine ⟨_, series, happly, ⟨hb.durations_eq, hb.justClicked_eq, hb.justLongPressed_eq⟩,
      ⟨?_, h.ends, h.published_eq, h.pending_eq, h.disabled⟩, rfl, hlongs, ?_, ?_, fun _ => hquiet⟩
    · rw [clicksOf_concat, if_neg (by dsimp only; omega), List.append_nil]
      exact h.clicks_eq
    · simp [h.clickPending_eq, hnil]
    · simp [hnil]

end Edges

/-! ## Timers -/

section Timers

variable {d : Durations} {seen longs : List ℤ} {finished closed series : List (ℤ × ℤ)} {b : Button}
  {published : List ℕ} {press now : ℤ}

/-- What has been published when a series is closed. -/
lemma Tally.close (h : Tally d finished closed series b published) (hne : series ≠ []) :
    published ++ [b.pendingClicks] = seriesLengths d.clickMs (closed ++ series) := by
  rw [seriesLengths_append h.ends hne, h.published_eq, h.pending_eq]

/-- **The timers of a key that is up**: a series is closed when it is over. -/
lemma Up.advance (h : Up d seen finished closed series b published longs) (hb : Silent d b)
    (hclickMs : d.clickMs < TICKS_HALFPERIOD) (hnow : ∀ x ∈ series.getLast?, x.2 ≤ now) (last : ℤ) :
    ∃ fired b' closed' series', b.advance (ticksMs now) = .ok (fired, b') ∧ b'.durations = d ∧
      Up d (seen ++ [now]) finished closed' series' b'
        (published ++ if b'.justClicked then [b'.clickCount] else [])
        (longs ++ if b'.justLongPressed then [last] else []) := by
  have hadvance : ∃ fired, b.advance (ticksMs now) = .ok (fired, b.advanceSeries (ticksMs now)) := by
    rw [Button.advance, if_neg (by simp [h.pressed_eq]), ok_bind]
    exact ⟨_, rfl⟩
  obtain ⟨fired, hadvance⟩ := hadvance
  unfold Button.advanceSeries at hadvance
  by_cases hclose : b.clickPending = true ∧ ticksDiff (ticksMs now) b.clickDeadlineMs ≥ 0
  · have hne := h.pending_iff.mp hclose.1
    obtain ⟨-, hdeadline, -⟩ := h.last _ (List.getLast?_eq_some_getLast hne)
    have hrelease := hnow _ (List.getLast?_eq_some_getLast hne)
    have hover : (series.getLast hne).2 + d.clickMs ≤ now :=
      le_of_ticksDiff_nonneg (by omega) (hdeadline ▸ hclose.2)
    rw [if_pos hclose] at hadvance
    refine ⟨fired, _, closed ++ series, [], hadvance, hb.durations_eq,
      ⟨?_, endsInSeries_nil _ _, ?_, rfl, fun hdisabled => ?_⟩, h.pressed_eq, ?_, ?_, ?_, fun _ x hx => ?_⟩
    · rw [List.append_nil]
      exact h.clicks_eq
    · exact h.toTally.close hne
    · exact absurd (h.disabled hdisabled).2 hne
    · rw [h.longs_eq, hb.justLongPressed_eq]
      exact List.append_nil _
    · simp
    · simp
    · rw [List.getLast?_append_of_ne_nil _ hne, List.getLast?_eq_some_getLast hne,
        Option.mem_some_iff] at hx
      subst hx
      exact ⟨now, by simp, hover⟩
  · rw [if_neg hclose] at hadvance
    refine ⟨fired, b, closed, series, hadvance, hb.durations_eq,
      ⟨h.clicks_eq, h.ends, ?_, h.pending_eq, h.disabled⟩, h.pressed_eq, ?_, h.pending_iff, fun x hx => ?_,
      fun hnil x hx => ?_⟩
    · rw [h.published_eq, hb.justClicked_eq]
      exact List.append_nil _
    · rw [h.longs_eq, hb.justLongPressed_eq]
      exact List.append_nil _
    · obtain ⟨hlast, hdeadline, hseen⟩ := h.last x hx
      refine ⟨hlast, hdeadline, fun t ht hge => ?_⟩
      rcases List.mem_append.mp ht with ht | ht
      · exact hseen t ht hge
      · obtain rfl := List.mem_singleton.mp ht
        by_contra hlt
        refine hclose ⟨h.pending_iff.mpr fun hnil => by simp [hnil] at hx, ?_⟩
        rw [hdeadline, ticksDiff_ticksMs (by omega) (by omega)]
        omega
    · obtain ⟨t, ht, hge⟩ := h.quiet hnil x hx
      exact ⟨t, List.mem_append_left _ ht, hge⟩

lemma advanceLongPress_eq (b : Button) : ∃ fires : Bool,
    b.advanceLongPress = { b with
      longFired := b.longFired || fires
      justLongPressed := b.justLongPressed || fires } ∧
    (fires = true ↔ 0 < b.durations.longPressMs ∧ b.longFired = false ∧
      b.heldMs ≥ b.durations.longPressMs) := by
  by_cases hfires : 0 < b.durations.longPressMs ∧ b.longFired = false ∧
    b.heldMs ≥ b.durations.longPressMs
  · refine ⟨true, ?_, by simpa using hfires⟩
    rw [Button.advanceLongPress, if_pos (by simpa using hfires)]
    simp
  · refine ⟨false, ?_, by simpa using hfires⟩
    rw [Button.advanceLongPress, if_neg (by simpa using hfires)]
    simp

lemma advanceHold_eq (b : Button) : ∃ (holds : Bool) (count : ℕ),
    b.advanceHold = { b with
      pressIsClick := b.pressIsClick && !holds
      clickCount := count
      pendingClicks := if holds then 0 else b.pendingClicks
      justClicked := b.justClicked || (holds && decide (b.pendingClicks > 0)) } ∧
    (holds = true ↔ 0 < b.durations.clickMs ∧ b.pressIsClick = true ∧
      b.heldMs ≥ b.durations.clickMs) ∧
    (holds = true → b.pendingClicks > 0 → count = b.pendingClicks) := by
  by_cases hholds : 0 < b.durations.clickMs ∧ b.pressIsClick = true ∧ b.heldMs ≥ b.durations.clickMs
  · by_cases hpending : b.pendingClicks > 0
    · refine ⟨true, b.pendingClicks, ?_, by simpa using hholds, by simp⟩
      rw [Button.advanceHold, if_pos hholds, if_pos hpending]
      simp [hpending]
    · refine ⟨true, b.clickCount, ?_, by simpa using hholds, fun _ hpos => absurd hpos hpending⟩
      rw [Button.advanceHold, if_pos hholds, if_neg hpending]
      have hzero : b.pendingClicks = 0 := by omega
      simp [hzero]
  · refine ⟨false, b.clickCount, ?_, by simpa using hholds, by simp⟩
    rw [Button.advanceHold, if_neg hholds]
    simp

/-- **A repeat** is due again after this check. -/
lemma advanceRepeat_ok (hb : b.durations = d) (hdelay : |d.repeatDelayMs| < TICKS_HALFPERIOD)
    (hnow : press ≤ now) (hseen : ∀ t ∈ seen, t ≤ now)
    (hnext : 0 < d.repeatMs → ∃ next, b.repeatNextMs = ticksMs next ∧ DueAt d seen press next)
    (hclose : 0 < d.repeatMs → now - (press + d.repeatDelayMs) + d.repeatMs < TICKS_HALFPERIOD ∨
      ∃ t ∈ seen, press ≤ t ∧ now - t + d.repeatMs < TICKS_HALFPERIOD) :
    ∃ nextMs repeated, b.advanceRepeat (ticksMs now) =
        .ok { b with repeatNextMs := nextMs, justRepeated := repeated } ∧
      (0 < d.repeatMs → ∃ next, nextMs = ticksMs next ∧ DueAt d (seen ++ [now]) press next) := by
  unfold Button.advanceRepeat
  dsimp only
  rw [congrArg Durations.repeatMs hb]
  by_cases hpos : 0 < d.repeatMs
  · obtain ⟨next, hms, hfirst, hlater, hbound⟩ := hnext hpos
    have hdelay' := abs_lt.mp hdelay
    -- the deadline is not far behind and not far ahead
    have hbehind : now - next + d.repeatMs < TICKS_HALFPERIOD := by
      rcases hclose hpos with hclose | ⟨t, ht, hge, hclose⟩
      · omega
      · have := hlater t ht hge
        omega
    have hahead : -(TICKS_HALFPERIOD : ℤ) < now - next := by
      rcases hbound with rfl | ⟨hperiod, t, ht, hle⟩
      · omega
      · have := hseen t ht
        omega
    have hdiff : ticksDiff (ticksMs now) (ticksMs next) = now - next :=
      ticksDiff_ticksMs (by omega) (by omega)
    rw [hms, hdiff]
    by_cases hdue : now - next ≥ 0
    · have hmissed : (now - next) / d.repeatMs * d.repeatMs ≤ now - next :=
        Int.ediv_mul_le _ hpos.ne'
      have hmissed' : now - next < ((now - next) / d.repeatMs + 1) * d.repeatMs :=
        Int.lt_ediv_add_one_mul_self _ hpos
      have hperiods : ((now - next) / d.repeatMs + 1) * d.repeatMs =
          (now - next) / d.repeatMs * d.repeatMs + d.repeatMs := by ring
      rw [if_pos ⟨hpos, hdue⟩, ticksAdd_ticksMs ⟨by omega, by omega⟩, ok_bind]
      refine ⟨_, _, rfl, fun _ => ⟨_, rfl, by omega, fun t ht hge => ?_,
        .inr ⟨by omega, now, by simp, by omega⟩⟩⟩
      rcases List.mem_append.mp ht with ht | ht
      · have := hseen t ht
        omega
      · obtain rfl := List.mem_singleton.mp ht
        omega
    · rw [if_neg fun hcond => hdue hcond.2]
      refine ⟨b.repeatNextMs, b.justRepeated, rfl, fun _ => ⟨next, hms, hfirst, fun t ht hge => ?_, ?_⟩⟩
      · rcases List.mem_append.mp ht with ht | ht
        · exact hlater t ht hge
        · obtain rfl := List.mem_singleton.mp ht
          omega
      · exact hbound.imp_right fun ⟨hperiod, t, ht, hle⟩ => ⟨hperiod, t, List.mem_append_left _ ht, hle⟩
  · rw [if_neg fun hcond => hpos hcond.1]
    exact ⟨b.repeatNextMs, b.justRepeated, rfl, fun hrepeat => absurd hrepeat hpos⟩

/-- **The timers of a key that is down**: it is a long press, and a hold, when it has been down for
long. -/
lemma Down.advance (h : Down d seen finished closed series press b published longs) (hb : Silent d b)
    (hdelay : |d.repeatDelayMs| < TICKS_HALFPERIOD) (hnow : press ≤ now) (hseen : ∀ t ∈ seen, t ≤ now)
    (hreleases : ∀ x ∈ (closed ++ series).getLast?, x.2 ≤ press)
    (hclose : 0 < d.repeatMs → now - (press + d.repeatDelayMs) + d.repeatMs < TICKS_HALFPERIOD ∨
      ∃ t ∈ seen, press ≤ t ∧ now - t + d.repeatMs < TICKS_HALFPERIOD) :
    ∃ fired b' closed' series', b.advance (ticksMs now) = .ok (fired, b') ∧ b'.durations = d ∧
      Down d (seen ++ [now]) finished closed' series' press b'
        (published ++ if b'.justClicked then [b'.clickCount] else [])
        (longs ++ if b'.justLongPressed then [press] else []) := by
  set held := max (ticksDiff (ticksMs now) b.pressMs) 0 with hheld
  -- a duration seems to be over only if it is, and then it does when ticks can tell
  have hover : ∀ ms, 0 < ms → held ≥ ms → press + ms ≤ now := by
    intro ms hms hge
    refine le_of_le_ticksDiff hnow ?_
    rw [← h.pressMs_eq]
    omega
  have hseems : ∀ ms, press + ms ≤ now → now < press + TICKS_HALFPERIOD → held ≥ ms := by
    intro ms hge hlt
    rw [hheld, h.pressMs_eq, ticksDiff_ticksMs (by omega) (by omega)]
    omega
  obtain ⟨fires, hlong, hfires⟩ := advanceLongPress_eq { b with heldMs := held }
  obtain ⟨nextMs, repeated, hrepeat, hnext⟩ := @advanceRepeat_ok d seen
    { b with
      heldMs := held
      longFired := b.longFired || fires
      justLongPressed := b.justLongPressed || fires } press now hb.durations_eq hdelay hnow hseen
        h.next hclose
  obtain ⟨holds, count, hhold, hholds, hcount⟩ := advanceHold_eq
    { b with
      heldMs := held
      longFired := b.longFired || fires
      justLongPressed := b.justLongPressed || fires
      repeatNextMs := nextMs
      justRepeated := repeated }
  have hadvance : ∃ fired, b.advance (ticksMs now) = .ok (fired, { b with
      heldMs := held
      longFired := b.longFired || fires
      justLongPressed := b.justLongPressed || fires
      repeatNextMs := nextMs
      justRepeated := repeated
      pressIsClick := b.pressIsClick && !holds
      clickCount := count
      pendingClicks := if holds then 0 else b.pendingClicks
      justClicked := b.justClicked || (holds && decide (b.pendingClicks > 0)) }) := by
    rw [Button.advance, if_pos h.pressed_eq]
    dsimp only
    rw [← hheld, hlong, hrepeat, ok_bind, ok_bind, hhold, Button.advanceSeries,
      if_neg (by simp [h.clickPending_eq])]
    exact ⟨_, rfl⟩
  obtain ⟨fired, hadvance⟩ := hadvance
  simp only [hb.durations_eq] at hfires hholds hcount
  have hjustLong : (b.justLongPressed || fires) = fires := by rw [hb.justLongPressed_eq, Bool.false_or]
  have hjustClicked : (b.justClicked || (holds && decide (b.pendingClicks > 0))) =
      (holds && decide (b.pendingClicks > 0)) := by rw [hb.justClicked_eq, Bool.false_or]
  have hlongs : longs ++ (if (b.justLongPressed || fires) = true then [press] else []) =
      longsOf d finished ++ if (b.longFired || fires) = true then [press] else [] := by
    rw [hjustLong, h.longs_eq, List.append_assoc]
    congr 1
    cases hf : fires with
    | false => simp
    | true =>
      have := (hfires.mp hf).2.1
      simp [this]
  have hfired_long : (b.longFired || fires) = true →
      0 < d.longPressMs ∧ ∃ t ∈ seen ++ [now], press + d.longPressMs ≤ t := by
    intro hor
    rcases Bool.or_eq_true_iff.mp hor with hold | hnew
    · obtain ⟨hpos, t, ht, hge⟩ := h.long_of_fired hold
      exact ⟨hpos, t, List.mem_append_left _ ht, hge⟩
    · obtain ⟨hpos, -, hge⟩ := hfires.mp hnew
      exact ⟨hpos, now, by simp, hover _ hpos hge⟩
  have hlong_fired : 0 < d.longPressMs → ∀ t ∈ seen ++ [now], press + d.longPressMs ≤ t →
      t < press + TICKS_HALFPERIOD → (b.longFired || fires) = true := by
    intro hpos t ht hge hlt
    rcases List.mem_append.mp ht with ht | ht
    · rw [h.fired_of_long hpos t ht hge hlt, Bool.true_or]
    · obtain rfl := List.mem_singleton.mp ht
      cases hfired : b.longFired with
      | true => rfl
      | false => exact hfires.mpr ⟨hpos, hfired, hseems _ hge hlt⟩
  have hhold_long : 0 < d.clickMs → ∀ t ∈ seen ++ [now], press + d.clickMs ≤ t →
      t < press + TICKS_HALFPERIOD → (b.pressIsClick && !holds) = false := by
    intro hpos t ht hge hlt
    rcases List.mem_append.mp ht with ht | ht
    · rw [h.hold_of_long hpos t ht hge hlt, Bool.false_and]
    · obtain rfl := List.mem_singleton.mp ht
      cases his : b.pressIsClick with
      | false => rfl
      | true =>
        rw [hholds.mpr ⟨hpos, his, hseems _ hge hlt⟩]
        rfl
  cases hh : holds with
  | true =>
    -- the press is a hold from now on, and the series before it is over
    obtain ⟨hpos, his, hge⟩ := hholds.mp hh
    have hlast : press + d.clickMs ≤ now := hover _ hpos hge
    subst hh
    refine ⟨fired, _, closed ++ series, [], hadvance, hb.durations_eq,
      ⟨?_, endsInSeries_nil _ _, ?_, rfl, fun hdisabled => by omega⟩, h.pressed_eq, h.pressMs_eq,
      h.clickPending_eq, hlongs, hfired_long, hlong_fired, ?_,
        fun _ => ⟨rfl, hpos, ⟨now, by simp, hlast⟩, ?_⟩,
      hhold_long, hnext⟩
    · rw [List.append_nil]
      exact h.clicks_eq
    · rw [hjustClicked]
      cases hs : series with
      | nil =>
        have hzero : b.pendingClicks = 0 := by rw [h.pending_eq, hs]; rfl
        simp [hzero, h.published_eq]
      | cons x xs =>
        have hne : series ≠ [] := by simp [hs]
        have hpending : b.pendingClicks > 0 := by
          rw [h.pending_eq]
          exact List.length_pos_of_ne_nil hne
        rw [← hs, ← h.toTally.close hne, hcount rfl hpending]
        simp [hpending]
    · simp
    · intro x hx
      have := hreleases x hx
      exact ⟨now, by simp, by omega⟩
  | false =>
    subst hh
    refine ⟨fired, _, closed, series, hadvance, hb.durations_eq,
      ⟨h.clicks_eq, h.ends, ?_, h.pending_eq, h.disabled⟩, h.pressed_eq, h.pressMs_eq,
      h.clickPending_eq, hlongs, hfired_long, hlong_fired, ?_, ?_, hhold_long, hnext⟩
    · rw [hjustClicked, h.published_eq]
      exact List.append_nil _
    · intro his
      exact h.click (by simpa using his)
    · intro his
      obtain ⟨hnil, hpos, ⟨t, ht, hge⟩, hquiet⟩ := h.hold (by simpa using his)
      refine ⟨hnil, hpos, ⟨t, List.mem_append_left _ ht, hge⟩, fun x hx => ?_⟩
      obtain ⟨t', ht', hge'⟩ := hquiet x hx
      exact ⟨t', List.mem_append_left _ ht', hge'⟩

end Timers

/-! ## Sessions -/

/-- What is true of a button that has seen the edges `done` and has been checked at the times
`seen`. -/
inductive Watched (d : Durations) (seen : List ℤ) (b : Button) (published : List ℕ) (longs : List ℤ) :
    List ℤ → Bool → Prop
  | up {finished closed series : List (ℤ × ℤ)} (h : Up d seen finished closed series b published longs) :
      Watched d seen b published longs (edgesOf finished) false
  | down {finished closed series : List (ℤ × ℤ)} {press : ℤ}
      (h : Down d seen finished closed series press b published longs) :
      Watched d seen b published longs (edgesOf finished ++ [press]) true

section Session

variable {d : Durations} {edges seen later done rest longs : List ℤ} {b : Button} {published : List ℕ}
  {now edge : ℤ} {level : Bool}

/-- A check that came before the next edge is one that has been made. -/
lemma mem_seen {t : ℤ} (ht : t ∈ seen ++ now :: later) (hlater : ∀ t ∈ later, now ≤ t)
    (hlt : t < now) : t ∈ seen := by
  rcases List.mem_append.mp ht with ht | ht
  · exact ht
  · rcases List.mem_cons.mp ht with rfl | ht
    · exact absurd hlt (lt_irrefl t)
    · have := hlater t ht
      omega

lemma mem_edgesOf {finished : List (ℤ × ℤ)} {x : ℤ × ℤ} (h : x ∈ finished) : x.2 ∈ edgesOf finished :=
  List.mem_flatMap.mpr ⟨x, h, by simp⟩

/-- **One more edge** before the timers of a check. -/
lemma Watched.applyEdge (h : Watched d seen b published longs done level) (hb : Silent d b)
    (hprompt : Prompt d edges (seen ++ now :: later)) (hsorted : edges.Pairwise (· ≤ ·))
    (hlater : ∀ t ∈ later, now ≤ t) (hedges : edges = done ++ edge :: rest) (hedge : edge ≤ now)
    (hseen : ∀ t ∈ seen, t < edge) :
    ∃ b', b.applyEdge (!level) (ticksMs edge) = .ok b' ∧ Silent d b' ∧
      Watched d seen b' published longs (done ++ [edge]) (!level) := by
  cases h with
  | @up finished closed series h =>
    have hnear : ∀ x ∈ series.getLast?, edge - x.2 < d.clickMs := by
      intro x hx
      obtain ⟨hlast, -, hunseen⟩ := h.last x hx
      obtain ⟨before, rfl⟩ := List.getLast?_eq_some_iff.mp hlast
      have hclick : x ∈ clicksOf d (before ++ [x]) := by
        rw [h.clicks_eq]
        exact List.mem_append_right _ (List.mem_of_getLast? hx)
      have hshort : x.2 - x.1 < d.clickMs := by simpa [clicksOf] using (List.mem_filter.mp hclick).2
      by_contra hlong
      -- a check would have closed the series
      obtain ⟨t, ht, hge, hlt, hbefore⟩ := hprompt.quiet (edgesOf before) x.1 x.2 (edge :: rest)
        (by rw [hedges, edgesOf_concat]; simp) (even_length_edgesOf before) hshort
        (by simp only [List.head?_cons, Option.mem_some_iff, forall_eq']; omega)
      have hlt' := hbefore edge rfl
      have := hunseen t (mem_seen ht hlater (by omega)) hge
      omega
    obtain ⟨b', happly, hb', h'⟩ := h.goesDown hb hprompt.repeatDelayMs_lt hseen hnear
    exact ⟨b', happly, hb', .down h'⟩
  | @down finished closed series press h =>
    have hle : press ≤ edge := by
      rw [hedges] at hsorted
      exact (List.pairwise_append.mp hsorted).2.2 press (by simp) edge (by simp)
    -- a check has seen a hold that lasted
    have hheld : ∀ ms, ms = d.clickMs ∨ ms = d.longPressMs → 0 < ms → ms ≤ edge - press →
        ∃ t ∈ seen, press + ms ≤ t ∧ t < press + TICKS_HALFPERIOD := by
      intro ms hms hpos hlong
      obtain ⟨t, ht, hge, hlt, hbefore⟩ := hprompt.held (edgesOf finished) press (edge :: rest)
        (by rw [hedges]; simp) (even_length_edgesOf finished) ms hms hpos
        (by simpa only [List.head?_cons, Option.mem_some_iff, forall_eq'] using hlong)
      have hlt' := hbefore edge rfl
      exact ⟨t, mem_seen ht hlater (by omega), hge, hlt⟩
    obtain ⟨b', series', happly, hb', h'⟩ := h.goesUp hb hprompt.clickMs_lt hseen hle
      (fun hpos hlong => by
        obtain ⟨t, ht, hge, hlt⟩ := hheld _ (.inl rfl) hpos hlong
        exact h.hold_of_long hpos t ht hge hlt)
      (fun hpos hlong => by
        obtain ⟨t, ht, hge, hlt⟩ := hheld _ (.inr rfl) hpos hlong
        exact h.fired_of_long hpos t ht hge hlt)
    refine ⟨b', happly, hb', ?_⟩
    have hfinished : edgesOf finished ++ [press] ++ [edge] = edgesOf (finished ++ [(press, edge)]) := by
      rw [edgesOf_concat, List.append_assoc]
      rfl
    rw [hfinished]
    exact .up h'

/-- **The edges of a check.** -/
lemma Watched.drain {batch : List ℤ} (h : Watched d seen b published longs done level) (hb : Silent d b)
    (hprompt : Prompt d edges (seen ++ now :: later)) (hsorted : edges.Pairwise (· ≤ ·))
    (hlater : ∀ t ∈ later, now ≤ t) (hedges : edges = done ++ (batch ++ rest))
    (hbatch : ∀ edge ∈ batch, edge ≤ now ∧ ∀ t ∈ seen, t < edge) :
    ∃ b', b.drain (eventsFrom level batch) = .ok b' ∧ Silent d b' ∧
      Watched d seen b' published longs (done ++ batch)
        (((eventsFrom level batch).map Event.pressed).getLastD level) := by
  induction batch generalizing b done level with
  | nil =>
    refine ⟨b, rfl, hb, ?_⟩
    rw [List.append_nil]
    exact h
  | cons edge batch ih =>
    obtain ⟨hedge, hseen⟩ := hbatch edge List.mem_cons_self
    obtain ⟨b₁, happly, hb₁, h₁⟩ := h.applyEdge hb hprompt hsorted hlater hedges hedge hseen
    obtain ⟨b₂, hdrain, hb₂, h₂⟩ := ih h₁ hb₁ (by rw [hedges]; simp)
      fun edge hmem => hbatch edge (List.mem_cons_of_mem _ hmem)
    refine ⟨b₂, ?_, hb₂, ?_⟩
    · rw [Button.drain, eventsFrom, List.foldlM_cons, if_pos rfl, happly, ok_bind]
      exact hdrain
    · rw [eventsFrom, List.map_cons, List.getLastD_cons]
      simpa using h₂

/-- The news of the last check are forgotten. -/
lemma Watched.beginTick (h : Watched d seen b published longs done level) :
    Watched d seen b.beginTick published longs done level := by
  cases h with
  | up h =>
    exact .up ⟨⟨h.clicks_eq, h.ends, h.published_eq, h.pending_eq, h.disabled⟩, h.pressed_eq, h.longs_eq,
      h.pending_iff, h.last, h.quiet⟩
  | down h =>
    exact .down ⟨⟨h.clicks_eq, h.ends, h.published_eq, h.pending_eq, h.disabled⟩, h.pressed_eq,
      h.pressMs_eq, h.clickPending_eq, h.longs_eq, h.long_of_fired, h.fired_of_long, h.click, h.hold,
      h.hold_of_long, h.next⟩

/-- **The timers of a check.** -/
lemma Watched.advance (h : Watched d seen b published longs done level) (hb : Silent d b)
    (hprompt : Prompt d edges (seen ++ now :: later)) (hsorted : edges.Pairwise (· ≤ ·))
    (hseen : ∀ t ∈ seen, t ≤ now) (hlater : ∀ t ∈ later, now ≤ t) (hedges : edges = done ++ rest)
    (hdone : ∀ edge ∈ done, edge ≤ now) (hrest : ∀ edge ∈ rest, now < edge) :
    ∃ fired b', b.advance (ticksMs now) = .ok (fired, b') ∧ b'.durations = d ∧
      Watched d (seen ++ [now]) b' (published ++ if b'.justClicked then [b'.clickCount] else [])
        (longs ++ if b'.justLongPressed then [done.getLastD 0] else []) done level := by
  cases h with
  | @up finished closed series h =>
    obtain ⟨fired, b', closed', series', hadvance, hb', h'⟩ := h.advance hb hprompt.clickMs_lt
      (fun x hx => by
      obtain ⟨hlast, -⟩ := h.last x hx
      exact hdone _ (mem_edgesOf (List.mem_of_getLast? hlast))) ((edgesOf finished).getLastD 0)
    exact ⟨fired, b', hadvance, hb', .up h'⟩
  | @down finished closed series press h =>
    have hreleases : ∀ x ∈ (closed ++ series).getLast?, x.2 ≤ press := by
      intro x hx
      rw [← h.clicks_eq] at hx
      have hmem := (List.mem_filter.mp (List.mem_of_getLast? hx)).1
      rw [hedges] at hsorted
      exact (List.pairwise_append.mp (List.pairwise_append.mp hsorted).1).2.2 _ (mem_edgesOf hmem) press
        (by simp)
    obtain ⟨fired, b', closed', series', hadvance, hb', h'⟩ := h.advance hb hprompt.repeatDelayMs_lt
      (hdone press (by simp)) hseen hreleases fun hpos => by
        refine (hprompt.repeats hpos (edgesOf finished) press rest (by rw [hedges]; simp)
          (even_length_edgesOf finished) now (by simp) (hdone press (by simp))
          fun release hrelease => hrest release (List.mem_of_mem_head? hrelease)).imp_right ?_
        rintro ⟨t, ht, hge, hlt, hclose⟩
        exact ⟨t, mem_seen ht hlater hlt, hge, hclose⟩
    refine ⟨fired, b', hadvance, hb', ?_⟩
    rw [List.getLastD_concat]
    exact .down h'

/-- What every session keeps. -/
structure Kept (d : Durations) (edges seen : List ℤ) (s : Session) (done : List ℤ) : Prop where
  edges_eq : edges = done ++ s.rest
  durations_eq : s.button.durations = d
  watched : Watched d seen s.button s.published s.longs done s.level
  done_le : ∀ edge ∈ done, ∃ t ∈ seen, edge ≤ t
  rest_lt : ∀ edge ∈ s.rest, ∀ t ∈ seen, t < edge
  last_eq : s.last = done.getLastD 0

lemma kept_new (d : Durations) (edges : List ℤ) :
    Kept d edges [] { button := { durations := d }, rest := edges } [] where
  edges_eq := rfl
  durations_eq := rfl
  watched := @Watched.up d [] _ [] [] [] [] []
    ⟨⟨rfl, endsInSeries_nil _ _, rfl, rfl, fun _ => ⟨rfl, rfl⟩⟩, rfl, rfl, by simp, by simp, by simp⟩
  done_le := by simp
  rest_lt := by simp
  last_eq := rfl

/-- **One check.** -/
lemma Kept.check {s : Session} (h : Kept d edges seen s done)
    (hprompt : Prompt d edges (seen ++ now :: later)) (hsorted : edges.Pairwise (· ≤ ·))
    (hchecks : (seen ++ now :: later).Pairwise (· ≤ ·)) :
    ∃ s' done', s.check now = .ok s' ∧ Kept d edges (seen ++ [now]) s' done' := by
  have hpairs := List.pairwise_append.mp hchecks
  have hseen : ∀ t ∈ seen, t ≤ now := fun t ht => hpairs.2.2 t ht now List.mem_cons_self
  have hlater : ∀ t ∈ later, now ≤ t := (List.pairwise_cons.mp hpairs.2.1).1
  have hsplit : s.rest.takeWhile (· ≤ now) ++ s.rest.dropWhile (· ≤ now) = s.rest :=
    List.takeWhile_append_dropWhile
  have hedges : edges = done ++ (s.rest.takeWhile (· ≤ now) ++ s.rest.dropWhile (· ≤ now)) := by
    rw [hsplit]
    exact h.edges_eq
  have hbatch : ∀ edge ∈ s.rest.takeWhile (· ≤ now), edge ≤ now := fun edge hmem => by
    simpa using List.mem_takeWhile_imp hmem
  have hrest : ∀ edge ∈ s.rest.dropWhile (· ≤ now), now < edge := by
    intro edge hmem
    have hsorted' : (s.rest.dropWhile (· ≤ now)).Pairwise (· ≤ ·) := by
      rw [hedges] at hsorted
      exact (List.pairwise_append.mp (List.pairwise_append.mp hsorted).2.1).2.1
    cases hdrop : s.rest.dropWhile (· ≤ now) with
    | nil => rw [hdrop] at hmem; cases hmem
    | cons first tail =>
      have hfirst : now < first := by
        have := List.head?_dropWhile_not (· ≤ now) s.rest
        rw [hdrop] at this
        simpa using this
      rw [hdrop] at hmem hsorted'
      rcases List.mem_cons.mp hmem with rfl | hmem
      · exact hfirst
      · exact lt_of_lt_of_le hfirst ((List.pairwise_cons.mp hsorted').1 edge hmem)
  -- first the edges, then the timers
  obtain ⟨b₁, hdrain, hb₁, h₁⟩ :=
    h.watched.beginTick.drain ⟨h.durations_eq, rfl, rfl⟩ hprompt hsorted hlater
    hedges fun edge hmem => ⟨hbatch edge hmem, h.rest_lt edge (hsplit ▸ List.mem_append_left _ hmem)⟩
  have hdone : ∀ edge ∈ done ++ s.rest.takeWhile (· ≤ now), edge ≤ now := by
    intro edge hmem
    rcases List.mem_append.mp hmem with hmem | hmem
    · obtain ⟨t, ht, hle⟩ := h.done_le edge hmem
      exact hle.trans (hseen t ht)
    · exact hbatch edge hmem
  obtain ⟨fired, b₂, hadvance, hb₂, h₂⟩ := h₁.advance hb₁ hprompt hsorted hseen hlater
    (hedges.trans (List.append_assoc ..).symm) hdone hrest
  have hlast : (s.rest.takeWhile (· ≤ now)).getLastD s.last =
      (done ++ s.rest.takeWhile (· ≤ now)).getLastD 0 := by
    rw [h.last_eq, List.getLastD_eq_getLast?, List.getLastD_eq_getLast?, List.getLastD_eq_getLast?,
      List.getLast?_append]
    cases (s.rest.takeWhile (· ≤ now)).getLast? <;> rfl
  have hcheck : s.check now = .ok {
      button := b₂
      rest := s.rest.dropWhile (· ≤ now)
      level := ((eventsFrom s.level (s.rest.takeWhile (· ≤ now))).map Event.pressed).getLastD s.level
      last := (done ++ s.rest.takeWhile (· ≤ now)).getLastD 0
      published := s.published ++ if b₂.justClicked then [b₂.clickCount] else []
      longs := s.longs ++
        if b₂.justLongPressed then [(done ++ s.rest.takeWhile (· ≤ now)).getLastD 0] else [] } := by
    rw [Session.check, Button.check, hdrain, ok_bind, hadvance, ok_bind, hlast]
  refine ⟨_, done ++ s.rest.takeWhile (· ≤ now), hcheck, hedges.trans (List.append_assoc ..).symm, hb₂, h₂,
    fun edge hmem => ⟨now, by simp, hdone edge hmem⟩, fun edge hmem t ht => ?_, rfl⟩
  rcases List.mem_append.mp ht with ht | ht
  · exact lt_of_le_of_lt (hseen t ht) (hrest edge hmem)
  · rw [List.mem_singleton.mp ht]
    exact hrest edge hmem

/-- **A session** is kept by all its checks. -/
lemma Kept.run {s : Session} (h : Kept d edges seen s done)
    (hprompt : Prompt d edges (seen ++ later)) (hsorted : edges.Pairwise (· ≤ ·))
    (hchecks : (seen ++ later).Pairwise (· ≤ ·)) :
    ∃ s' done', later.foldlM Session.check s = .ok s' ∧ Kept d edges (seen ++ later) s' done' := by
  induction later generalizing seen s done with
  | nil => exact ⟨s, done, rfl, by rw [List.append_nil]; exact h⟩
  | cons now later ih =>
    obtain ⟨s₁, done₁, hcheck, h₁⟩ := h.check hprompt hsorted hchecks
    have hassoc : seen ++ [now] ++ later = seen ++ now :: later := by simp
    rw [← hassoc] at hprompt hchecks ⊢
    obtain ⟨s₂, done₂, hrun, h₂⟩ := ih h₁ hprompt hchecks
    refine ⟨s₂, done₂, ?_, h₂⟩
    rw [List.foldlM_cons, hcheck, ok_bind]
    exact hrun

/-- A series is not open in the end. -/
lemma Up.told {finished closed series : List (ℤ × ℤ)}
    (h : Up d seen finished closed series b published longs) (hprompt : Prompt d (edgesOf finished) seen) :
    published = seriesLengths d.clickMs (clicks d (edgesOf finished)) ∧
      longs = longPresses d (edgesOf finished) := by
  have hnil : series = [] := by
    by_contra hne
    obtain ⟨hlast, -, hunseen⟩ := h.last _ (List.getLast?_eq_some_getLast hne)
    obtain ⟨before, rfl⟩ := List.getLast?_eq_some_iff.mp hlast
    have hclick : series.getLast hne ∈ clicksOf d (before ++ [series.getLast hne]) := by
      rw [h.clicks_eq]
      exact List.mem_append_right _ (List.getLast_mem hne)
    obtain ⟨t, ht, hge, hlt, -⟩ := hprompt.quiet (edgesOf before) _ _ [] (edgesOf_concat before _)
      (even_length_edgesOf before) (by simpa [clicksOf] using (List.mem_filter.mp hclick).2) (by simp)
    have := hunseen t ht hge
    omega
  have hclicks := clicks_append d finished []
  have hlongs := longPresses_append d finished []
  rw [List.append_nil] at hclicks hlongs
  rw [hclicks, hlongs, h.clicks_eq, hnil, List.append_nil]
  exact ⟨h.published_eq.trans (List.append_nil _ ▸ rfl), h.longs_eq.trans (List.append_nil _).symm⟩

/-- A press without an end is a hold and a long press. -/
lemma Down.told {finished closed series : List (ℤ × ℤ)} {press : ℤ}
    (h : Down d seen finished closed series press b published longs)
    (hprompt : Prompt d (edgesOf finished ++ [press]) seen) :
    published = seriesLengths d.clickMs (clicks d (edgesOf finished ++ [press])) ∧
      longs = longPresses d (edgesOf finished ++ [press]) := by
  have hheld := hprompt.held (edgesOf finished) press [] rfl (even_length_edgesOf finished)
  have hnil : series = [] := by
    by_cases hpos : 0 < d.clickMs
    · obtain ⟨t, ht, hge, hlt, -⟩ := hheld d.clickMs (.inl rfl) hpos (by simp)
      exact (h.hold (h.hold_of_long hpos t ht hge hlt)).1
    · exact (h.disabled (by omega)).2
  have hfired : b.longFired = true ↔ 0 < d.longPressMs := by
    refine ⟨fun hfired => (h.long_of_fired hfired).1, fun hpos => ?_⟩
    obtain ⟨t, ht, hge, hlt, -⟩ := hheld d.longPressMs (.inr rfl) hpos (by simp)
    exact h.fired_of_long hpos t ht hge hlt
  rw [clicks_append, longPresses_append, h.clicks_eq, hnil]
  refine ⟨?_, ?_⟩
  · rw [h.published_eq]
    simp [clicks, presses]
  · rw [h.longs_eq]
    by_cases hpos : 0 < d.longPressMs <;> simp [hfired, hpos, longPresses, presses]

/-- **What has been published in the end** is told by the edges. -/
lemma Kept.told {s : Session} (h : Kept d edges seen s done) (hprompt : Prompt d edges seen) :
    s.published = seriesLengths d.clickMs (clicks d edges) ∧ s.longs = longPresses d edges := by
  have hrest : s.rest = [] := by
    refine List.eq_nil_iff_forall_not_mem.mpr fun edge hmem => ?_
    obtain ⟨t, ht, hle⟩ := hprompt.delivered edge (by rw [h.edges_eq]; exact List.mem_append_right _ hmem)
    exact absurd (h.rest_lt edge hmem t ht) (not_lt.mpr hle)
  have hedges := h.edges_eq
  rw [hrest, List.append_nil] at hedges
  have hwatched := h.watched
  rw [hedges] at hprompt ⊢
  generalize s.level = level at hwatched
  cases hwatched with
  | up hup => exact hup.told hprompt
  | down hdown => exact hdown.told hprompt

end Session

/-- **Gestures depend on the edges only**, when the checks come in time. A press is counted as a
click exactly when it is held for less than `click_ms`, two clicks belong to one series exactly when
the gap between them is shorter than that, and a long press is reported exactly for the presses held
for `long_press_ms`. -/
theorem gestures_of_edges (durations : Durations) (edges checks checks' : List ℤ)
    (hedges : edges.Pairwise (· ≤ ·)) (hchecks : checks.Pairwise (· ≤ ·))
    (hchecks' : checks'.Pairwise (· ≤ ·))
    (hprompt : Prompt durations edges checks) (hprompt' : Prompt durations edges checks') :
    ∃ s s', watch durations edges checks = .ok s ∧ watch durations edges checks' = .ok s' ∧
      s.published = s'.published ∧
      s.published = ((clicks durations edges).splitBy fun a b => b.1 - a.2 < durations.clickMs).map
        List.length ∧
      s.longs = longPresses durations edges ∧ s'.longs = longPresses durations edges := by
  obtain ⟨s, done, hrun, h⟩ := (kept_new durations edges).run hprompt hedges hchecks
  obtain ⟨s', done', hrun', h'⟩ := (kept_new durations edges).run hprompt' hedges hchecks'
  obtain ⟨hpublished, hlongs⟩ := h.told hprompt
  obtain ⟨hpublished', hlongs'⟩ := h'.told hprompt'
  exact ⟨s, s', hrun, hrun', hpublished.trans hpublished'.symm, hpublished, hlongs, hlongs'⟩

/-- Checks that come in time for a click, and soon after it a press that is held for a second. -/
lemma prompt_click_hold {checks : List ℤ}
    (hdelivered : ∀ edge ∈ ([0, 100, 200, 1200] : List ℤ), ∃ t ∈ checks, edge ≤ t)
    (hheld : ∃ t ∈ checks, 700 ≤ t ∧ t < 1200) : Prompt { clickMs := 250 } [0, 100, 200, 1200] checks := by
  obtain ⟨t, ht, hge, hlt⟩ := hheld
  refine ⟨by decide +kernel, by decide +kernel, hdelivered, ?_, ?_, fun hrepeat => by cases hrepeat⟩
  · intro before press after heq heven ms hms hpos hlong
    rcases before with _ | ⟨_, _ | ⟨_, _ | ⟨_, _ | ⟨_, before⟩⟩⟩⟩
    · obtain ⟨rfl, rfl⟩ := List.cons.inj heq
      have := hlong 100 rfl
      rcases hms with rfl | rfl <;> simp at this
    · simp at heven
    · simp only [List.cons_append, List.nil_append, List.cons.injEq] at heq
      obtain ⟨-, -, rfl, rfl⟩ := heq
      refine ⟨t, ht, ?_, ?_, by simpa using hlt⟩
      · rcases hms with rfl | rfl <;> dsimp only <;> omega
      · simp only [TICKS_HALFPERIOD]
        omega
    · exact absurd heven (by simp [Nat.even_iff])
    · simp at heq
  · intro before press release after heq heven hshort hquiet
    rcases before with _ | ⟨_, _ | ⟨_, _ | ⟨_, _ | ⟨_, before⟩⟩⟩⟩
    · simp only [List.nil_append, List.cons.injEq] at heq
      obtain ⟨rfl, rfl, rfl⟩ := heq
      have := hquiet 200 rfl
      simp at this
    · simp at heven
    · simp only [List.cons_append, List.nil_append, List.cons.injEq] at heq
      obtain ⟨-, -, rfl, rfl, rfl⟩ := heq
      simp at hshort
    · simp at heq
    · simp at heq

/-- A click and a hold, seen by two different loops. -/
theorem gestures_of_edges_click_hold :
    let durations : Durations := { clickMs := 250 }
    let edges := [0, 100, 200, 1200]
    Prompt durations edges [100, 300, 800, 1300] ∧ Prompt durations edges [200, 700, 1199, 1200] ∧
      ∃ s s', watch durations edges [100, 300, 800, 1300] = .ok s ∧
        watch durations edges [200, 700, 1199, 1200] = .ok s' ∧ s.published = s'.published ∧
        s.published = [1] ∧ s.longs = [200] := by
  intro durations edges
  have hfirst : Prompt durations edges [100, 300, 800, 1300] :=
    prompt_click_hold (by decide +kernel) ⟨800, by decide, by decide⟩
  have hsecond : Prompt durations edges [200, 700, 1199, 1200] :=
    prompt_click_hold (by decide +kernel) ⟨700, by decide, by decide⟩
  obtain ⟨s, s', hs, hs', hsame, hpublished, hlongs, -⟩ := gestures_of_edges durations edges
    [100, 300, 800, 1300] [200, 700, 1199, 1200] (by decide +kernel) (by decide +kernel) (by decide +kernel)
    hfirst hsecond
  exact ⟨hfirst, hsecond, s, s', hs, hs', hsame, hpublished.trans (by decide +kernel),
    hlongs.trans (by decide +kernel)⟩

/-- A press that is held for a second. A loop that comes back only when it is over counts it as a
click. -/
theorem gestures_of_slow_loop :
    ¬ ∀ (durations : Durations) (edges checks checks' : List ℤ), edges.Pairwise (· ≤ ·) →
      checks.Pairwise (· ≤ ·) → checks'.Pairwise (· ≤ ·) →
      (∀ edge ∈ edges, ∃ t ∈ checks, edge + durations.clickMs + durations.longPressMs ≤ t) →
      (∀ edge ∈ edges, ∃ t ∈ checks', edge + durations.clickMs + durations.longPressMs ≤ t) →
      ∃ s s', watch durations edges checks = .ok s ∧ watch durations edges checks' = .ok s' ∧
        s.published = s'.published := by
  intro h
  obtain ⟨s, s', hs, hs', hsame⟩ := h { clickMs := 250 } [0, 1000] [1000, 2000] [500, 1000, 2000]
    (by decide +kernel) (by decide +kernel) (by decide +kernel) (by decide +kernel) (by decide +kernel)
  have hslow : (watch { clickMs := 250 } [0, 1000] [1000, 2000]).map Session.published = .ok [1] := by
    decide +kernel
  have hquick : (watch { clickMs := 250 } [0, 1000] [500, 1000, 2000]).map Session.published = .ok [] := by
    decide +kernel
  rw [hs] at hslow
  rw [hs'] at hquick
  have hone : s.published = [1] := Except.ok.inj hslow
  have hnone : s'.published = [] := Except.ok.inj hquick
  rw [hone, hnone] at hsame
  cases hsame

end ChuMicro.Buttons
