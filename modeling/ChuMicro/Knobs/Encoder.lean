import ChuMicro.Python
import Mathlib.Data.Int.ModEq
import Mathlib.Data.List.Chain

/-!
# Rotary encoders

`Encoder` of `libraries/knobs/src/chumicro_knobs/encoder.py`: the detents that a source counts,
folded into a position that runs free, stops at two bounds, or wraps around between them.

The constructor accepts bounds the wrong way round, which hold no position at all. And with `wrap` a
tick that turns the shaft all the way round, once or several times, reports `just_moved` although
the position is where it was.

## Main definitions

* `Knobs.Encoder` — an encoder, with `new` and `check`.
* `Knobs.Exact` — what is promised of the ticks of a sequence of readings.

## Main results

* `Knobs.encoder_exact_iff` — the promise is kept if and only if the bounds are the right way round
  and, with `wrap`, no tick turns the shaft by a multiple of the whole range.
-/

namespace ChuMicro.Knobs

/-! ## The encoder -/

/-- `ZeroDivisionError`. -/
structure ZeroDivisionError where
  deriving DecidableEq, Repr

/-- `Encoder`, without its source and its callback. -/
structure Encoder where
  bounded : Bool
  low : ℤ
  high : ℤ
  span : ℤ
  wrap : Bool
  position : ℤ
  delta : ℤ := 0
  justMoved : Bool := false
  lastRawPosition : ℤ
  deriving DecidableEq, Repr

namespace Encoder

/-- `Encoder(source=...)`, for what the source has counted so far. -/
def new (rawPosition : ℤ) (detentSteps : ℤ) (bounds : Option (ℤ × ℤ)) (wrap : Bool) :
    Except PyExn Encoder :=
  if detentSteps < 1 then .error (.valueError "detent_steps must be 1 or more")
  else
    match bounds with
    | none =>
      if wrap then .error (.valueError "wrap=True needs bounds=(low, high) to wrap around")
      else .ok {
        bounded := false
        low := 0
        high := 0
        span := 0
        wrap := wrap
        position := 0
        lastRawPosition := rawPosition }
    | some (low, high) =>
      .ok {
        bounded := true
        low := low
        high := high
        span := high - low + 1
        wrap := wrap
        position := if 0 < low then low else if 0 > high then high else 0
        lastRawPosition := rawPosition }

/-- The last assignments of `check`, and what it returns. -/
def moveTo (e : Encoder) (position delta : ℤ) : Except ZeroDivisionError Bool × Encoder :=
  (.ok (delta ≠ 0), { e with position := position, delta := delta, justMoved := delta ≠ 0 })

/-- `check`, for what the source has counted so far, with the encoder that it leaves behind. -/
def check (e : Encoder) (rawPosition : ℤ) : Except ZeroDivisionError Bool × Encoder :=
  let moved := rawPosition - e.lastRawPosition
  if moved = 0 then (.ok false, { e with delta := 0, justMoved := false })
  else
    let e := { e with lastRawPosition := rawPosition }
    let position := e.position + moved
    if ¬ e.bounded then e.moveTo position moved
    else if e.wrap then
      if e.span = 0 then (.error ⟨⟩, e)
      else e.moveTo (e.low + (position - e.low).fmod e.span) moved
    else
      let position := if position < e.low then e.low else if position > e.high then e.high else position
      e.moveTo position (position - e.position)

/-- The encoder after a sequence of readings. -/
def after (e : Encoder) (readings : List ℤ) : Encoder :=
  readings.foldl (fun e rawPosition => (e.check rawPosition).2) e

/-- The position is within the bounds, where there are any. -/
def Inside (e : Encoder) : Prop := e.bounded = true → e.low ≤ e.position ∧ e.position ≤ e.high

end Encoder

/-! ## What is promised -/

/-- What is promised of a tick, for an encoder that began as `start` and is now `e`: the check
returns, the position is within the bounds, `just_moved` tells whether the position has changed,
`delta` is the change where the position does not wrap, and a position that wraps is what the
turning so far comes to, counted from the low bound and taken modulo the span. -/
structure TickExact (start e : Encoder) (rawPosition : ℤ) : Prop where
  returns : (e.check rawPosition).1 = .ok (e.check rawPosition).2.justMoved
  inside : (e.check rawPosition).2.Inside
  moved : (e.check rawPosition).2.justMoved = true ↔ (e.check rawPosition).2.position ≠ e.position
  delta : e.wrap = false → (e.check rawPosition).2.delta = (e.check rawPosition).2.position - e.position
  turned : e.wrap = true → (e.check rawPosition).2.position =
    e.low + (start.position - e.low + (rawPosition - start.lastRawPosition)).fmod e.span

/-- What is promised of the ticks of a sequence of readings. -/
structure Exact (start : Encoder) (readings : List ℤ) : Prop where
  inside : start.Inside
  tick : ∀ before rawPosition rest, readings = before ++ rawPosition :: rest →
    TickExact start (start.after before) rawPosition

/-! ## One tick -/

/-- What a constructor makes, and what no tick changes. -/
structure Sound (start e : Encoder) : Prop where
  span : e.bounded = true → e.span = e.high - e.low + 1
  wrap : e.wrap = true → e.bounded = true
  low_le : e.bounded = true → e.low ≤ e.high
  inside : e.Inside
  turned : e.wrap = true → e.position =
    e.low + (start.position - e.low + (e.lastRawPosition - start.lastRawPosition)).fmod e.span

section Tick

variable {start e : Encoder} {rawPosition : ℤ}

/-- The settings of an encoder stay as they are. -/
lemma check_settings (e : Encoder) (rawPosition : ℤ) :
    (e.check rawPosition).2.bounded = e.bounded ∧ (e.check rawPosition).2.wrap = e.wrap ∧
      (e.check rawPosition).2.low = e.low ∧ (e.check rawPosition).2.high = e.high ∧
      (e.check rawPosition).2.span = e.span ∧ (e.check rawPosition).2.lastRawPosition = rawPosition := by
  unfold Encoder.check Encoder.moveTo
  dsimp only
  split_ifs with hmoved
  · exact ⟨rfl, rfl, rfl, rfl, rfl, (sub_eq_zero.mp hmoved).symm⟩
  all_goals exact ⟨rfl, rfl, rfl, rfl, rfl, rfl⟩

/-- A remainder by the span of bounds that are the right way round. -/
lemma Sound.fmod_bounds (h : Sound start e) (hwrap : e.wrap = true) (turned : ℤ) :
    0 < e.span ∧ turned.fmod e.span = turned % e.span ∧ 0 ≤ turned % e.span ∧ turned % e.span < e.span := by
  have hspan := h.span (h.wrap hwrap)
  have hle := h.low_le (h.wrap hwrap)
  have hpos : 0 < e.span := by omega
  exact ⟨hpos, Int.fmod_eq_emod_of_nonneg _ hpos.le, Int.emod_nonneg _ hpos.ne', Int.emod_lt_of_pos _ hpos⟩

/-- A tick of a wrapping encoder that turns. -/
lemma Sound.check_wrap (h : Sound start e) (hwrap : e.wrap = true)
    (hmoved : rawPosition - e.lastRawPosition ≠ 0) :
    e.check rawPosition = Encoder.moveTo { e with lastRawPosition := rawPosition }
      (e.low + (e.position + (rawPosition - e.lastRawPosition) - e.low).fmod e.span)
      (rawPosition - e.lastRawPosition) := by
  have hpos := (h.fmod_bounds hwrap 0).1
  unfold Encoder.check
  dsimp only
  rw [if_neg hmoved, if_neg (not_not.mpr (h.wrap hwrap)), if_pos hwrap, if_neg hpos.ne']

/-- The position of a wrapping encoder that turns: the turning so far. -/
lemma Sound.wrap_position (h : Sound start e) (hwrap : e.wrap = true) :
    e.low + (e.position + (rawPosition - e.lastRawPosition) - e.low).fmod e.span =
      e.low + (start.position - e.low + (rawPosition - start.lastRawPosition)).fmod e.span := by
  obtain ⟨-, hleft, -⟩ := h.fmod_bounds hwrap (e.position + (rawPosition - e.lastRawPosition) - e.low)
  obtain ⟨-, hright, -⟩ := h.fmod_bounds hwrap
    (start.position - e.low + (rawPosition - start.lastRawPosition))
  obtain ⟨-, hturned, -⟩ := h.fmod_bounds hwrap
    (start.position - e.low + (e.lastRawPosition - start.lastRawPosition))
  have hposition := h.turned hwrap
  rw [hturned] at hposition
  rw [hleft, hright, hposition]
  congr 1
  have hsum : e.low + (start.position - e.low + (e.lastRawPosition - start.lastRawPosition)) % e.span +
      (rawPosition - e.lastRawPosition) - e.low =
      (start.position - e.low + (e.lastRawPosition - start.lastRawPosition)) % e.span +
        (rawPosition - e.lastRawPosition) := by ring
  rw [hsum, Int.emod_add_emod]
  congr 1
  ring

/-- A wrapping encoder that turns is where it was if it has turned by a multiple of the span. -/
lemma Sound.wrap_position_eq_iff (h : Sound start e) (hwrap : e.wrap = true) :
    e.low + (e.position + (rawPosition - e.lastRawPosition) - e.low).fmod e.span = e.position ↔
      e.span ∣ rawPosition - e.lastRawPosition := by
  obtain ⟨hpos, hfmod, -⟩ := h.fmod_bounds hwrap (e.position + (rawPosition - e.lastRawPosition) - e.low)
  obtain ⟨hlow, hhigh⟩ := h.inside (h.wrap hwrap)
  have hspan := h.span (h.wrap hwrap)
  have hself : (e.position - e.low) % e.span = e.position - e.low :=
    Int.emod_eq_of_lt (by omega) (by omega)
  have hmodEq : (e.position + (rawPosition - e.lastRawPosition) - e.low) % e.span =
      (e.position - e.low) % e.span ↔ e.span ∣ rawPosition - e.lastRawPosition := by
    have hdvd := @Int.modEq_iff_dvd e.span (e.position - e.low)
      (e.position + (rawPosition - e.lastRawPosition) - e.low)
    have hdiff : e.position + (rawPosition - e.lastRawPosition) - e.low - (e.position - e.low) =
        rawPosition - e.lastRawPosition := by ring
    rw [hdiff] at hdvd
    rw [← hdvd]
    exact eq_comm
  rw [hfmod, ← hmodEq, hself]
  constructor
  · intro heq
    omega
  · intro heq
    omega

/-- A tick that does not turn. -/
lemma check_still (hmoved : rawPosition = e.lastRawPosition) :
    e.check rawPosition = (.ok false, { e with delta := 0, justMoved := false }) := by
  unfold Encoder.check
  exact if_pos (sub_eq_zero.mpr hmoved)

/-- A tick of an encoder without bounds that turns. -/
lemma check_unbounded (hbounded : e.bounded = false) (hmoved : rawPosition - e.lastRawPosition ≠ 0) :
    e.check rawPosition = Encoder.moveTo { e with lastRawPosition := rawPosition }
      (e.position + (rawPosition - e.lastRawPosition)) (rawPosition - e.lastRawPosition) := by
  unfold Encoder.check
  dsimp only
  rw [if_neg hmoved, if_pos (by rw [hbounded]; exact Bool.false_ne_true)]

/-- A tick of an encoder that stops at its bounds, and turns. -/
lemma check_clamped (hbounded : e.bounded = true) (hwrap : e.wrap = false) (hle : e.low ≤ e.high)
    (hmoved : rawPosition - e.lastRawPosition ≠ 0) :
    ∃ position, e.low ≤ position ∧ position ≤ e.high ∧
      e.check rawPosition = Encoder.moveTo { e with lastRawPosition := rawPosition } position
        (position - e.position) := by
  unfold Encoder.check
  dsimp only
  rw [if_neg hmoved, if_neg (not_not.mpr hbounded), if_neg (by rw [hwrap]; exact Bool.false_ne_true)]
  refine ⟨_, ?_, ?_, rfl⟩
  · split_ifs <;> omega
  · split_ifs <;> omega

/-- **A tick keeps its promise if and only if it does not turn a wrapping encoder by a multiple of
the whole range.**

**Proof sketch.** A tick that does not turn changes nothing. Without bounds, and with bounds that
stop the position, `delta` is the change of the position. With `wrap` it is the turning, which
leaves the position where it was if the span divides it. -/
lemma Sound.tickExact_iff (h : Sound start e) :
    TickExact start e rawPosition ↔
      (e.wrap = true → rawPosition ≠ e.lastRawPosition → ¬ e.span ∣ rawPosition - e.lastRawPosition) := by
  by_cases hmoved : rawPosition = e.lastRawPosition
  · refine ⟨fun _ _ hne => absurd hmoved hne, fun _ => ?_⟩
    have hcheck := check_still hmoved
    constructor
    · rw [hcheck]
    · rw [hcheck]
      exact h.inside
    · rw [hcheck]
      simp
    · rw [hcheck]
      simp
    · rw [hcheck, hmoved]
      exact h.turned
  have hne : rawPosition - e.lastRawPosition ≠ 0 := sub_ne_zero.mpr hmoved
  by_cases hwrap : e.wrap = true
  · have hcheck := h.check_wrap hwrap hne
    obtain ⟨hpos, hfmod, hlow, hhigh⟩ := h.fmod_bounds hwrap
      (e.position + (rawPosition - e.lastRawPosition) - e.low)
    have hspan := h.span (h.wrap hwrap)
    have hsame := @Sound.wrap_position_eq_iff start e rawPosition h hwrap
    refine ⟨fun hexact _ _ hdvd => ?_, fun hturn => ?_⟩
    · have hmoves := hexact.moved
      rw [hcheck] at hmoves
      exact hmoves.mp (decide_eq_true hne) (hsame.mpr hdvd)
    · constructor
      · rw [hcheck]
        rfl
      · rw [hcheck]
        intro _
        dsimp only [Encoder.moveTo]
        rw [hfmod]
        omega
      · rw [hcheck]
        exact ⟨fun _ heq => hturn hwrap hmoved (hsame.mp heq), fun _ => decide_eq_true hne⟩
      · rw [hwrap]
        exact nofun
      · intro _
        rw [hcheck]
        exact h.wrap_position hwrap
  refine ⟨fun _ hon => absurd hon hwrap, fun _ => ?_⟩
  have hoff : e.wrap = false := Bool.not_eq_true _ ▸ hwrap
  -- without `wrap` the change of the position is reported
  have hreports : ∀ position delta, delta = position - e.position →
      (e.bounded = true → e.low ≤ position ∧ position ≤ e.high) →
      e.check rawPosition = Encoder.moveTo { e with lastRawPosition := rawPosition } position delta →
      TickExact start e rawPosition := by
    intro position delta hdelta hinside hcheck
    constructor
    · rw [hcheck]
      rfl
    · rw [hcheck]
      exact hinside
    · rw [hcheck, hdelta]
      dsimp only [Encoder.moveTo]
      rw [decide_eq_true_eq, sub_ne_zero]
    · rw [hcheck]
      exact fun _ => hdelta
    · exact fun hon => absurd hon hwrap
  cases hbounded : e.bounded with
  | false =>
    refine hreports _ _ (by ring) (fun hon => ?_) (check_unbounded hbounded hne)
    rw [hbounded] at hon
    cases hon
  | true =>
    obtain ⟨position, hlow, hhigh, hcheck⟩ := check_clamped hbounded hoff (h.low_le hbounded) hne
    exact hreports position _ rfl (fun _ => ⟨hlow, hhigh⟩) hcheck

/-- **A tick keeps an encoder sound.** -/
lemma Sound.check (h : Sound start e) : Sound start (e.check rawPosition).2 := by
  obtain ⟨hbounded, hwrap, hlow, hhigh, hspan, hraw⟩ := check_settings e rawPosition
  have hinside : (e.check rawPosition).2.Inside ∧ (e.wrap = true → (e.check rawPosition).2.position =
      e.low + (start.position - e.low + (rawPosition - start.lastRawPosition)).fmod e.span) := by
    by_cases hturn : e.wrap = true → rawPosition ≠ e.lastRawPosition →
        ¬ e.span ∣ rawPosition - e.lastRawPosition
    · have hexact := h.tickExact_iff.mpr hturn
      exact ⟨hexact.inside, hexact.turned⟩
    · -- a whole turn: the position is where it was
      simp only [not_forall, not_not] at hturn
      obtain ⟨hon, hmoved, hdvd⟩ := hturn
      have hcheck := h.check_wrap hon (sub_ne_zero.mpr hmoved)
      have hsame := (h.wrap_position_eq_iff hon).mpr hdvd
      have hposition := @Sound.wrap_position start e rawPosition h hon
      rw [hcheck]
      refine ⟨fun hb => ?_, fun _ => hposition⟩
      dsimp only [Encoder.moveTo]
      rw [hsame]
      exact h.inside hb
  constructor
  · rw [hbounded, hspan, hhigh, hlow]
    exact h.span
  · rw [hwrap, hbounded]
    exact h.wrap
  · rw [hbounded, hlow, hhigh]
    exact h.low_le
  · exact hinside.1
  · rw [hwrap, hlow, hspan, hraw]
    exact hinside.2

end Tick

/-! ## Runs -/

section Runs

variable {start : Encoder} {before readings : List ℤ} {rawPosition : ℤ}

lemma after_concat (e : Encoder) (before : List ℤ) (rawPosition : ℤ) :
    e.after (before ++ [rawPosition]) = ((e.after before).check rawPosition).2 := by
  simp [Encoder.after]

/-- What a run leaves alone, and which reading it has seen last. -/
lemma after_settings (e : Encoder) (before : List ℤ) :
    (e.after before).wrap = e.wrap ∧ (e.after before).span = e.span ∧
      (e.after before).lastRawPosition = (e.lastRawPosition :: before).getLast (List.cons_ne_nil _ _) := by
  induction before using List.reverseRecOn with
  | nil => exact ⟨rfl, rfl, rfl⟩
  | append_singleton before raw ih =>
    obtain ⟨-, hwrap, -, -, hspan, hraw⟩ := check_settings (e.after before) raw
    rw [after_concat]
    refine ⟨hwrap.trans ih.1, hspan.trans ih.2.1, ?_⟩
    rw [hraw]
    simp

/-- A run keeps an encoder sound. -/
lemma Sound.after (h : Sound start start) (before : List ℤ) : Sound start (start.after before) := by
  induction before using List.reverseRecOn with
  | nil => exact h
  | append_singleton before raw ih =>
    rw [after_concat]
    exact ih.check

/-- **The ticks of a sound encoder keep their promise if and only if no tick turns it by a multiple
of the whole range.** -/
lemma Sound.exact_iff (h : Sound start start) :
    Exact start readings ↔
      (start.wrap = true → List.IsChain (fun a b => a ≠ b → ¬ start.span ∣ b - a)
        (start.lastRawPosition :: readings)) := by
  have htick : ∀ before raw, TickExact start (start.after before) raw ↔ (start.wrap = true →
      raw ≠ (start.lastRawPosition :: before).getLast (List.cons_ne_nil _ _) →
        ¬ start.span ∣ raw - (start.lastRawPosition :: before).getLast (List.cons_ne_nil _ _)) := by
    intro before raw
    obtain ⟨hwrap, hspan, hlast⟩ := after_settings start before
    rw [(h.after before).tickExact_iff, hwrap, hspan, hlast]
  constructor
  · intro hexact hwrap
    rw [List.isChain_iff_forall_rel_of_append_cons_cons]
    intro a b before rest hsplit hne
    cases before with
    | nil =>
      obtain ⟨rfl, rfl⟩ := List.cons.inj hsplit
      exact (htick [] b).mp (hexact.tick [] b rest rfl) hwrap hne.symm
    | cons first before =>
      obtain ⟨rfl, rfl⟩ := List.cons.inj hsplit
      have hexact' := hexact.tick (before ++ [a]) b rest (by simp)
      have hturn := (htick (before ++ [a]) b).mp hexact' hwrap
      simp only [← List.cons_append, List.getLast_append_singleton] at hturn
      exact hturn hne.symm
  · intro hturns
    refine ⟨h.inside, fun before raw rest hsplit => (htick before raw).mpr fun hwrap hne => ?_⟩
    have hchain := List.isChain_iff_forall_rel_of_append_cons_cons.mp (hturns hwrap)
    have hpair : start.lastRawPosition :: readings = (start.lastRawPosition :: before).dropLast ++
        (start.lastRawPosition :: before).getLast (List.cons_ne_nil _ _) :: raw :: rest := by
      calc start.lastRawPosition :: readings = (start.lastRawPosition :: before) ++ raw :: rest := by
            rw [hsplit, List.cons_append]
        _ = ((start.lastRawPosition :: before).dropLast ++
              [(start.lastRawPosition :: before).getLast (List.cons_ne_nil _ _)]) ++ raw :: rest := by
            rw [List.dropLast_append_getLast]
        _ = _ := by rw [List.append_assoc, List.singleton_append]
    exact hchain hpair hne.symm

/-- What the constructor makes. -/
lemma new_eq_ok {detentSteps : ℤ} {bounds : Option (ℤ × ℤ)} {wrap : Bool}
    (h : Encoder.new rawPosition detentSteps bounds wrap = .ok start) :
    (bounds = none ∧ wrap = false ∧ start = ⟨false, 0, 0, 0, false, 0, 0, false, rawPosition⟩) ∨
      ∃ low high, bounds = some (low, high) ∧ start = ⟨true, low, high, high - low + 1, wrap,
        if 0 < low then low else if 0 > high then high else 0, 0, false, rawPosition⟩ := by
  unfold Encoder.new at h
  by_cases hsteps : detentSteps < 1
  · rw [if_pos hsteps] at h
    cases h
  rw [if_neg hsteps] at h
  cases bounds with
  | none =>
    cases wrap with
    | true => cases h
    | false => exact .inl ⟨rfl, rfl, (Except.ok.inj h).symm⟩
  | some pair => exact .inr ⟨pair.1, pair.2, rfl, (Except.ok.inj h).symm⟩

/-- What the constructor makes is sound, if its bounds are the right way round. -/
lemma sound_new {detentSteps : ℤ} {bounds : Option (ℤ × ℤ)} {wrap : Bool}
    (h : Encoder.new rawPosition detentSteps bounds wrap = .ok start)
    (hbounds : ∀ low high, bounds = some (low, high) → low ≤ high) : Sound start start := by
  obtain ⟨-, -, rfl⟩ | ⟨low, high, hpair, rfl⟩ := new_eq_ok h
  · exact ⟨nofun, nofun, nofun, nofun, nofun⟩
  · have hle := hbounds low high hpair
    have hinside : low ≤ (if 0 < low then low else if 0 > high then high else 0) ∧
        (if 0 < low then low else if 0 > high then high else 0) ≤ high := by
      split_ifs <;> omega
    refine ⟨fun _ => rfl, fun _ => rfl, fun _ => hle, fun _ => hinside, fun _ => ?_⟩
    dsimp only
    rw [sub_self, add_zero, Int.fmod_eq_emod_of_nonneg _ (by omega),
      Int.emod_eq_of_lt (by omega) (by omega)]
    ring

/-- **The ticks of an encoder keep their promise, whatever its source reads, if and only if its
bounds are the right way round and, with `wrap`, no tick turns it by a multiple of the whole
range.**

**Proof sketch.** Bounds the wrong way round hold no position, also not the first. All other
encoders begin sound, every tick keeps them so, and a tick of a sound encoder keeps its promise
unless it turns a wrapping one by a multiple of the span. -/
theorem encoder_exact_iff {detentSteps : ℤ} {bounds : Option (ℤ × ℤ)} {wrap : Bool}
    (h : Encoder.new rawPosition detentSteps bounds wrap = .ok start) (readings : List ℤ) :
    Exact start readings ↔ ∀ low high, bounds = some (low, high) → low ≤ high ∧
      (wrap = true → List.IsChain (fun a b => a ≠ b → ¬ (high - low + 1) ∣ b - a)
        (rawPosition :: readings)) := by
  by_cases hbounds : ∀ low high, bounds = some (low, high) → low ≤ high
  · rw [(sound_new h hbounds).exact_iff]
    obtain ⟨rfl, -, rfl⟩ | ⟨low, high, rfl, rfl⟩ := new_eq_ok h
    · exact ⟨fun _ _ _ => nofun, fun _ => nofun⟩
    · constructor
      · rintro hturns _ _ ⟨⟩
        exact ⟨hbounds low high rfl, hturns⟩
      · intro hall
        exact (hall low high rfl).2
  · refine ⟨fun hexact => ?_, fun hall => absurd (fun low high hb => (hall low high hb).1) hbounds⟩
    simp only [not_forall, not_le] at hbounds
    obtain ⟨low, high, rfl, hlt⟩ := hbounds
    have hinside := hexact.inside
    obtain ⟨hnone, -⟩ | ⟨_, _, hpair, rfl⟩ := new_eq_ok h
    · cases hnone
    · cases hpair
      obtain ⟨hlow, hhigh⟩ := hinside rfl
      exact absurd (hlow.trans hhigh) (not_le.mpr hlt)

/-- An encoder with the positions 0 to 3 in a ring. -/
def ringOfFour : Encoder where
  bounded := true
  low := 0
  high := 3
  span := 4
  wrap := true
  position := 0
  lastRawPosition := 0

/-- A tick that turns a ring of four positions once round. -/
theorem not_exact_whole_turn :
    Encoder.new 0 4 (some (0, 3)) true = .ok ringOfFour ∧ ¬ Exact ringOfFour [4] := by
  refine ⟨rfl, fun hexact => ?_⟩
  have hmoved := (hexact.tick [] 4 [] rfl).moved
  revert hmoved
  decide

/-- Two ticks that turn it by one and by five detents. -/
theorem exact_past_the_end : Exact ringOfFour [1, 6] := by
  have hring : Encoder.new 0 4 (some (0, 3)) true = .ok ringOfFour := rfl
  refine (encoder_exact_iff hring [1, 6]).mpr ?_
  rintro _ _ ⟨⟩
  exact ⟨by decide, fun _ => by decide⟩

end Runs

end ChuMicro.Knobs
