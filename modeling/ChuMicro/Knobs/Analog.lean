import ChuMicro.Lib.Smoothing
import Mathlib.Algebra.Order.BigOperators.Group.List
import Mathlib.Algebra.Order.Ring.Abs
import Mathlib.Algebra.Order.Ring.Int
import Mathlib.Data.List.Induction

/-!
# Analog knobs

`MpAnalogSource` of `libraries/knobs/src/chumicro_knobs/_adapters/mp.py`, which takes the middle of
the last three conversions and smooths it, and `AnalogKnob` of `analog.py`, which follows a source
when its reading has moved by more than a deadband.

The middle of three conversions is that of the conversions before, so the first conversion of a new
value can still move the reading the other way.

## Main definitions

* `Knobs.middleOfThree`, `Knobs.MpAnalogSource` — a source, with `poll`.
* `Knobs.AnalogKnob` — a knob, with `check`.

## Main results

* `Knobs.analog_follows` — readings stay between the conversions, lone outliers do not move them, a
  constant conversion is reached from one side, and a knob is within a step of its source and can
  get to every step.
-/

namespace ChuMicro.Knobs

open Smoothing

/-! ## The source -/

/-- `SMOOTHING_SHIFT`. -/
def SMOOTHING_SHIFT : ℕ := 4

/-- `middle_of_three`. -/
def middleOfThree (first second third : ℕ) : ℕ :=
  let (first, second) := if first > second then (second, first) else (first, second)
  let second := if second > third then third else second
  if first > second then first else second

/-- `_recent`, the last three conversions. -/
structure Recent where
  first : ℕ
  second : ℕ
  third : ℕ
  deriving DecidableEq, Repr

/-- `recent[slot] = reading`. -/
def Recent.set (r : Recent) (slot reading : ℕ) : Recent :=
  match slot with
  | 0 => { r with first := reading }
  | 1 => { r with second := reading }
  | _ => { r with third := reading }

/-- `MpAnalogSource`. -/
structure MpAnalogSource where
  recent : Recent
  slot : ℕ := 0
  smoothed : ℕ
  raw : ℕ
  deriving DecidableEq, Repr

/-- `MpAnalogSource(pin)`, for its first conversion. -/
def MpAnalogSource.new (reading : ℕ) : MpAnalogSource where
  recent := ⟨reading, reading, reading⟩
  smoothed := reading <<< SMOOTHING_SHIFT
  raw := reading

/-- `poll`, for the conversion that it makes. -/
def MpAnalogSource.poll (s : MpAnalogSource) (reading : ℕ) : MpAnalogSource :=
  let recent := s.recent.set s.slot reading
  let slot := s.slot + 1
  let middle := middleOfThree recent.first recent.second recent.third
  let smoothed := s.smoothed + middle - (s.smoothed >>> SMOOTHING_SHIFT)
  { recent := recent
    slot := if slot ≥ 3 then 0 else slot
    smoothed := smoothed
    raw := smoothed >>> SMOOTHING_SHIFT }

/-- The source after some conversions. -/
def MpAnalogSource.after (s : MpAnalogSource) (conversions : List ℕ) : MpAnalogSource :=
  conversions.foldl MpAnalogSource.poll s

/-- The readings that the source shows after each of some conversions. -/
def MpAnalogSource.raws (s : MpAnalogSource) : List ℕ → List ℕ
  | [] => []
  | reading :: conversions => (s.poll reading).raw :: (s.poll reading).raws conversions

/-! ## The knob -/

/-- `RAW_RANGE`. -/
def RAW_RANGE : ℤ := 65536

/-- `AnalogKnob`, without its source and its callback. -/
structure AnalogKnob where
  steps : ℤ := 100
  deadband : ℤ := 512
  value : ℤ := 0
  raw : ℤ := 0
  delta : ℤ := 0
  justMoved : Bool := false
  deriving DecidableEq, Repr

/-- The step of a reading. -/
def AnalogKnob.stepOf (k : AnalogKnob) (raw : ℤ) : ℤ := raw * k.steps / RAW_RANGE

/-- `check`, for the reading of the source. It returns whether the knob has moved. -/
def AnalogKnob.check (k : AnalogKnob) (raw : ℤ) : Bool × AnalogKnob :=
  if |raw - k.raw| ≤ k.deadband then (false, { k with delta := 0, justMoved := false })
  else
    let value := k.stepOf raw
    let delta := value - k.value
    (delta ≠ 0, { k with raw := raw, value := value, delta := delta, justMoved := delta ≠ 0 })

/-- The knob after some readings of its source. -/
def AnalogKnob.after (k : AnalogKnob) (readings : List ℤ) : AnalogKnob :=
  readings.foldl (fun k raw => (k.check raw).2) k

/-! ## The window -/

open MpAnalogSource

section Window

variable {a b c r x : ℕ} {s : MpAnalogSource}

/-- The middle of three by the order. -/
lemma middleOfThree_eq (a b c : ℕ) : middleOfThree a b c = max (min a b) (min (max a b) c) := by
  unfold middleOfThree
  dsimp only
  split_ifs <;> omega

/-- Two of three that agree are the middle. -/
lemma middleOfThree_of_two (h : (a = r ∧ b = r) ∨ (a = r ∧ c = r) ∨ (b = r ∧ c = r)) :
    middleOfThree a b c = r := by
  rw [middleOfThree_eq]
  omega

/-- The middle of the window once a conversion has replaced the oldest. -/
def MpAnalogSource.middle (s : MpAnalogSource) (reading : ℕ) : ℕ :=
  middleOfThree (s.recent.set s.slot reading).first (s.recent.set s.slot reading).second
    (s.recent.set s.slot reading).third

/-- The conversion before, and the one before that. -/
def MpAnalogSource.lastTwo (s : MpAnalogSource) : ℕ × ℕ :=
  match s.slot with
  | 0 => (s.recent.third, s.recent.second)
  | 1 => (s.recent.first, s.recent.third)
  | _ => (s.recent.second, s.recent.first)

/-- **A poll smooths the middle of the last three conversions**, and keeps them in turn. -/
lemma poll_spec (s : MpAnalogSource) (reading : ℕ) :
    (s.poll reading).smoothed = smooth 16 s.smoothed (s.middle reading) ∧
      (s.poll reading).raw = Smoothing.reading 16 (s.poll reading).smoothed := by
  have hshift : ∀ n : ℕ, n >>> SMOOTHING_SHIFT = n / 16 := fun n => Nat.shiftRight_eq_div_pow n 4
  unfold poll smooth Smoothing.reading
  dsimp only
  rw [hshift, hshift]
  exact ⟨rfl, rfl⟩

/-- The slots that are used. -/
def MpAnalogSource.Turning (s : MpAnalogSource) : Prop := s.slot < 3

lemma turning_poll (h : s.Turning) (reading : ℕ) : (s.poll reading).Turning := by
  unfold MpAnalogSource.Turning poll at *
  dsimp only
  split_ifs <;> omega

lemma lastTwo_poll (h : s.Turning) (reading : ℕ) :
    (s.poll reading).lastTwo = (reading, s.lastTwo.1) := by
  unfold MpAnalogSource.Turning at h
  unfold poll lastTwo
  obtain hslot | hslot | hslot : s.slot = 0 ∨ s.slot = 1 ∨ s.slot = 2 := by omega
  all_goals simp [hslot, Recent.set]

/-- The middle of the window is that of the last three conversions. -/
lemma middle_eq (h : s.Turning) (reading : ℕ) :
    s.middle reading = middleOfThree reading s.lastTwo.1 s.lastTwo.2 := by
  unfold MpAnalogSource.Turning at h
  unfold middle lastTwo
  rw [middleOfThree_eq, middleOfThree_eq]
  obtain hslot | hslot | hslot : s.slot = 0 ∨ s.slot = 1 ∨ s.slot = 2 := by omega
  all_goals
    simp only [hslot, Recent.set]
    omega

end Window

/-! ## Runs of a source -/

section Source

variable {first r x : ℕ} {s t : MpAnalogSource} {before conversions : List ℕ}

lemma after_append (s : MpAnalogSource) (before conversions : List ℕ) :
    s.after (before ++ conversions) = (s.after before).after conversions := List.foldl_append

lemma raws_append (s : MpAnalogSource) (before conversions : List ℕ) :
    s.raws (before ++ conversions) = s.raws before ++ (s.after before).raws conversions := by
  induction before generalizing s with
  | nil => rfl
  | cons x before ih =>
    rw [List.cons_append, raws, raws, ih, List.cons_append]
    rfl

/-- What a source remembers of its conversions: the last two. The first one fills the window. -/
lemma lastTwo_after (first : ℕ) (conversions : List ℕ) :
    ((new first).after conversions).Turning ∧
      ∀ a b rest, conversions.reverse ++ [first, first] = a :: b :: rest →
        ((new first).after conversions).lastTwo = (a, b) := by
  induction conversions using List.reverseRecOn with
  | nil =>
    refine ⟨Nat.zero_lt_succ 2, fun a b rest h => ?_⟩
    obtain ⟨rfl, hrest⟩ := List.cons.inj h
    obtain ⟨rfl, -⟩ := List.cons.inj hrest
    rfl
  | append_singleton before reading ih =>
    obtain ⟨hturning, hlast⟩ := ih
    rw [after_append]
    refine ⟨turning_poll hturning reading, fun a b rest h => ?_⟩
    rw [List.reverse_append, List.reverse_singleton, List.append_assoc, List.singleton_append] at h
    obtain ⟨rfl, hbefore⟩ := List.cons.inj h
    have hpoll := @lastTwo_poll _ hturning reading
    cases rest with
    | nil => simpa using congrArg List.length hbefore
    | cons c rest =>
      rw [hlast b c rest hbefore] at hpoll
      exact hpoll

/-- The reading of a source is its accumulator scaled down. -/
lemma raw_after (first : ℕ) (conversions : List ℕ) :
    ((new first).after conversions).raw =
      Smoothing.reading 16 ((new first).after conversions).smoothed := by
  induction conversions using List.reverseRecOn with
  | nil =>
    change first = (first <<< 4) / 16
    rw [Nat.shiftLeft_eq]
    omega
  | append_singleton before reading _ =>
    rw [after_append]
    exact (poll_spec _ reading).2

/-- A source all of whose conversions lie between two bounds. -/
structure MpAnalogSource.Between (s : MpAnalogSource) (low high : ℕ) : Prop where
  turning : s.Turning
  last : low ≤ s.lastTwo.1 ∧ s.lastTwo.1 ≤ high
  before : low ≤ s.lastTwo.2 ∧ s.lastTwo.2 ≤ high
  smoothed : 16 * low ≤ s.smoothed ∧ s.smoothed < 16 * (high + 1)

/-- A conversion between the bounds keeps the accumulator between them. -/
lemma MpAnalogSource.Between.poll {low high : ℕ} (h : s.Between low high) (hlow : low ≤ x)
    (hhigh : x ≤ high) : (s.poll x).Between low high := by
  have hmiddle : low ≤ s.middle x ∧ s.middle x ≤ high := by
    obtain ⟨hlow₁, hhigh₁⟩ := h.last
    obtain ⟨hlow₂, hhigh₂⟩ := h.before
    rw [middle_eq h.turning, middleOfThree_eq]
    omega
  have hlast := lastTwo_poll h.turning x
  constructor
  · exact turning_poll h.turning x
  · rw [hlast]
    exact ⟨hlow, hhigh⟩
  · rw [hlast]
    exact h.last
  · rw [(poll_spec s x).1]
    exact ⟨smooth_ge (by decide) h.smoothed.1 hmiddle.1, smooth_lt (by decide) h.smoothed.2 hmiddle.2⟩

lemma between_after {low high : ℕ} (h : ∀ a ∈ first :: conversions, low ≤ a ∧ a ≤ high) :
    ((new first).after conversions).Between low high := by
  induction conversions using List.reverseRecOn with
  | nil =>
    obtain ⟨hlow, hhigh⟩ := h first List.mem_cons_self
    refine ⟨Nat.zero_lt_succ 2, ⟨hlow, hhigh⟩, ⟨hlow, hhigh⟩, ?_⟩
    change 16 * low ≤ first <<< 4 ∧ first <<< 4 < 16 * (high + 1)
    rw [Nat.shiftLeft_eq]
    omega
  | append_singleton before reading ih =>
    rw [after_append]
    obtain ⟨hlow, hhigh⟩ := h reading (by simp)
    refine (ih fun a ha => h a ?_).poll hlow hhigh
    rw [← List.cons_append]
    exact List.mem_append_left _ ha

/-- **Readings stay between the smallest and the largest conversion.** -/
lemma raw_between (first : ℕ) (conversions : List ℕ) :
    (∃ a ∈ first :: conversions, a ≤ ((new first).after conversions).raw) ∧
      ∃ b ∈ first :: conversions, ((new first).after conversions).raw ≤ b := by
  have hraw := raw_after first conversions
  have hbounds : ∀ low high, (∀ a ∈ first :: conversions, low ≤ a ∧ a ≤ high) →
      low ≤ ((new first).after conversions).raw ∧
        ((new first).after conversions).raw ≤ high := by
    intro low high hall
    rw [hraw]
    exact (reading_bounds (by decide)).mpr (between_after hall).smoothed
  have hsum : ∀ a ∈ first :: conversions, a ≤ (first :: conversions).sum := fun a ha =>
    List.single_le_sum (fun _ _ => Nat.zero_le _) a ha
  constructor
  · by_contra hnone
    simp only [not_exists, not_and, not_le] at hnone
    have hlow := (hbounds (((new first).after conversions).raw + 1) _ fun a ha =>
      ⟨hnone a ha, hsum a ha⟩).1
    omega
  · by_contra hnone
    simp only [not_exists, not_and, not_le] at hnone
    have hfirst := hnone first List.mem_cons_self
    have hhigh := (hbounds 0 (((new first).after conversions).raw - 1) fun a ha =>
      ⟨Nat.zero_le a, Nat.le_sub_one_of_lt (hnone a ha)⟩).2
    omega

/-! ### Outliers -/

/-- Two sources that differ at most in the conversion that the next one replaces. -/
structure MpAnalogSource.Alike (s t : MpAnalogSource) : Prop where
  turning : s.Turning ∧ t.Turning
  lastTwo : s.lastTwo = t.lastTwo
  smoothed : s.smoothed = t.smoothed

/-- The same conversion keeps them alike, and they show the same reading. -/
lemma MpAnalogSource.Alike.poll (h : s.Alike t) (x : ℕ) :
    (s.poll x).Alike (t.poll x) ∧ (s.poll x).raw = (t.poll x).raw := by
  have hsmoothed : (s.poll x).smoothed = (t.poll x).smoothed := by
    rw [(poll_spec s x).1, (poll_spec t x).1, middle_eq h.turning.1, middle_eq h.turning.2, h.lastTwo,
      h.smoothed]
  refine ⟨⟨⟨turning_poll h.turning.1 x, turning_poll h.turning.2 x⟩, ?_, hsmoothed⟩, ?_⟩
  · rw [lastTwo_poll h.turning.1, lastTwo_poll h.turning.2, h.lastTwo]
  · rw [(poll_spec s x).2, (poll_spec t x).2, hsmoothed]

/-- Sources that are alike show the same readings from then on. -/
lemma MpAnalogSource.Alike.raws (h : s.Alike t) (conversions : List ℕ) :
    s.raws conversions = t.raws conversions := by
  induction conversions generalizing s t with
  | nil => rfl
  | cons x conversions ih =>
    obtain ⟨halike, hraw⟩ := h.poll x
    rw [raws, raws, hraw, ih halike]

/-- **A lone outlier does not move the reading**: it is the middle of none of the windows it is in.
-/
lemma raws_outlier (h : s.Turning) (hlast : s.lastTwo = (r, r)) (conversions : List ℕ) :
    s.raws (x :: r :: r :: conversions) = s.raws (r :: r :: r :: conversions) := by
  have hsame : ∀ {s t : MpAnalogSource} {a b : ℕ}, s.Turning → t.Turning → s.smoothed = t.smoothed →
      s.middle a = t.middle b → (s.poll a).smoothed = (t.poll b).smoothed ∧
        (s.poll a).raw = (t.poll b).raw := by
    intro s t a b _ _ hsmoothed hmiddle
    have heq : (s.poll a).smoothed = (t.poll b).smoothed := by
      rw [(poll_spec s a).1, (poll_spec t b).1, hsmoothed, hmiddle]
    exact ⟨heq, by rw [(poll_spec s a).2, (poll_spec t b).2, heq]⟩
  have hx := turning_poll h x
  have hr := turning_poll h r
  have hxLast := lastTwo_poll h x
  have hrLast := lastTwo_poll h r
  rw [hlast] at hxLast hrLast
  -- the windows with the outlier, and the middle of each
  obtain ⟨hsmoothed₁, hraw₁⟩ := hsame h h rfl (show s.middle x = s.middle r by
    rw [middle_eq h, middle_eq h, hlast, middleOfThree_of_two (.inr (.inr ⟨rfl, rfl⟩)),
      middleOfThree_of_two (.inr (.inr ⟨rfl, rfl⟩))])
  obtain ⟨hsmoothed₂, hraw₂⟩ := hsame hx hr hsmoothed₁ (show (s.poll x).middle r = (s.poll r).middle r by
    rw [middle_eq hx, middle_eq hr, hxLast, hrLast, middleOfThree_of_two (.inr (.inl ⟨rfl, rfl⟩)),
      middleOfThree_of_two (.inr (.inl ⟨rfl, rfl⟩))])
  have hxx := turning_poll hx r
  have hrr := turning_poll hr r
  have hxxLast := lastTwo_poll hx r
  have hrrLast := lastTwo_poll hr r
  rw [hxLast] at hxxLast
  rw [hrLast] at hrrLast
  obtain ⟨hsmoothed₃, hraw₃⟩ := hsame hxx hrr hsmoothed₂
    (show ((s.poll x).poll r).middle r = ((s.poll r).poll r).middle r by
      rw [middle_eq hxx, middle_eq hrr, hxxLast, hrrLast, middleOfThree_of_two (.inl ⟨rfl, rfl⟩),
        middleOfThree_of_two (.inl ⟨rfl, rfl⟩)])
  have halike : (((s.poll x).poll r).poll r).Alike (((s.poll r).poll r).poll r) := by
    refine ⟨⟨turning_poll hxx r, turning_poll hrr r⟩, ?_, hsmoothed₃⟩
    rw [lastTwo_poll hxx, lastTwo_poll hrr, hxxLast, hrrLast]
  simp only [raws]
  rw [hraw₁, hraw₂, hraw₃, halike.raws conversions]

/-! ### A constant conversion -/

/-- Once a conversion has come twice in a row, it is the sample of every later poll. -/
lemma steady_after (h : s.Turning) (hlast : s.lastTwo.1 = r) (n : ℕ) :
    (s.after (List.replicate n r)).smoothed = steady 16 r s.smoothed n ∧
      (s.after (List.replicate n r)).Turning ∧ (s.after (List.replicate n r)).lastTwo.1 = r := by
  induction n with
  | zero => exact ⟨rfl, h, hlast⟩
  | succ n ih =>
    obtain ⟨hsmoothed, hturning, hone⟩ := ih
    have hmiddle : (s.after (List.replicate n r)).middle r = r := by
      rw [middle_eq hturning, hone]
      exact middleOfThree_of_two (.inl ⟨rfl, rfl⟩)
    rw [List.replicate_succ', after_append]
    refine ⟨?_, turning_poll hturning r, ?_⟩
    · rw [steady_succ, ← hsmoothed]
      exact (poll_spec _ r).1.trans (by rw [hmiddle])
    · exact congrArg Prod.fst (lastTwo_poll hturning r)

/-- Readings move to a value from one side, come to it and stay. -/
def Approaches (r : ℕ) (raw : ℕ → ℕ) : Prop :=
  (raw 0 ≤ r → Monotone raw ∧ ∀ n, raw n ≤ r) ∧ (r ≤ raw 0 → Antitone raw ∧ ∀ n, r ≤ raw n) ∧
    ∃ N, ∀ n, N ≤ n → raw n = r

/-- **From its first conversion on a constant value is approached**, whatever came before. -/
lemma approaches (first : ℕ) (before : List ℕ) (r : ℕ) :
    Approaches r fun n =>
      ((new first).after (before ++ r :: List.replicate n r)).raw := by
  have hsplit : ∀ n, before ++ r :: List.replicate n r = (before ++ [r]) ++ List.replicate n r := by
    intro n
    rw [List.append_assoc, List.singleton_append]
  have hturning := (lastTwo_after first (before ++ [r])).1
  have hlast : ((new first).after (before ++ [r])).lastTwo.1 = r := by
    rw [after_append]
    exact congrArg Prod.fst (lastTwo_poll (lastTwo_after first before).1 r)
  have hraw : ∀ n, ((new first).after (before ++ r :: List.replicate n r)).raw =
      Smoothing.reading 16
        (steady 16 r ((new first).after (before ++ [r])).smoothed n) := by
    intro n
    rw [raw_after, hsplit, after_append, (steady_after hturning hlast n).1]
  simp only [hraw]
  exact ⟨fun h => reading_rises (by decide) h, fun h => reading_falls (by decide) h,
    exists_settled (by decide) _ r⟩

end Source

/-! ## Knobs -/

section Knob

variable {k : AnalogKnob} {raw : ℤ} {readings : List ℤ}

/-- A reading of a source. -/
def Reading (raw : ℤ) : Prop := 0 ≤ raw ∧ raw < RAW_RANGE

instance (raw : ℤ) : Decidable (Reading raw) := inferInstanceAs (Decidable (_ ∧ _))

/-- What every knob keeps: its value is the step of the reading that it has settled on. -/
structure AnalogKnob.Settled (k : AnalogKnob) : Prop where
  value : k.value = k.stepOf k.raw
  reading : Reading k.raw

/-- The two ways a check can go. -/
lemma check_cases (k : AnalogKnob) (raw : ℤ) :
    (|raw - k.raw| ≤ k.deadband ∧ (k.check raw).2.value = k.value ∧ (k.check raw).2.raw = k.raw) ∨
      (k.deadband < |raw - k.raw| ∧ (k.check raw).2.value = k.stepOf raw ∧
        (k.check raw).2.raw = raw) := by
  unfold AnalogKnob.check
  split_ifs with hstill
  · exact .inl ⟨hstill, rfl, rfl⟩
  · exact .inr ⟨not_le.mp hstill, rfl, rfl⟩

lemma check_steps (k : AnalogKnob) (raw : ℤ) :
    (k.check raw).2.steps = k.steps ∧ (k.check raw).2.deadband = k.deadband := by
  unfold AnalogKnob.check
  split_ifs
  · exact ⟨rfl, rfl⟩
  · exact ⟨rfl, rfl⟩

lemma AnalogKnob.Settled.check (h : k.Settled) (hraw : Reading raw) : (k.check raw).2.Settled := by
  have hstep : ∀ r, (k.check raw).2.stepOf r = k.stepOf r := fun r => by
    unfold AnalogKnob.stepOf
    rw [(check_steps k raw).1]
  obtain ⟨-, hvalue, hsettled⟩ | ⟨-, hvalue, hsettled⟩ := check_cases k raw
  · exact ⟨by rw [hvalue, hsettled, hstep, h.value], by rw [hsettled]; exact h.reading⟩
  · exact ⟨by rw [hvalue, hsettled, hstep], by rw [hsettled]; exact hraw⟩

lemma settled_after (h : k.Settled) (hall : ∀ raw ∈ readings, Reading raw) :
    (k.after readings).Settled ∧ (k.after readings).steps = k.steps ∧
      (k.after readings).deadband = k.deadband := by
  induction readings generalizing k with
  | nil => exact ⟨h, rfl, rfl⟩
  | cons raw readings ih =>
    obtain ⟨hsteps, hdeadband⟩ := check_steps k raw
    obtain ⟨hsettled, hsteps', hdeadband'⟩ := ih (h.check (hall raw List.mem_cons_self))
      fun r hr => hall r (List.mem_cons_of_mem _ hr)
    exact ⟨hsettled, hsteps'.trans hsteps, hdeadband'.trans hdeadband⟩

/-- What the width of a step has to do with a deadband that is less than it. -/
lemma deadband_lt {steps deadband : ℤ} (hzero : 0 ≤ deadband) (h : deadband < RAW_RANGE.fdiv steps) :
    0 < steps ∧ (deadband + 1) * steps ≤ RAW_RANGE := by
  have hpos : 0 < steps := by
    by_contra hneg
    have hle : RAW_RANGE.fdiv steps ≤ 0 :=
      Int.fdiv_nonpos_of_nonneg_of_nonpos (by decide) (not_lt.mp hneg)
    omega
  refine ⟨hpos, ?_⟩
  rw [Int.fdiv_eq_ediv_of_nonneg _ hpos.le] at h
  exact (Int.le_ediv_iff_mul_le hpos).mp h

/-- **A knob is within a step of the reading of its source.** Readings that differ by no more than
the deadband are at most one step apart. -/
lemma value_near (h : k.Settled) (hzero : 0 ≤ k.deadband)
    (hdeadband : k.deadband < RAW_RANGE.fdiv k.steps) :
    |(k.check raw).2.value - k.stepOf raw| ≤ 1 := by
  obtain ⟨hpos, hwidth⟩ := deadband_lt hzero hdeadband
  obtain ⟨hnear, hvalue, -⟩ | ⟨-, hvalue, -⟩ := check_cases k raw
  · rw [hvalue, h.value]
    unfold AnalogKnob.stepOf
    have hmul : |raw - k.raw| * k.steps ≤ k.deadband * k.steps :=
      mul_le_mul_of_nonneg_right hnear hpos.le
    have habs : |raw * k.steps - k.raw * k.steps| ≤ k.deadband * k.steps := by
      rw [← sub_mul, abs_mul, abs_of_pos hpos]
      exact hmul
    obtain ⟨hlow, hhigh⟩ := abs_le.mp habs
    have hlt : k.deadband * k.steps < RAW_RANGE := by
      rw [add_mul, one_mul] at hwidth
      omega
    unfold RAW_RANGE at *
    rw [abs_le]
    omega
  · rw [hvalue, sub_self, abs_zero]
    exact zero_le_one

/-- A reading that is farther from the settled one than the deadband moves the knob to its step. -/
lemma after_singleton (hfar : k.deadband < |raw - k.raw|) : (k.after [raw]).value = k.stepOf raw := by
  obtain ⟨hnear, -⟩ | ⟨-, hvalue, -⟩ := check_cases k raw
  · exact absurd hnear (not_le.mpr hfar)
  · exact hvalue

/-- **A knob can get to every step.** The farther end of the step is out of reach of the deadband.
-/
lemma exists_reading (h : k.Settled) (hzero : 0 ≤ k.deadband)
    (hdeadband : k.deadband < RAW_RANGE.fdiv k.steps) {value : ℤ} (hvalue : 0 ≤ value ∧ value < k.steps) :
    ∃ readings, (∀ raw ∈ readings, Reading raw) ∧ (k.after readings).value = value := by
  obtain ⟨hpos, hwidth⟩ := deadband_lt hzero hdeadband
  have hsteps : k.steps ≤ RAW_RANGE := by
    calc k.steps = 1 * k.steps := (one_mul _).symm
      _ ≤ (k.deadband + 1) * k.steps := mul_le_mul_of_nonneg_right (by omega) hpos.le
      _ ≤ RAW_RANGE := hwidth
  have hlast : RAW_RANGE * (value + 1) ≤ RAW_RANGE * k.steps :=
    mul_le_mul_of_nonneg_left hvalue.2 (by decide)
  -- a reading of the step whose distance takes up the rest of the step
  have hend : ∀ raw, Reading raw → RAW_RANGE * value ≤ raw * k.steps →
      raw * k.steps < RAW_RANGE * (value + 1) → RAW_RANGE - k.steps < |raw - k.raw| * k.steps →
      ∃ readings, (∀ raw ∈ readings, Reading raw) ∧ (k.after readings).value = value := by
    intro raw hraw hlow hhigh hfar
    have hdistance : k.deadband < |raw - k.raw| := by
      have hlt : k.deadband * k.steps < |raw - k.raw| * k.steps := by
        rw [add_mul, one_mul] at hwidth
        omega
      exact lt_of_mul_lt_mul_right hlt hpos.le
    refine ⟨[raw], fun r hr => List.mem_singleton.mp hr ▸ hraw, ?_⟩
    rw [after_singleton hdistance]
    unfold AnalogKnob.stepOf
    unfold RAW_RANGE at *
    omega
  have hsettled := h.value
  unfold AnalogKnob.stepOf at hsettled
  obtain hbelow | hat | habove := lt_trichotomy k.value value
  · -- the last reading of the step
    have hmul := Int.ediv_mul_le (RAW_RANGE * (value + 1) - 1) hpos.ne'
    have hlt := Int.lt_ediv_add_one_mul_self (RAW_RANGE * (value + 1) - 1) hpos
    rw [add_mul, one_mul] at hlt
    have hfirst : k.raw * k.steps < RAW_RANGE * value := by
      unfold RAW_RANGE at *
      omega
    have hdistance : |(RAW_RANGE * (value + 1) - 1) / k.steps - k.raw| * k.steps ≥
        (RAW_RANGE * (value + 1) - 1) / k.steps * k.steps - k.raw * k.steps := by
      rw [← sub_mul]
      exact mul_le_mul_of_nonneg_right (le_abs_self _) hpos.le
    rw [mul_add, mul_one] at *
    refine hend ((RAW_RANGE * value + RAW_RANGE - 1) / k.steps) ⟨?_, ?_⟩ (by omega) (by omega) (by omega)
    · refine Int.ediv_nonneg ?_ hpos.le
      unfold RAW_RANGE
      omega
    · refine Int.ediv_lt_of_lt_mul hpos ?_
      omega
  · exact ⟨[], (fun _ hr => nomatch hr), hat⟩
  · -- the first reading of the step
    have hmul := Int.ediv_mul_le (RAW_RANGE * value + k.steps - 1) hpos.ne'
    have hlt := Int.lt_ediv_add_one_mul_self (RAW_RANGE * value + k.steps - 1) hpos
    rw [add_mul, one_mul] at hlt
    have hfirst : RAW_RANGE * value + RAW_RANGE ≤ k.raw * k.steps := by
      unfold RAW_RANGE at *
      omega
    have hdistance : |(RAW_RANGE * value + k.steps - 1) / k.steps - k.raw| * k.steps ≥
        k.raw * k.steps - (RAW_RANGE * value + k.steps - 1) / k.steps * k.steps := by
      rw [← sub_mul, abs_sub_comm]
      exact mul_le_mul_of_nonneg_right (le_abs_self _) hpos.le
    rw [mul_add, mul_one] at *
    refine hend ((RAW_RANGE * value + k.steps - 1) / k.steps) ⟨?_, ?_⟩ (by omega) (by omega) (by omega)
    · refine Int.ediv_nonneg ?_ hpos.le
      unfold RAW_RANGE
      omega
    · refine Int.ediv_lt_of_lt_mul hpos ?_
      omega

end Knob

/-! ## What is promised -/

/-- A knob that has just been made. -/
def AnalogKnob.new (steps deadband : ℤ) : AnalogKnob where
  steps := steps
  deadband := deadband

lemma settled_new (steps deadband : ℤ) : (AnalogKnob.new steps deadband).Settled where
  value := by
    unfold AnalogKnob.stepOf AnalogKnob.new
    rw [zero_mul, Int.zero_ediv]
  reading := (by decide : Reading 0)

/-- **Analog readings and knobs.** For any conversions the reading of a source stays between the
smallest and the largest. An outlier with two equal conversions before it and two after it moves the
reading no more than one more of these would. From the first conversion of a value on that stays,
the reading moves to the value from one side, and comes to rest at it. And for a deadband of less
than a step, a knob is within a step of its source, and gets from any state to every step.

**Proof sketch.** The sample of a poll is the middle of the last three conversions, so the two equal
ones decide it. The rest is the smoothing of samples, and arithmetic on the widths of the steps. -/
theorem analog_follows :
    (∀ first conversions,
      (∃ a ∈ first :: conversions, a ≤ ((new first).after conversions).raw) ∧
        ∃ b ∈ first :: conversions, ((new first).after conversions).raw ≤ b) ∧
    (∀ first before r x conversions, (∃ rest, before.reverse ++ [first, first] = r :: r :: rest) →
      (new first).raws (before ++ x :: r :: r :: conversions) =
        (new first).raws (before ++ r :: r :: r :: conversions)) ∧
    (∀ first before r, Approaches r fun n =>
      ((new first).after (before ++ r :: List.replicate n r)).raw) ∧
    (∀ steps deadband, 0 ≤ deadband → deadband < RAW_RANGE.fdiv steps →
      ∀ readings, (∀ raw ∈ readings, Reading raw) →
        (∀ raw, Reading raw →
          |(((AnalogKnob.new steps deadband).after readings).check raw).2.value - raw * steps / RAW_RANGE|
            ≤ 1) ∧
        ∀ value, 0 ≤ value → value < steps → ∃ more, (∀ raw ∈ more, Reading raw) ∧
          ((AnalogKnob.new steps deadband).after (readings ++ more)).value = value) := by
  refine ⟨raw_between, ?_, approaches, ?_⟩
  · rintro first before r x conversions ⟨rest, hrest⟩
    obtain ⟨hturning, hlast⟩ := lastTwo_after first before
    rw [raws_append, raws_append, raws_outlier hturning (hlast r r rest hrest)]
  · intro steps deadband hzero hdeadband readings hall
    obtain ⟨hsettled, hsteps, hsame⟩ := settled_after (settled_new steps deadband) hall
    have hsteps' : ((AnalogKnob.new steps deadband).after readings).steps = steps := hsteps
    have hsame' : ((AnalogKnob.new steps deadband).after readings).deadband = deadband := hsame
    have hzero' : 0 ≤ ((AnalogKnob.new steps deadband).after readings).deadband := by
      rw [hsame']
      exact hzero
    have hdeadband' : ((AnalogKnob.new steps deadband).after readings).deadband <
        RAW_RANGE.fdiv ((AnalogKnob.new steps deadband).after readings).steps := by
      rw [hsame', hsteps']
      exact hdeadband
    refine ⟨fun raw _ => ?_, fun value hlow hhigh => ?_⟩
    · have hnear := @value_near _ raw hsettled hzero' hdeadband'
      unfold AnalogKnob.stepOf at hnear
      rw [hsteps'] at hnear
      exact hnear
    · obtain ⟨more, hmore, hvalue⟩ := exists_reading hsettled hzero' hdeadband'
        ⟨hlow, hhigh.trans_eq hsteps'.symm⟩
      refine ⟨more, hmore, ?_⟩
      unfold AnalogKnob.after at *
      rw [List.foldl_append]
      exact hvalue

/-- The first conversion of a value can move the reading away from it; one equal conversion on
either side of an outlier is not enough; and a deadband of less than nothing leaves steps that no
reading has. -/
theorem not_analog_follows :
    ¬ Approaches 58 (fun n => ((new 60).after ([0, 0] ++ List.replicate n 58)).raw) ∧
    (new 0).raws [160, 50, 160] ≠ (new 0).raws [160, 160, 160] ∧
    ((-1 : ℤ) < RAW_RANGE.fdiv 65537 ∧ ¬ ∃ readings, (∀ raw ∈ readings, Reading raw) ∧
      ((AnalogKnob.new 65537 (-1)).after readings).value = 65536) := by
  refine ⟨fun h => ?_, by decide, by decide, ?_⟩
  · have hrises := (h.1 (by decide)).1 (Nat.zero_le 1)
    revert hrises
    decide
  · rintro ⟨readings, hall, hvalue⟩
    obtain ⟨hsettled, hsteps, -⟩ := settled_after (settled_new 65537 (-1)) hall
    have hstep := hsettled.value
    obtain ⟨hlow, hhigh⟩ := hsettled.reading
    unfold AnalogKnob.stepOf at hstep
    rw [hsteps, hvalue] at hstep
    change 65536 = _ * (65537 : ℤ) / _ at hstep
    unfold RAW_RANGE at *
    omega

end ChuMicro.Knobs
