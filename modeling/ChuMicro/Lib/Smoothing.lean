import Mathlib.Algebra.Order.Ring.Nat
import Mathlib.Logic.Function.Iterate
import Mathlib.Order.Monotone.Basic
import Mathlib.Tactic.Ring

/-!
# Exponential smoothing in whole numbers

An accumulator that holds a reading scaled by `m`: each sample is added to it and its own `m`-th
part, rounded down, is taken away. What is lost in the rounding stays in the accumulator. So under a
constant sample the reading moves towards it, and comes to rest at the sample itself and not short
of it.

## Main definitions

* `Smoothing.smooth` — one sample.
* `Smoothing.reading` — the accumulator scaled down.

## Main results

* `Smoothing.reading_bounds` — readings stay between bounds on the samples.
* `Smoothing.reading_rises`, `Smoothing.reading_falls` — under a constant sample readings move
  towards it and never past it.
* `Smoothing.exists_settled` — from some sample on the reading is the sample.
-/

namespace Smoothing

/-- The reading of an accumulator. -/
def reading (m s : ℕ) : ℕ := s / m

/-- The accumulator after a sample. -/
def smooth (m s sample : ℕ) : ℕ := s + sample - reading m s

section Step

variable {m s sample low high : ℕ}

/-- The accumulator as a multiple of `m` and what is left. -/
lemma exists_parts (hm : 0 < m) (s : ℕ) : ∃ q t, s = m * q + t ∧ t < m ∧ reading m s = q :=
  ⟨s / m, s % m, (Nat.div_add_mod s m).symm, Nat.mod_lt s hm, rfl⟩

/-- A sample moves the accumulator by its distance from the reading. -/
lemma smooth_add_reading (m s sample : ℕ) : smooth m s sample + reading m s = s + sample := by
  have hle : reading m s ≤ s := Nat.div_le_self s m
  unfold smooth
  omega

/-- The multiples of `m` up to `m * q` and what is left, less `q`. -/
lemma parts_sub_le {q r t : ℕ} (hqr : q ≤ r) (htm : t < m) : m * q + t + r ≤ m * r + q + t := by
  obtain ⟨k, rfl⟩ := Nat.exists_eq_add_of_le hqr
  have hk : k ≤ m * k := Nat.le_mul_of_pos_left k (by omega)
  calc m * q + t + (q + k) = m * q + q + t + k := by ring
    _ ≤ m * q + q + t + m * k := by omega
    _ = m * (q + k) + q + t := by ring

/-- A bound from below on the reading and the sample. -/
lemma smooth_ge (hm : 0 < m) (hs : m * low ≤ s) (hsample : low ≤ sample) :
    m * low ≤ smooth m s sample := by
  obtain ⟨q, t, hst, ht, hq⟩ := exists_parts hm s
  have hlow : low ≤ q := by
    rw [← hq]
    exact (Nat.le_div_iff_mul_le hm).mpr (by rw [Nat.mul_comm]; exact hs)
  have hparts := parts_sub_le hlow ht
  have hsum := smooth_add_reading m s sample
  have hle : m * low + q ≤ m * q + low := by
    have := @parts_sub_le m low q 0 hlow hm
    omega
  rw [hq] at hsum
  omega

/-- A bound from above on the reading and the sample. -/
lemma smooth_lt (hm : 0 < m) (hs : s < m * (high + 1)) (hsample : sample ≤ high) :
    smooth m s sample < m * (high + 1) := by
  obtain ⟨q, t, hst, ht, hq⟩ := exists_parts hm s
  have hhigh : q ≤ high := by
    rw [← hq]
    exact Nat.lt_succ_iff.mp ((Nat.div_lt_iff_lt_mul hm).mpr (by rw [Nat.mul_comm]; exact hs))
  have hparts := parts_sub_le hhigh ht
  have hsum := smooth_add_reading m s sample
  rw [hq] at hsum
  rw [Nat.mul_add, Nat.mul_one]
  omega

/-- **Readings stay between bounds on the samples.** -/
theorem reading_bounds (hm : 0 < m) :
    low ≤ reading m s ∧ reading m s ≤ high ↔ m * low ≤ s ∧ s < m * (high + 1) := by
  unfold reading
  rw [Nat.le_div_iff_mul_le hm, Nat.mul_comm low m, ← @Nat.lt_succ_iff (s / m) high,
    Nat.div_lt_iff_lt_mul hm, Nat.mul_comm high.succ m]

/-- An accumulator whose reading is the sample rests. -/
lemma smooth_of_reading_eq (h : reading m s = sample) : smooth m s sample = s := by
  have hsum := smooth_add_reading m s sample
  omega

/-- Below the sample the accumulator grows, up to the sample. -/
lemma smooth_of_reading_lt (hm : 0 < m) (h : reading m s < sample) :
    s < smooth m s sample ∧ smooth m s sample ≤ m * sample := by
  obtain ⟨q, t, hst, ht, hq⟩ := exists_parts hm s
  have hsum := smooth_add_reading m s sample
  rw [hq] at hsum h
  obtain ⟨k, rfl⟩ := Nat.exists_eq_add_of_lt h
  have hk : m * (q + k + 1) = m * q + m * k + m := by ring
  have hkm : k ≤ m * k := Nat.le_mul_of_pos_left k hm
  exact ⟨by omega, by omega⟩

/-- Above the sample the accumulator shrinks, down to the sample. -/
lemma smooth_of_lt_reading (hm : 0 < m) (h : sample < reading m s) :
    smooth m s sample < s ∧ m * sample ≤ smooth m s sample := by
  have hsum := smooth_add_reading m s sample
  refine ⟨by omega, smooth_ge hm ?_ (le_refl _)⟩
  exact ((reading_bounds hm).mp ⟨h.le, le_refl (reading m s)⟩).1

end Step

/-! ## A constant sample -/

section Constant

variable {m s sample : ℕ}

/-- The accumulator after `n` samples that are all the same. -/
def steady (m sample s n : ℕ) : ℕ := (fun s => smooth m s sample)^[n] s

lemma steady_succ (m sample s n : ℕ) :
    steady m sample s (n + 1) = smooth m (steady m sample s n) sample := by
  unfold steady
  rw [Function.iterate_succ_apply']

/-- From below an accumulator stays below the next multiple, and grows to the sample. -/
lemma steady_of_reading_le (hm : 0 < m) (h : reading m s ≤ sample) (n : ℕ) :
    reading m (steady m sample s n) ≤ sample ∧ steady m sample s n ≤ steady m sample s (n + 1) ∧
      min (s + n) (m * sample) ≤ steady m sample s n := by
  have hstep : ∀ v, reading m v ≤ sample →
      v ≤ smooth m v sample ∧ reading m (smooth m v sample) ≤ sample ∧
        min (v + 1) (m * sample) ≤ smooth m v sample := by
    intro v hv
    obtain heq | hlt := hv.eq_or_lt
    · rw [smooth_of_reading_eq heq]
      have hbound := (@reading_bounds m v sample sample hm).mp ⟨heq.ge, hv⟩
      exact ⟨le_refl _, hv, (min_le_right _ _).trans hbound.1⟩
    · obtain ⟨hgrows, hle⟩ := smooth_of_reading_lt hm hlt
      refine ⟨hgrows.le, ?_, (min_le_left _ _).trans hgrows⟩
      unfold reading
      exact Nat.div_le_of_le_mul hle
  induction n with
  | zero =>
    obtain ⟨hle, -, -⟩ := hstep s h
    exact ⟨h, hle, min_le_left _ _⟩
  | succ n ih =>
    obtain ⟨hreading, -, hmin⟩ := ih
    obtain ⟨-, hnext, hgrows⟩ := hstep _ hreading
    rw [steady_succ] at *
    obtain ⟨hle, -, -⟩ := hstep _ hnext
    refine ⟨hnext, by rw [steady_succ, steady_succ]; exact hle, ?_⟩
    omega

/-- From above an accumulator shrinks to the sample and not below it. -/
lemma steady_of_le_reading (hm : 0 < m) (h : sample ≤ reading m s) (n : ℕ) :
    sample ≤ reading m (steady m sample s n) ∧ steady m sample s (n + 1) ≤ steady m sample s n ∧
      steady m sample s n ≤ max (s - n) (m * (sample + 1) - 1) := by
  have hstep : ∀ v, sample ≤ reading m v →
      smooth m v sample ≤ v ∧ sample ≤ reading m (smooth m v sample) ∧
        smooth m v sample ≤ max (v - 1) (m * (sample + 1) - 1) := by
    intro v hv
    obtain heq | hlt := hv.eq_or_lt
    · rw [smooth_of_reading_eq heq.symm]
      have hbound := (@reading_bounds m v sample sample hm).mp ⟨hv, heq.ge⟩
      exact ⟨le_refl _, hv, le_max_of_le_right (Nat.le_sub_one_of_lt hbound.2)⟩
    · obtain ⟨hshrinks, hge⟩ := smooth_of_lt_reading hm hlt
      refine ⟨hshrinks.le, ?_, le_max_of_le_left (Nat.le_sub_one_of_lt hshrinks)⟩
      unfold reading
      rw [Nat.le_div_iff_mul_le hm, Nat.mul_comm]
      exact hge
  induction n with
  | zero =>
    obtain ⟨hle, -, -⟩ := hstep s h
    exact ⟨h, hle, le_max_left _ _⟩
  | succ n ih =>
    obtain ⟨hreading, -, hmax⟩ := ih
    obtain ⟨-, hnext, hshrinks⟩ := hstep _ hreading
    rw [steady_succ] at *
    obtain ⟨hle, -, -⟩ := hstep _ hnext
    refine ⟨hnext, by rw [steady_succ, steady_succ]; exact hle, ?_⟩
    omega

/-- **Under a constant sample readings rise to it**, from below. -/
theorem reading_rises (hm : 0 < m) (h : reading m s ≤ sample) :
    Monotone (fun n => reading m (steady m sample s n)) ∧
      ∀ n, reading m (steady m sample s n) ≤ sample := by
  refine ⟨monotone_nat_of_le_succ fun n => ?_, fun n => (steady_of_reading_le hm h n).1⟩
  exact Nat.div_le_div_right (steady_of_reading_le hm h n).2.1

/-- **Under a constant sample readings fall to it**, from above. -/
theorem reading_falls (hm : 0 < m) (h : sample ≤ reading m s) :
    Antitone (fun n => reading m (steady m sample s n)) ∧
      ∀ n, sample ≤ reading m (steady m sample s n) := by
  refine ⟨antitone_nat_of_succ_le fun n => ?_, fun n => (steady_of_le_reading hm h n).1⟩
  exact Nat.div_le_div_right (steady_of_le_reading hm h n).2.1

/-- **The reading comes to rest at the sample.**

**Proof sketch.** Every sample moves the accumulator by one at least, until the reading is the
sample. -/
theorem exists_settled (hm : 0 < m) (s sample : ℕ) :
    ∃ N, ∀ n, N ≤ n → reading m (steady m sample s n) = sample := by
  refine ⟨s + m * (sample + 1), fun n hn => ?_⟩
  rcases le_total (reading m s) sample with hle | hle
  · obtain ⟨hreading, -, hmin⟩ := steady_of_reading_le hm hle n
    have hmul : m * sample ≤ m * (sample + 1) := Nat.mul_le_mul_left m (Nat.le_succ sample)
    refine le_antisymm hreading ?_
    rw [min_eq_right (by omega)] at hmin
    unfold reading
    rw [Nat.le_div_iff_mul_le hm, Nat.mul_comm]
    exact hmin
  · obtain ⟨hreading, -, hmax⟩ := steady_of_le_reading hm hle n
    refine le_antisymm ?_ hreading
    have hpos : 0 < m * (sample + 1) := Nat.mul_pos hm (Nat.succ_pos _)
    rw [max_eq_right (by omega)] at hmax
    exact ((@reading_bounds m _ 0 sample hm).mpr ⟨by omega, by omega⟩).2

end Constant

end Smoothing
