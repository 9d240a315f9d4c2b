import ChuMicro.Python

/-!
# Wrap-safe ticks

The millisecond ticks of `chumicro_timing/ticks.py`: a counter that wraps every `2 ^ 29`
milliseconds, an addition that refuses distances of half a period, and a signed difference.

## Main definitions

* `ticksAdd`, `ticksDiff` — `ticks_add` and `ticks_diff`.
* `TicksOk` — the distances `ticks_add` accepts.
* `ticksMs` — the tick of a raw clock reading.
-/

namespace ChuMicro

/-- `TICKS_PERIOD`. -/
def TICKS_PERIOD : ℕ := 2 ^ 29

/-- `TICKS_HALFPERIOD`. -/
def TICKS_HALFPERIOD : ℕ := 2 ^ 28

/-- `ticks_add`. -/
@[irreducible] def ticksAdd (ticks delta : ℤ) : Except PyExn ℤ :=
  if -(TICKS_HALFPERIOD : ℤ) < delta ∧ delta < TICKS_HALFPERIOD then
    .ok ((ticks + delta) % TICKS_PERIOD)
  else .error (.overflowError "ticks interval overflow")

/-- `ticks_diff`. Masking with `TICKS_MAX` is reduction modulo the period, also below zero. -/
def ticksDiff (stop start : ℤ) : ℤ :=
  ((stop - start) % TICKS_PERIOD + TICKS_HALFPERIOD) % TICKS_PERIOD - TICKS_HALFPERIOD

/-- `ticks_add` accepts the offset. -/
def TicksOk (offset : ℤ) : Prop :=
  -(TICKS_HALFPERIOD : ℤ) < offset ∧ offset < TICKS_HALFPERIOD

instance (offset : ℤ) : Decidable (TicksOk offset) := inferInstanceAs (Decidable (_ ∧ _))

/-- Within its range `ticks_add` adds modulo the period. -/
lemma ticksAdd_of_ok {ticks delta : ℤ} (h : TicksOk delta) :
    ticksAdd ticks delta = .ok ((ticks + delta) % TICKS_PERIOD) := by
  rw [ticksAdd]
  exact if_pos h

/-- Beyond its range `ticks_add` raises. -/
lemma ticksAdd_of_not {ticks delta : ℤ} (h : ¬ TicksOk delta) :
    ticksAdd ticks delta = .error (.overflowError "ticks interval overflow") := by
  rw [ticksAdd]
  exact if_neg h

/-! ## Ticks of a clock -/

/-- `ticks_ms`, for a raw reading of the clock. -/
def ticksMs (raw : ℤ) : ℤ := raw % TICKS_PERIOD

/-- Ticks tell times apart within half a period. -/
lemma ticksDiff_ticksMs {a b : ℤ} (h : -(TICKS_HALFPERIOD : ℤ) ≤ a - b)
    (h' : a - b < TICKS_HALFPERIOD) : ticksDiff (ticksMs a) (ticksMs b) = a - b := by
  unfold ticksDiff ticksMs
  simp only [TICKS_HALFPERIOD, TICKS_PERIOD] at h h' ⊢
  push_cast at h h' ⊢
  omega

/-- Half the ring is something. -/
lemma halfperiod_pos : (0 : ℤ) < TICKS_HALFPERIOD := by decide

/-- A distance that `ticks_add` accepts is added to the time. -/
lemma ticksAdd_ticksMs {time delta : ℤ} (h : TicksOk delta) :
    ticksAdd (ticksMs time) delta = .ok (ticksMs (time + delta)) := by
  rw [ticksAdd_of_ok h, ticksMs, ticksMs, Int.emod_add_emod]

end ChuMicro
