import Mathlib.Data.Int.Log
import Mathlib.Data.Rat.Floor

/-!
# Binary floating-point formats

A binary interchange format is a sign bit, a biased exponent field and a fraction field. The bits
below the sign, read as one number, are called the *magnitude* here: magnitudes are ordered as the
values they stand for, so rounding a rational to a magnitude needs no case split at the
boundaries between exponents, at the subnormal numbers or at the overflow threshold.

## Main definitions

* `Ieee754.Format` — the sizes of the exponent and fraction fields.
* `Ieee754.Format.magValue` — the rational a finite magnitude stands for.
* `Ieee754.Format.roundMag` — the magnitude nearest to a rational, ties to even.
* `Ieee754.convert` — conversion of a datum from one format to another.
* `Ieee754.toRat` — the value of a finite datum.
-/

namespace Ieee754

/-- The sizes of the exponent field and the fraction field. -/
structure Format where
  expBits : ℕ
  fracBits : ℕ
  deriving DecidableEq

/-- The 32-bit format. -/
def binary32 : Format := ⟨8, 23⟩

/-- The 64-bit format. -/
def binary64 : Format := ⟨11, 52⟩

namespace Format

/-- Sign, exponent and fraction together. -/
def width (F : Format) : ℕ := 1 + F.expBits + F.fracBits

/-- The weight of the sign bit. -/
def signWeight (F : Format) : ℕ := 2 ^ (F.expBits + F.fracBits)

/-- The magnitude of infinity: an exponent field of ones over an empty fraction. Magnitudes above
it are the NaNs. -/
def infMag (F : Format) : ℕ := (2 ^ F.expBits - 1) * 2 ^ F.fracBits

/-- The exponent of the least positive magnitude. -/
def minExp (F : Format) : ℤ := 2 - 2 ^ (F.expBits - 1) - F.fracBits

/-- The rational that the finite magnitude `m` stands for: without the hidden bit where the
exponent field is empty, with it elsewhere. -/
def magValue (F : Format) (m : ℕ) : ℚ :=
  if m / 2 ^ F.fracBits = 0 then m * 2 ^ F.minExp
  else (2 ^ F.fracBits + m % 2 ^ F.fracBits : ℕ) * 2 ^ (F.minExp + m / 2 ^ F.fracBits - 1)

end Format

/-- The natural number nearest to a non-negative rational, the even one of two. -/
def roundEven (x : ℚ) : ℕ :=
  if x - ⌊x⌋₊ < 1 / 2 ∨ (x - ⌊x⌋₊ = 1 / 2 ∧ ⌊x⌋₊ % 2 = 0) then ⌊x⌋₊ else ⌊x⌋₊ + 1

/-- The magnitude nearest to the non-negative rational `x`, ties to even, and infinity beyond the
largest finite one. The result of the rounding in units of `2 ^ u` may carry into the next
exponent; adding it to the exponent field does the carry. -/
def Format.roundMag (F : Format) (x : ℚ) : ℕ :=
  if x = 0 then 0
  else
    let u := max F.minExp (Int.log 2 x - F.fracBits)
    min F.infMag ((u - F.minExp).toNat * 2 ^ F.fracBits + roundEven (x / 2 ^ u))

section Datum

variable {F : Format}

/-- The sign bit, as a number. -/
def sign (b : BitVec F.width) : ℕ := b.toNat / F.signWeight

/-- The bits below the sign. -/
def mag (b : BitVec F.width) : ℕ := b.toNat % F.signWeight

/-- An infinity of either sign. -/
def isInf (b : BitVec F.width) : Bool := mag b == F.infMag

/-- Not a number. -/
def isNan (b : BitVec F.width) : Bool := F.infMag < mag b

/-- The value of a finite datum. -/
def toRat (b : BitVec F.width) : ℚ := (-1) ^ sign b * F.magValue (mag b)

/-- The magnitude in `G` of a NaN of `F`: the leading bits of its fraction are kept and the quiet
bit is set. -/
def nanMag (F G : Format) (m : ℕ) : ℕ :=
  let fraction := m % 2 ^ F.fracBits * 2 ^ G.fracBits / 2 ^ F.fracBits
  G.infMag + 2 ^ (G.fracBits - 1) + fraction % 2 ^ (G.fracBits - 1)

/-- Conversion to the format `G`, rounding to nearest with ties to even. -/
def convert (G : Format) (b : BitVec F.width) : BitVec G.width :=
  let m :=
    if isNan b then nanMag F G (mag b)
    else if isInf b then G.infMag
    else G.roundMag (F.magValue (mag b))
  BitVec.ofNat G.width (sign b * G.signWeight + m)

end Datum

end Ieee754
