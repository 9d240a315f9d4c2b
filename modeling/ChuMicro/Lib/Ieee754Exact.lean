import ChuMicro.Lib.Ieee754
import Mathlib.Tactic.Linarith
import Mathlib.Tactic.Positivity
import Mathlib.Tactic.FieldSimp

/-!
# Conversions that lose nothing

A rational that a format has a magnitude for is rounded to that magnitude. A wider format has one
for every finite number of a narrower one, so a number that is widened and narrowed again comes
back.

## Main definitions

* `Ieee754.Format.Wider` — room in the wider format for the exponents and the significands of the
  narrower one.

## Main results

* `Ieee754.Format.roundMag_canonical` — a significand of full length, or one at the least exponent,
  is kept by rounding.
* `Ieee754.Format.roundMag_magValue` — the value of a finite magnitude is rounded to it.
* `Ieee754.convert_convert` — converting to a wider format and back is the identity but for NaNs.
-/

namespace Ieee754

/-- A natural number is nearest to itself. -/
lemma roundEven_natCast (n : ℕ) : roundEven (n : ℚ) = n := by
  rw [roundEven, Nat.floor_natCast, if_pos (.inl (by norm_num))]

namespace Format

variable (F : Format)

/-- The binary logarithm of a positive multiple of a power of two. -/
lemma log_mul_zpow {k : ℕ} (hk : 0 < k) (z : ℤ) :
    Int.log 2 ((k : ℚ) * 2 ^ z) = Nat.log 2 k + z := by
  have hx : (0 : ℚ) < k * 2 ^ z := mul_pos (by exact_mod_cast hk) (zpow_pos (by norm_num) z)
  have hlow : ((2 : ℕ) : ℚ) ^ ((Nat.log 2 k : ℤ) + z) ≤ k * 2 ^ z := by
    have h : 2 ^ Nat.log 2 k ≤ k := Nat.pow_log_le_self 2 hk.ne'
    have hcast : ((2 : ℚ) ^ Nat.log 2 k) ≤ k := by exact_mod_cast h
    rw [Nat.cast_ofNat, zpow_add₀ (by norm_num), zpow_natCast]
    exact mul_le_mul_of_nonneg_right hcast (zpow_pos (by norm_num) z).le
  have hhigh : (k : ℚ) * 2 ^ z < ((2 : ℕ) : ℚ) ^ ((Nat.log 2 k : ℤ) + z + 1) := by
    have h : k < 2 ^ (Nat.log 2 k + 1) := Nat.lt_pow_succ_log_self (by decide) k
    have hcast : (k : ℚ) < (2 : ℚ) ^ (Nat.log 2 k + 1) := by exact_mod_cast h
    rw [Nat.cast_ofNat, add_right_comm, zpow_add₀ (by norm_num), ← Nat.cast_succ, zpow_natCast]
    exact mul_lt_mul_of_pos_right hcast (zpow_pos (by norm_num) z)
  have hle := (Int.zpow_le_iff_le_log (by decide) hx).mp hlow
  have hlt := (Int.lt_zpow_iff_log_lt (by decide) hx).mp hhigh
  omega

/-- **Rounding keeps a canonical significand**: one of full length, or any at the least exponent. -/
theorem roundMag_canonical {k : ℕ} {t : ℕ} (hk : k < 2 ^ (F.fracBits + 1))
    (hfull : t = 0 ∨ 2 ^ F.fracBits ≤ k) :
    F.roundMag (k * 2 ^ (F.minExp + t)) = min F.infMag (t * 2 ^ F.fracBits + k) := by
  rcases Nat.eq_zero_or_pos k with rfl | hpos
  · obtain rfl : t = 0 := by
      rcases hfull with h | h
      · exact h
      · have := Nat.two_pow_pos F.fracBits
        omega
    simp [roundMag]
  · have hx : (0 : ℚ) < k * 2 ^ (F.minExp + t) :=
      mul_pos (by exact_mod_cast hpos) (zpow_pos (by norm_num) _)
    -- the unit that rounding chooses is that of the significand
    have hunit : max F.minExp (Int.log 2 ((k : ℚ) * 2 ^ (F.minExp + t)) - F.fracBits) =
        F.minExp + t := by
      rw [log_mul_zpow hpos]
      have hlt : Nat.log 2 k < F.fracBits + 1 := Nat.log_lt_of_lt_pow hpos.ne' hk
      rcases hfull with rfl | hfull
      · simp only [Nat.cast_zero, add_zero]
        omega
      · have hle : F.fracBits ≤ Nat.log 2 k :=
          (Nat.le_log_iff_pow_le (by decide) hpos.ne').mpr hfull
        omega
    rw [roundMag, if_neg hx.ne']
    dsimp only
    rw [hunit, mul_div_assoc, div_self (zpow_ne_zero _ (by norm_num)), mul_one, roundEven_natCast]
    congr 3
    omega

/-- The value of a magnitude given by a canonical significand and its exponent. -/
lemma magValue_canonical {k : ℕ} {t : ℕ} (hk : k < 2 ^ (F.fracBits + 1))
    (hfull : t = 0 ∨ 2 ^ F.fracBits ≤ k) :
    F.magValue (t * 2 ^ F.fracBits + k) = k * 2 ^ (F.minExp + t) := by
  have hpos := Nat.two_pow_pos F.fracBits
  rw [pow_succ] at hk
  by_cases hshort : k < 2 ^ F.fracBits
  · obtain rfl : t = 0 := by omega
    have hdiv : (0 * 2 ^ F.fracBits + k) / 2 ^ F.fracBits = 0 := by
      rw [zero_mul, zero_add, Nat.div_eq_of_lt hshort]
    rw [magValue, if_pos hdiv]
    simp
  · -- the leading one of the significand is the hidden bit
    obtain ⟨f, rfl⟩ : ∃ f, k = 2 ^ F.fracBits + f := ⟨k - 2 ^ F.fracBits, by omega⟩
    have hf : f < 2 ^ F.fracBits := by omega
    have hsum : t * 2 ^ F.fracBits + (2 ^ F.fracBits + f) = f + (t + 1) * 2 ^ F.fracBits := by
      ring
    have hdiv : (t * 2 ^ F.fracBits + (2 ^ F.fracBits + f)) / 2 ^ F.fracBits = t + 1 := by
      rw [hsum, Nat.add_mul_div_right _ _ hpos, Nat.div_eq_of_lt hf, zero_add]
    have hmod : (t * 2 ^ F.fracBits + (2 ^ F.fracBits + f)) % 2 ^ F.fracBits = f := by
      rw [hsum, Nat.add_mul_mod_self_right, Nat.mod_eq_of_lt hf]
    have hexp : ((t * 2 ^ F.fracBits + (2 ^ F.fracBits + f) : ℕ) : ℤ) / 2 ^ F.fracBits = t + 1 := by
      exact_mod_cast hdiv
    rw [magValue, if_neg (by omega), hmod, hexp]
    congr 2
    ring

/-- Every magnitude is given by a canonical significand and its exponent. -/
lemma exists_canonical (m : ℕ) :
    ∃ k t, m = t * 2 ^ F.fracBits + k ∧ k < 2 ^ (F.fracBits + 1) ∧
      (t = 0 ∨ 2 ^ F.fracBits ≤ k) := by
  have hpos := Nat.two_pow_pos F.fracBits
  have hmod := Nat.mod_lt m hpos
  have hsplit := Nat.div_add_mod' m (2 ^ F.fracBits)
  rcases Nat.eq_zero_or_pos (m / 2 ^ F.fracBits) with h | h
  · refine ⟨m % 2 ^ F.fracBits, 0, ?_, by omega, .inl rfl⟩
    rw [h, zero_mul] at hsplit
    omega
  · obtain ⟨t, ht⟩ : ∃ t, m / 2 ^ F.fracBits = t + 1 := ⟨m / 2 ^ F.fracBits - 1, by omega⟩
    refine ⟨2 ^ F.fracBits + m % 2 ^ F.fracBits, t, ?_, by omega, .inr (Nat.le_add_right _ _)⟩
    rw [ht, add_mul, one_mul] at hsplit
    omega

/-- **The value of a finite magnitude is rounded to it.** -/
theorem roundMag_magValue {m : ℕ} (hm : m ≤ F.infMag) : F.roundMag (F.magValue m) = m := by
  obtain ⟨k, t, rfl, hk, hfull⟩ := F.exists_canonical m
  rw [F.magValue_canonical hk hfull, F.roundMag_canonical hk hfull, min_eq_right hm]

/-- The magnitudes with their sign fill the format: above infinity there is one exponent left. -/
lemma infMag_add : F.infMag + 2 ^ F.fracBits = F.signWeight := by
  have hpos := Nat.two_pow_pos F.expBits
  rw [infMag, signWeight, pow_add, ← Nat.succ_mul]
  congr 1
  omega

/-- The sign weighs as much as all magnitudes together. -/
lemma two_pow_width : 2 ^ F.width = 2 * F.signWeight := by
  rw [width, signWeight, add_assoc, pow_add, pow_one]

/-- `G` has a magnitude for every finite number of `F`. -/
structure Wider (F G : Format) : Prop where
  two_le_expBits : 2 ≤ F.expBits
  one_le_fracBits : 1 ≤ F.fracBits
  fracBits_le : F.fracBits ≤ G.fracBits
  minExp_le : G.minExp + G.fracBits ≤ F.minExp
  maxExp_le : F.minExp + 2 ^ F.expBits + F.fracBits ≤ G.minExp + 2 ^ G.expBits + G.fracBits

/-- **Every finite number of the narrower format is one of the wider.** Its significand is shifted
to full length and the exponent lowered as far, which the wider format has room for. -/
lemma Wider.exists_magValue {F G : Format} (h : F.Wider G) {m : ℕ} (hm : m < F.infMag) :
    ∃ m', m' < G.infMag ∧ G.magValue m' = F.magValue m := by
  obtain ⟨k, t, rfl, hk, hfull⟩ := F.exists_canonical m
  have hposF := Nat.two_pow_pos F.fracBits
  have hposG := Nat.two_pow_pos G.fracBits
  have hexpF : 2 ^ 2 ≤ 2 ^ F.expBits := Nat.pow_le_pow_right (by decide) h.two_le_expBits
  have hfrac := h.fracBits_le
  have hmin := h.minExp_le
  have hmax := h.maxExp_le
  -- the exponent of a finite number stays below that of infinity
  have ht : t + 3 ≤ 2 ^ F.expBits := by
    rcases hfull with rfl | hfull
    · omega
    · have hlt : (t + 1) * 2 ^ F.fracBits < (2 ^ F.expBits - 1) * 2 ^ F.fracBits := by
        rw [add_mul, one_mul]
        exact lt_of_le_of_lt (Nat.add_le_add_left hfull _) hm
      have := Nat.lt_of_mul_lt_mul_right hlt
      omega
  rcases Nat.eq_zero_or_pos k with rfl | hkpos
  · obtain rfl : t = 0 := by omega
    have hexpG : 4 ≤ 2 ^ G.expBits := by
      have : (4 : ℤ) ≤ 2 ^ G.expBits := by
        have : ((2 ^ 2 : ℕ) : ℤ) ≤ ((2 ^ F.expBits : ℕ) : ℤ) := by exact_mod_cast hexpF
        push_cast at this
        omega
      exact_mod_cast this
    refine ⟨0, Nat.mul_pos (by omega) hposG, ?_⟩
    simp [magValue]
  · have hlog : Nat.log 2 k ≤ F.fracBits := by
      have := Nat.log_lt_of_lt_pow hkpos.ne' hk
      omega
    have hlow : 2 ^ Nat.log 2 k ≤ k := Nat.pow_log_le_self 2 hkpos.ne'
    have hhigh : k < 2 ^ (Nat.log 2 k + 1) := Nat.lt_pow_succ_log_self (by decide) k
    obtain ⟨j, hj⟩ : ∃ j, Nat.log 2 k + j = G.fracBits := ⟨G.fracBits - Nat.log 2 k, by omega⟩
    obtain ⟨t', ht'⟩ : ∃ t' : ℕ, (t' : ℤ) = F.minExp + t - j - G.minExp :=
      ⟨(F.minExp + t - j - G.minExp).toNat, by omega⟩
    have hfull' : 2 ^ G.fracBits ≤ k * 2 ^ j := by
      rw [← hj, pow_add]
      exact Nat.mul_le_mul_right _ hlow
    have hk' : k * 2 ^ j < 2 ^ (G.fracBits + 1) := by
      rw [← hj, add_right_comm, pow_add]
      exact Nat.mul_lt_mul_of_pos_right hhigh (Nat.two_pow_pos j)
    refine ⟨t' * 2 ^ G.fracBits + k * 2 ^ j, ?_, ?_⟩
    · have hroom : t' + 2 ≤ 2 ^ G.expBits - 1 := by
        have hz : (t : ℤ) + 3 ≤ 2 ^ F.expBits := by exact_mod_cast ht
        have : ((t' + 3 : ℕ) : ℤ) ≤ ((2 ^ G.expBits : ℕ) : ℤ) := by
          push_cast
          rcases hfull with rfl | hfull
          · omega
          · have hge : F.fracBits ≤ Nat.log 2 k :=
              (Nat.le_log_iff_pow_le (by decide) hkpos.ne').mpr hfull
            omega
        have : t' + 3 ≤ 2 ^ G.expBits := by exact_mod_cast this
        omega
      calc t' * 2 ^ G.fracBits + k * 2 ^ j
          < t' * 2 ^ G.fracBits + 2 ^ (G.fracBits + 1) := Nat.add_lt_add_left hk' _
        _ = (t' + 2) * 2 ^ G.fracBits := by ring
        _ ≤ G.infMag := Nat.mul_le_mul_right _ hroom
    · rw [G.magValue_canonical hk' (.inr hfull'), F.magValue_canonical hk hfull, ht']
      push_cast
      rw [mul_assoc, ← zpow_natCast, ← zpow_add₀ (by norm_num)]
      congr 2
      ring

end Format

section Datum

variable {F G : Format}

/-- Sign and magnitude together are the datum. -/
lemma ofNat_sign_mag (b : BitVec F.width) :
    BitVec.ofNat F.width (sign b * F.signWeight + mag b) = b := by
  rw [sign, mag, Nat.div_add_mod', BitVec.ofNat_toNat, BitVec.setWidth_eq]

/-- The sign is one bit. -/
lemma sign_lt (b : BitVec F.width) : sign b < 2 := by
  have hlt : b.toNat < 2 ^ F.width := b.isLt
  rw [F.two_pow_width, mul_comm] at hlt
  exact Nat.div_lt_of_lt_mul hlt

/-- The magnitude that `convert` chooses. -/
def convertMag (G : Format) (b : BitVec F.width) : ℕ :=
  if isNan b then nanMag F G (mag b)
  else if isInf b then G.infMag
  else G.roundMag (F.magValue (mag b))

/-- A rounded magnitude is at most infinity. -/
lemma roundMag_le (G : Format) (x : ℚ) : G.roundMag x ≤ G.infMag := by
  rw [Format.roundMag]
  split_ifs
  · exact Nat.zero_le _
  · exact min_le_left _ _

/-- A converted NaN lies above infinity and below the sign. -/
lemma nanMag_bounds (hG : 1 ≤ G.fracBits) (m : ℕ) :
    G.infMag < nanMag F G m ∧ nanMag F G m < G.signWeight := by
  have hpos := Nat.two_pow_pos (G.fracBits - 1)
  have hmod := Nat.mod_lt (m % 2 ^ F.fracBits * 2 ^ G.fracBits / 2 ^ F.fracBits) hpos
  have hhalf : 2 ^ G.fracBits = 2 ^ (G.fracBits - 1) * 2 := by
    rw [← pow_succ]
    congr 1
    omega
  have hsum := G.infMag_add
  rw [nanMag]
  omega

/-- The magnitude of a conversion leaves the sign bit alone. -/
lemma convertMag_lt (hG : 1 ≤ G.fracBits) (b : BitVec F.width) :
    convertMag G b < G.signWeight := by
  have hsum := G.infMag_add
  have hpos := Nat.two_pow_pos G.fracBits
  rw [convertMag]
  split_ifs
  · exact (nanMag_bounds hG _).2
  · omega
  · have := roundMag_le G (F.magValue (mag b))
    omega

/-- The number that `convert` makes a datum of fits the format. -/
lemma toNat_convert (hG : 1 ≤ G.fracBits) (b : BitVec F.width) :
    (convert G b).toNat = sign b * G.signWeight + convertMag G b := by
  have hlt := convertMag_lt hG b
  have hsign := sign_lt b
  have hle : sign b * G.signWeight ≤ 1 * G.signWeight := Nat.mul_le_mul_right _ (by omega)
  have hwidth := G.two_pow_width
  rw [show convert G b = BitVec.ofNat G.width (sign b * G.signWeight + convertMag G b) from rfl,
    BitVec.toNat_ofNat, Nat.mod_eq_of_lt (by omega)]

/-- The sign is converted. -/
lemma sign_convert (hG : 1 ≤ G.fracBits) (b : BitVec F.width) : sign (convert G b) = sign b := by
  have hlt := convertMag_lt hG b
  have hpos : 0 < G.signWeight := by omega
  rw [sign, toNat_convert hG, add_comm, Nat.add_mul_div_right _ _ hpos, Nat.div_eq_of_lt hlt,
    zero_add]

/-- The magnitude of the converted datum. -/
lemma mag_convert (hG : 1 ≤ G.fracBits) (b : BitVec F.width) :
    mag (convert G b) = convertMag G b := by
  have hlt := convertMag_lt hG b
  rw [mag, toNat_convert hG, add_comm, Nat.add_mul_mod_self_right, Nat.mod_eq_of_lt hlt]

/-- A NaN stays one. -/
lemma isNan_convert (hG : 1 ≤ G.fracBits) {b : BitVec F.width} (hb : isNan b = true) :
    isNan (convert G b) = true := by
  have hgt := (nanMag_bounds (F := F) hG (mag b)).1
  rw [isNan, mag_convert hG, convertMag, if_pos hb]
  exact decide_eq_true hgt

/-- An infinity stays one. -/
lemma isInf_convert (hG : 1 ≤ G.fracBits) {b : BitVec F.width} (hb : isInf b = true) :
    isInf (convert G b) = true := by
  have hmag : mag b = F.infMag := by simpa [isInf] using hb
  have hnan : isNan b = false := by simp [isNan, hmag]
  rw [isInf, mag_convert hG, convertMag, hnan, if_neg (by decide), if_pos hb]
  exact beq_self_eq_true _

/-- **Converting to a wider format and back is the identity** but for NaNs. -/
theorem convert_convert (h : F.Wider G) {b : BitVec F.width} (hb : isNan b = false) :
    convert F (convert G b) = b := by
  have hF := h.one_le_fracBits
  have hG := hF.trans h.fracBits_le
  have hmag : mag b ≤ F.infMag := by simpa [isNan] using hb
  have hback : convertMag F (convert G b) = mag b := by
    by_cases hinf : isInf b = true
    · have heq : mag b = F.infMag := by simpa [isInf] using hinf
      have hinf' := isInf_convert hG hinf
      have hnan' : isNan (convert G b) = false := by
        have : mag (convert G b) = G.infMag := by simpa [isInf] using hinf'
        simp [isNan, this]
      rw [convertMag, hnan', if_neg (by decide), if_pos hinf', heq]
    · have hne : mag b ≠ F.infMag := by simpa [isInf] using hinf
      obtain ⟨m', hm', hval⟩ := h.exists_magValue (lt_of_le_of_ne hmag hne)
      have hconv : mag (convert G b) = m' := by
        rw [mag_convert hG, convertMag, hb, if_neg (by decide), if_neg hinf, ← hval,
          G.roundMag_magValue hm'.le]
      have hnan' : isNan (convert G b) = false := by simp [isNan, hconv, hm'.le]
      have hinf' : isInf (convert G b) = false := by simp [isInf, hconv, hm'.ne]
      rw [convertMag, hnan', if_neg (by decide), hinf', if_neg (by decide), hconv, hval,
        F.roundMag_magValue hmag]
  have hdatum : convert F (convert G b) = BitVec.ofNat F.width
      (sign (convert G b) * F.signWeight + convertMag F (convert G b)) := rfl
  rw [hdatum, hback, sign_convert hG, ofNat_sign_mag]

/-- The 64-bit format has a magnitude for every finite number of the 32-bit one. -/
lemma wider_binary32_binary64 : binary32.Wider binary64 :=
  ⟨by decide, by decide, by decide, by norm_num [Format.minExp, binary32, binary64],
    by norm_num [Format.minExp, binary32, binary64]⟩

end Datum

end Ieee754
