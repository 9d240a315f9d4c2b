import Mathlib.Data.Nat.Notation
import Mathlib.Tactic.Ring

/-!
# Numbers in groups of seven bits

A number written in bytes of seven bits each, lowest group first, with the top bit set on every byte
but the last. A number has many such forms, padded with zero groups, and one shortest form.

## Main definitions

* `Base128.Marked` — exactly the last byte has its top bit clear.
* `Base128.value` — the number that bytes stand for.
* `Base128.encode` — the shortest form of a number.

## Main results

* `Base128.marked_encode`, `Base128.value_encode` — the shortest form is a form of the number.
* `Base128.length_encode_le` — no form is shorter.
* `Base128.eq_encode` — no other form is as short.
-/

namespace Base128

/-- Every byte but the last one has its top bit set. -/
def Marked : List UInt8 → Prop
  | [] => False
  | digit :: digits => if digit.toNat < 128 then digits = [] else Marked digits

/-- The number that the low seven bits of the bytes stand for. -/
def value : List UInt8 → ℕ
  | [] => 0
  | digit :: digits => digit.toNat % 128 + 128 * value digits

/-- The shortest form of a number. -/
def encode (n : ℕ) : List UInt8 :=
  if n < 128 then [UInt8.ofNat n]
  else UInt8.ofNat (n % 128 + 128) :: encode (n / 128)
termination_by n
decreasing_by omega

variable {n : ℕ} {digits : List UInt8}

lemma encode_of_lt (h : n < 128) : encode n = [UInt8.ofNat n] := by
  rw [encode, if_pos h]

lemma encode_of_not_lt (h : ¬ n < 128) :
    encode n = UInt8.ofNat (n % 128 + 128) :: encode (n / 128) := by
  rw [encode, if_neg h]

lemma toNat_ofNat (h : n < 256) : (UInt8.ofNat n).toNat = n := by
  rw [UInt8.toNat_ofNat']
  exact Nat.mod_eq_of_lt h

lemma Marked.ne_nil (h : Marked digits) : digits ≠ [] := by
  rintro rfl
  exact h

/-- The shortest form is a form.

**Proof sketch.** Induction on the number, along its groups. -/
theorem marked_encode (n : ℕ) : Marked (encode n) := by
  induction n using Nat.strong_induction_on with
  | _ n ih =>
    by_cases h : n < 128
    · rw [encode_of_lt h, Marked, toNat_ofNat (by omega), if_pos h]
    · rw [encode_of_not_lt h, Marked, toNat_ofNat (by omega), if_neg (by omega)]
      exact ih (n / 128) (by omega)

/-- The shortest form stands for its number. -/
theorem value_encode (n : ℕ) : value (encode n) = n := by
  induction n using Nat.strong_induction_on with
  | _ n ih =>
    by_cases h : n < 128
    · rw [encode_of_lt h, value, value, toNat_ofNat (by omega)]
      omega
    · rw [encode_of_not_lt h, value, toNat_ofNat (by omega), ih (n / 128) (by omega)]
      omega

lemma length_encode_pos (n : ℕ) : 0 < (encode n).length :=
  List.length_pos_iff.mpr (marked_encode n).ne_nil

/-- A number below `128 ^ k` has a form of at most `k` bytes. -/
lemma length_encode_le_of_lt {k : ℕ} (hk : 0 < k) (h : n < 128 ^ k) : (encode n).length ≤ k := by
  induction k, hk using Nat.le_induction generalizing n with
  | base => rw [encode_of_lt (by simpa using h), List.length_singleton]
  | succ k hk ih =>
    by_cases hn : n < 128
    · rw [encode_of_lt hn, List.length_singleton]
      omega
    · rw [encode_of_not_lt hn, List.length_cons]
      have hdiv : n / 128 < 128 ^ k := by
        rw [Nat.div_lt_iff_lt_mul (by omega), ← pow_succ]
        exact h
      have := ih hdiv
      omega

/-- **No form of a number is shorter.**

**Proof sketch.** Induction on the form. A form of one byte stands for a number below `128`; the
rest of a longer form is a form of the quotient. -/
theorem length_encode_le (h : Marked digits) : (encode (value digits)).length ≤ digits.length := by
  induction digits with
  | nil => exact h.elim
  | cons digit digits ih =>
    rw [Marked] at h
    by_cases hd : digit.toNat < 128
    · rw [if_pos hd] at h
      subst h
      rw [encode_of_lt (by rw [value, value]; omega), List.length_singleton, List.length_singleton]
    · rw [if_neg hd] at h
      by_cases hn : value (digit :: digits) < 128
      · rw [encode_of_lt hn, List.length_singleton, List.length_cons]
        omega
      · have hdiv : value (digit :: digits) / 128 = value digits := by
          rw [value]
          omega
        rw [encode_of_not_lt hn, hdiv, List.length_cons, List.length_cons]
        have := ih h
        omega

/-- Two forms of one number that are equally long are equal. -/
lemma ext {digits' : List UInt8} (h : Marked digits) (h' : Marked digits')
    (hlen : digits.length = digits'.length) (hv : value digits = value digits') :
    digits = digits' := by
  induction digits generalizing digits' with
  | nil => exact h.elim
  | cons digit digits ih =>
    cases digits' with
    | nil => exact h'.elim
    | cons digit' digits' =>
      simp only [Marked, value, List.length_cons] at h h' hlen hv
      have hmod : digit.toNat % 128 = digit'.toNat % 128 := by omega
      have hrest : value digits = value digits' := by omega
      by_cases hd : digit.toNat < 128
      · rw [if_pos hd] at h
        subst h
        have hnil : digits' = [] := List.length_eq_zero_iff.mp (by simpa using hlen.symm)
        subst hnil
        have hd' : digit'.toNat < 128 := by
          by_contra hno
          rw [if_neg hno] at h'
          exact h'
        rw [Nat.mod_eq_of_lt hd, Nat.mod_eq_of_lt hd'] at hmod
        rw [UInt8.toNat_inj.mp hmod]
      · rw [if_neg hd] at h
        have hd' : ¬ digit'.toNat < 128 := by
          intro hlt
          rw [if_pos hlt] at h'
          subst h'
          exact h.ne_nil (List.length_eq_zero_iff.mp (by simpa using hlen))
        rw [if_neg hd'] at h'
        have hlt := digit.toNat_lt
        have hlt' := digit'.toNat_lt
        rw [ih h h' (by omega) hrest, UInt8.toNat_inj.mp (by omega : digit.toNat = digit'.toNat)]

/-- **The shortest form is the only one of its length.** -/
theorem eq_encode (h : Marked digits) (hlen : digits.length ≤ (encode (value digits)).length) :
    digits = encode (value digits) :=
  ext h (marked_encode _) (le_antisymm hlen (length_encode_le h)) (value_encode _).symm

end Base128
