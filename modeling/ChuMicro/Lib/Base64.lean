import Mathlib.Algebra.Order.Group.Nat
import Mathlib.Data.Nat.Notation

/-!
# Base64

Three bytes as four characters of an alphabet of sixty-four, the last ones padded. The decoder is
the one of small interpreters: it takes six bits at a time, gives out a byte whenever eight have
come together, skips what is no digit and stops at the padding.

## Main definitions

* `Base64.encode`, `Base64.decode` — text from bytes and bytes from text.

## Main results

* `Base64.decode_encode` — decoding gives back what was encoded.
-/

namespace Base64

/-- The digit of six bits. -/
def digit (n : ℕ) : Char :=
  if n < 26 then Char.ofNat (65 + n)
  else if n < 52 then Char.ofNat (71 + n)
  else if n < 62 then Char.ofNat (n - 4)
  else if n = 62 then '+'
  else '/'

/-- The six bits of a digit. -/
def value? (c : Char) : Option ℕ :=
  if 'A' ≤ c ∧ c ≤ 'Z' then some (c.toNat - 65)
  else if 'a' ≤ c ∧ c ≤ 'z' then some (c.toNat - 71)
  else if '0' ≤ c ∧ c ≤ '9' then some (c.toNat + 4)
  else if c = '+' then some 62
  else if c = '/' then some 63
  else none

/-- The text of some bytes, with padding. -/
def encode : List UInt8 → List Char
  | [] => []
  | [a] => [digit (a.toNat / 4), digit (a.toNat % 4 * 16), '=', '=']
  | [a, b] =>
    [digit (a.toNat / 4), digit (a.toNat % 4 * 16 + b.toNat / 16), digit (b.toNat % 16 * 4), '=']
  | a :: b :: c :: data =>
    digit (a.toNat / 4) :: digit (a.toNat % 4 * 16 + b.toNat / 16) ::
      digit (b.toNat % 16 * 4 + c.toNat / 64) :: digit (c.toNat % 64) :: encode data

/-- The bytes of a text, where `bits` bits that have not made a byte yet are in `acc`. -/
def decodeFrom (acc bits : ℕ) (padded : Bool) : List Char → Option (List UInt8)
  | [] => if bits = 0 then some [] else none
  | c :: text =>
    if c = '=' then
      if bits = 2 ∨ (bits = 4 ∧ padded = true) then some [] else decodeFrom acc bits true text
    else
      match value? c with
      | none => decodeFrom acc bits padded text
      | some v =>
        if 2 ≤ bits then
          (decodeFrom ((acc * 64 + v) % 2 ^ (bits - 2)) (bits - 2) padded text).map
            (UInt8.ofNat ((acc * 64 + v) / 2 ^ (bits - 2)) :: ·)
        else decodeFrom (acc * 64 + v) (bits + 6) padded text

/-- The bytes of a text, unless bits are left over. -/
def decode (text : List Char) : Option (List UInt8) := decodeFrom 0 0 false text

example : encode [77, 97, 110, 33] = "TWFuIQ==".toList := by decide

example : decode "TWFu\nIQ==".toList = some [77, 97, 110, 33] := by decide

section Digits

variable {n acc bits : ℕ} {padded : Bool} {text : List Char}

lemma digit_spec (h : n < 64) : digit n ≠ '=' ∧ value? (digit n) = some n := by
  revert n
  decide

lemma decodeFrom_digit_few (h : n < 64) (hbits : bits < 2) :
    decodeFrom acc bits padded (digit n :: text) =
      decodeFrom (acc * 64 + n) (bits + 6) padded text := by
  obtain ⟨hpad, hvalue⟩ := digit_spec h
  rw [decodeFrom, if_neg hpad, hvalue]
  exact if_neg (not_le.mpr hbits)

lemma decodeFrom_digit (h : n < 64) (hbits : 2 ≤ bits) :
    decodeFrom acc bits padded (digit n :: text) =
      (decodeFrom ((acc * 64 + n) % 2 ^ (bits - 2)) (bits - 2) padded text).map
        (UInt8.ofNat ((acc * 64 + n) / 2 ^ (bits - 2)) :: ·) := by
  obtain ⟨hpad, hvalue⟩ := digit_spec h
  rw [decodeFrom, if_neg hpad, hvalue]
  exact if_pos hbits

end Digits

section RoundTrip

variable {padded : Bool} {text : List Char}

/-- The first byte of a group, and its two last bits. -/
lemma decodeFrom_first (a : UInt8) {low : ℕ} (hlow : low < 16) :
    decodeFrom 0 0 padded (digit (a.toNat / 4) :: digit (a.toNat % 4 * 16 + low) :: text) =
      (decodeFrom low 4 padded text).map (a :: ·) := by
  have ha := a.toNat_lt
  rw [decodeFrom_digit_few (by omega) (by omega), decodeFrom_digit (by omega) (by omega)]
  have hrest : ((0 * 64 + a.toNat / 4) * 64 + (a.toNat % 4 * 16 + low)) % 2 ^ (0 + 6 - 2) = low := by
    omega
  have hbyte : ((0 * 64 + a.toNat / 4) * 64 + (a.toNat % 4 * 16 + low)) / 2 ^ (0 + 6 - 2) =
      a.toNat := by omega
  rw [hrest, hbyte, UInt8.ofNat_toNat]

/-- The second byte. -/
lemma decodeFrom_second (b : UInt8) {low : ℕ} (hlow : low < 4) :
    decodeFrom (b.toNat / 16) 4 padded (digit (b.toNat % 16 * 4 + low) :: text) =
      (decodeFrom low 2 padded text).map (b :: ·) := by
  have hb := b.toNat_lt
  rw [decodeFrom_digit (by omega) (by omega)]
  have hrest : (b.toNat / 16 * 64 + (b.toNat % 16 * 4 + low)) % 2 ^ (4 - 2) = low := by omega
  have hbyte : (b.toNat / 16 * 64 + (b.toNat % 16 * 4 + low)) / 2 ^ (4 - 2) = b.toNat := by omega
  rw [hrest, hbyte, UInt8.ofNat_toNat]

/-- The third byte. -/
lemma decodeFrom_third (c : UInt8) :
    decodeFrom (c.toNat / 64) 2 padded (digit (c.toNat % 64) :: text) =
      (decodeFrom 0 0 padded text).map (c :: ·) := by
  have hc := c.toNat_lt
  rw [decodeFrom_digit (by omega) (by omega)]
  have hrest : (c.toNat / 64 * 64 + c.toNat % 64) % 2 ^ (2 - 2) = 0 := by omega
  have hbyte : (c.toNat / 64 * 64 + c.toNat % 64) / 2 ^ (2 - 2) = c.toNat := by omega
  rw [hrest, hbyte, UInt8.ofNat_toNat]

/-- **Decoding gives back what was encoded.** -/
theorem decode_encode (data : List UInt8) : decode (encode data) = some data := by
  unfold decode
  fun_induction encode data with
  | case1 => rfl
  | case2 a =>
    have h := @decodeFrom_first false ['=', '='] a 0 (by omega)
    rw [add_zero] at h
    rw [h]
    rfl
  | case3 a b =>
    have hb := b.toNat_lt
    have h := @decodeFrom_second false ['='] b 0 (by omega)
    rw [add_zero] at h
    rw [decodeFrom_first a (by omega), h]
    rfl
  | case4 a b c data ih =>
    have hb := b.toNat_lt
    have hc := c.toNat_lt
    rw [decodeFrom_first a (by omega), decodeFrom_second b (by omega), decodeFrom_third, ih]
    rfl

end RoundTrip

end Base64
