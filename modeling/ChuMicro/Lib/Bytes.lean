import Mathlib.Data.List.Induction
import Mathlib.Tactic.Ring

/-!
# Byte strings: slices and big-endian integers

A byte string is a `List UInt8`. `slice` is the half-open slice `view[a:b]` of a buffer, and
`be n v` the `n`-byte big-endian form of `v`.

## Main definitions

* `Bytes.slice` — the bytes at positions `a, …, b - 1`.
* `Bytes.overwrite` — a buffer with some bytes replaced in place.
* `Bytes.be`, `Bytes.ofBe` — big-endian encoding of a natural number and its value.

## Main results

* `Bytes.slice_slice` — a slice of a slice, in the coordinates of the whole buffer.
* `Bytes.ofBe_be` — reading back an `n`-byte integer below `256 ^ n`.
-/

namespace Bytes

/-! ## Deciding along a list -/

/-- What holds of all elements of a list is decided along the list, never by going through all the
values of their type. -/
instance (priority := 2000) decidableForallMem {α : Type} (p : α → Prop) [DecidablePred p]
    (l : List α) : Decidable (∀ x ∈ l, p x) := List.decidableBAll p l

/-- The same for what holds of some element. -/
instance (priority := 2000) decidableExistsMem {α : Type} (p : α → Prop) [DecidablePred p]
    (l : List α) : Decidable (∃ x ∈ l, p x) := List.decidableBEx p l

/-! ## Slices -/

/-- The bytes of `l` at positions `a, …, b - 1`; positions past the end are dropped. -/
def slice (l : List UInt8) (a b : ℕ) : List UInt8 := (l.take b).drop a

/-- A slice inside the buffer has the length its bounds say. -/
lemma length_slice (l : List UInt8) {a b : ℕ} (h : b ≤ l.length) :
    (slice l a b).length = b - a := by
  simp [slice, Nat.min_eq_left h]

/-- A slice taken inside a slice is a slice of the whole, shifted. -/
theorem slice_slice (l : List UInt8) (o n a b : ℕ) (h : o + b ≤ n) :
    slice (slice l o n) a b = slice l (o + a) (o + b) := by
  simp only [slice, List.take_drop, List.take_take, List.drop_drop, Nat.min_eq_left h]

/-- A slice that ends inside the first part of a concatenation does not see the second. -/
lemma slice_append_left (l m : List UInt8) {a b : ℕ} (h : b ≤ l.length) :
    slice (l ++ m) a b = slice l a b := by
  simp [slice, List.take_append_of_le_length h]

/-- The whole list as a slice. -/
@[simp] lemma slice_zero_length (l : List UInt8) : slice l 0 l.length = l := by
  simp [slice]

/-- Dropping from a slice moves its start. -/
lemma drop_slice (l : List UInt8) (a b n : ℕ) :
    (slice l a b).drop n = slice l (a + n) b := by
  simp [slice, List.drop_drop]

/-- Byte `i` of a slice. -/
lemma getElem?_slice (l : List UInt8) (a b i : ℕ) (h : a + i < b) :
    (slice l a b)[i]? = l[a + i]? := by
  simp [slice, List.getElem?_drop, h]

/-- `l` with the bytes from position `o` on replaced by `m`. -/
def overwrite (l : List UInt8) (o : ℕ) (m : List UInt8) : List UInt8 :=
  l.take o ++ m ++ l.drop (o + m.length)

/-- Overwriting inside the buffer keeps its length. -/
lemma length_overwrite (l m : List UInt8) {o : ℕ} (h : o + m.length ≤ l.length) :
    (overwrite l o m).length = l.length := by
  simp only [overwrite, List.length_append, List.length_take, List.length_drop]
  omega

/-- A slice that ends where the overwritten bytes end, starting before them. -/
lemma slice_overwrite (l m : List UInt8) {a o : ℕ} (ha : a ≤ o) (h : o + m.length ≤ l.length) :
    slice (overwrite l o m) a (o + m.length) = slice l a o ++ m := by
  have ho : o ≤ l.length := by omega
  have hlen : (l.take o).length = o := by simp [ho]
  have h1 : (overwrite l o m).take (o + m.length) = l.take o ++ m := by
    rw [overwrite, List.append_assoc, List.take_append, hlen, List.take_of_length_le (by omega)]
    simp
  rw [slice, h1, List.drop_append_of_le_length (by omega), slice]

/-! ## A field at an offset -/

/-- The bytes `b` stand at position `o` of `data`. -/
def IsAt (data : List UInt8) (o : ℕ) (b : List UInt8) : Prop :=
  ∃ before after, data = before ++ b ++ after ∧ before.length = o

/-- A byte string stands at the start of itself. -/
lemma isAt_self (data : List UInt8) : IsAt data 0 data := ⟨[], [], by simp, rfl⟩

section IsAt

variable {data a b : List UInt8} {o : ℕ}

/-- Of two fields one after the other, the first. -/
lemma IsAt.left (h : IsAt data o (a ++ b)) : IsAt data o a := by
  obtain ⟨before, after, rfl, hlen⟩ := h
  exact ⟨before, b ++ after, by simp, hlen⟩

/-- Of two fields one after the other, the second. -/
lemma IsAt.right (h : IsAt data o (a ++ b)) : IsAt data (o + a.length) b := by
  obtain ⟨before, after, rfl, hlen⟩ := h
  exact ⟨before ++ a, after, by simp, by simp [hlen]⟩

/-- A field without its first byte. -/
lemma IsAt.tail {x : UInt8} (h : IsAt data o (x :: b)) : IsAt data (o + 1) b :=
  IsAt.right (a := [x]) h

/-- A field ends inside the data. -/
lemma IsAt.le (h : IsAt data o b) : o + b.length ≤ data.length := by
  obtain ⟨before, after, rfl, rfl⟩ := h
  simp only [List.length_append]
  omega

/-- The slice that covers a field. -/
lemma IsAt.slice_eq (h : IsAt data o b) : slice data o (o + b.length) = b := by
  obtain ⟨before, after, rfl, rfl⟩ := h
  simp [slice, List.take_append]

/-- A field and the one behind it. -/
lemma IsAt.append (h : IsAt data o a) (h' : IsAt data (o + a.length) b) :
    IsAt data o (a ++ b) := by
  obtain ⟨before, after, rfl, rfl⟩ := h
  obtain ⟨before', after', heq, hlen⟩ := h'
  rw [List.append_assoc before' b] at heq
  obtain ⟨-, rfl⟩ := List.append_inj heq (by rw [List.length_append, hlen])
  exact ⟨before, after', by simp, rfl⟩

/-- An empty field. -/
lemma isAt_nil (h : o ≤ data.length) : IsAt data o [] :=
  ⟨data.take o, data.drop o, by simp, by simp [h]⟩

/-- A slice as a field. -/
lemma isAt_slice {n : ℕ} (h : o + n ≤ data.length) : IsAt data o (slice data o (o + n)) := by
  refine ⟨data.take o, data.drop (o + n), ?_, by simp; omega⟩
  have hfront : data.take o ++ slice data o (o + n) = data.take (o + n) := by
    have htake : data.take o = (data.take (o + n)).take o := by
      rw [List.take_take, Nat.min_eq_left (by omega)]
    rw [slice, htake, List.take_append_drop]
  rw [hfront, List.take_append_drop]

/-- A byte that stands in the data. -/
lemma isAt_of_getElem? {x : UInt8} (h : data[o]? = some x) : IsAt data o [x] := by
  obtain ⟨hlt, hx⟩ := List.getElem?_eq_some_iff.mp h
  refine ⟨data.take o, data.drop (o + 1), ?_, by simp; omega⟩
  rw [← hx, List.append_assoc, List.singleton_append, ← List.drop_eq_getElem_cons hlt,
    List.take_append_drop]

/-- The first byte of a field. -/
lemma IsAt.getElem? {x : UInt8} (h : IsAt data o (x :: b)) : data[o]? = some x := by
  obtain ⟨before, after, rfl, rfl⟩ := h
  simp

end IsAt

/-! ## Big-endian integers -/

/-- The `n`-byte big-endian form of `v`, higher bytes dropped. -/
def be : ℕ → ℕ → List UInt8
  | 0, _ => []
  | n + 1, v => be n (v / 256) ++ [UInt8.ofNat (v % 256)]

/-- The value of a big-endian byte string. -/
def ofBe (l : List UInt8) : ℕ := l.foldl (fun acc b => acc * 256 + b.toNat) 0

@[simp] lemma length_be (n v : ℕ) : (be n v).length = n := by
  induction n generalizing v with
  | zero => rfl
  | succ n ih => simp [be, ih]

/-- The last byte of a byte string is its lowest. -/
lemma ofBe_concat (l : List UInt8) (b : UInt8) : ofBe (l ++ [b]) = ofBe l * 256 + b.toNat := by
  simp [ofBe]

/-- **Integers read back** from their big-endian form, up to the bytes that do not fit. -/
lemma ofBe_be_mod (n v : ℕ) : ofBe (be n v) = v % 256 ^ n := by
  induction n generalizing v with
  | zero => simp [be, ofBe, Nat.mod_one]
  | succ n ih =>
    have hb : (UInt8.ofNat (v % 256)).toNat = v % 256 := by
      simp [UInt8.toNat_ofNat']
    rw [be, ofBe_concat, ih, hb, pow_succ, mul_comm (256 ^ n) 256, Nat.mod_mul]
    ring

/-- An integer below `256 ^ n` survives the `n`-byte form. -/
theorem ofBe_be {n v : ℕ} (h : v < 256 ^ n) : ofBe (be n v) = v := by
  rw [ofBe_be_mod, Nat.mod_eq_of_lt h]

/-- A byte string is the big-endian form of its value. -/
lemma be_ofBe (l : List UInt8) : be l.length (ofBe l) = l := by
  induction l using List.reverseRecOn with
  | nil => rfl
  | append_singleton l b ih =>
    have hb : b.toNat < 256 := b.toNat_lt
    have hdiv : (ofBe l * 256 + b.toNat) / 256 = ofBe l := by omega
    have hmod : (ofBe l * 256 + b.toNat) % 256 = b.toNat := by omega
    rw [List.length_append, List.length_singleton, ofBe_concat, be, hdiv, hmod, ih,
      UInt8.ofNat_toNat]

/-- An `n`-byte string is below `256 ^ n`. -/
lemma ofBe_lt (l : List UInt8) : ofBe l < 256 ^ l.length := by
  induction l using List.reverseRecOn with
  | nil => simp [ofBe]
  | append_singleton l b ih =>
    have hb : b.toNat < 256 := b.toNat_lt
    rw [ofBe_concat, List.length_append, List.length_singleton, pow_succ]
    omega

end Bytes
