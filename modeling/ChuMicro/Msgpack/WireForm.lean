import Mathlib.Data.List.Forall2
import ChuMicro.Msgpack.RoundTrip

/-!
# What the decoder accepts

The wire form of a value, told without a decoder: a type byte, maybe a length, and the payload,
where the payload of a container is the encodings of its parts one after the other. `unpackb`
returns a value exactly for the encodings of that value, and raises `ValueError` for all other
bytes.

## Main definitions

* `Msgpack.Form` — one level of the wire form.
* `Msgpack.Encoded` — an encoding with at most so many levels.
* `Msgpack.unrolled` — `_decode` with a bound on the calls inside each other.

## Main results

* `Msgpack.decodeLevels_iff` — what is read at an offset is an encoding that stands there.
* `Msgpack.unpackb_total` — the decoder is total, and accepts the encodings.
-/

namespace ChuMicro.Msgpack

open Bytes

/-! ## The wire form -/

/-- **One level of the wire form**, with the parts of a container in the form `inner`. -/
inductive Form (inner : List UInt8 → PyVal → Prop) : List UInt8 → PyVal → Prop where
  | none : Form inner [0xc0] .none
  | false : Form inner [0xc2] (.bool Bool.false)
  | true : Form inner [0xc3] (.bool Bool.true)
  | positive (byte : UInt8) : byte ≤ 0x7f → Form inner [byte] (.int byte.toNat)
  | negative (byte : UInt8) : byte ≥ 0xe0 → Form inner [byte] (.int ((byte.toNat : ℤ) - 256))
  | unsigned (tag : UInt8) (field : List UInt8) :
    (tag, field.length) ∈ [((0xcc : UInt8), 1), (0xcd, 2), (0xce, 4)] →
      Form inner (tag :: field) (.int (ofBe field))
  | signed (tag : UInt8) (field : List UInt8) (value : ℤ) :
    (tag, field.length) ∈ [((0xd0 : UInt8), 1), (0xd1, 2), (0xd2, 4)] →
      unpackSigned field.length field = .ok value → Form inner (tag :: field) (.int value)
  | float (field : List UInt8) (bits : BitVec 64) :
    unpackFloat field = .ok bits → Form inner (0xca :: field) (.float bits)
  | str (head raw : List UInt8) (text : PyStr) :
    LengthHead ⟨some (0xa0, 31), some 0xd9, 0xda⟩ raw.length head → decodeStr raw = .ok text →
      Form inner (head ++ raw) (.str text)
  | bytes (head raw : List UInt8) :
    LengthHead ⟨Option.none, some 0xc4, 0xc5⟩ raw.length head → Form inner (head ++ raw) (.bytes raw)
  | list (head : List UInt8) (encodings : List (List UInt8)) (items : List PyVal) :
    LengthHead ⟨some (0x90, 15), Option.none, 0xdc⟩ items.length head →
      List.Forall₂ inner encodings items → Form inner (head ++ encodings.flatten) (.list items)
  | dict (head : List UInt8) (encodings : List (List UInt8 × List UInt8))
      (entries : List (PyVal × PyVal)) :
    LengthHead ⟨some (0x80, 15), Option.none, 0xde⟩ entries.length head →
      List.Forall₂ (fun encoding entry => inner encoding.1 entry.1 ∧ inner encoding.2 entry.2 ∧
        entry.1.isContainer = Bool.false) encodings entries →
      Form inner (head ++ encodings.flatMap fun encoding => encoding.1 ++ encoding.2)
        (.dict (entries.foldl (fun stored entry => dictSet entry.1 entry.2 stored) []))

/-- **An encoding of a value** with at most `levels` levels of containers, itself included. -/
def Encoded : ℕ → List UInt8 → PyVal → Prop
  | 0 => fun _ _ => False
  | levels + 1 => Form (Encoded levels)

/-! ## Fields that are read -/

section Fields

variable {data : List UInt8} {offset stop width length : ℕ}

/-- A byte that is read stands in the data. -/
lemma isAt_of_byteAt {byte : UInt8} (h : byteAt data offset = .ok byte) :
    IsAt data offset [byte] := by
  unfold byteAt at h
  split at h
  · next byte' hbyte =>
    obtain rfl := Except.ok.inj h
    exact isAt_of_getElem? hbyte
  · cases h

/-- A field that is read stands in the data, with its width. -/
lemma isAt_of_fieldAt {field : List UInt8} (h : fieldAt data offset width = .ok field) :
    IsAt data offset field ∧ field.length = width := by
  unfold fieldAt at h
  split_ifs at h with hle
  obtain rfl := Except.ok.inj h
  exact ⟨isAt_slice hle, by rw [length_slice _ hle]; omega⟩

/-- An unsigned field that is read. -/
lemma isAt_of_unsignedAt {n : ℕ} (h : unsignedAt data offset width = .ok n) :
    IsAt data offset (be width n) ∧ n < 256 ^ width := by
  obtain ⟨field, hfield, h⟩ := bind_eq_ok.mp h
  obtain ⟨hat, hlen⟩ := isAt_of_fieldAt hfield
  rw [unpack, if_pos hlen] at h
  obtain rfl := Except.ok.inj h
  rw [← hlen, be_ofBe]
  exact ⟨hat, ofBe_lt field⟩

/-- A signed field that is read. -/
lemma isAt_of_signedAt {n : ℤ} (h : signedAt data offset width = .ok n) :
    ∃ field, IsAt data offset field ∧ field.length = width ∧ unpackSigned width field = .ok n := by
  obtain ⟨field, hfield, h⟩ := bind_eq_ok.mp h
  obtain ⟨hat, hlen⟩ := isAt_of_fieldAt hfield
  exact ⟨field, hat, hlen, h⟩

/-- A float that is read. -/
lemma isAt_of_floatAt {bits : BitVec 64} (h : floatAt data offset = .ok bits) :
    ∃ field, IsAt data offset field ∧ field.length = 4 ∧ unpackFloat field = .ok bits := by
  obtain ⟨field, hfield, h⟩ := bind_eq_ok.mp h
  obtain ⟨hat, hlen⟩ := isAt_of_fieldAt hfield
  exact ⟨field, hat, hlen, h⟩

/-- A string that is read. -/
lemma isAt_of_strAt {value : PyVal} (h : strAt data offset length = .ok (value, stop)) :
    ∃ raw text, IsAt data offset raw ∧ raw.length = length ∧ decodeStr raw = .ok text ∧
      value = .str text ∧ stop = offset + length := by
  obtain ⟨last, hlast, h⟩ := bind_eq_ok.mp h
  obtain ⟨text, htext, h⟩ := bind_eq_ok.mp h
  unfold boundedEnd at hlast
  split_ifs at hlast with hend
  obtain rfl := Except.ok.inj hlast
  obtain ⟨rfl, rfl⟩ := Prod.mk.inj (Except.ok.inj h)
  exact ⟨_, text, isAt_slice (by omega), by rw [length_slice _ (by omega)]; omega, htext, rfl, rfl⟩

/-- A byte string that is read. -/
lemma isAt_of_binAt {value : PyVal} (h : binAt data offset length = .ok (value, stop)) :
    ∃ raw, IsAt data offset raw ∧ raw.length = length ∧ value = .bytes raw ∧
      stop = offset + length := by
  obtain ⟨last, hlast, h⟩ := bind_eq_ok.mp h
  unfold boundedEnd at hlast
  split_ifs at hlast with hend
  obtain rfl := Except.ok.inj hlast
  obtain ⟨rfl, rfl⟩ := Prod.mk.inj (Except.ok.inj h)
  exact ⟨_, isAt_slice (by omega), by rw [length_slice _ (by omega)]; omega, rfl, rfl⟩

end Fields

/-! ## Parts of containers -/

/-- From `start` to `stop` stands an encoding of the value. -/
def Stands (data : List UInt8) (form : List UInt8 → PyVal → Prop) (start : ℕ) (value : PyVal)
    (stop : ℕ) : Prop :=
  ∃ encoding, IsAt data start encoding ∧ stop = start + encoding.length ∧ form encoding value

section Loops

variable {data : List UInt8} {form : List UInt8 → PyVal → Prop}
  {inner : ℕ → Except PyExn (PyVal × ℕ)} {count start stop : ℕ}
  (hinner : ∀ start value stop, inner start = .ok (value, stop) → Stands data form start value stop)

include hinner

/-- The items that are read stand one after the other. -/
lemma stands_of_decodeItems {items : List PyVal} (hstart : start ≤ data.length)
    (h : decodeItems inner count start = .ok (items, stop)) :
    ∃ encodings, List.Forall₂ form encodings items ∧ IsAt data start encodings.flatten ∧
      stop = start + encodings.flatten.length ∧ items.length = count := by
  induction count generalizing start items with
  | zero =>
    obtain ⟨rfl, rfl⟩ := Prod.mk.inj (Except.ok.inj h)
    exact ⟨[], .nil, isAt_nil hstart, rfl, rfl⟩
  | succ count ih =>
    rw [decodeItems] at h
    obtain ⟨⟨value, middle⟩, hvalue, h⟩ := bind_eq_ok.mp h
    obtain ⟨⟨rest, last⟩, hrest, h⟩ := bind_eq_ok.mp h
    obtain ⟨rfl, rfl⟩ := Prod.mk.inj (Except.ok.inj h)
    obtain ⟨encoding, hat, rfl, hform⟩ := hinner _ _ _ hvalue
    obtain ⟨encodings, hall, hat', rfl, hlen⟩ := ih hat.le hrest
    refine ⟨encoding :: encodings, .cons hform hall, hat.append hat', ?_, congrArg (· + 1) hlen⟩
    rw [List.flatten_cons, List.length_append, Nat.add_assoc]

/-- The entries that are read stand one after the other, and are stored in that order. -/
lemma stands_of_decodePairs {stored result : List (PyVal × PyVal)} (hstart : start ≤ data.length)
    (h : decodePairs inner count start stored = .ok (result, stop)) :
    ∃ (encodings : List (List UInt8 × List UInt8)) (entries : List (PyVal × PyVal)),
      List.Forall₂ (fun encoding entry => form encoding.1 entry.1 ∧ form encoding.2 entry.2 ∧
        entry.1.isContainer = false) encodings entries ∧
      IsAt data start (encodings.flatMap fun encoding => encoding.1 ++ encoding.2) ∧
      stop = start + (encodings.flatMap fun encoding => encoding.1 ++ encoding.2).length ∧
      entries.length = count ∧
      result = entries.foldl (fun stored entry => dictSet entry.1 entry.2 stored) stored := by
  induction count generalizing start stored with
  | zero =>
    obtain ⟨rfl, rfl⟩ := Prod.mk.inj (Except.ok.inj h)
    exact ⟨[], [], .nil, isAt_nil hstart, rfl, rfl, rfl⟩
  | succ count ih =>
    rw [decodePairs] at h
    obtain ⟨⟨key, middle⟩, hkey, h⟩ := bind_eq_ok.mp h
    obtain ⟨⟨value, last⟩, hvalue, h⟩ := bind_eq_ok.mp h
    dsimp only at h hvalue
    split_ifs at h with hhash
    obtain ⟨first, hat, rfl, hform⟩ := hinner _ _ _ hkey
    obtain ⟨second, hat', rfl, hform'⟩ := hinner _ _ _ hvalue
    obtain ⟨encodings, entries, hall, hat'', rfl, hlen, hresult⟩ := ih hat'.le h
    refine ⟨(first, second) :: encodings, (key, value) :: entries,
      .cons ⟨hform, hform', by simpa using hhash⟩ hall, ?_, ?_, congrArg (· + 1) hlen, hresult⟩
    · rw [List.flatMap_cons, List.append_assoc]
      exact hat.append (hat'.append hat'')
    · simp only [List.flatMap_cons, List.length_append]
      omega

end Loops

/-! ## One level, read -/

section Level

variable {data : List UInt8} {form : List UInt8 → PyVal → Prop}
  {inner : ℕ → Except PyExn (PyVal × ℕ)} {offset length width stop : ℕ} {head : List UInt8}
  {value : PyVal}

/-- The low bits of a type byte bound the length in it. -/
lemma toNat_and_le (byte : UInt8) :
    (byte &&& 0x0f).toNat ≤ 15 ∧ (byte &&& 0x1f).toNat ≤ 31 := by
  constructor
  · rw [UInt8.toNat_and]
    exact Nat.and_le_right
  · rw [UInt8.toNat_and]
    exact Nat.and_le_right

/-- The type bytes with a length in them are their tag and that length. -/
lemma tag_or_length (byte : UInt8) :
    (0x80 ≤ byte → byte ≤ 0x8f → byte = 0x80 ||| UInt8.ofNat (byte &&& 0x0f).toNat) ∧
      (0x90 ≤ byte → byte ≤ 0x9f → byte = 0x90 ||| UInt8.ofNat (byte &&& 0x0f).toNat) ∧
      (0xa0 ≤ byte → byte ≤ 0xbf → byte = 0xa0 ||| UInt8.ofNat (byte &&& 0x1f).toNat) := by
  have hall : ∀ n < 256,
      (0x80 ≤ UInt8.ofNat n → UInt8.ofNat n ≤ 0x8f →
        UInt8.ofNat n = 0x80 ||| UInt8.ofNat (UInt8.ofNat n &&& 0x0f).toNat) ∧
      (0x90 ≤ UInt8.ofNat n → UInt8.ofNat n ≤ 0x9f →
        UInt8.ofNat n = 0x90 ||| UInt8.ofNat (UInt8.ofNat n &&& 0x0f).toNat) ∧
      (0xa0 ≤ UInt8.ofNat n → UInt8.ofNat n ≤ 0xbf →
        UInt8.ofNat n = 0xa0 ||| UInt8.ofNat (UInt8.ofNat n &&& 0x1f).toNat) := by
    decide +kernel
  have hbyte := hall byte.toNat byte.toNat_lt
  rwa [UInt8.ofNat_toNat] at hbyte

/-- An unsigned integer with its tag. -/
lemma stands_of_unsignedAt {byte : UInt8} (hat : IsAt data offset [byte])
    (htag : (byte, width) ∈ [((0xcc : UInt8), 1), (0xcd, 2), (0xce, 4)])
    (h : (do
      let n ← unsignedAt data (offset + 1) width
      .ok (.int n, offset + (width + 1))) = Except.ok (ε := PyExn) (value, stop)) :
    Stands data (Form form) offset value stop := by
  obtain ⟨n, hn, h⟩ := bind_eq_ok.mp h
  obtain ⟨rfl, rfl⟩ := Prod.mk.inj (Except.ok.inj h)
  obtain ⟨hfield, hlt⟩ := isAt_of_unsignedAt hn
  have hform : Form form (byte :: be width n) (.int (ofBe (be width n))) :=
    .unsigned byte _ (by rwa [length_be])
  rw [ofBe_be hlt] at hform
  refine ⟨_, hat.append hfield, ?_, hform⟩
  rw [List.length_append, length_be, List.length_singleton, Nat.add_comm 1]

/-- A signed integer with its tag. -/
lemma stands_of_signedAt {byte : UInt8} (hat : IsAt data offset [byte])
    (htag : (byte, width) ∈ [((0xd0 : UInt8), 1), (0xd1, 2), (0xd2, 4)])
    (h : (do
      let n ← signedAt data (offset + 1) width
      .ok (.int n, offset + (width + 1))) = Except.ok (ε := PyExn) (value, stop)) :
    Stands data (Form form) offset value stop := by
  obtain ⟨n, hn, h⟩ := bind_eq_ok.mp h
  obtain ⟨rfl, rfl⟩ := Prod.mk.inj (Except.ok.inj h)
  obtain ⟨field, hfield, rfl, hvalue⟩ := isAt_of_signedAt hn
  exact ⟨_, hat.append hfield, rfl, .signed byte field n htag hvalue⟩

/-- A string with its head. -/
lemma stands_of_strAt (hat : IsAt data offset head)
    (hhead : LengthHead ⟨some (0xa0, 31), some 0xd9, 0xda⟩ length head)
    (h : strAt data (offset + head.length) length = .ok (value, stop)) :
    Stands data (Form form) offset value stop := by
  obtain ⟨raw, text, hraw, rfl, htext, rfl, rfl⟩ := isAt_of_strAt h
  refine ⟨head ++ raw, hat.append hraw, ?_, .str head raw text hhead htext⟩
  rw [List.length_append, Nat.add_assoc]

/-- A byte string with its head. -/
lemma stands_of_binAt (hat : IsAt data offset head)
    (hhead : LengthHead ⟨none, some 0xc4, 0xc5⟩ length head)
    (h : binAt data (offset + head.length) length = .ok (value, stop)) :
    Stands data (Form form) offset value stop := by
  obtain ⟨raw, hraw, rfl, rfl, rfl⟩ := isAt_of_binAt h
  refine ⟨head ++ raw, hat.append hraw, ?_, .bytes head raw hhead⟩
  rw [List.length_append, Nat.add_assoc]

variable
  (hinner : ∀ start value stop, inner start = .ok (value, stop) → Stands data form start value stop)

include hinner

/-- An array with its head. -/
lemma stands_of_decodeArray (hat : IsAt data offset head)
    (hhead : LengthHead ⟨some (0x90, 15), none, 0xdc⟩ length head)
    (h : decodeArray data inner (offset + head.length) length = .ok (value, stop)) :
    Stands data (Form form) offset value stop := by
  unfold decodeArray at h
  split_ifs at h with hlong
  obtain ⟨⟨items, last⟩, hitems, h⟩ := bind_eq_ok.mp h
  obtain ⟨rfl, rfl⟩ := Prod.mk.inj (Except.ok.inj h)
  obtain ⟨encodings, hall, hat', rfl, rfl⟩ := stands_of_decodeItems hinner hat.le hitems
  refine ⟨head ++ encodings.flatten, hat.append hat', ?_, .list head encodings items hhead hall⟩
  rw [List.length_append, Nat.add_assoc]

/-- A map with its head. -/
lemma stands_of_decodeMap (hat : IsAt data offset head)
    (hhead : LengthHead ⟨some (0x80, 15), none, 0xde⟩ length head)
    (h : decodeMap data inner (offset + head.length) length = .ok (value, stop)) :
    Stands data (Form form) offset value stop := by
  unfold decodeMap at h
  split_ifs at h with hlong
  obtain ⟨⟨items, last⟩, hitems, h⟩ := bind_eq_ok.mp h
  obtain ⟨rfl, rfl⟩ := Prod.mk.inj (Except.ok.inj h)
  obtain ⟨encodings, entries, hall, hat', rfl, rfl, rfl⟩ :=
    stands_of_decodePairs hinner hat.le hitems
  refine ⟨head ++ encodings.flatMap fun encoding => encoding.1 ++ encoding.2, hat.append hat', ?_,
    .dict head encodings entries hhead hall⟩
  rw [List.length_append, Nat.add_assoc]

/-- **What one level reads** is one level of the wire form. Each branch of `_decode` is one of its
cases. -/
lemma stands_of_decodeBody (h : decodeBody data inner offset = .ok (value, stop)) :
    Stands data (Form form) offset value stop := by
  obtain ⟨byte, hbyte, h⟩ := bind_eq_ok.mp h
  have hat := isAt_of_byteAt hbyte
  obtain ⟨h15, h31⟩ := toNat_and_le byte
  obtain ⟨hmap, harray, hstr⟩ := tag_or_length byte
  have hone : UInt8.ofNat byte.toNat = byte := UInt8.ofNat_toNat
  by_cases c : byte ≤ 0x7f
  · rw [if_pos c] at h
    obtain ⟨rfl, rfl⟩ := Prod.mk.inj (Except.ok.inj h)
    exact ⟨[byte], hat, rfl, .positive byte c⟩
  rw [if_neg c] at h
  by_cases c' : byte ≤ 0x8f
  · rw [if_pos c'] at h
    exact stands_of_decodeMap hinner hat
      (.inl ⟨_, _, rfl, h15, congrArg (fun b => [b]) (hmap (by grind) c')⟩) h
  rw [if_neg c'] at h
  by_cases c : byte ≤ 0x9f
  · rw [if_pos c] at h
    exact stands_of_decodeArray hinner hat
      (.inl ⟨_, _, rfl, h15, congrArg (fun b => [b]) (harray (by grind) c)⟩) h
  rw [if_neg c] at h
  by_cases c' : byte ≤ 0xbf
  · rw [if_pos c'] at h
    exact stands_of_strAt hat
      (.inl ⟨_, _, rfl, h31, congrArg (fun b => [b]) (hstr (by grind) c')⟩) h
  rw [if_neg c'] at h
  by_cases c : byte = 0xc0
  · rw [if_pos c] at h
    obtain ⟨rfl, rfl⟩ := Prod.mk.inj (Except.ok.inj h)
    exact ⟨[byte], hat, rfl, c ▸ .none⟩
  rw [if_neg c] at h
  by_cases c : byte = 0xc2
  · rw [if_pos c] at h
    obtain ⟨rfl, rfl⟩ := Prod.mk.inj (Except.ok.inj h)
    exact ⟨[byte], hat, rfl, c ▸ .false⟩
  rw [if_neg c] at h
  by_cases c : byte = 0xc3
  · rw [if_pos c] at h
    obtain ⟨rfl, rfl⟩ := Prod.mk.inj (Except.ok.inj h)
    exact ⟨[byte], hat, rfl, c ▸ .true⟩
  rw [if_neg c] at h
  by_cases c : byte = 0xc4
  · rw [if_pos c] at h
    obtain ⟨short, hshort, h⟩ := bind_eq_ok.mp h
    have hlt := short.toNat_lt
    exact stands_of_binAt (hat.append (isAt_of_byteAt hshort))
      (.inr (.inl ⟨_, rfl, by omega, by rw [c, UInt8.ofNat_toNat]; rfl⟩)) h
  rw [if_neg c] at h
  by_cases c : byte = 0xc5
  · rw [if_pos c] at h
    obtain ⟨wide, hwide, h⟩ := bind_eq_ok.mp h
    obtain ⟨hfield, hlt⟩ := isAt_of_unsignedAt hwide
    exact stands_of_binAt (hat.append hfield) (.inr (.inr ⟨by omega, by rw [c]; rfl⟩)) h
  rw [if_neg c] at h
  by_cases c : byte = 0xca
  · rw [if_pos c] at h
    obtain ⟨bits, hbits, h⟩ := bind_eq_ok.mp h
    obtain ⟨rfl, rfl⟩ := Prod.mk.inj (Except.ok.inj h)
    obtain ⟨field, hfield, hlen, hbits⟩ := isAt_of_floatAt hbits
    exact ⟨byte :: field, hat.append hfield, by rw [List.length_cons, hlen], c ▸ .float field bits hbits⟩
  rw [if_neg c] at h
  by_cases c : byte = 0xcc
  · rw [if_pos c] at h
    obtain ⟨n, hn, h⟩ := bind_eq_ok.mp h
    obtain ⟨rfl, rfl⟩ := Prod.mk.inj (Except.ok.inj h)
    have hval : ofBe [n] = n.toNat := by simp [ofBe]
    exact ⟨byte :: [n], hat.append (isAt_of_byteAt hn), rfl,
      c ▸ hval ▸ .unsigned 0xcc [n] (by simp)⟩
  rw [if_neg c] at h
  by_cases c : byte = 0xcd
  · rw [if_pos c] at h
    exact stands_of_unsignedAt hat (by simp [c]) h
  rw [if_neg c] at h
  by_cases c : byte = 0xce
  · rw [if_pos c] at h
    exact stands_of_unsignedAt hat (by simp [c]) h
  rw [if_neg c] at h
  by_cases c : byte = 0xd0
  · rw [if_pos c] at h
    exact stands_of_signedAt hat (by simp [c]) h
  rw [if_neg c] at h
  by_cases c : byte = 0xd1
  · rw [if_pos c] at h
    exact stands_of_signedAt hat (by simp [c]) h
  rw [if_neg c] at h
  by_cases c : byte = 0xd2
  · rw [if_pos c] at h
    exact stands_of_signedAt hat (by simp [c]) h
  rw [if_neg c] at h
  by_cases c : byte = 0xd9
  · rw [if_pos c] at h
    obtain ⟨short, hshort, h⟩ := bind_eq_ok.mp h
    have hlt := short.toNat_lt
    exact stands_of_strAt (hat.append (isAt_of_byteAt hshort))
      (.inr (.inl ⟨_, rfl, by omega, by rw [c, UInt8.ofNat_toNat]; rfl⟩)) h
  rw [if_neg c] at h
  by_cases c : byte = 0xda
  · rw [if_pos c] at h
    obtain ⟨wide, hwide, h⟩ := bind_eq_ok.mp h
    obtain ⟨hfield, hlt⟩ := isAt_of_unsignedAt hwide
    exact stands_of_strAt (hat.append hfield) (.inr (.inr ⟨by omega, by rw [c]; rfl⟩)) h
  rw [if_neg c] at h
  by_cases c : byte = 0xdc
  · rw [if_pos c] at h
    obtain ⟨wide, hwide, h⟩ := bind_eq_ok.mp h
    obtain ⟨hfield, hlt⟩ := isAt_of_unsignedAt hwide
    exact stands_of_decodeArray hinner (hat.append hfield)
      (.inr (.inr ⟨by omega, by rw [c]; rfl⟩)) h
  rw [if_neg c] at h
  by_cases c : byte = 0xde
  · rw [if_pos c] at h
    obtain ⟨wide, hwide, h⟩ := bind_eq_ok.mp h
    obtain ⟨hfield, hlt⟩ := isAt_of_unsignedAt hwide
    exact stands_of_decodeMap hinner (hat.append hfield)
      (.inr (.inr ⟨by omega, by rw [c]; rfl⟩)) h
  rw [if_neg c] at h
  split_ifs at h with c
  obtain ⟨rfl, rfl⟩ := Prod.mk.inj (Except.ok.inj h)
  exact ⟨[byte], hat, rfl, .negative byte c⟩

end Level

/-! ## Encodings are read -/

section Converse

variable {data : List UInt8} {form : List UInt8 → PyVal → Prop}
  {inner : ℕ → Except PyExn (PyVal × ℕ)} {start offset : ℕ} {encoding : List UInt8} {value : PyVal}

/-- No encoding is empty. -/
lemma Form.pos (h : Form form encoding value) : 0 < encoding.length := by
  cases h with
  | str head raw text hhead _ =>
    have := hhead.pos
    rw [List.length_append]
    omega
  | bytes head raw hhead =>
    have := hhead.pos
    rw [List.length_append]
    omega
  | list head encodings items hhead _ =>
    have := hhead.pos
    rw [List.length_append]
    omega
  | dict head encodings entries hhead _ =>
    have := hhead.pos
    rw [List.length_append]
    omega
  | _ => simp

variable (hpos : ∀ encoding value, form encoding value → 0 < encoding.length)

include hpos in
/-- There are at least as many bytes as items. -/
lemma length_le_flatten {encodings : List (List UInt8)} {items : List PyVal}
    (hall : List.Forall₂ form encodings items) : items.length ≤ encodings.flatten.length := by
  induction hall with
  | nil => exact le_rfl
  | cons h _ ih =>
    have := hpos _ _ h
    rw [List.length_cons, List.flatten_cons, List.length_append]
    omega

include hpos in
/-- There are at least twice as many bytes as entries. -/
lemma length_le_flatMap {encodings : List (List UInt8 × List UInt8)}
    {entries : List (PyVal × PyVal)}
    (hall : List.Forall₂ (fun encoding entry => form encoding.1 entry.1 ∧
      form encoding.2 entry.2 ∧ entry.1.isContainer = false) encodings entries) :
    entries.length * 2 ≤ (encodings.flatMap fun encoding => encoding.1 ++ encoding.2).length := by
  induction hall with
  | nil => exact le_rfl
  | cons h _ ih =>
    have := hpos _ _ h.1
    have := hpos _ _ h.2.1
    rw [List.length_cons, List.flatMap_cons, List.length_append, List.length_append]
    omega

variable (hinner : ∀ start encoding value, form encoding value → IsAt data start encoding →
  inner start = .ok (value, start + encoding.length))

include hinner

/-- Items that stand one after the other are read. -/
lemma decodeItems_of_forall {encodings : List (List UInt8)} {items : List PyVal}
    (hall : List.Forall₂ form encodings items) (hat : IsAt data start encodings.flatten) :
    decodeItems inner items.length start = .ok (items, start + encodings.flatten.length) := by
  induction hall generalizing start with
  | nil => rfl
  | cons h _ ih =>
    rw [List.flatten_cons] at hat
    rw [List.length_cons, decodeItems, hinner _ _ _ h hat.left, ok_bind]
    dsimp only
    rw [ih hat.right, ok_bind, List.flatten_cons, List.length_append, Nat.add_assoc]

/-- Entries that stand one after the other are read, and stored in that order. -/
lemma decodePairs_of_forall {encodings : List (List UInt8 × List UInt8)}
    {entries : List (PyVal × PyVal)} (stored : List (PyVal × PyVal))
    (hall : List.Forall₂ (fun encoding entry => form encoding.1 entry.1 ∧
      form encoding.2 entry.2 ∧ entry.1.isContainer = false) encodings entries)
    (hat : IsAt data start (encodings.flatMap fun encoding => encoding.1 ++ encoding.2)) :
    decodePairs inner entries.length start stored =
      .ok (entries.foldl (fun stored entry => dictSet entry.1 entry.2 stored) stored,
        start + (encodings.flatMap fun encoding => encoding.1 ++ encoding.2).length) := by
  induction hall generalizing start stored with
  | nil => rfl
  | cons h _ ih =>
    obtain ⟨hkey, hvalue, hhash⟩ := h
    rw [List.flatMap_cons] at hat
    rw [List.length_cons, decodePairs, hinner _ _ _ hkey hat.left.left, ok_bind]
    dsimp only
    rw [hinner _ _ _ hvalue hat.left.right, ok_bind]
    dsimp only
    have hmore := hat.right
    rw [List.length_append, ← Nat.add_assoc] at hmore
    rw [hhash, if_neg Bool.false_ne_true, ih _ hmore, List.foldl_cons, List.flatMap_cons]
    simp only [List.length_append, Nat.add_assoc]

include hpos

/-- **An encoding is read** where it stands, one level of it. -/
lemma decodeBody_of_form (h : Form form encoding value) (hat : IsAt data offset encoding) :
    decodeBody data inner offset = .ok (value, offset + encoding.length) := by
  cases h with
  | none => simp [decodeBody, byteAt_of_isAt hat]
  | false => simp [decodeBody, byteAt_of_isAt hat]
  | true => simp [decodeBody, byteAt_of_isAt hat]
  | positive byte hle =>
    rw [decodeBody, byteAt_of_isAt hat, ok_bind, if_pos hle]
    rfl
  | negative byte hge =>
    rw [decodeBody, byteAt_of_isAt hat, ok_bind]
    repeat rw [if_neg (by grind)]
    rw [if_pos hge]
    rfl
  | unsigned tag field htag =>
    rw [decodeBody, byteAt_of_isAt hat, ok_bind]
    have hread : unsignedAt data (offset + 1) field.length = .ok (ofBe field) := by
      rw [unsignedAt, fieldAt_of_isAt hat.tail rfl, ok_bind, unpack, if_pos rfl]
    simp only [List.mem_cons, Prod.mk.injEq, List.not_mem_nil, or_false] at htag
    rcases htag with ⟨rfl, hlen⟩ | ⟨rfl, hlen⟩ | ⟨rfl, hlen⟩
    · obtain ⟨byte, rfl⟩ := List.length_eq_one_iff.mp hlen
      simp [byteAt_of_isAt hat.tail, ofBe]
    · rw [hlen] at hread
      simp [hread, hlen]
    · rw [hlen] at hread
      simp [hread, hlen]
  | signed tag field n htag hn =>
    rw [decodeBody, byteAt_of_isAt hat, ok_bind]
    have hread : signedAt data (offset + 1) field.length = .ok n := by
      rw [signedAt, fieldAt_of_isAt hat.tail rfl, ok_bind, hn]
    simp only [List.mem_cons, Prod.mk.injEq, List.not_mem_nil, or_false] at htag
    rcases htag with ⟨rfl, hlen⟩ | ⟨rfl, hlen⟩ | ⟨rfl, hlen⟩
    · rw [hlen] at hread
      simp [hread, hlen]
    · rw [hlen] at hread
      simp [hread, hlen]
    · rw [hlen] at hread
      simp [hread, hlen]
  | float field bits hbits =>
    have hlen : field.length = 4 := by
      obtain ⟨single, hsingle, -⟩ := bind_eq_ok.mp hbits
      unfold unpack at hsingle
      split_ifs at hsingle with hlen
      exact hlen
    have hread : floatAt data (offset + 1) = .ok bits := by
      rw [floatAt, fieldAt_of_isAt hat.tail hlen, ok_bind, hbits]
    rw [decodeBody, byteAt_of_isAt hat, ok_bind]
    simp [hread, hlen]
  | str head raw text hhead htext =>
    rw [decodeBody_strHead hhead hat.left, strAt, boundedEnd_of_isAt hat.right, ok_bind,
      hat.right.slice_eq, htext, ok_bind, List.length_append, Nat.add_assoc]
  | bytes head raw hhead =>
    rw [decodeBody_binHead hhead hat.left, binAt, boundedEnd_of_isAt hat.right, ok_bind,
      hat.right.slice_eq, List.length_append, Nat.add_assoc]
  | list head encodings items hhead hall =>
    have hle := hat.right.le
    have hlen := length_le_flatten hpos hall
    rw [decodeBody_arrayHead hhead hat.left, decodeArray, if_neg (by omega),
      decodeItems_of_forall hinner hall hat.right, ok_bind, List.length_append, Nat.add_assoc]
  | dict head encodings entries hhead hall =>
    have hle := hat.right.le
    have hlen := length_le_flatMap hpos hall
    rw [decodeBody_mapHead hhead hat.left, decodeMap, if_neg (by omega),
      decodePairs_of_forall hinner [] hall hat.right, ok_bind, List.length_append, Nat.add_assoc]

end Converse

/-! ## Every level -/

/-- Encodings are not empty. -/
lemma Encoded.pos {levels : ℕ} {encoding : List UInt8} {value : PyVal}
    (h : Encoded levels encoding value) : 0 < encoding.length := by
  cases levels with
  | zero => exact h.elim
  | succ levels => exact Form.pos h

/-- **What is read at an offset is an encoding that stands there**, and every encoding that stands
there is read.

**Proof sketch.** Induction on the levels; one level is `stands_of_decodeBody` one way and
`decodeBody_of_form` the other. -/
theorem decodeLevels_iff {data : List UInt8} {levels start stop : ℕ} {value : PyVal} :
    decodeLevels data levels start = .ok (value, stop) ↔
      Stands data (Encoded levels) start value stop := by
  induction levels generalizing start stop value with
  | zero =>
    refine iff_of_false (fun h => by cases h) ?_
    rintro ⟨encoding, -, -, hform⟩
    exact hform
  | succ levels ih =>
    rw [decodeLevels]
    constructor
    · exact stands_of_decodeBody fun start value stop h => ih.mp h
    · rintro ⟨encoding, hat, rfl, hform⟩
      exact decodeBody_of_form (fun encoding value h => h.pos)
        (fun start encoding value h hat => ih.mpr ⟨encoding, hat, rfl, h⟩) hform hat

/-! ## Errors -/

/-- A computation that raises nothing but `ValueError` and what `unpackb` makes one of. -/
def Refuses {α : Type} (x : Except PyExn α) : Prop :=
  ∀ e, x = .error e → isValueError e = true ∨ isFramingError e = true

section Refuses

variable {α β : Type} {x y : Except PyExn α} {f : α → Except PyExn β}

lemma Refuses.ok (a : α) : Refuses (.ok a : Except PyExn α) := fun _ h => by cases h

lemma Refuses.valueError (message : String) :
    Refuses (.error (.valueError message) : Except PyExn α) := by
  intro e h
  obtain rfl := Except.error.inj h
  exact .inl rfl

lemma Refuses.framing {e : PyExn} (he : isFramingError e = true) :
    Refuses (.error e : Except PyExn α) := by
  intro e' h
  obtain rfl := Except.error.inj h
  exact .inr he

/-- One computation after the other. -/
lemma Refuses.bind (hx : Refuses x) (hf : ∀ a, Refuses (f a)) : Refuses (x >>= f) := by
  intro e h
  cases x with
  | error e' =>
    obtain rfl := Except.error.inj h
    exact hx e' rfl
  | ok a => exact hf a e h

lemma Refuses.ite {p : Prop} [Decidable p] (hx : Refuses x) (hy : Refuses y) :
    Refuses (if p then x else y) := by
  split_ifs
  · exact hx
  · exact hy

variable (data : List UInt8) (offset width length : ℕ)

lemma refuses_byteAt : Refuses (byteAt data offset) := by
  unfold byteAt
  split
  · exact .ok _
  · exact .framing rfl

lemma refuses_unsignedAt : Refuses (unsignedAt data offset width) :=
  .bind (.ite (.ok _) (.framing rfl)) fun _ => .ite (.ok _) (.framing rfl)

lemma refuses_signedAt : Refuses (signedAt data offset width) :=
  .bind (.ite (.ok _) (.framing rfl)) fun _ => .bind (.ite (.ok _) (.framing rfl)) fun _ => .ok _

lemma refuses_floatAt : Refuses (floatAt data offset) :=
  .bind (.ite (.ok _) (.framing rfl)) fun _ => .bind (.ite (.ok _) (.framing rfl)) fun _ => .ok _

lemma refuses_strAt : Refuses (strAt data offset length) := by
  refine .bind (.ite (.valueError _) (.ok _)) fun stop => .bind ?_ fun _ => .ok _
  unfold decodeStr decodeUtf8
  split
  · exact .ok _
  · intro e h
    obtain rfl := Except.error.inj h
    exact .inl rfl

lemma refuses_binAt : Refuses (binAt data offset length) :=
  .bind (.ite (.valueError _) (.ok _)) fun _ => .ok _

variable {inner : ℕ → Except PyExn (PyVal × ℕ)} (hinner : ∀ start, Refuses (inner start))

include hinner

lemma refuses_decodeItems (count start : ℕ) : Refuses (decodeItems inner count start) := by
  induction count generalizing start with
  | zero => exact .ok _
  | succ count ih => exact .bind (hinner _) fun _ => .bind (ih _) fun _ => .ok _

lemma refuses_decodePairs (count start : ℕ) (stored : List (PyVal × PyVal)) :
    Refuses (decodePairs inner count start stored) := by
  induction count generalizing start stored with
  | zero => exact .ok _
  | succ count ih =>
    exact .bind (hinner _) fun _ => .bind (hinner _) fun _ => .ite (.valueError _) (ih _ _)

lemma refuses_decodeArray : Refuses (decodeArray data inner offset length) :=
  .ite (.valueError _) (.bind (refuses_decodeItems hinner _ _) fun _ => .ok _)

lemma refuses_decodeMap : Refuses (decodeMap data inner offset length) :=
  .ite (.valueError _) (.bind (refuses_decodePairs hinner _ _ _) fun _ => .ok _)

/-- One level raises nothing else, if that holds one level below. -/
lemma refuses_decodeBody : Refuses (decodeBody data inner offset) := by
  refine .bind (refuses_byteAt data offset) fun byte => ?_
  refine .ite (.ok _) ?_
  refine .ite (refuses_decodeMap _ _ _ hinner) ?_
  refine .ite (refuses_decodeArray _ _ _ hinner) ?_
  refine .ite (refuses_strAt _ _ _) ?_
  refine .ite (.ok _) (.ite (.ok _) (.ite (.ok _) ?_))
  refine .ite (.bind (refuses_byteAt _ _) fun _ => refuses_binAt _ _ _) ?_
  refine .ite (.bind (refuses_unsignedAt _ _ _) fun _ => refuses_binAt _ _ _) ?_
  refine .ite (.bind (refuses_floatAt _ _) fun _ => .ok _) ?_
  refine .ite (.bind (refuses_byteAt _ _) fun _ => .ok _) ?_
  refine .ite (.bind (refuses_unsignedAt _ _ _) fun _ => .ok _) ?_
  refine .ite (.bind (refuses_unsignedAt _ _ _) fun _ => .ok _) ?_
  refine .ite (.bind (refuses_signedAt _ _ _) fun _ => .ok _) ?_
  refine .ite (.bind (refuses_signedAt _ _ _) fun _ => .ok _) ?_
  refine .ite (.bind (refuses_signedAt _ _ _) fun _ => .ok _) ?_
  refine .ite (.bind (refuses_byteAt _ _) fun _ => refuses_strAt _ _ _) ?_
  refine .ite (.bind (refuses_unsignedAt _ _ _) fun _ => refuses_strAt _ _ _) ?_
  refine .ite (.bind (refuses_unsignedAt _ _ _) fun _ => refuses_decodeArray _ _ _ hinner) ?_
  refine .ite (.bind (refuses_unsignedAt _ _ _) fun _ => refuses_decodeMap _ _ _ hinner) ?_
  refine .ite (.ok _) ?_
  unfold unsupportedByteError
  split
  · exact .valueError _
  · exact .valueError _

end Refuses

/-- The decoder raises nothing else, at every level. -/
lemma refuses_decodeLevels (data : List UInt8) (levels start : ℕ) :
    Refuses (decodeLevels data levels start) := by
  induction levels generalizing start with
  | zero => exact .valueError _
  | succ levels ih => exact refuses_decodeBody data start ih

/-! ## Calls inside calls -/

/-- `_decode(data, offset, depth)` as the source has it, for at most `calls` calls inside each
other; `deeper` stands for the calls beyond them. -/
def unrolled (data : List UInt8) (deeper : ℕ → ℕ → Except PyExn (PyVal × ℕ)) :
    ℕ → ℕ → ℕ → Except PyExn (PyVal × ℕ)
  | 0, offset, depth => deeper offset depth
  | calls + 1, offset, depth =>
    if depth > MAX_DEPTH then .error nestingTooDeep
    else decodeBody data (fun offset => unrolled data deeper calls offset (depth + 1)) offset

/-- **No call is deeper than the limit allows**: what deeper calls would return does not matter. -/
lemma unrolled_eq (data : List UInt8) (deeper : ℕ → ℕ → Except PyExn (PyVal × ℕ))
    {calls depth : ℕ} (hdepth : depth ≤ MAX_DEPTH + 1) (hcalls : MAX_DEPTH + 2 ≤ calls + depth)
    (offset : ℕ) : unrolled data deeper calls offset depth = decode data offset depth := by
  induction calls generalizing offset depth with
  | zero => omega
  | succ calls ih =>
    rw [unrolled, decode]
    by_cases hdeep : depth > MAX_DEPTH
    · have hlevels : MAX_DEPTH + 1 - depth = 0 := by omega
      rw [if_pos hdeep, hlevels, decodeLevels]
    · have hlevels : MAX_DEPTH + 1 - depth = MAX_DEPTH + 1 - (depth + 1) + 1 := by omega
      have hinner : (fun offset => unrolled data deeper calls offset (depth + 1)) =
          decodeLevels data (MAX_DEPTH + 1 - (depth + 1)) := by
        funext offset
        exact ih (by omega) (by omega) offset
      rw [if_neg hdeep, hlevels, decodeLevels, hinner]

/-! ## The whole decoder -/

/-- What `_decode` reads from the whole of the data, `unpackb` returns. -/
lemma unpackb_iff {data : List UInt8} {value : PyVal} :
    unpackb data = .ok value ↔ Encoded (MAX_DEPTH + 1) data value := by
  have hlevels : unpackb data = .ok value ↔
      decodeLevels data (MAX_DEPTH + 1) 0 = .ok (value, data.length) := by
    unfold unpackb decode
    rw [Nat.sub_zero]
    cases decodeLevels data (MAX_DEPTH + 1) 0 with
    | error e => simp
    | ok read =>
      obtain ⟨result, stop⟩ := read
      by_cases hstop : stop = data.length
      · simp [hstop]
      · simp [hstop]
  rw [hlevels, decodeLevels_iff]
  constructor
  · rintro ⟨encoding, ⟨before, after, hdata, hbefore⟩, hlen, hform⟩
    -- the encoding is all of the data
    rw [List.length_eq_zero_iff] at hbefore
    obtain rfl := hbefore
    rw [List.nil_append] at hdata
    have hall := congrArg List.length hdata
    rw [List.length_append] at hall
    have hafter : after = [] := List.length_eq_zero_iff.mp (by omega)
    rw [hafter, List.append_nil] at hdata
    exact hdata ▸ hform
  · exact fun h => ⟨data, isAt_self data, (Nat.zero_add _).symm, h⟩

/-- **The decoder is total.** It returns a value exactly for the encodings of that value, raises
nothing but `ValueError` for other bytes, takes no slice that is shorter than its length field says,
and makes no call deeper than the limit. -/
theorem unpackb_total (data : List UInt8) :
    (∀ value, unpackb data = .ok value ↔ Encoded (MAX_DEPTH + 1) data value) ∧
      (∀ e, unpackb data = .error e → isValueError e = true) ∧
      (∀ start length stop, boundedEnd data start length = .ok stop →
        (slice data start stop).length = length) ∧
      ∀ deeper, unrolled data deeper (MAX_DEPTH + 2) 0 0 = decode data 0 0 := by
  refine ⟨fun value => unpackb_iff, fun e h => ?_, fun start length stop h => ?_,
    fun deeper => unrolled_eq data deeper (by omega) (by omega) 0⟩
  · unfold unpackb decode at h
    split at h
    · next e' hdecode =>
      obtain rfl := Except.error.inj h
      split_ifs with hframing
      · rfl
      · exact (refuses_decodeLevels data _ _ e' hdecode).resolve_right hframing
    · split_ifs at h
      obtain rfl := Except.error.inj h
      rfl
  · unfold boundedEnd at h
    split_ifs at h with hend
    obtain rfl := Except.ok.inj h
    rw [length_slice _ (by omega)]
    omega

end ChuMicro.Msgpack
