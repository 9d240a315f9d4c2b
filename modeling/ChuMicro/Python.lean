import ChuMicro.Lib.Bytes
import ChuMicro.Lib.Ieee754

/-!
# The Python built-ins the libraries rest on

Built-in exceptions, `struct` packing of big-endian numbers, text and its UTF-8 form, and the
number formats used in error texts, as CPython documents them. Byte strings are `List UInt8`.

## Main definitions

* `PyExn` — the built-in exceptions.
* `pack`, `unpack` — `struct.pack` and `struct.unpack` of one unsigned big-endian integer.
* `packSigned`, `packFloat` — the same for signed integers and for floats stored in four bytes.
* `encodeUtf8`, `decodeUtf8` — `str.encode("utf-8")` and `str(data, "utf-8")` for text without lone
  surrogates.
* `PyStr`, `encodeStr`, `decodeStr` — the same for any `str`.
-/

namespace ChuMicro

/-- Built-in exceptions, with the data their texts are made of. `user` stands for whatever
application code raises. -/
inductive PyExn where
  | valueError (message : String)
  | typeError (message : String)
  | overflowError (message : String)
  | keyError (message : String)
  | indexError
  | structError
  | unicodeDecodeError (object : List UInt8)
  | unicodeEncodeError
  | attributeError
  | memoryError
  | osError (errno : ℕ)
  | user (tag : ℕ)
  deriving DecidableEq, Repr

/-- The exceptions that `except ValueError` catches: `UnicodeError` is one of them. -/
def isValueError : PyExn → Bool
  | .valueError _ | .unicodeDecodeError _ | .unicodeEncodeError => true
  | _ => false

/-- `errno.EAGAIN`. -/
def EAGAIN : ℕ := 11

/-! ## Computations that may raise -/

section Except

variable {ε α β : Type}

@[simp] lemma ok_bind (a : α) (f : α → Except ε β) : (Except.ok a >>= f) = f a := rfl

@[simp] lemma error_bind (e : ε) (f : α → Except ε β) :
    ((Except.error e : Except ε α) >>= f) = .error e := rfl

/-- A sequence of two computations returns when both do. -/
lemma bind_eq_ok {x : Except ε α} {f : α → Except ε β} {b : β} :
    (x >>= f) = .ok b ↔ ∃ a, x = .ok a ∧ f a = .ok b := by
  cases x with
  | error e => simp
  | ok a => simp

end Except

/-! ## `struct` -/

/-- `struct.pack` of `value` as one unsigned big-endian integer of `width` bytes. -/
def pack (width value : ℕ) : Except PyExn (List UInt8) :=
  if value < 256 ^ width then .ok (Bytes.be width value) else .error .structError

/-- `struct.unpack` of one unsigned big-endian integer of `width` bytes: the buffer must have
exactly that many. -/
def unpack (width : ℕ) (data : List UInt8) : Except PyExn ℕ :=
  if data.length = width then .ok (Bytes.ofBe data) else .error .structError

/-- An integer that two bytes hold. -/
lemma pack_two {value : ℕ} (h : value ≤ 0xffff) : pack 2 value = .ok (Bytes.be 2 value) :=
  if_pos (by omega)

/-- A packed integer has the width it was packed in. -/
lemma length_of_pack {width value : ℕ} {data : List UInt8} (h : pack width value = .ok data) :
    data.length = width := by
  unfold pack at h
  split at h
  · cases h
    exact Bytes.length_be _ _
  · cases h

/-- What was packed unpacks to the same value. -/
lemma unpack_of_pack {width value : ℕ} {data : List UInt8} (h : pack width value = .ok data) :
    unpack width data = .ok value := by
  unfold pack at h
  split at h
  · rename_i hv
    cases h
    simp [unpack, Bytes.ofBe_be hv]
  · cases h

/-- `struct.pack` of `value` as one signed big-endian integer of `width` bytes, in two's
complement. -/
def packSigned (width : ℕ) (value : ℤ) : Except PyExn (List UInt8) :=
  if -(256 ^ width : ℤ) ≤ 2 * value ∧ 2 * value < (256 ^ width : ℤ) then
    .ok (Bytes.be width (value % 256 ^ width).toNat)
  else .error .structError

/-- `struct.unpack` of one signed big-endian integer of `width` bytes. -/
def unpackSigned (width : ℕ) (data : List UInt8) : Except PyExn ℤ := do
  let value ← unpack width data
  .ok (if 2 * value < 256 ^ width then (value : ℤ) else (value : ℤ) - 256 ^ width)

/-- A Python `float` rounded to single precision. -/
def narrow (value : BitVec 64) : BitVec 32 :=
  Ieee754.convert (F := Ieee754.binary64) Ieee754.binary32 value

/-- A single-precision number as a Python `float`. -/
def widen (single : BitVec 32) : BitVec 64 :=
  Ieee754.convert (F := Ieee754.binary32) Ieee754.binary64 single

/-- `struct.pack(">f", value)`: a finite value that rounds to infinity is refused. -/
def packFloat (value : BitVec 64) : Except PyExn (List UInt8) :=
  if Ieee754.isInf (F := Ieee754.binary32) (narrow value)
      && !Ieee754.isInf (F := Ieee754.binary64) value then
    .error (.overflowError "float too large to pack with f format")
  else .ok (Bytes.be 4 (narrow value).toNat)

/-- `struct.unpack(">f", data)`. -/
def unpackFloat (data : List UInt8) : Except PyExn (BitVec 64) := do
  let bits ← unpack 4 data
  .ok (widen (BitVec.ofNat 32 bits))

/-- What Python's `==` compares two numbers by: booleans are the integers 0 and 1, integers and
floats compare by exact value, an infinity equals itself and a NaN nothing at all. -/
inductive Number where
  | finite (value : ℚ)
  | infinite (negative : Bool)
  deriving DecidableEq

/-- The number that a float is, unless it is a NaN. -/
def floatNumber? (bits : BitVec 64) : Option Number :=
  if Ieee754.isNan (F := Ieee754.binary64) bits then none
  else if Ieee754.isInf (F := Ieee754.binary64) bits then
    some (.infinite (Ieee754.sign (F := Ieee754.binary64) bits == 1))
  else some (.finite (Ieee754.toRat (F := Ieee754.binary64) bits))

/-- A packed signed integer has the width it was packed in. -/
lemma length_of_packSigned {width : ℕ} {value : ℤ} {data : List UInt8}
    (h : packSigned width value = .ok data) : data.length = width := by
  unfold packSigned at h
  split at h
  · cases h
    exact Bytes.length_be _ _
  · cases h

/-- A packed float has four bytes. -/
lemma length_of_packFloat {value : BitVec 64} {data : List UInt8}
    (h : packFloat value = .ok data) : data.length = 4 := by
  unfold packFloat at h
  split at h
  · cases h
  · cases h
    exact Bytes.length_be _ _

/-- What was packed signed unpacks to the same value. -/
lemma unpackSigned_of_packSigned {width : ℕ} {value : ℤ} {data : List UInt8}
    (h : packSigned width value = .ok data) : unpackSigned width data = .ok value := by
  unfold packSigned at h
  split at h
  case isFalse => cases h
  case isTrue hv =>
    cases h
    have hpos : (0 : ℤ) < 256 ^ width := by positivity
    have hmod : (value % 256 ^ width).toNat < 256 ^ width := by
      have hlt := Int.emod_lt_of_pos value hpos
      have hge := Int.emod_nonneg value hpos.ne'
      exact_mod_cast (Int.toNat_lt hge).mpr (by exact_mod_cast hlt)
    have hcast : ((value % 256 ^ width).toNat : ℤ) = value % 256 ^ width :=
      Int.toNat_of_nonneg (Int.emod_nonneg value hpos.ne')
    simp only [unpackSigned, unpack, Bytes.length_be, if_true, Bytes.ofBe_be hmod, ok_bind, hcast]
    -- a value of either sign is its residue, or its residue less one period
    by_cases hneg : 0 ≤ value
    · have hres : value % 256 ^ width = value := Int.emod_eq_of_lt hneg (by omega)
      rw [if_pos (by zify; rw [hcast, hres]; exact hv.2), hres]
    · have hres : value % 256 ^ width = value + 256 ^ width := by
        rw [← Int.add_emod_right]
        exact Int.emod_eq_of_lt (by omega) (by omega)
      rw [if_neg (by zify; rw [hcast, hres]; omega), hres]
      simp

/-- What was packed as a float unpacks to its single-precision rounding. -/
lemma unpackFloat_of_packFloat {value : BitVec 64} {data : List UInt8}
    (h : packFloat value = .ok data) : unpackFloat data = .ok (widen (narrow value)) := by
  unfold packFloat at h
  split at h
  · cases h
  · cases h
    have hofBe : Bytes.ofBe (Bytes.be 4 (narrow value).toNat) = (narrow value).toNat :=
      Bytes.ofBe_be (narrow value).isLt
    simp [unpackFloat, unpack, hofBe]

/-! ## Text -/

/-- `value.encode("utf-8")`. A Lean string has no lone surrogates, so this cannot fail. -/
def encodeUtf8 (value : String) : List UInt8 := value.toList.flatMap String.utf8EncodeChar

/-- `str(data, "utf-8")`. -/
def decodeUtf8 (data : List UInt8) : Except PyExn String :=
  match String.fromUTF8? data.toByteArray with
  | some text => .ok text
  | none => .error (.unicodeDecodeError data)

/-- **Text survives UTF-8.** -/
lemma decodeUtf8_encodeUtf8 (value : String) : decodeUtf8 (encodeUtf8 value) = .ok value := by
  have h : (encodeUtf8 value).toByteArray = value.toByteArray := String.utf8Encode_toList
  have hvalid : String.fromUTF8? value.toByteArray = some value := by
    rw [String.fromUTF8?, dif_pos value.isValidUTF8]
    rfl
  simp only [decodeUtf8, h, hvalid]

/-- A Python `str`: any sequence of code points, lone surrogates included. -/
abbrev PyStr := List (Fin 0x110000)

/-- The code points of text without lone surrogates. -/
def pyStr (value : String) : PyStr :=
  value.toList.map fun c => ⟨c.toNat, by
    rcases c.valid with h | h
    · exact lt_trans h (by decide)
    · exact h.2⟩

/-- The code point as a character, which a surrogate is not. -/
def charOf? (point : Fin 0x110000) : Option Char :=
  if h : point.val.isValidChar then some (Char.ofNatAux point h) else none

/-- `value.encode("utf-8")`. -/
def encodeStr (value : PyStr) : Except PyExn (List UInt8) :=
  match value.mapM charOf? with
  | some chars => .ok (encodeUtf8 (String.ofList chars))
  | none => .error .unicodeEncodeError

/-- `str(data, "utf-8")`, as code points. -/
def decodeStr (data : List UInt8) : Except PyExn PyStr := (decodeUtf8 data).map pyStr

/-- A code point that is a character is the code point of that character. -/
lemma toNat_of_charOf? {point : Fin 0x110000} {c : Char} (h : charOf? point = some c) :
    c.toNat = point.val := by
  by_cases hvalid : point.val.isValidChar
  · rw [charOf?, dif_pos hvalid] at h
    cases h
    rfl
  · rw [charOf?, dif_neg hvalid] at h
    cases h

/-- **A `str` that encodes decodes to itself.** -/
lemma decodeStr_of_encodeStr {value : PyStr} {data : List UInt8}
    (h : encodeStr value = .ok data) : decodeStr data = .ok value := by
  unfold encodeStr at h
  split at h
  case h_2 => cases h
  case h_1 chars hchars =>
    cases h
    rw [decodeStr, decodeUtf8_encodeUtf8]
    simp only [Except.map, pyStr, String.toList_ofList, Except.ok.injEq]
    induction value generalizing chars with
    | nil =>
      simp only [List.mapM_nil, Option.pure_def, Option.some.injEq] at hchars
      simp [← hchars]
    | cons point points ih =>
      simp only [List.mapM_cons, Option.pure_def, Option.bind_eq_bind, Option.bind_eq_some_iff,
        Option.some.injEq] at hchars
      obtain ⟨c, hc, cs, hcs, rfl⟩ := hchars
      simp only [List.map_cons, List.cons.injEq, ih cs hcs, and_true]
      exact Fin.ext (toNat_of_charOf? hc)

/-- Bytes that are UTF-8 are the UTF-8 form of the text they decode to. -/
lemma encodeUtf8_of_decodeUtf8 {data : List UInt8} {text : String}
    (h : decodeUtf8 data = .ok text) : encodeUtf8 text = data := by
  have hbytes : (encodeUtf8 text).toByteArray = text.toByteArray := String.utf8Encode_toList
  rw [decodeUtf8] at h
  split at h
  case h_2 => cases h
  case h_1 text' htext =>
    cases h
    rw [String.fromUTF8?] at htext
    split at htext
    case isFalse => cases htext
    case isTrue hvalid =>
      cases htext
      have hdata := congrArg (fun b => b.data.toList) hbytes
      simpa [String.fromUTF8] using hdata

/-- A character is the character of its code point. -/
lemma charOf?_toNat (c : Char) (h : c.toNat < 0x110000) : charOf? ⟨c.toNat, h⟩ = some c := by
  have hvalid : c.toNat.isValidChar := c.valid
  have hsome : charOf? ⟨c.toNat, h⟩ = some (Char.ofNatAux c.toNat hvalid) := by
    rw [charOf?]
    exact dif_pos hvalid
  rw [hsome, Char.toNat_inj.mp (toNat_of_charOf? hsome)]

/-- Text without lone surrogates encodes. -/
lemma encodeStr_pyStr (value : String) : encodeStr (pyStr value) = .ok (encodeUtf8 value) := by
  have hmap : (pyStr value).mapM charOf? = some value.toList := by
    rw [pyStr]
    induction value.toList with
    | nil => rfl
    | cons c rest ih => simp [charOf?_toNat, ih]
  rw [encodeStr, hmap]
  simp

/-- Of two `str` that encode, so does their concatenation. -/
lemma encodeStr_append {value value' : PyStr} {data data' : List UInt8}
    (h : encodeStr value = .ok data) (h' : encodeStr value' = .ok data') :
    ∃ data, encodeStr (value ++ value') = .ok data := by
  unfold encodeStr at h h' ⊢
  cases hmap : value.mapM charOf? with
  | none => rw [hmap] at h; cases h
  | some chars =>
    cases hmap' : value'.mapM charOf? with
    | none => rw [hmap'] at h'; cases h'
    | some chars' =>
      have happend : (value ++ value').mapM charOf? = some (chars ++ chars') := by
        rw [List.mapM_append, hmap, hmap']
        rfl
      rw [happend]
      exact ⟨_, rfl⟩

/-- **Bytes that decode to a `str` are its encoding.** -/
lemma encodeStr_of_decodeStr {data : List UInt8} {value : PyStr}
    (h : decodeStr data = .ok value) : encodeStr value = .ok data := by
  rw [decodeStr] at h
  cases htext : decodeUtf8 data with
  | error e => rw [htext] at h; cases h
  | ok text =>
    rw [htext] at h
    cases h
    rw [encodeStr_pyStr, encodeUtf8_of_decodeUtf8 htext]

/-- One hexadecimal digit, upper case. -/
def hexDigit (n : ℕ) : Char := "0123456789ABCDEF".toList.getD n '0'

/-- The format `02X` of a byte. -/
def hex02 (byte : UInt8) : String :=
  String.ofList [hexDigit (byte.toNat / 16), hexDigit (byte.toNat % 16)]

end ChuMicro
