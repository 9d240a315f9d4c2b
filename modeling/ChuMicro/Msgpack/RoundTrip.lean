import ChuMicro.Msgpack.Pure

/-!
# What msgpack reads back

The decoder applied to what the encoder wrote. `PyVal.norm` is the value a reader expects: tuples
become lists, bytearrays become bytes and floats keep single precision. `readBack` is what the
decoder computes from the encoding, told without bytes: it differs from `norm` only at maps, where
the decoder refuses container keys and merges keys that have become equal.

## Main definitions

* `Msgpack.PyVal.norm` — the value up to the conversions msgpack makes.
* `Msgpack.PyVal.readable` — no dictionary in the value has a container as a key, or two keys that
  are equal once converted.
* `Msgpack.readBack` — the decoder on encoded values, without the bytes.

## Main results

* `Msgpack.decodeLevels_encode` — decoding at the place of an encoding consumes exactly that
  encoding and computes `readBack`.
* `Msgpack.readBack_eq_norm_iff` — `readBack` is `norm` exactly on readable values.
* `Msgpack.unpackb_packb_iff` — what was packed unpacks to its normal form exactly when it is
  readable.
-/

namespace ChuMicro.Msgpack

open Bytes

/-! ## The expected value -/

mutual

/-- The value up to the conversions msgpack makes: tuple to list, bytearray to bytes, float to
single precision. -/
def PyVal.norm : PyVal → PyVal
  | .none => .none
  | .bool value => .bool value
  | .int value => .int value
  | .float bits => .float (widen (narrow bits))
  | .str value => .str value
  | .bytes value => .bytes value
  | .bytearray value => .bytes value
  | .list items => .list (normItems items)
  | .tuple items => .list (normItems items)
  | .dict items => .dict (normPairs items)

/-- Every item converted. -/
def normItems : List PyVal → List PyVal
  | [] => []
  | item :: rest => item.norm :: normItems rest

/-- Every key and value converted. -/
def normPairs : List (PyVal × PyVal) → List (PyVal × PyVal)
  | [] => []
  | (key, val) :: rest => (key.norm, val.norm) :: normPairs rest

end

/-- A list, tuple or dict: what msgpack writes as an array or a map. -/
def PyVal.isCollection : PyVal → Bool
  | .list _ | .tuple _ | .dict _ => true
  | _ => false

/-- `key`, once converted, is none of the keys of `items`, once converted. -/
def freshKey (key : PyVal) (items : List (PyVal × PyVal)) : Bool :=
  items.all fun entry => !keyEq key.norm entry.1.norm

mutual

/-- In every dictionary inside the value, no key is a list, tuple or dict, and no two keys are
equal once converted. -/
def PyVal.readable : PyVal → Bool
  | .list items => readableItems items
  | .tuple items => readableItems items
  | .dict items => readablePairs items
  | _ => true

/-- Every item is readable. -/
def readableItems : List PyVal → Bool
  | [] => true
  | item :: rest => item.readable && readableItems rest

/-- Every value is readable, and the keys are scalars that stay different. -/
def readablePairs : List (PyVal × PyVal) → Bool
  | [] => true
  | (key, val) :: rest =>
    !key.isCollection && val.readable && freshKey key rest && readablePairs rest

end

/-! ## The decoder without the bytes -/

mutual

/-- What the decoder computes from the encoding of a value. -/
def readBack : PyVal → Except PyExn PyVal
  | .list items => do
    let items ← readBackItems items
    .ok (.list items)
  | .tuple items => do
    let items ← readBackItems items
    .ok (.list items)
  | .dict items => do
    let items ← readBackPairs items []
    .ok (.dict items)
  | .none => .ok .none
  | .bool value => .ok (.bool value)
  | .int value => .ok (.int value)
  | .float bits => .ok (.float (widen (narrow bits)))
  | .str value => .ok (.str value)
  | .bytes value => .ok (.bytes value)
  | .bytearray value => .ok (.bytes value)

/-- What the loop of `_decode_array` computes. -/
def readBackItems : List PyVal → Except PyExn (List PyVal)
  | [] => .ok []
  | item :: rest => do
    let value ← readBack item
    let values ← readBackItems rest
    .ok (value :: values)

/-- What the loop of `_decode_map` computes. -/
def readBackPairs : List (PyVal × PyVal) → List (PyVal × PyVal) →
    Except PyExn (List (PyVal × PyVal))
  | [], result => .ok result
  | (key, val) :: rest, result => do
    let key ← readBack key
    let value ← readBack val
    if key.isContainer then .error (.valueError "msgpack map key is not hashable")
    else readBackPairs rest (dictSet key value result)

end

/-! ## Reading one field -/

section Fields

variable {data field rest : List UInt8} {offset : ℕ}

/-- The byte at the start of a field. -/
lemma byteAt_of_isAt {byte : UInt8} (h : IsAt data offset (byte :: rest)) :
    byteAt data offset = .ok byte := by
  simp [byteAt, h.getElem?]

/-- A field of the right width is read whole. -/
lemma fieldAt_of_isAt {width : ℕ} (h : IsAt data offset field) (hw : field.length = width) :
    fieldAt data offset width = .ok field := by
  subst hw
  rw [fieldAt, if_pos h.le, h.slice_eq]

/-- The end of a field lies inside the data. -/
lemma boundedEnd_of_isAt (h : IsAt data offset field) :
    boundedEnd data offset field.length = .ok (offset + field.length) := by
  have hle := h.le
  rw [boundedEnd, if_neg (by omega)]

/-- What `pack` wrote is read back as an unsigned integer. -/
lemma unsignedAt_of_isAt {width value : ℕ} (hpack : pack width value = .ok field)
    (h : IsAt data offset field) : unsignedAt data offset width = .ok value := by
  rw [unsignedAt, fieldAt_of_isAt h (length_of_pack hpack), ok_bind, unpack_of_pack hpack]

/-- What `packSigned` wrote is read back as a signed integer. -/
lemma signedAt_of_isAt {width : ℕ} {value : ℤ} (hpack : packSigned width value = .ok field)
    (h : IsAt data offset field) : signedAt data offset width = .ok value := by
  rw [signedAt, fieldAt_of_isAt h (length_of_packSigned hpack), ok_bind, unpackSigned_of_packSigned hpack]

end Fields

/-! ## Reading one scalar -/

section Scalars

variable {data b : List UInt8} {offset : ℕ} {inner : ℕ → Except PyExn (PyVal × ℕ)}

/-- The ladder of integer forms is read back form by form. -/
lemma decodeBody_encodeInt {value : ℤ} (h : encodeInt value = .ok b) (hat : IsAt data offset b) :
    decodeBody data inner offset = .ok (.int value, offset + b.length) := by
  have hfix : ∀ n < 128, UInt8.ofNat n ≤ 0x7f ∧ (UInt8.ofNat n).toNat = n := by decide
  have hneg : ∀ n < 32, 0xe0 ≤ UInt8.ofNat (224 + n) ∧ (UInt8.ofNat (224 + n)).toNat = 224 + n := by
    decide
  unfold encodeInt at h
  split_ifs at h with h1 h2 h3 h4 h5 h6 h7 h8
  · -- positive fixint
    cases h
    obtain ⟨hle, hval⟩ := hfix value.toNat (by omega)
    rw [decodeBody, byteAt_of_isAt hat, ok_bind, if_pos hle, hval, Int.toNat_of_nonneg h1.1]
    rfl
  · -- negative fixint
    cases h
    obtain ⟨n, hn, hres⟩ : ∃ n < 32, (value % 256).toNat = 224 + n :=
      ⟨(value % 256).toNat - 224, by omega, by omega⟩
    rw [hres] at hat ⊢
    obtain ⟨hge, hval⟩ := hneg n hn
    rw [decodeBody, byteAt_of_isAt hat, ok_bind]
    repeat rw [if_neg (by grind)]
    rw [if_pos hge, hval, show ((224 + n : ℕ) : ℤ) - 256 = value by omega]
    rfl
  · -- uint8
    cases h
    have hval : (UInt8.ofNat value.toNat).toNat = value.toNat :=
      UInt8.toNat_ofNat_of_lt' (by norm_num; omega)
    rw [decodeBody, byteAt_of_isAt hat, ok_bind]
    simp only [byteAt_of_isAt hat.tail, ok_bind, hval, Int.toNat_of_nonneg h3.1]
    simp
  · -- uint16
    obtain ⟨packed, hpack, hb⟩ := bind_eq_ok.mp h
    cases hb
    rw [decodeBody, byteAt_of_isAt hat, ok_bind]
    simp only [unsignedAt_of_isAt hpack hat.tail, ok_bind, Int.toNat_of_nonneg h4.1]
    simp [length_of_pack hpack]
  · -- uint32
    obtain ⟨packed, hpack, hb⟩ := bind_eq_ok.mp h
    cases hb
    rw [decodeBody, byteAt_of_isAt hat, ok_bind]
    simp only [unsignedAt_of_isAt hpack hat.tail, ok_bind, Int.toNat_of_nonneg h5.1]
    simp [length_of_pack hpack]
  · -- int8
    cases h
    have hpack : packSigned 1 value = .ok [UInt8.ofNat (value % 256).toNat] := by
      rw [packSigned, if_pos ⟨by omega, by omega⟩]
      have hres : (value % 256).toNat % 256 = (value % 256).toNat := Nat.mod_eq_of_lt (by omega)
      simp [be, hres]
    rw [decodeBody, byteAt_of_isAt hat, ok_bind]
    simp only [signedAt_of_isAt hpack hat.tail, ok_bind]
    simp
  · -- int16
    obtain ⟨packed, hpack, hb⟩ := bind_eq_ok.mp h
    cases hb
    rw [decodeBody, byteAt_of_isAt hat, ok_bind]
    simp only [signedAt_of_isAt hpack hat.tail, ok_bind]
    simp [length_of_packSigned hpack]
  · -- int32
    obtain ⟨packed, hpack, hb⟩ := bind_eq_ok.mp h
    cases hb
    rw [decodeBody, byteAt_of_isAt hat, ok_bind]
    simp only [signedAt_of_isAt hpack hat.tail, ok_bind]
    simp [length_of_packSigned hpack]

/-- A float is read back with single precision. -/
lemma decodeBody_packFloat {bits : BitVec 64} (h : packFloat bits = .ok b)
    (hat : IsAt data offset (0xca :: b)) :
    decodeBody data inner offset =
      .ok (.float (widen (narrow bits)), offset + (0xca :: b).length) := by
  have hlen := length_of_packFloat h
  have hval : floatAt data (offset + 1) = .ok (widen (narrow bits)) := by
    rw [floatAt, fieldAt_of_isAt hat.tail hlen, ok_bind, unpackFloat_of_packFloat h]
  rw [decodeBody, byteAt_of_isAt hat, ok_bind]
  simp only [hval, ok_bind]
  simp [hlen]

/-- The bytes in front of a payload that say how long it is, in any of the forms that hold the
length. -/
def LengthHead (forms : LengthForms) (length : ℕ) (head : List UInt8) : Prop :=
  (∃ tag limit, forms.small = some (tag, limit) ∧ length ≤ limit ∧
    head = [tag ||| UInt8.ofNat length]) ∨
  (∃ tag, forms.mid = some tag ∧ length ≤ 0xff ∧ head = [tag, UInt8.ofNat length]) ∨
  (length ≤ 0xffff ∧ head = forms.wide :: be 2 length)

/-- The encoder chooses one of the forms. -/
lemma lengthHead_of_encodeLength {forms : LengthForms} {length : ℕ} {tooLong : String}
    (h : encodeLength forms length tooLong = .ok b) : LengthHead forms length b := by
  unfold encodeLength at h
  split_ifs at h with hs hm hw
  · left
    cases hform : forms.small with
    | none => simp [hform] at hs
    | some form =>
      simp only [hform, Option.any_some, decide_eq_true_eq, Option.getD_some, Except.ok.injEq]
        at hs h
      exact ⟨form.1, form.2, rfl, hs, h.symm⟩
  · right; left
    obtain ⟨tag, htag⟩ := Option.isSome_iff_exists.mp hm.1
    simp only [htag, Option.getD_some, Except.ok.injEq] at h
    exact ⟨tag, htag, hm.2, h.symm⟩
  · right; right
    rw [pack_two hw] at h
    obtain rfl := Except.ok.inj h
    exact ⟨hw, rfl⟩

/-- The three length forms of a string lead to its text. -/
lemma decodeBody_strHead {length : ℕ}
    (h : LengthHead ⟨some (0xa0, 31), some 0xd9, 0xda⟩ length b)
    (hat : IsAt data offset b) :
    decodeBody data inner offset = strAt data (offset + b.length) length := by
  have hsmall : ∀ n < 32, let byte := 0xa0 ||| UInt8.ofNat n
      0xa0 ≤ byte ∧ byte ≤ 0xbf ∧ (byte &&& 0x1f).toNat = n := by decide
  rcases h with ⟨tag, limit, hform, hle, rfl⟩ | ⟨tag, hform, hlt, rfl⟩ | ⟨hlt, rfl⟩
  · cases hform
    obtain ⟨hlow, hhigh, hval⟩ := hsmall length (by omega)
    rw [decodeBody, byteAt_of_isAt hat, ok_bind, if_neg (by grind), if_neg (by grind),
      if_neg (by grind), if_pos hhigh, hval]
    rfl
  · cases hform
    have hval : (UInt8.ofNat length).toNat = length := UInt8.toNat_ofNat_of_lt' (by norm_num; omega)
    rw [decodeBody, byteAt_of_isAt hat, ok_bind]
    simp only [byteAt_of_isAt hat.tail, ok_bind, hval]
    simp
  · rw [decodeBody, byteAt_of_isAt hat, ok_bind]
    simp only [unsignedAt_of_isAt (pack_two hlt) hat.tail, ok_bind]
    simp

/-- The two length forms of a byte string lead to its bytes. -/
lemma decodeBody_binHead {length : ℕ}
    (h : LengthHead ⟨none, some 0xc4, 0xc5⟩ length b)
    (hat : IsAt data offset b) :
    decodeBody data inner offset = binAt data (offset + b.length) length := by
  rcases h with ⟨tag, limit, hform, -, -⟩ | ⟨tag, hform, hlt, rfl⟩ | ⟨hlt, rfl⟩
  · cases hform
  · cases hform
    have hval : (UInt8.ofNat length).toNat = length := UInt8.toNat_ofNat_of_lt' (by norm_num; omega)
    rw [decodeBody, byteAt_of_isAt hat, ok_bind]
    simp only [byteAt_of_isAt hat.tail, ok_bind, hval]
    simp
  · rw [decodeBody, byteAt_of_isAt hat, ok_bind]
    simp only [unsignedAt_of_isAt (pack_two hlt) hat.tail, ok_bind]
    simp

/-- The two length forms of an array lead to its items. -/
lemma decodeBody_arrayHead {length : ℕ} (h : LengthHead ⟨some (0x90, 15), none, 0xdc⟩ length b)
    (hat : IsAt data offset b) :
    decodeBody data inner offset = decodeArray data inner (offset + b.length) length := by
  have hsmall : ∀ n < 16, let byte := 0x90 ||| UInt8.ofNat n
      0x90 ≤ byte ∧ byte ≤ 0x9f ∧ (byte &&& 0x0f).toNat = n := by decide
  rcases h with ⟨tag, limit, hform, hle, rfl⟩ | ⟨tag, hform, -, -⟩ | ⟨hlt, rfl⟩
  · cases hform
    obtain ⟨hlow, hhigh, hval⟩ := hsmall length (by omega)
    rw [decodeBody, byteAt_of_isAt hat, ok_bind, if_neg (by grind), if_neg (by grind),
      if_pos hhigh, hval]
    rfl
  · cases hform
  · rw [decodeBody, byteAt_of_isAt hat, ok_bind]
    simp only [unsignedAt_of_isAt (pack_two hlt) hat.tail, ok_bind]
    simp

/-- The two length forms of a map lead to its pairs. -/
lemma decodeBody_mapHead {length : ℕ} (h : LengthHead ⟨some (0x80, 15), none, 0xde⟩ length b)
    (hat : IsAt data offset b) :
    decodeBody data inner offset = decodeMap data inner (offset + b.length) length := by
  have hsmall : ∀ n < 16, let byte := 0x80 ||| UInt8.ofNat n
      0x80 ≤ byte ∧ byte ≤ 0x8f ∧ (byte &&& 0x0f).toNat = n := by decide
  rcases h with ⟨tag, limit, hform, hle, rfl⟩ | ⟨tag, hform, -, -⟩ | ⟨hlt, rfl⟩
  · cases hform
    obtain ⟨hlow, hhigh, hval⟩ := hsmall length (by omega)
    rw [decodeBody, byteAt_of_isAt hat, ok_bind, if_neg (by grind), if_pos hhigh, hval]
    rfl
  · cases hform
  · rw [decodeBody, byteAt_of_isAt hat, ok_bind]
    simp only [unsignedAt_of_isAt (pack_two hlt) hat.tail, ok_bind]
    simp

/-- A string is read back. -/
lemma decodeBody_encodeStrObj {value : PyStr} (h : encodeStrObj value = .ok b)
    (hat : IsAt data offset b) :
    decodeBody data inner offset = .ok (.str value, offset + b.length) := by
  obtain ⟨encoded, hencoded, h⟩ := bind_eq_ok.mp h
  obtain ⟨head, hhead, h⟩ := bind_eq_ok.mp h
  cases h
  rw [decodeBody_strHead (lengthHead_of_encodeLength hhead) hat.left, strAt,
    boundedEnd_of_isAt hat.right, ok_bind,
    hat.right.slice_eq, decodeStr_of_encodeStr hencoded, ok_bind, List.length_append, add_assoc]

/-- A byte string is read back. -/
lemma decodeBody_encodeBin {value : List UInt8} (h : encodeBin value = .ok b)
    (hat : IsAt data offset b) :
    decodeBody data inner offset = .ok (.bytes value, offset + b.length) := by
  obtain ⟨head, hhead, h⟩ := bind_eq_ok.mp h
  cases h
  rw [decodeBody_binHead (lengthHead_of_encodeLength hhead) hat.left, binAt,
    boundedEnd_of_isAt hat.right, ok_bind,
    hat.right.slice_eq, List.length_append, add_assoc]

end Scalars

/-! ## Reading a whole value -/

/-- A length takes at least one byte. -/
lemma LengthHead.pos {forms : LengthForms} {length : ℕ} {head : List UInt8}
    (h : LengthHead forms length head) : 0 < head.length := by
  rcases h with ⟨tag, limit, -, -, rfl⟩ | ⟨tag, -, -, rfl⟩ | ⟨-, rfl⟩
  · simp
  · simp
  · simp

/-- An integer takes at least one byte. -/
lemma encodeInt_pos {value : ℤ} {b : List UInt8} (h : encodeInt value = .ok b) :
    0 < b.length := by
  unfold encodeInt at h
  split_ifs at h
  -- four of the forms pack the value behind a tag, the others are literal
  all_goals first
    | (cases h; simp)
    | (obtain ⟨packed, -, hb⟩ := bind_eq_ok.mp h; cases hb; simp)

/-- A value takes at least one byte. -/
lemma encode_pos {x : PyVal} {depth : ℕ} {b : List UInt8} (h : encode x depth = .ok b) :
    0 < b.length := by
  unfold encode at h
  split_ifs at h
  cases x with
  | none => cases h; simp
  | bool value => cases value <;> cases h <;> simp
  | int value => exact encodeInt_pos h
  | float bits =>
    obtain ⟨packed, -, hb⟩ := bind_eq_ok.mp h
    cases hb
    simp
  | str value =>
    obtain ⟨encoded, -, h⟩ := bind_eq_ok.mp h
    obtain ⟨head, hhead, h⟩ := bind_eq_ok.mp h
    cases h
    have := (lengthHead_of_encodeLength hhead).pos
    rw [List.length_append]
    omega
  | bytes value | bytearray value =>
    obtain ⟨head, hhead, h⟩ := bind_eq_ok.mp h
    cases h
    have := (lengthHead_of_encodeLength hhead).pos
    rw [List.length_append]
    omega
  | list items | tuple items | dict items =>
    obtain ⟨head, hhead, h⟩ := bind_eq_ok.mp h
    obtain ⟨body, -, h⟩ := bind_eq_ok.mp h
    cases h
    have := (lengthHead_of_encodeLength hhead).pos
    rw [List.length_append]
    omega

/-- The guard of `_decode_array` passes: every item takes at least one byte. -/
lemma encodeItems_length {items : List PyVal} {depth : ℕ} {b : List UInt8}
    (h : encodeItems items depth = .ok b) : items.length ≤ b.length := by
  induction items generalizing b with
  | nil => simp
  | cons item rest ih =>
    rw [encodeItems] at h
    obtain ⟨first, hfirst, h⟩ := bind_eq_ok.mp h
    obtain ⟨others, hothers, h⟩ := bind_eq_ok.mp h
    cases h
    have hpos := encode_pos hfirst
    have hrest := ih hothers
    simp only [List.length_cons, List.length_append]
    omega

/-- The guard of `_decode_map` passes: every pair takes at least two bytes. -/
lemma encodePairs_length {items : List (PyVal × PyVal)} {depth : ℕ} {b : List UInt8}
    (h : encodePairs items depth = .ok b) : items.length * 2 ≤ b.length := by
  induction items generalizing b with
  | nil => simp
  | cons item rest ih =>
    rw [encodePairs] at h
    obtain ⟨first, hfirst, h⟩ := bind_eq_ok.mp h
    obtain ⟨second, hsecond, h⟩ := bind_eq_ok.mp h
    obtain ⟨others, hothers, h⟩ := bind_eq_ok.mp h
    cases h
    have hkey := encode_pos hfirst
    have hval := encode_pos hsecond
    have hrest := ih hothers
    simp only [List.length_cons, List.length_append]
    omega

mutual

/-- **Decoding at the place of an encoding** consumes that encoding, no byte more or less, and
computes `readBack`. The encoder and the decoder count levels from the same depth. -/
theorem decodeLevels_encode (x : PyVal) {depth offset : ℕ} {b data : List UInt8}
    (h : encode x depth = .ok b) (hat : IsAt data offset b) :
    decodeLevels data (MAX_DEPTH + 1 - depth) offset =
      (readBack x).map fun value => (value, offset + b.length) := by
  unfold encode at h
  split_ifs at h with hdepth
  rw [show MAX_DEPTH + 1 - depth = (MAX_DEPTH + 1 - (depth + 1)) + 1 by omega, decodeLevels]
  cases x with
  | none =>
    cases h
    simp [decodeBody, byteAt_of_isAt hat, readBack, Except.map]
  | bool value =>
    cases value <;> cases h <;> simp [decodeBody, byteAt_of_isAt hat, readBack, Except.map]
  | int value => rw [decodeBody_encodeInt h hat, readBack, Except.map]
  | float bits =>
    obtain ⟨packed, hpack, hb⟩ := bind_eq_ok.mp h
    cases hb
    rw [decodeBody_packFloat hpack hat, readBack, Except.map]
  | str value => rw [decodeBody_encodeStrObj h hat, readBack, Except.map]
  | bytes value => rw [decodeBody_encodeBin h hat, readBack, Except.map]
  | bytearray value => rw [decodeBody_encodeBin h hat, readBack, Except.map]
  | list items =>
    obtain ⟨head, hhead, h⟩ := bind_eq_ok.mp h
    obtain ⟨body, hbody, h⟩ := bind_eq_ok.mp h
    cases h
    have hle := hat.right.le
    have hlen := encodeItems_length hbody
    rw [decodeBody_arrayHead (lengthHead_of_encodeLength hhead) hat.left, decodeArray,
      if_neg (by omega),
      decodeItems_encodeItems items hbody hat.right, readBack]
    cases readBackItems items with
    | error e => rfl
    | ok values => simp [Except.map, add_assoc]
  | tuple items =>
    obtain ⟨head, hhead, h⟩ := bind_eq_ok.mp h
    obtain ⟨body, hbody, h⟩ := bind_eq_ok.mp h
    cases h
    have hle := hat.right.le
    have hlen := encodeItems_length hbody
    rw [decodeBody_arrayHead (lengthHead_of_encodeLength hhead) hat.left, decodeArray,
      if_neg (by omega),
      decodeItems_encodeItems items hbody hat.right, readBack]
    cases readBackItems items with
    | error e => rfl
    | ok values => simp [Except.map, add_assoc]
  | dict items =>
    obtain ⟨head, hhead, h⟩ := bind_eq_ok.mp h
    obtain ⟨body, hbody, h⟩ := bind_eq_ok.mp h
    cases h
    have hle := hat.right.le
    have hlen := encodePairs_length hbody
    rw [decodeBody_mapHead (lengthHead_of_encodeLength hhead) hat.left, decodeMap,
      if_neg (by omega),
      decodePairs_encodePairs items [] hbody hat.right, readBack]
    cases readBackPairs items [] with
    | error e => rfl
    | ok values => simp [Except.map, add_assoc]

/-- The loop of `_decode_array` over the encodings of the items. -/
lemma decodeItems_encodeItems (items : List PyVal) {depth offset : ℕ} {b data : List UInt8}
    (h : encodeItems items depth = .ok b) (hat : IsAt data offset b) :
    decodeItems (decodeLevels data (MAX_DEPTH + 1 - depth)) items.length offset =
      (readBackItems items).map fun values => (values, offset + b.length) := by
  cases items with
  | nil =>
    rw [encodeItems] at h
    cases h
    rfl
  | cons item rest =>
    rw [encodeItems] at h
    obtain ⟨first, hfirst, h⟩ := bind_eq_ok.mp h
    obtain ⟨others, hothers, h⟩ := bind_eq_ok.mp h
    cases h
    rw [List.length_cons, decodeItems, decodeLevels_encode item hfirst hat.left, readBackItems]
    cases readBack item with
    | error e => rfl
    | ok value =>
      simp only [Except.map, ok_bind]
      rw [decodeItems_encodeItems rest hothers hat.right]
      cases readBackItems rest with
      | error e => rfl
      | ok values => simp [Except.map, add_assoc]

/-- The loop of `_decode_map` over the encodings of the pairs. -/
lemma decodePairs_encodePairs (items result : List (PyVal × PyVal)) {depth offset : ℕ}
    {b data : List UInt8} (h : encodePairs items depth = .ok b) (hat : IsAt data offset b) :
    decodePairs (decodeLevels data (MAX_DEPTH + 1 - depth)) items.length offset result =
      (readBackPairs items result).map fun values => (values, offset + b.length) := by
  match items with
  | [] =>
    rw [encodePairs] at h
    cases h
    rfl
  | (key, val) :: rest =>
    rw [encodePairs] at h
    obtain ⟨first, hfirst, h⟩ := bind_eq_ok.mp h
    obtain ⟨second, hsecond, h⟩ := bind_eq_ok.mp h
    obtain ⟨others, hothers, h⟩ := bind_eq_ok.mp h
    cases h
    rw [List.length_cons, decodePairs, decodeLevels_encode key hfirst hat.left.left, readBackPairs]
    cases readBack key with
    | error e => rfl
    | ok key' =>
      simp only [Except.map, ok_bind]
      rw [decodeLevels_encode val hsecond hat.left.right]
      cases readBack val with
      | error e => rfl
      | ok value =>
        simp only [Except.map, ok_bind]
        by_cases hkey : key'.isContainer
        · rw [if_pos hkey, if_pos hkey]
        · rw [if_neg hkey, if_neg hkey]
          have hat' := hat.right
          rw [List.length_append, ← add_assoc] at hat'
          rw [decodePairs_encodePairs rest _ hothers hat']
          cases readBackPairs rest (dictSet key' value result) with
          | error e => rfl
          | ok values => simp [Except.map, add_assoc]

end

/-! ## Where reading back loses something -/

/-- A key that is none of the stored ones is added at the end. -/
lemma dictSet_of_fresh {key value : PyVal} {entries : List (PyVal × PyVal)}
    (h : ∀ entry ∈ entries, keyEq entry.1 key = false) :
    dictSet key value entries = entries ++ [(key, value)] := by
  induction entries with
  | nil => rfl
  | cons entry rest ih =>
    rw [dictSet, if_neg (by simp [h entry (by simp)]), ih fun e he => h e (by simp [he])]
    rfl

/-- A key that is stored already adds no entry. -/
lemma length_dictSet_of_stored {key value : PyVal} {entries : List (PyVal × PyVal)}
    (h : ∃ entry ∈ entries, keyEq entry.1 key = true) :
    (dictSet key value entries).length = entries.length := by
  induction entries with
  | nil => simp at h
  | cons entry rest ih =>
    rw [dictSet]
    by_cases hkey : keyEq entry.1 key = true
    · rw [if_pos hkey]
      rfl
    · rw [if_neg hkey, List.length_cons, List.length_cons, ih]
      obtain ⟨e, he, heq⟩ := h
      rcases List.mem_cons.mp he with rfl | hmem
      · exact absurd heq hkey
      · exact ⟨e, hmem, heq⟩

/-- Reading pairs adds at most one entry for each, and an entry for every one of them only when it
leaves the entries that were there as they are.

**Proof sketch.** Induction on the pairs. A key stored already costs one entry of the count, which
later pairs cannot make up for; a new key extends the entries at the end. -/
lemma readBackPairs_length {items entries result : List (PyVal × PyVal)}
    (h : readBackPairs items entries = .ok result) :
    result.length ≤ entries.length + items.length ∧
      (result.length = entries.length + items.length → entries <+: result) := by
  induction items generalizing entries with
  | nil =>
    rw [readBackPairs] at h
    cases h
    simp
  | cons item rest ih =>
    rw [readBackPairs] at h
    obtain ⟨key, -, h⟩ := bind_eq_ok.mp h
    obtain ⟨value, -, h⟩ := bind_eq_ok.mp h
    split_ifs at h
    obtain ⟨hle, hpre⟩ := ih h
    by_cases hstored : ∃ entry ∈ entries, keyEq entry.1 key = true
    · rw [length_dictSet_of_stored hstored] at hle
      simp only [List.length_cons]
      exact ⟨by omega, fun heq => by omega⟩
    · have hfresh : ∀ entry ∈ entries, keyEq entry.1 key = false := by
        intro entry he
        by_contra hne
        exact hstored ⟨entry, he, by simpa using hne⟩
      rw [dictSet_of_fresh hfresh] at hle hpre
      simp only [List.length_append, List.length_cons, List.length_nil] at hle hpre ⊢
      refine ⟨by omega, fun heq => ?_⟩
      exact (List.prefix_append entries _).trans (hpre (by omega))

/-- Conversion turns collections, and nothing else, into what the decoder refuses as a key. -/
lemma isContainer_norm (x : PyVal) : x.norm.isContainer = x.isCollection := by
  cases x <;> rfl

/-- A value that is no collection reads back converted. -/
lemma readBack_of_scalar {x : PyVal} (h : x.isCollection = false) : readBack x = .ok x.norm := by
  cases x with
  | list items => cases h
  | tuple items => cases h
  | dict items => cases h
  | _ => rfl

/-- As many pairs as there are. -/
lemma length_normPairs (items : List (PyVal × PyVal)) :
    (normPairs items).length = items.length := by
  induction items with
  | nil => rfl
  | cons item rest ih => rw [normPairs, List.length_cons, List.length_cons, ih]

mutual

/-- **Reading back is conversion** exactly on the readable values. -/
theorem readBack_eq_norm_iff (x : PyVal) : readBack x = .ok x.norm ↔ x.readable = true := by
  cases x with
  | list items =>
    rw [PyVal.readable, ← readBackItems_eq_iff items, readBack, PyVal.norm, bind_eq_ok]
    simp
  | tuple items =>
    rw [PyVal.readable, ← readBackItems_eq_iff items, readBack, PyVal.norm, bind_eq_ok]
    simp
  | dict items =>
    have hpairs := readBackPairs_eq_iff items []
    simp only [List.nil_append, List.not_mem_nil, false_implies, implies_true, and_true] at hpairs
    rw [PyVal.readable, ← hpairs, readBack, PyVal.norm, bind_eq_ok]
    simp
  | _ => simp [readBack, PyVal.norm, PyVal.readable]

/-- Item by item. -/
lemma readBackItems_eq_iff (items : List PyVal) :
    readBackItems items = .ok (normItems items) ↔ readableItems items = true := by
  cases items with
  | nil => simp [readBackItems, normItems, readableItems]
  | cons item rest =>
    rw [readableItems, Bool.and_eq_true, ← readBack_eq_norm_iff item,
      ← readBackItems_eq_iff rest, readBackItems, normItems, bind_eq_ok]
    constructor
    · rintro ⟨value, hvalue, h⟩
      obtain ⟨values, hvalues, h⟩ := bind_eq_ok.mp h
      cases h
      exact ⟨hvalue, hvalues⟩
    · rintro ⟨hvalue, hvalues⟩
      exact ⟨item.norm, hvalue, by rw [hvalues, ok_bind]⟩

/-- Pair by pair, with the entries read before: they must share no key with the pairs to come. -/
lemma readBackPairs_eq_iff (items entries : List (PyVal × PyVal)) :
    readBackPairs items entries = .ok (entries ++ normPairs items) ↔
      readablePairs items = true ∧
        ∀ entry ∈ entries, ∀ item ∈ items, keyEq entry.1 item.1.norm = false := by
  match items with
  | [] => simp [readBackPairs, normPairs, readablePairs]
  | (key, val) :: rest =>
    have hrest := readBackPairs_eq_iff rest (entries ++ [(key.norm, val.norm)])
    have hval := readBack_eq_norm_iff val
    constructor
    · intro h
      rw [readBackPairs, normPairs] at h
      obtain ⟨key', hkey, h⟩ := bind_eq_ok.mp h
      obtain ⟨value, hvalue, h⟩ := bind_eq_ok.mp h
      split_ifs at h with hcont
      obtain ⟨hle, hpre⟩ := readBackPairs_length h
      have hlen := length_normPairs rest
      simp only [List.length_append, List.length_cons, hlen] at hle hpre
      -- the count leaves no room for a key that was stored already
      have hfresh : ∀ entry ∈ entries, keyEq entry.1 key' = false := by
        intro entry he
        by_contra hne
        rw [length_dictSet_of_stored ⟨entry, he, by simpa using hne⟩] at hle
        omega
      rw [dictSet_of_fresh hfresh] at h hpre
      simp only [List.length_append, List.length_cons, List.length_nil] at hpre
      -- so the new entry is in the result where the converted pair is
      have hpair : [(key', value)] <+: (key.norm, val.norm) :: normPairs rest :=
        (List.prefix_append_right_inj entries).mp (hpre (by omega))
      simp only [List.cons_prefix_cons, Prod.mk.injEq, List.nil_prefix, and_true] at hpair
      obtain ⟨rfl, rfl⟩ := hpair
      rw [isContainer_norm, Bool.not_eq_true] at hcont
      obtain ⟨hreadable, hdisjoint⟩ := hrest.mp (by simpa using h)
      have hkeys : freshKey key rest = true := by
        rw [freshKey, List.all_eq_true]
        intro item hi
        have hne := hdisjoint (key.norm, val.norm) (by simp) item hi
        simp [hne]
      refine ⟨?_, ?_⟩
      · simp only [readablePairs, hcont, hval.mp hvalue, hkeys, hreadable, Bool.not_false,
          Bool.and_self]
      · intro entry he item hi
        rcases List.mem_cons.mp hi with rfl | hi
        · exact hfresh entry he
        · exact hdisjoint entry (by simp [he]) item hi
    · rintro ⟨hreadable, hdisjoint⟩
      rw [readablePairs] at hreadable
      simp only [Bool.and_eq_true, Bool.not_eq_true', and_assoc] at hreadable
      obtain ⟨hscalar, hv, hkeys, hreadable⟩ := hreadable
      rw [freshKey, List.all_eq_true] at hkeys
      have hcont : ¬ key.norm.isContainer = true := by simp [isContainer_norm, hscalar]
      have hfresh : ∀ entry ∈ entries, keyEq entry.1 key.norm = false := fun entry he =>
        hdisjoint entry he (key, val) (by simp)
      rw [readBackPairs, readBack_of_scalar hscalar, ok_bind, hval.mpr hv, ok_bind, if_neg hcont,
        dictSet_of_fresh hfresh, normPairs]
      have hafter : ∀ entry ∈ entries ++ [(key.norm, val.norm)], ∀ item ∈ rest,
          keyEq entry.1 item.1.norm = false := by
        intro entry he item hi
        rcases List.mem_append.mp he with he | he
        · exact hdisjoint entry he item (by simp [hi])
        · rw [List.mem_singleton.mp he]
          simpa using hkeys item hi
      simpa using hrest.mpr ⟨hreadable, hafter⟩

end

/-! ## The round trip -/

/-- Unpacking what was packed returns the normal form when `readBack` does: no byte is left over. -/
lemma unpackb_of_packb {x : PyVal} {b : List UInt8} (h : packb x = .ok b) :
    unpackb b = .ok x.norm ↔ readBack x = .ok x.norm := by
  have hdec : decode b 0 0 = (readBack x).map fun value => (value, 0 + b.length) :=
    decodeLevels_encode x h (isAt_self b)
  rw [unpackb, hdec]
  cases readBack x with
  | error e => simp [Except.map]
  | ok value => simp [Except.map]

/-- **What was packed unpacks to its normal form exactly when it is readable**: no dictionary in it
has a list, tuple or dict as a key, or two keys that are equal once converted. -/
theorem unpackb_packb_iff (x : PyVal) (b : List UInt8) (h : packb x = .ok b) :
    unpackb b = .ok x.norm ↔ x.readable = true := by
  rw [unpackb_of_packb h, readBack_eq_norm_iff]

/-- A nested value with every kind of scalar comes back. -/
theorem unpackb_packb_nested :
    let x : PyVal := .dict [(.int 1, .tuple [.bool true, .none, .int (-200), .str (pyStr "hi")]),
      (.str (pyStr "k"), .bytearray [7])]
    packb x = .ok [0x82, 0x01, 0x94, 0xc3, 0xc0, 0xd1, 0xff, 0x38, 0xa2, 0x68, 0x69,
      0xa1, 0x6b, 0xc4, 0x01, 0x07] ∧
    unpackb [0x82, 0x01, 0x94, 0xc3, 0xc0, 0xd1, 0xff, 0x38, 0xa2, 0x68, 0x69,
      0xa1, 0x6b, 0xc4, 0x01, 0x07] = .ok x.norm :=
  ⟨by rfl, (unpackb_packb_iff _ _ (by rfl)).mpr (by rfl)⟩

/-- **A tuple as a key packs and does not unpack**: `{(1, 2): 3}` is written as a map with an array
for a key, which the decoder refuses. -/
theorem packb_tuple_key :
    let x : PyVal := .dict [(.tuple [.int 1, .int 2], .int 3)]
    packb x = .ok [0x81, 0x92, 0x01, 0x02, 0x03] ∧
    unpackb [0x81, 0x92, 0x01, 0x02, 0x03] =
      .error (.valueError "msgpack map key is not hashable") ∧
    unpackb [0x81, 0x92, 0x01, 0x02, 0x03] ≠ .ok x.norm := by
  refine ⟨by rfl, by rfl, ?_⟩
  intro h
  have herr : unpackb [0x81, 0x92, 0x01, 0x02, 0x03] =
      .error (.valueError "msgpack map key is not hashable") := by rfl
  rw [herr] at h
  cases h

end ChuMicro.Msgpack
