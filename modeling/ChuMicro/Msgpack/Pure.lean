import ChuMicro.Python

/-!
# The pure-Python msgpack codec

The values msgpack carries and the encoder and decoder of `chumicro_msgpack/_pure.py`. The encoder
appends to one buffer and never reads it back, so `encode` returns what `_encode` appends. The
decoder walks a byte string by offsets, as the source does.

`_decode` recurses with a depth counter that stops at `_MAX_DEPTH`. Here the recursion is on the
number of levels still allowed, `_MAX_DEPTH + 1 - depth`: the guard `depth > _MAX_DEPTH` holds
exactly when none is left.

## Main definitions

* `Msgpack.PyVal` — the Python values built from the supported types.
* `Msgpack.keyEq`, `Msgpack.dictSet` — equality of hashable scalars and `result[key] = value`.
* `Msgpack.encode`, `Msgpack.packb` — the encoder.
* `Msgpack.decode`, `Msgpack.unpackb` — the decoder.
-/

namespace ChuMicro.Msgpack

/-! ## Values -/

/-- A Python value built from the types msgpack carries. A `float` is given by its 64 bits; a
`dict` by its items in insertion order. -/
inductive PyVal where
  | none
  | bool (value : Bool)
  | int (value : ℤ)
  | float (bits : BitVec 64)
  | str (value : PyStr)
  | bytes (value : List UInt8)
  | bytearray (value : List UInt8)
  | list (items : List PyVal)
  | tuple (items : List PyVal)
  | dict (items : List (PyVal × PyVal))

/-- The value of a number other than NaN. -/
def PyVal.number? : PyVal → Option Number
  | .bool b => some (.finite (if b then 1 else 0))
  | .int i => some (.finite i)
  | .float bits => floatNumber? bits
  | _ => Option.none

/-- Whether two dictionary keys are the same key. The decoder never stores a container as a key,
and every key it decodes is a new object, so that identity adds nothing to `==`. -/
def keyEq : PyVal → PyVal → Bool
  | .none, .none => true
  | .str a, .str b => a == b
  | .bytes a, .bytes b => a == b
  | a, b =>
    match a.number?, b.number? with
    | some p, some q => p == q
    | _, _ => false

/-- `result[key] = value`: an entry with an equal key keeps its key and its place. -/
def dictSet (key value : PyVal) : List (PyVal × PyVal) → List (PyVal × PyVal)
  | [] => [(key, value)]
  | entry :: rest =>
    if keyEq entry.1 key then (entry.1, value) :: rest else entry :: dictSet key value rest

/-! ## Encoding -/

/-- `_MAX_DEPTH`. -/
def MAX_DEPTH : ℕ := 8

/-- The text of the depth error of both halves. -/
def nestingTooDeep : PyExn := .valueError "msgpack nesting too deep"

/-- `_encode_int`. -/
def encodeInt (value : ℤ) : Except PyExn (List UInt8) :=
  if 0 ≤ value ∧ value ≤ 0x7f then .ok [UInt8.ofNat value.toNat]
  else if -32 ≤ value ∧ value < 0 then .ok [UInt8.ofNat (value % 256).toNat]
  else if 0 ≤ value ∧ value ≤ 0xff then .ok [0xcc, UInt8.ofNat value.toNat]
  else if 0 ≤ value ∧ value ≤ 0xffff then do
    let packed ← pack 2 value.toNat
    .ok (0xcd :: packed)
  else if 0 ≤ value ∧ value ≤ 0xffffffff then do
    let packed ← pack 4 value.toNat
    .ok (0xce :: packed)
  else if -128 ≤ value ∧ value < -32 then .ok [0xd0, UInt8.ofNat (value % 256).toNat]
  else if -32768 ≤ value ∧ value < -128 then do
    let packed ← packSigned 2 value
    .ok (0xd1 :: packed)
  else if -2147483648 ≤ value ∧ value < -32768 then do
    let packed ← packSigned 4 value
    .ok (0xd2 :: packed)
  else .error (.overflowError s!"integer out of range for 32-bit msgpack: {value}")

/-- The type byte and length of a string, byte string or container: `small` is the form that
holds the length in the type byte, where there is one, `mid` the form with one length byte and
`wide` the form with two. -/
structure LengthForms where
  small : Option (UInt8 × ℕ)
  mid : Option UInt8
  wide : UInt8

/-- The ladder by which `_encode_str`, `_encode_bin`, `_encode_array` and `_encode_map` choose the
form of a length. -/
def encodeLength (forms : LengthForms) (length : ℕ) (tooLong : String) :
    Except PyExn (List UInt8) :=
  if forms.small.any fun form => length ≤ form.2 then
    .ok [(forms.small.getD (0, 0)).1 ||| UInt8.ofNat length]
  else if forms.mid.isSome ∧ length ≤ 0xff then .ok [forms.mid.getD 0, UInt8.ofNat length]
  else if length ≤ 0xffff then do
    let packed ← pack 2 length
    .ok (forms.wide :: packed)
  else .error (.overflowError tooLong)

/-- `_encode_str`. -/
def encodeStrObj (value : PyStr) : Except PyExn (List UInt8) := do
  let encoded ← encodeStr value
  let head ← encodeLength ⟨some (0xa0, 31), some 0xd9, 0xda⟩ encoded.length
    s!"string too long for msgpack: {encoded.length} bytes"
  .ok (head ++ encoded)

/-- `_encode_bin`. -/
def encodeBin (value : List UInt8) : Except PyExn (List UInt8) := do
  let head ← encodeLength ⟨Option.none, some 0xc4, 0xc5⟩ value.length
    s!"bytes too long for msgpack: {value.length} bytes"
  .ok (head ++ value)

/-- The head `_encode_array` writes. -/
def encodeArrayHead (length : ℕ) : Except PyExn (List UInt8) :=
  encodeLength ⟨some (0x90, 15), Option.none, 0xdc⟩ length
    s!"array too long for msgpack: {length} elements"

/-- The head `_encode_map` writes. -/
def encodeMapHead (length : ℕ) : Except PyExn (List UInt8) :=
  encodeLength ⟨some (0x80, 15), Option.none, 0xde⟩ length
    s!"map too long for msgpack: {length} entries"

mutual

/-- `_encode(obj, buffer, depth)`: the bytes it appends. -/
def encode (obj : PyVal) (depth : ℕ) : Except PyExn (List UInt8) :=
  if depth > MAX_DEPTH then .error nestingTooDeep
  else
    match obj with
    | .bool true => .ok [0xc3]
    | .bool false => .ok [0xc2]
    | .none => .ok [0xc0]
    | .int value => encodeInt value
    | .float bits => do
      let packed ← packFloat bits
      .ok (0xca :: packed)
    | .str value => encodeStrObj value
    | .bytes value => encodeBin value
    | .bytearray value => encodeBin value
    | .list items => do
      let head ← encodeArrayHead items.length
      let body ← encodeItems items (depth + 1)
      .ok (head ++ body)
    | .tuple items => do
      let head ← encodeArrayHead items.length
      let body ← encodeItems items (depth + 1)
      .ok (head ++ body)
    | .dict items => do
      let head ← encodeMapHead items.length
      let body ← encodePairs items (depth + 1)
      .ok (head ++ body)

/-- The loop of `_encode_array`. -/
def encodeItems (items : List PyVal) (depth : ℕ) : Except PyExn (List UInt8) :=
  match items with
  | [] => .ok []
  | item :: rest => do
    let first ← encode item depth
    let others ← encodeItems rest depth
    .ok (first ++ others)

/-- The loop of `_encode_map`. -/
def encodePairs (items : List (PyVal × PyVal)) (depth : ℕ) : Except PyExn (List UInt8) :=
  match items with
  | [] => .ok []
  | (key, val) :: rest => do
    let first ← encode key depth
    let second ← encode val depth
    let others ← encodePairs rest depth
    .ok (first ++ second ++ others)

end

/-- `packb`. -/
def packb (obj : PyVal) : Except PyExn (List UInt8) := encode obj 0

/-! ## Decoding -/

/-- `_MALFORMED`, as the error it is the text of. -/
def malformed : PyExn := .valueError "malformed msgpack: truncated or over-length framing"

/-- `data[offset]`. -/
def byteAt (data : List UInt8) (offset : ℕ) : Except PyExn UInt8 :=
  match data[offset]? with
  | some byte => .ok byte
  | Option.none => .error .indexError

/-- The `width` bytes that `struct.unpack_from` reads at `offset`. -/
def fieldAt (data : List UInt8) (offset width : ℕ) : Except PyExn (List UInt8) :=
  if offset + width ≤ data.length then .ok (Bytes.slice data offset (offset + width))
  else .error .structError

/-- `struct.unpack_from(">H", data, offset)[0]` and its like for other widths. -/
def unsignedAt (data : List UInt8) (offset width : ℕ) : Except PyExn ℕ := do
  let field ← fieldAt data offset width
  unpack width field

/-- `struct.unpack_from(">h", data, offset)[0]` and its like for other widths. -/
def signedAt (data : List UInt8) (offset width : ℕ) : Except PyExn ℤ := do
  let field ← fieldAt data offset width
  unpackSigned width field

/-- `struct.unpack_from(">f", data, offset)[0]`. -/
def floatAt (data : List UInt8) (offset : ℕ) : Except PyExn (BitVec 64) := do
  let field ← fieldAt data offset 4
  unpackFloat field

/-- `_bounded_end`. -/
def boundedEnd (data : List UInt8) (start length : ℕ) : Except PyExn ℕ :=
  if start + length > data.length then .error malformed else .ok (start + length)

/-- `str(data[start:end], "utf-8")` with the end `_bounded_end` gives. -/
def strAt (data : List UInt8) (start length : ℕ) : Except PyExn (PyVal × ℕ) := do
  let stop ← boundedEnd data start length
  let text ← decodeStr (Bytes.slice data start stop)
  .ok (.str text, stop)

/-- `bytes(data[start:end])` with the end `_bounded_end` gives. -/
def binAt (data : List UInt8) (start length : ℕ) : Except PyExn (PyVal × ℕ) := do
  let stop ← boundedEnd data start length
  .ok (.bytes (Bytes.slice data start stop), stop)

/-- `_OUT_OF_SUBSET`. -/
def outOfSubset (byte : UInt8) : Option (String × String) :=
  if byte = 0xcb then
    some ("float64", "encode with msgpack.packb(obj, use_single_float=True)")
  else if byte = 0xcf then some ("uint64", "keep integers in [-2**31, 2**32-1]")
  else if byte = 0xd3 then some ("int64", "keep integers in [-2**31, 2**32-1]")
  else if byte = 0xc6 then some ("bin32", "bytes payloads must be under 65 536 bytes")
  else if byte = 0xdb then some ("str32", "strings must be under 65 536 bytes")
  else if byte = 0xdd then some ("array32", "arrays must be under 65 536 elements")
  else if byte = 0xdf then some ("map32", "maps must be under 65 536 entries")
  else Option.none

/-- The format `02x` of a byte. -/
def hex02Lower (byte : UInt8) : String := (hex02 byte).toLower

/-- `_unsupported_byte_error`. -/
def unsupportedByteError (byte : UInt8) : PyExn :=
  match outOfSubset byte with
  | some (name, fix) =>
    .valueError s!"{name} (0x{hex02Lower byte}) not in chumicro msgpack subset; {fix}"
  | Option.none => .valueError s!"unsupported msgpack type byte: 0x{hex02Lower byte}"

section Loops

variable (inner : ℕ → Except PyExn (PyVal × ℕ))

/-- The loop of `_decode_array`, with `_decode(data, ·, depth + 1)` as `inner`. -/
def decodeItems : ℕ → ℕ → Except PyExn (List PyVal × ℕ)
  | 0, offset => .ok ([], offset)
  | count + 1, offset => do
    let (value, offset) ← inner offset
    let (rest, offset) ← decodeItems count offset
    .ok (value :: rest, offset)

/-- Whether `isinstance(key, (list, dict))`. -/
def PyVal.isContainer : PyVal → Bool
  | .list _ | .dict _ => true
  | _ => false

/-- The loop of `_decode_map` with the entries stored so far. The key is checked after the value
is read. -/
def decodePairs : ℕ → ℕ → List (PyVal × PyVal) → Except PyExn (List (PyVal × PyVal) × ℕ)
  | 0, offset, result => .ok (result, offset)
  | count + 1, offset, result => do
    let (key, offset) ← inner offset
    let (value, offset) ← inner offset
    if key.isContainer then .error (.valueError "msgpack map key is not hashable")
    else decodePairs count offset (dictSet key value result)

end Loops

/-- `_decode_array`. -/
def decodeArray (data : List UInt8) (inner : ℕ → Except PyExn (PyVal × ℕ)) (offset length : ℕ) :
    Except PyExn (PyVal × ℕ) :=
  if length + offset > data.length then .error malformed
  else do
    let (items, offset) ← decodeItems inner length offset
    .ok (.list items, offset)

/-- `_decode_map`. -/
def decodeMap (data : List UInt8) (inner : ℕ → Except PyExn (PyVal × ℕ)) (offset length : ℕ) :
    Except PyExn (PyVal × ℕ) :=
  if length * 2 + offset > data.length then .error malformed
  else do
    let (items, offset) ← decodePairs inner length offset []
    .ok (.dict items, offset)

/-- The body of `_decode` below the depth guard. -/
def decodeBody (data : List UInt8) (inner : ℕ → Except PyExn (PyVal × ℕ)) (offset : ℕ) :
    Except PyExn (PyVal × ℕ) := do
  let byte ← byteAt data offset
  if byte ≤ 0x7f then .ok (.int byte.toNat, offset + 1)
  else if byte ≤ 0x8f then decodeMap data inner (offset + 1) (byte &&& 0x0f).toNat
  else if byte ≤ 0x9f then decodeArray data inner (offset + 1) (byte &&& 0x0f).toNat
  else if byte ≤ 0xbf then strAt data (offset + 1) (byte &&& 0x1f).toNat
  else if byte = 0xc0 then .ok (.none, offset + 1)
  else if byte = 0xc2 then .ok (.bool false, offset + 1)
  else if byte = 0xc3 then .ok (.bool true, offset + 1)
  else if byte = 0xc4 then do
    let length ← byteAt data (offset + 1)
    binAt data (offset + 2) length.toNat
  else if byte = 0xc5 then do
    let length ← unsignedAt data (offset + 1) 2
    binAt data (offset + 3) length
  else if byte = 0xca then do
    let value ← floatAt data (offset + 1)
    .ok (.float value, offset + 5)
  else if byte = 0xcc then do
    let value ← byteAt data (offset + 1)
    .ok (.int value.toNat, offset + 2)
  else if byte = 0xcd then do
    let value ← unsignedAt data (offset + 1) 2
    .ok (.int value, offset + 3)
  else if byte = 0xce then do
    let value ← unsignedAt data (offset + 1) 4
    .ok (.int value, offset + 5)
  else if byte = 0xd0 then do
    let value ← signedAt data (offset + 1) 1
    .ok (.int value, offset + 2)
  else if byte = 0xd1 then do
    let value ← signedAt data (offset + 1) 2
    .ok (.int value, offset + 3)
  else if byte = 0xd2 then do
    let value ← signedAt data (offset + 1) 4
    .ok (.int value, offset + 5)
  else if byte = 0xd9 then do
    let length ← byteAt data (offset + 1)
    strAt data (offset + 2) length.toNat
  else if byte = 0xda then do
    let length ← unsignedAt data (offset + 1) 2
    strAt data (offset + 3) length
  else if byte = 0xdc then do
    let length ← unsignedAt data (offset + 1) 2
    decodeArray data inner (offset + 3) length
  else if byte = 0xde then do
    let length ← unsignedAt data (offset + 1) 2
    decodeMap data inner (offset + 3) length
  else if byte ≥ 0xe0 then .ok (.int ((byte.toNat : ℤ) - 256), offset + 1)
  else .error (unsupportedByteError byte)

/-- `_decode` with the number of container levels it may still enter, itself included. -/
def decodeLevels (data : List UInt8) : ℕ → ℕ → Except PyExn (PyVal × ℕ)
  | 0, _ => .error nestingTooDeep
  | levels + 1, offset => decodeBody data (decodeLevels data levels) offset

/-- `_decode(data, offset, depth)`. -/
def decode (data : List UInt8) (offset depth : ℕ) : Except PyExn (PyVal × ℕ) :=
  decodeLevels data (MAX_DEPTH + 1 - depth) offset

/-- `except _FRAMING_ERRORS`. -/
def isFramingError : PyExn → Bool
  | .indexError | .structError => true
  | _ => false

/-- `unpackb`. -/
def unpackb (data : List UInt8) : Except PyExn PyVal :=
  match decode data 0 0 with
  | .error e => .error (if isFramingError e then malformed else e)
  | .ok (result, stop) =>
    if stop ≠ data.length then .error (.valueError "trailing bytes after msgpack value")
    else .ok result

end ChuMicro.Msgpack
