import ChuMicro.Kvstore.Store
import ChuMicro.Text

/-!
# The memory and the NVM backend

`MemoryBackend` in `chumicro_kvstore/_backends/memory.py` and `CpNvmBackend` in
`chumicro_kvstore/_backends/cp_nvm.py`, with the check of `Backend._check_capacity` in `core.py`.

The memory backend keeps the payload as it is. The NVM backend frames it: a magic number, the length
in two bytes and the CRC-32 in four, both little-endian, then the payload, all at the start of a
slab of bytes whose length never changes. A slab that starts with four erased bytes is blank.

## Main definitions

* `Kvstore.crc32` — `binascii.crc32`.
* `Kvstore.MemoryBackend`, `Kvstore.CpNvmBackend` — the two backends.
* `Kvstore.Backend` — either of them, with its `load` and `save`.

## Main results

* `Kvstore.Backend.load_of_save` — what a save has stored is what a load returns.
-/

namespace ChuMicro.Kvstore

open Bytes

/-! ## Little-endian integers -/

/-- `value.to_bytes(width, "little")`, higher bytes dropped. -/
def toLittle (width value : ℕ) : List UInt8 := (be width value).reverse

/-- `int.from_bytes(data, "little")`. -/
def ofLittle (data : List UInt8) : ℕ := ofBe data.reverse

@[simp] lemma length_toLittle (width value : ℕ) : (toLittle width value).length = width := by
  simp [toLittle]

/-- An integer that fits survives the little-endian form. -/
lemma ofLittle_toLittle {width value : ℕ} (h : value < 256 ^ width) :
    ofLittle (toLittle width value) = value := by
  rw [ofLittle, toLittle, List.reverse_reverse, ofBe_be h]

/-! ## The check sum -/

/-- One bit of the reflected CRC-32. -/
def crc32Bit (crc : UInt32) : UInt32 :=
  if crc &&& 1 = 1 then (crc >>> 1) ^^^ 0xEDB88320 else crc >>> 1

/-- One byte of it. -/
def crc32Byte (crc : UInt32) (byte : UInt8) : UInt32 := crc32Bit^[8] (crc ^^^ byte.toUInt32)

/-- `binascii.crc32(data) & 0xFFFFFFFF`. -/
def crc32 (data : List UInt8) : UInt32 := data.foldl crc32Byte 0xFFFFFFFF ^^^ 0xFFFFFFFF

-- the check value of the digits "123456789"
example : crc32 [0x31, 0x32, 0x33, 0x34, 0x35, 0x36, 0x37, 0x38, 0x39] = 0xCBF43926 := by
  decide +kernel

/-- The check sum fits its four bytes. -/
lemma crc32_lt (data : List UInt8) : (crc32 data).toNat < 256 ^ 4 :=
  lt_of_lt_of_eq (crc32 data).toNat_lt (by norm_num)

/-- `f"{n:08x}"` for a number of four bytes. -/
def hex08 (n : ℕ) : String := String.ofList ((be 4 n).flatMap fun byte => hexPair byte.toNat)

/-! ## The backends -/

/-- `_check_capacity`, the guard of every backend's `save`. A capacity of zero bounds nothing. -/
def checkCapacity (name : String) (capacity : ℕ) (payload : List UInt8) : Except Exn Unit :=
  if 0 < capacity ∧ capacity < payload.length then
    .error (.kvStoreFull s!"payload size {payload.length} exceeds {name} capacity {capacity}")
  else .ok ()

/-- `MemoryBackend`. The capacity is `sys.maxsize` unless another is given. -/
structure MemoryBackend where
  capacity : ℕ
  payload : List UInt8 := []
  corrupt : Bool := false
  deriving DecidableEq

/-- `load`. -/
def MemoryBackend.load (b : MemoryBackend) : Except Exn (List UInt8) :=
  if b.corrupt then .error (.kvStoreCorrupt "memory backend marked corrupt") else .ok b.payload

/-- `save`. -/
def MemoryBackend.save (b : MemoryBackend) (payload : List UInt8) : Except Exn MemoryBackend := do
  checkCapacity "memory" b.capacity payload
  .ok { b with payload, corrupt := false }

/-- `HEADER_MAGIC`, the bytes `CKVS`. -/
def HEADER_MAGIC : List UInt8 := [0x43, 0x4B, 0x56, 0x53]

/-- `HEADER_SIZE`: the magic number, two bytes of length, four of check sum. -/
def HEADER_SIZE : ℕ := 10

/-- `CpNvmBackend`: a slab that has room for more than the header. -/
structure CpNvmBackend where
  nvm : List UInt8
  large : HEADER_SIZE < nvm.length
  deriving DecidableEq

/-- `capacity`: what the header leaves. -/
def CpNvmBackend.capacity (b : CpNvmBackend) : ℕ := b.nvm.length - HEADER_SIZE

/-- `load`. -/
def CpNvmBackend.load (b : CpNvmBackend) : Except Exn (List UInt8) :=
  let magic := slice b.nvm 0 HEADER_MAGIC.length
  if magic ∈ [[0xFF, 0xFF, 0xFF, 0xFF], [0x00, 0x00, 0x00, 0x00]] then .ok []
  else if magic ≠ HEADER_MAGIC then
    .error (.kvStoreCorrupt s!"NVM magic mismatch: got {reprBytes magic}")
  else
    let length := ofLittle (slice b.nvm 4 6)
    if b.capacity < length then
      .error (.kvStoreCorrupt s!"NVM length field {length} exceeds capacity {b.capacity}")
    else
      let storedCrc := ofLittle (slice b.nvm 6 10)
      let payload := slice b.nvm HEADER_SIZE (HEADER_SIZE + length)
      let actualCrc := (crc32 payload).toNat
      if actualCrc ≠ storedCrc then
        .error (.kvStoreCorrupt
          s!"NVM CRC mismatch: stored 0x{hex08 storedCrc}, computed 0x{hex08 actualCrc}")
      else .ok payload

/-- The header that `save` puts before a payload. -/
def header (payload : List UInt8) : List UInt8 :=
  HEADER_MAGIC ++ toLittle 2 payload.length ++ toLittle 4 (crc32 payload).toNat

lemma length_header (payload : List UInt8) : (header payload).length = HEADER_SIZE := by
  simp [header, HEADER_MAGIC, HEADER_SIZE]

/-- The slab keeps its length when a record is written at its start. -/
lemma large_overwrite {nvm record : List UInt8} (h : HEADER_SIZE < nvm.length)
    (hfits : record.length ≤ nvm.length) : HEADER_SIZE < (overwrite nvm 0 record).length := by
  rw [length_overwrite _ _ (by omega)]
  exact h

/-- A record that the capacity admits fits into the slab. -/
lemma CpNvmBackend.record_le (b : CpNvmBackend) {payload : List UInt8}
    (h : payload.length ≤ b.capacity) : (header payload ++ payload).length ≤ b.nvm.length := by
  have hlarge := b.large
  rw [CpNvmBackend.capacity] at h
  rw [List.length_append, length_header]
  omega

/-- The capacity is not zero. -/
lemma CpNvmBackend.capacity_pos (b : CpNvmBackend) : 0 < b.capacity :=
  Nat.sub_pos_of_lt b.large

/-- `save`: the guard, the length in two bytes, and one assignment of header and payload. -/
def CpNvmBackend.save (b : CpNvmBackend) (payload : List UInt8) : Except Exn CpNvmBackend :=
  if h : 0 < b.capacity ∧ b.capacity < payload.length then
    .error (.kvStoreFull s!"payload size {payload.length} exceeds nvm capacity {b.capacity}")
  else if 256 ^ 2 ≤ payload.length then .error (.py (.overflowError "int too big to convert"))
  else
    have hfits : payload.length ≤ b.capacity := by
      have hpos := b.capacity_pos
      omega
    .ok { nvm := overwrite b.nvm 0 (header payload ++ payload)
          large := large_overwrite b.large (b.record_le hfits) }

/-- Either backend. -/
inductive Backend where
  | memory (b : MemoryBackend)
  | nvm (b : CpNvmBackend)
  deriving DecidableEq

/-- `capacity`. -/
def Backend.capacity : Backend → ℕ
  | .memory b => b.capacity
  | .nvm b => b.capacity

/-- `load`. -/
def Backend.load : Backend → Except Exn (List UInt8)
  | .memory b => b.load
  | .nvm b => b.load

/-- `save`. One that raises has stored nothing. -/
def Backend.save (payload : List UInt8) : Backend → Except Exn Backend
  | .memory b => Backend.memory <$> b.save payload
  | .nvm b => Backend.nvm <$> b.save payload

/-! ## A load after a save -/

/-- The memory backend returns what was saved. -/
theorem MemoryBackend.load_of_save {b b' : MemoryBackend} {payload : List UInt8}
    (h : b.save payload = .ok b') : b'.load = .ok payload := by
  obtain ⟨-, -, h⟩ := bind_eq_ok.mp h
  cases h
  rfl

/-- What stands in a slab whose start is a record. -/
lemma slice_overwrite_start {nvm record : List UInt8} {i j : ℕ}
    (hij : j ≤ record.length) : slice (overwrite nvm 0 record) i j = slice record i j := by
  have hstart : overwrite nvm 0 record = record ++ nvm.drop (0 + record.length) := by
    simp [overwrite]
  rw [hstart, slice_append_left _ _ hij]

/-- **The NVM backend returns what was saved**: the magic number, the length and the check sum are
those of the header. -/
theorem CpNvmBackend.load_of_save {b b' : CpNvmBackend} {payload : List UInt8}
    (h : b.save payload = .ok b') : b'.load = .ok payload := by
  unfold CpNvmBackend.save at h
  split_ifs at h with hfull hlong
  cases h
  have hpos := b.capacity_pos
  have hfits : payload.length ≤ b.capacity := by omega
  have hrecord := b.record_le hfits
  have hlength : (header payload ++ payload).length = HEADER_SIZE + payload.length := by
    rw [List.length_append, length_header]
  have hsize : HEADER_SIZE = 10 := rfl
  -- the four fields, each a slice of the record
  have hfield {i j : ℕ} (hj : j ≤ HEADER_SIZE) :
      slice (overwrite b.nvm 0 (header payload ++ payload)) i j = slice (header payload) i j := by
    rw [slice_overwrite_start (by omega),
      slice_append_left _ _ (by rw [length_header]; exact hj)]
  have hmagic : slice (header payload) 0 HEADER_MAGIC.length = HEADER_MAGIC := by
    rw [header, List.append_assoc, slice_append_left _ _ (le_refl _), slice_zero_length]
  have hlen : slice (header payload) 4 6 = toLittle 2 payload.length := by
    simp [slice, header, HEADER_MAGIC]
  have hcrc : slice (header payload) 6 10 = toLittle 4 (crc32 payload).toNat := by
    simp [slice, header, HEADER_MAGIC, List.take_append]
  have hpayload : slice (overwrite b.nvm 0 (header payload ++ payload)) HEADER_SIZE
      (HEADER_SIZE + payload.length) = payload := by
    rw [slice_overwrite_start (by omega), slice, ← hlength, List.take_length,
      ← length_header payload, List.drop_left]
  have hcapacity : ¬ CpNvmBackend.capacity
      ⟨overwrite b.nvm 0 (header payload ++ payload), large_overwrite b.large hrecord⟩ <
        payload.length := by
    rw [CpNvmBackend.capacity, length_overwrite _ _ (by omega)]
    exact Nat.not_lt.mpr hfits
  unfold CpNvmBackend.load
  simp only [hfield (show HEADER_MAGIC.length ≤ HEADER_SIZE by decide), hmagic,
    hfield (show 6 ≤ HEADER_SIZE by decide), hlen, hfield (show 10 ≤ HEADER_SIZE by decide), hcrc,
    ofLittle_toLittle (show payload.length < 256 ^ 2 by omega), ofLittle_toLittle (crc32_lt payload),
    hpayload, if_neg hcapacity, ne_eq, not_true_eq_false, if_false]
  rw [if_neg (by decide)]

/-- **What a save has stored is what a load returns**, on either backend. -/
theorem Backend.load_of_save {b b' : Backend} {payload : List UInt8}
    (h : b.save payload = .ok b') : b'.load = .ok payload := by
  cases b with
  | memory b =>
    cases hsave : b.save payload with
    | error e => simp [Backend.save, hsave] at h
    | ok stored =>
      obtain rfl : Backend.memory stored = b' := by simpa [Backend.save, hsave] using h
      exact MemoryBackend.load_of_save hsave
  | nvm b =>
    cases hsave : b.save payload with
    | error e => simp [Backend.save, hsave] at h
    | ok stored =>
      obtain rfl : Backend.nvm stored = b' := by simpa [Backend.save, hsave] using h
      exact CpNvmBackend.load_of_save hsave

end ChuMicro.Kvstore
