import ChuMicro.Kvstore.Backends

/-!
# What the NVM backend promises

`save` and `load` of `CpNvmBackend` on a slab of any size and with any content. The capacity is what
the header leaves of the slab, but the header has two bytes for the length. On a slab of more than
65545 bytes `save` therefore raises `OverflowError`, and not `KVStoreFull`, for a payload that the
capacity admits and the length field does not.

## Main definitions

* `Kvstore.CpNvmBackend.saveInPlace` — `save` with what it leaves in the slab.
* `Kvstore.CpNvmBackend.SavesExactly` — what is promised of a save.
* `Kvstore.CpNvmBackend.LoadsSafely` — what is promised of a load.

## Main results

* `Kvstore.CpNvmBackend.loadsSafely` — a load keeps its promise on every slab.
* `Kvstore.CpNvmBackend.framing_exact_iff` — a save keeps its promise if and only if the payload
  fits its length field or exceeds the capacity.
-/

namespace ChuMicro.Kvstore

open Bytes

namespace CpNvmBackend

/-! ## The promises -/

/-- `save` with what it leaves in the slab. The one assignment to the slab comes last. -/
def saveInPlace (b : CpNvmBackend) (payload : List UInt8) : Except Exn Unit × CpNvmBackend :=
  match b.save payload with
  | .ok stored => (.ok (), stored)
  | .error e => (.error e, b)

/-- A save raises `KVStoreFull` and leaves the slab as it is, exactly when the payload exceeds the
capacity. Otherwise it stores the payload so that a load returns it. -/
def SavesExactly (b : CpNvmBackend) (payload : List UInt8) : Prop :=
  (b.capacity < payload.length ∧ ∃ message, b.saveInPlace payload = (.error (.kvStoreFull message), b)) ∨
    (payload.length ≤ b.capacity ∧ ∃ stored, b.saveInPlace payload = (.ok (), stored) ∧
      stored.nvm.length = b.nvm.length ∧ stored.load = .ok payload)

/-- A blank slab begins with four bytes as they are erased, or as they are when the power comes on.
-/
def Blank (b : CpNvmBackend) : Prop :=
  slice b.nvm 0 HEADER_MAGIC.length ∈ [[0xFF, 0xFF, 0xFF, 0xFF], [0x00, 0x00, 0x00, 0x00]]

/-- The payload is the one that the header of the slab describes. -/
structure Matches (b : CpNvmBackend) (payload : List UInt8) : Prop where
  magic : slice b.nvm 0 HEADER_MAGIC.length = HEADER_MAGIC
  stored : payload = slice b.nvm HEADER_SIZE (HEADER_SIZE + payload.length)
  length : payload.length = ofLittle (slice b.nvm 4 6)
  crc : (crc32 payload).toNat = ofLittle (slice b.nvm 6 10)

/-- A load of a blank slab is empty. Any other load returns a payload that the header describes, or
raises `KVStoreCorrupt`. -/
def LoadsSafely (b : CpNvmBackend) : Prop :=
  (b.Blank → b.load = .ok []) ∧
    (¬ b.Blank → (∃ payload, b.load = .ok payload ∧ b.Matches payload) ∨
      ∃ message, b.load = .error (.kvStoreCorrupt message))

/-! ## Loads -/

/-- **A load is safe on every slab**, also one that was torn while it was written. -/
theorem loadsSafely (b : CpNvmBackend) : b.LoadsSafely := by
  refine ⟨fun hblank => ?_, fun hblank => ?_⟩
  · unfold load
    exact if_pos hblank
  unfold load
  simp only [Blank] at hblank
  rw [if_neg hblank]
  dsimp only
  split_ifs with hmagic hlong hcrc
  · exact .inr ⟨_, rfl⟩
  · exact .inr ⟨_, rfl⟩
  · exact .inr ⟨_, rfl⟩
  · -- the slice is not cut short by the end of the slab
    have hlarge := b.large
    have hlength : (slice b.nvm HEADER_SIZE (HEADER_SIZE + ofLittle (slice b.nvm 4 6))).length =
        ofLittle (slice b.nvm 4 6) := by
      rw [capacity] at hlong
      rw [length_slice _ (by omega)]
      omega
    refine .inl ⟨_, rfl, not_not.mp hmagic, ?_, hlength, not_not.mp hcrc⟩
    rw [hlength]

/-! ## Saves -/

/-- **A save keeps its promise if and only if the length field has room for what the capacity
admits.** -/
lemma savesExactly_iff (b : CpNvmBackend) (payload : List UInt8) :
    b.SavesExactly payload ↔ ¬ (256 ^ 2 ≤ payload.length ∧ payload.length ≤ b.capacity) := by
  have hpos := b.capacity_pos
  by_cases hfull : b.capacity < payload.length
  · have hsave : ∃ message, b.saveInPlace payload = (.error (.kvStoreFull message), b) := by
      refine ⟨s!"payload size {payload.length} exceeds nvm capacity {b.capacity}", ?_⟩
      rw [saveInPlace, save, dif_pos ⟨hpos, hfull⟩]
    exact ⟨fun _ h => absurd h.2 (not_le.mpr hfull), fun _ => .inl ⟨hfull, hsave⟩⟩
  have hfits : payload.length ≤ b.capacity := not_lt.mp hfull
  have hguard : ¬ (0 < b.capacity ∧ b.capacity < payload.length) := fun h => hfull h.2
  by_cases hlong : 256 ^ 2 ≤ payload.length
  · have hsave : b.saveInPlace payload = (.error (.py (.overflowError "int too big to convert")), b) := by
      rw [saveInPlace, save, dif_neg hguard, if_pos hlong]
    refine ⟨?_, fun h => absurd ⟨hlong, hfits⟩ h⟩
    rintro (⟨h, -⟩ | ⟨-, stored, h, -⟩)
    · exact absurd h hfull
    · rw [hsave] at h
      cases h
  · refine ⟨fun _ h => hlong h.1, fun _ => .inr ⟨hfits, ?_⟩⟩
    have hsave : ∃ stored, b.save payload = .ok stored ∧ stored.nvm.length = b.nvm.length := by
      refine ⟨⟨overwrite b.nvm 0 (header payload ++ payload), large_overwrite b.large (b.record_le hfits)⟩,
        ?_, ?_⟩
      · rw [save, dif_neg hguard, if_neg hlong]
      · have hrecord := b.record_le hfits
        exact length_overwrite _ _ (by omega)
    obtain ⟨stored, hstored, hlength⟩ := hsave
    exact ⟨stored, by rw [saveInPlace, hstored], hlength, load_of_save hstored⟩

/-- **The framing keeps its promises** for a slab of any size and content and for any payload, if
and only if the payload does not lie between the length field and the capacity. -/
theorem framing_exact_iff (b : CpNvmBackend) (payload : List UInt8) :
    (b.SavesExactly payload ∧ b.LoadsSafely) ↔
      ¬ (256 ^ 2 ≤ payload.length ∧ payload.length ≤ b.capacity) := by
  rw [← savesExactly_iff]
  exact ⟨And.left, fun h => ⟨h, b.loadsSafely⟩⟩

/-- An erased slab. -/
def erased (size : ℕ) (h : HEADER_SIZE < size) : CpNvmBackend where
  nvm := List.replicate size 0xFF
  large := by rw [List.length_replicate]; exact h

lemma erased_capacity (size : ℕ) (h : HEADER_SIZE < size) :
    (erased size h).capacity = size - HEADER_SIZE := by
  unfold capacity erased
  rw [List.length_replicate]

/-- An erased slab of 70000 bytes, and a payload of 65536. -/
theorem not_savesExactly_erased :
    ¬ (erased 70000 (by decide)).SavesExactly (List.replicate 65536 0) := by
  have hlong : ∀ {size length : ℕ} (h : HEADER_SIZE < size), 256 ^ 2 ≤ length →
    length ≤ size - HEADER_SIZE →
      ¬ (erased size h).SavesExactly (List.replicate length 0) := by
    intro size length h hfield hfits
    rw [savesExactly_iff, erased_capacity, List.length_replicate]
    exact not_not.mpr ⟨hfield, hfits⟩
  exact hlong (by decide) (by decide) (by decide)

end CpNvmBackend

end ChuMicro.Kvstore
