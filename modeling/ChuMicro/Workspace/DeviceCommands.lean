import ChuMicro.Deploy.Atomicity
import ChuMicro.Deploy.Registry

/-!
# Registering a board again

`add-device --force` and `reset-device` of `chumicro_workspace/cli/devices.py`, from a successful
probe on. The first changes the entry of the board where it stands, after `add_device` has refused
the id; the second removes the entry and adds a new one. The messages that they print are left out,
and so is the demo that `add-device` can run afterwards.

## Main definitions

* `Workspace.cmdAddDevice`, `Workspace.cmdResetDevice` — the commands.
* `Workspace.Updated`, `Workspace.Rebuilt` — what the entry is to be.

## Main results

* `Workspace.reflects_probe_iff` — the entry reflects the probe after `add-device --force` exactly
  if the board still has the runtime that is on file.
-/

namespace ChuMicro.Workspace

open ChuMicro.Deploy

/-! ## The commands -/

/-- `DeviceInfo` of a probe that has succeeded, with its `DeviceImplementation`. -/
structure DeviceInfo where
  name : String
  version : String
  machine : String
  boardId : String
  uid : String

/-- `if text: hardware[key] = text`. -/
def hardwareLeaf (key text : String) : Mapping := if text = "" then [] else [(key, .str text)]

/-- The leaves that `_hardware_from_probe_info` collects. -/
def DeviceInfo.leaves (info : DeviceInfo) : Mapping :=
  hardwareLeaf "uid" info.uid ++ (hardwareLeaf "machine" info.machine ++
    hardwareLeaf "board_id" info.boardId)

/-- `_hardware_from_probe_info`. -/
def hardwareFromProbeInfo (info : DeviceInfo) : Option Mapping :=
  if info.leaves.isEmpty then none else some info.leaves

/-- `version or None`. -/
def DeviceInfo.firmwareVersion (info : DeviceInfo) : Option String :=
  if info.version = "" then none else some info.version

/-- What both commands pass to `add_device`. -/
def DeviceInfo.newDevice (info : DeviceInfo) (deviceId address : String)
    (description : Option String) : NewDevice where
  deviceId := deviceId
  runtime := info.name
  address := address
  hardware := hardwareFromProbeInfo info
  description := description
  deployMode := none
  serialBaudrate := none
  firmwareVersion := info.firmwareVersion
  setDefault := true

/-- The document that a command writes to the file, if it writes one. -/
abbrev Written := Except RegistryExn (Option Mapping)

/-- `_cmd_add_device`, from the probe on. -/
def cmdAddDevice (force : Bool) (deviceId address : String) (description : Option String)
    (info : DeviceInfo) (data : Mapping) : Written :=
  match addDevice data (info.newDevice deviceId address description) with
  | (.ok _, data) => .ok (some data)
  | (.error (.deviceAlreadyExists _), data) =>
    if force = false then .ok none
    else
      match updateDeviceAddress data deviceId address with
      | (.error e, _) => .error e
      | (.ok _, data) =>
        let refreshed :=
          if info.version = "" then (.ok (), data)
          else updateDeviceFirmwareVersion data deviceId info.version
        match refreshed with
        | (.error e, _) => .error e
        | (.ok _, data) =>
          match updateDeviceHardware data deviceId ((hardwareFromProbeInfo info).getD []) true with
          | (.error (.hardwareOverwrite ..), _) => .ok none
          | (.error e, _) => .error e
          | (.ok _, data) => .ok (some data)
  | (.error e, _) => .error e

/-- `args.address or existing.get("address")`, where a port can be probed: a text that is not
empty. -/
def resetAddress (argument : Option String) (existing : Mapping) : Option String :=
  match argument.filter (· ≠ "") with
  | some address => some address
  | none =>
    match getD existing "address" with
    | .str address => if address = "" then none else some address
    | _ => none

/-- `_cmd_reset_device`, with the probe of the board at the address. -/
def cmdResetDevice (yes : Bool) (deviceId : String) (argument : Option String) (info : DeviceInfo)
    (data : Mapping) : Written :=
  match findDevice data deviceId with
  | .error e => .error e
  | .ok none => .ok none
  | .ok (some (_, existing)) =>
    if yes = false then .ok none
    else
      match resetAddress argument existing with
      | none => .ok none
      | some address =>
        match removeDevice data deviceId with
        | (.error e, _) => .error e
        | (.ok _, data) =>
          match addDevice data (info.newDevice deviceId address none) with
          | (.error e, _) => .error e
          | (.ok _, data) => .ok (some data)

/-! ## What the entry is to be -/

/-- The value of a leaf in the `hardware` block of an entry. -/
def hardwareOf (entry : Mapping) (key : String) : Option Value :=
  match Dict.get? "hardware" entry with
  | some (.map block) => Dict.get? key block
  | _ => none

/-- The fields that `add-device --force` is to leave alone: `firmware_version` and `hardware` are
among them where the probe says nothing about them. -/
def Untouched (info : DeviceInfo) (key : String) : Prop :=
  key ≠ "runtime" ∧ key ≠ "address" ∧ (key = "firmware_version" → info.version = "") ∧
    (key = "hardware" → info.leaves = [])

/-- **An entry brought up to date**: it holds what the probe says, and what it held before of
everything else. -/
structure Updated (info : DeviceInfo) (address : String) (old new : Mapping) : Prop where
  runtime : Dict.get? "runtime" new = some (.str info.name)
  address : Dict.get? "address" new = some (.str address)
  firmware : info.version ≠ "" → Dict.get? "firmware_version" new = some (.str info.version)
  hardware : ∀ leaf ∈ info.leaves, hardwareOf new leaf.1 = some leaf.2
  leaves : ∀ key ∉ info.leaves.map Prod.fst, hardwareOf new key = hardwareOf old key
  fields : ∀ key, Untouched info key → Dict.get? key new = Dict.get? key old

/-- **An entry made anew**: the id, the address and what the probe says, and nothing else. -/
structure Rebuilt (info : DeviceInfo) (deviceId address : String) (new : Mapping) : Prop where
  id : Dict.get? "id" new = some (.str deviceId)
  runtime : Dict.get? "runtime" new = some (.str info.name)
  address : Dict.get? "address" new = some (.str address)
  firmware : Dict.get? "firmware_version" new = info.firmwareVersion.map .str
  hardware : Dict.get? "hardware" new = (hardwareFromProbeInfo info).map .map
  only : ∀ key ∉ ["id", "runtime", "address", "firmware_version", "hardware"],
    Dict.get? key new = none

/-- `add-device --force` writes a document in which the entry at `index` is up to date and
everything else as before. -/
def ForceReflects (info : DeviceInfo) (deviceId address : String) (description : Option String)
    (data : Mapping) (index : ℕ) (old : Mapping) : Prop :=
  ∃ data' items new, cmdAddDevice true deviceId address description info data = .ok (some data') ∧
    Dict.get? "devices" data = some (.seq items) ∧
    Dict.get? "devices" data' = some (.seq (items.set index (.map new))) ∧
    (∀ key ≠ "devices", Dict.get? key data' = Dict.get? key data) ∧
    Updated info address old new

/-- `reset-device` writes a document in which the entry is made anew and the other ones are as
before, the defaults that name another device too, and the board is the default of its runtime if it
was and still has that runtime. -/
def ResetReflects (info : DeviceInfo) (deviceId address : String) (argument : Option String)
    (data : Mapping) (index : ℕ) (old : Mapping) : Prop :=
  ∃ data' items new, cmdResetDevice true deviceId argument info data = .ok (some data') ∧
    Dict.get? "devices" data = some (.seq items) ∧
    Dict.get? "devices" data' = some (.seq (items.eraseIdx index ++ [Value.map new])) ∧
    (∀ key, key ≠ "devices" → key ≠ "defaults" → Dict.get? key data' = Dict.get? key data) ∧
    Rebuilt info deviceId address new ∧
    (∀ key other, other ≠ deviceId → Dict.get? key (defaultsOf data) = some (.str other) →
      Dict.get? key (defaultsOf data') = some (.str other)) ∧
    (Dict.get? "runtime" old = some (.str info.name) →
      Dict.get? info.name (defaultsOf data) = some (.str deviceId) →
      Dict.get? info.name (defaultsOf data') = some (.str deviceId))

/-- The block that `update_device_hardware` writes to is there, or made for a leaf. -/
def HardwareUsable (info : DeviceInfo) (entry : Mapping) : Prop :=
  (∃ block, Dict.get? "hardware" entry = some (.map block)) ∨
    Dict.get? "hardware" entry = none ∧ info.leaves ≠ []

/-- There is no second entry with the id, and the defaults are a mapping or absent. -/
def Resettable (data : Mapping) (deviceId : String) (index : ℕ) : Prop :=
  (∀ items, Dict.get? "devices" data = some (.seq items) →
    firstWithId deviceId (items.eraseIdx index) = none) ∧ ¬ NoMapping "defaults" data

/-! ## The entry in place -/

section InPlace

variable {data entry entry' : Mapping} {deviceId : String} {items : List Value} {index : ℕ}

/-- An entry that keeps its id is found where it was. -/
lemma firstWithId_set (h : firstWithId deviceId items = some (index, entry))
    (hid : (getD entry' "id").isStr deviceId = true) :
    firstWithId deviceId (items.set index (.map entry')) = some (index, entry') := by
  induction items generalizing index with
  | nil => cases h
  | cons first rest ih =>
    have hlater : ∀ found, firstWithId deviceId rest = some found →
        found.2 = entry → firstWithId deviceId (rest.set found.1 (.map entry')) =
          some (found.1, entry') := by
      rintro ⟨i, e⟩ hfound rfl
      exact ih hfound
    unfold firstWithId at h
    split at h
    case h_1 heq => cases heq
    case h_2 found rest' heq =>
      rw [List.cons.injEq] at heq
      obtain ⟨rfl, rfl⟩ := heq
      split_ifs at h with hfirst
      · cases h
        rw [List.set_cons_zero, firstWithId, if_pos hid]
      · obtain ⟨later, hfound, heq⟩ := Option.map_eq_some_iff.mp h
        cases heq
        rw [List.set_cons_succ, firstWithId, if_neg hfirst, hlater later hfound rfl,
          Option.map_some]
    case h_3 rest' hnot heq =>
      rw [List.cons.injEq] at heq
      obtain ⟨rfl, rfl⟩ := heq
      obtain ⟨later, hfound, heq⟩ := Option.map_eq_some_iff.mp h
      cases heq
      rw [List.set_cons_succ, firstWithId, hlater later hfound rfl, Option.map_some]
      rintro entry rfl
      exact hnot entry rfl

/-- The list of devices with an entry replaced. -/
lemma devices_putEntry (h : Dict.get? "devices" data = some (.seq items)) :
    Dict.get? "devices" (putEntry data index entry) =
      some (.seq (items.set index (.map entry))) := by
  rw [putEntry, h]
  exact Dict.get?_set_self _ _ _

/-- Nothing else of the document is touched. -/
lemma get?_putEntry {key : String} (hne : key ≠ "devices") :
    Dict.get? key (putEntry data index entry) = Dict.get? key data := by
  rw [putEntry]
  split
  · rw [Dict.get?_set_of_ne hne.symm]
  · rfl

/-- Of two changes of one entry the second stays. -/
lemma putEntry_putEntry (h : Dict.get? "devices" data = some (.seq items)) :
    putEntry (putEntry data index entry) index entry' = putEntry data index entry' := by
  rw [putEntry, devices_putEntry h, putEntry, putEntry, h]
  dsimp only
  rw [Dict.set_set, List.set_set]

/-- The lookup in a list of devices. -/
lemma findDevice_of_seq (h : Dict.get? "devices" data = some (.seq items)) :
    findDevice data deviceId = .ok (firstWithId deviceId items) := by
  rw [findDevice, iterDevices_of_seq h]
  rfl

/-- An entry that was changed and kept its id is found again. -/
lemma findDevice_putEntry (h : findDevice data deviceId = .ok (some (index, entry)))
    (hid : getD entry' "id" = getD entry "id") :
    findDevice (putEntry data index entry') deviceId = .ok (some (index, entry')) := by
  obtain ⟨items, hget, -, hstr⟩ := items_of_findDevice h
  rw [findDevice_of_seq hget, Except.ok.injEq] at h
  rw [findDevice_of_seq (devices_putEntry hget), firstWithId_set h (hid ▸ hstr)]

/-- Under `--force` every leaf is written. -/
lemma updateHardware_force (hardware block : Mapping) :
    updateHardware true hardware block =
      (.ok (), hardware.foldl (fun m leaf => Dict.set leaf.1 leaf.2 m) block) := by
  induction hardware generalizing block with
  | nil => rfl
  | cons leaf rest ih =>
    rw [updateHardware_of_not_refused (fun h => Bool.noConfusion h.1), ih, List.foldl_cons]

end InPlace

/-! ## `add-device --force` -/

open DeviceInfo

section Force

variable {info : DeviceInfo} {data old : Mapping} {deviceId address : String} {index : ℕ}
  {description : Option String}

/-- The leaves have different keys. -/
lemma DeviceInfo.nodup_leaves (info : DeviceInfo) : (info.leaves.map Prod.fst).Nodup := by
  unfold leaves hardwareLeaf
  split_ifs <;> simp

lemma getD_hardwareFromProbeInfo (info : DeviceInfo) :
    (hardwareFromProbeInfo info).getD [] = info.leaves := by
  rw [hardwareFromProbeInfo]
  split_ifs with hempty
  · exact (List.isEmpty_iff.mp hempty).symm
  · rfl

/-- The entry after its address and its firmware version were set. -/
def refreshed (info : DeviceInfo) (address : String) (old : Mapping) : Mapping :=
  setIf "firmware_version" (info.firmwareVersion.map .str) (Dict.set "address" (.str address) old)

lemma get?_refreshed (info : DeviceInfo) (address key : String) (old : Mapping) :
    Dict.get? key (refreshed info address old) =
      if "firmware_version" = key then
        (info.firmwareVersion.map Value.str).or (Dict.get? "firmware_version" old)
      else if "address" = key then some (.str address) else Dict.get? key old := by
  rw [refreshed, get?_setIf]
  split_ifs with hfirmware haddress
  · rw [← hfirmware, Dict.get?_set_of_ne (by decide)]
  · rw [← haddress, Dict.get?_set_self]
  · rw [Dict.get?_set_of_ne haddress]

/-- Both texts are set before the hardware is looked at. -/
lemma cmdAddDevice_of_found (hfound : findDevice data deviceId = .ok (some (index, old))) :
    cmdAddDevice true deviceId address description info data =
      match updateDeviceHardware (putEntry data index (refreshed info address old)) deviceId
        info.leaves true with
      | (.error (.hardwareOverwrite ..), _) => .ok none
      | (.error e, _) => .error e
      | (.ok _, data) => .ok (some data) := by
  obtain ⟨items, hget, -, -⟩ := items_of_findDevice hfound
  rw [cmdAddDevice, addDevice, newDevice, hfound, getD_hardwareFromProbeInfo]
  dsimp only
  rw [if_neg (by decide), updateDeviceAddress, updateField, hfound]
  dsimp only
  by_cases hversion : info.version = ""
  · rw [if_pos hversion, refreshed, firmwareVersion, if_pos hversion]
    rfl
  · have hkept : getD (Dict.set "address" (.str address) old) "id" = getD old "id" := by
      rw [getD, getD, Dict.get?_set_of_ne (by decide)]
    rw [if_neg hversion, updateDeviceFirmwareVersion, updateField,
      findDevice_putEntry hfound hkept, refreshed, firmwareVersion, if_neg hversion]
    dsimp only
    rw [putEntry_putEntry hget]
    rfl

/-- The entry that `add-device --force` leaves. -/
def forced (info : DeviceInfo) (address : String) (block old : Mapping) : Mapping :=
  Dict.set "hardware" (.map (info.leaves.foldl (fun m leaf => Dict.set leaf.1 leaf.2 m) block))
    (refreshed info address old)

/-- **The entry is changed in place**, where its hardware block is one or there is none. -/
lemma cmdAddDevice_of_block (hfound : findDevice data deviceId = .ok (some (index, old)))
    {block : Mapping} (hblock : Dict.get? "hardware" old = some (.map block) ∨
      Dict.get? "hardware" old = none ∧ block = []) :
    cmdAddDevice true deviceId address description info data =
      .ok (some (putEntry data index (forced info address block old))) := by
  obtain ⟨items, hget, -, -⟩ := items_of_findDevice hfound
  have hkept : getD (refreshed info address old) "id" = getD old "id" := by
    rw [getD, get?_refreshed, if_neg (by decide), if_neg (by decide), getD]
  have hsame : Dict.get? "hardware" (refreshed info address old) = Dict.get? "hardware" old := by
    rw [get?_refreshed, if_neg (by decide), if_neg (by decide)]
  rw [cmdAddDevice_of_found hfound, updateDeviceHardware, findDevice_putEntry hfound hkept]
  dsimp only
  rcases hblock with hblock | ⟨hnone, rfl⟩
  · rw [hsame, hblock]
    dsimp only
    rw [updateHardware_force]
    dsimp only
    rw [putEntry_putEntry hget, forced]
  · rw [hsame, hnone]
    dsimp only
    rw [updateHardware_force]
    dsimp only
    rw [putEntry_putEntry hget, forced]

/-- Any other `hardware` is refused. -/
lemma cmdAddDevice_of_noMapping (hfound : findDevice data deviceId = .ok (some (index, old)))
    (hnot : NoMapping "hardware" old) :
    ∃ e, cmdAddDevice true deviceId address description info data = .error e := by
  obtain ⟨value, hvalue, hother⟩ := hnot
  have hkept : getD (refreshed info address old) "id" = getD old "id" := by
    rw [getD, get?_refreshed, if_neg (by decide), if_neg (by decide), getD]
  have hsame : Dict.get? "hardware" (refreshed info address old) = some value := by
    rw [get?_refreshed, if_neg (by decide), if_neg (by decide), hvalue]
  rw [cmdAddDevice_of_found hfound, updateDeviceHardware, findDevice_putEntry hfound hkept]
  dsimp only
  rw [hsame]
  cases value with
  | map items => exact absurd rfl (hother items)
  | _ => exact ⟨_, rfl⟩

lemma get?_forced_of_ne {key : String} (hkey : key ≠ "hardware") (block : Mapping) :
    Dict.get? key (forced info address block old) = Dict.get? key (refreshed info address old) := by
  rw [forced, Dict.get?_set_of_ne hkey.symm]

lemma hardwareOf_forced (block : Mapping) (key : String) :
    hardwareOf (forced info address block old) key =
      Dict.get? key (info.leaves.foldl (fun m leaf => Dict.set leaf.1 leaf.2 m) block) := by
  rw [hardwareOf, forced, Dict.get?_set_self]

/-- A leaf that the probe has is the probed one, and any other is the old one. -/
lemma hardwareOf_forced_eq (block : Mapping) (key : String) :
    hardwareOf (forced info address block old) key =
      (Dict.get? key info.leaves).or (Dict.get? key block) := by
  rw [hardwareOf_forced, ← Dict.get?_reverse info.nodup_leaves]
  exact Dict.get?_update key block info.leaves

/-- **The entry is up to date** exactly if its runtime was, as no call sets that.

**Proof sketch.** The address, the version and the leaves are set one by one, and all other keys
keep their values. A hardware block that is made for no leaf at all is a field that was not there.
-/
lemma updated_forced_iff {block : Mapping}
    (hblock : Dict.get? "hardware" old = some (.map block) ∨
      Dict.get? "hardware" old = none ∧ block = []) :
    Updated info address old (forced info address block old) ↔
      Dict.get? "runtime" old = some (.str info.name) ∧ HardwareUsable info old := by
  have hruntime : Dict.get? "runtime" (forced info address block old) =
      Dict.get? "runtime" old := by
    rw [get?_forced_of_ne (by decide), get?_refreshed, if_neg (by decide), if_neg (by decide)]
  have hold : ∀ key, hardwareOf old key = Dict.get? key block := by
    intro key
    rcases hblock with hblock | ⟨hnone, rfl⟩
    · rw [hardwareOf, hblock]
    · rw [hardwareOf, hnone]
      rfl
  constructor
  · intro h
    refine ⟨hruntime ▸ h.runtime, ?_⟩
    rcases hblock with hblock | ⟨hnone, rfl⟩
    · exact .inl ⟨block, hblock⟩
    · refine .inr ⟨hnone, fun hempty => ?_⟩
      have hsame := h.fields "hardware"
        ⟨by decide, by decide, fun heq => absurd heq (by decide), fun _ => hempty⟩
      rw [forced, Dict.get?_set_self, hnone] at hsame
      cases hsame
  · rintro ⟨hprobed, husable⟩
    refine ⟨hruntime.trans hprobed, ?_, fun hversion => ?_, fun leaf hleaf => ?_,
      fun key hkey => ?_, fun key hkey => ?_⟩
    · rw [get?_forced_of_ne (by decide), get?_refreshed, if_neg (by decide), if_pos rfl]
    · rw [get?_forced_of_ne (by decide), get?_refreshed, if_pos rfl, firmwareVersion,
        if_neg hversion]
      rfl
    · rw [hardwareOf_forced_eq, (Dict.get?_eq_some_iff info.nodup_leaves).mpr hleaf]
      rfl
    · rw [hardwareOf_forced_eq, Dict.get?_eq_none_iff.mpr hkey, hold]
      rfl
    · obtain ⟨hnotRuntime, hnotAddress, hfirmware, hhardware⟩ := hkey
      by_cases hkey : key = "hardware"
      · subst hkey
        rcases hblock with hblock | ⟨hnone, -⟩
        · rw [forced, hhardware rfl, Dict.get?_set_self, hblock]
          rfl
        · rcases husable with ⟨block', hblock'⟩ | ⟨-, hne⟩
          · rw [hnone] at hblock'
            cases hblock'
          · exact absurd (hhardware rfl) hne
      · rw [get?_forced_of_ne hkey, get?_refreshed, if_neg hnotAddress.symm]
        split_ifs with hversion
        · rw [← hversion, firmwareVersion, if_pos (hfirmware hversion.symm)]
          rfl
        · rfl

/-- **`add-device --force` reflects the probe** exactly if the runtime on file is the probed one,
and there is a hardware block or need of one. -/
lemma forceReflects_iff (hfound : findDevice data deviceId = .ok (some (index, old))) :
    ForceReflects info deviceId address description data index old ↔
      Dict.get? "runtime" old = some (.str info.name) ∧ HardwareUsable info old := by
  obtain ⟨items, hget, hitem, -⟩ := items_of_findDevice hfound
  obtain ⟨hlt, -⟩ := List.getElem?_eq_some_iff.mp hitem
  have hwritten : ∀ {block : Mapping}, (Dict.get? "hardware" old = some (.map block) ∨
      Dict.get? "hardware" old = none ∧ block = []) →
      (ForceReflects info deviceId address description data index old ↔
        Dict.get? "runtime" old = some (.str info.name) ∧ HardwareUsable info old) := by
    intro block hblock
    have hupdated : Updated info address old (forced info address block old) ↔ _ :=
      updated_forced_iff hblock
    rw [← hupdated]
    constructor
    · rintro ⟨data', items', new, hcmd, hitems, hdata', -, hupdated⟩
      rw [cmdAddDevice_of_block hfound hblock, Except.ok.injEq, Option.some.injEq] at hcmd
      rw [hget, Option.some.injEq, Value.seq.injEq] at hitems
      rw [← hcmd, devices_putEntry hget, Option.some.injEq, Value.seq.injEq, ← hitems] at hdata'
      have hnew := congrArg (·[index]?) hdata'
      simp only [List.getElem?_set_self hlt, Option.some.injEq, Value.map.injEq] at hnew
      exact hnew ▸ hupdated
    · intro hupdated
      exact ⟨_, items, _, cmdAddDevice_of_block hfound hblock, hget, devices_putEntry hget,
        fun key hkey => get?_putEntry hkey, hupdated⟩
  cases hhardware : Dict.get? "hardware" old with
  | none => exact hwritten (.inr ⟨hhardware, rfl⟩)
  | some value =>
    by_cases hmap : ∃ block, value = .map block
    · obtain ⟨block, rfl⟩ := hmap
      exact hwritten (.inl hhardware)
    · have hnot : NoMapping "hardware" old :=
        ⟨value, hhardware, fun block heq => hmap ⟨block, heq⟩⟩
      obtain ⟨e, he⟩ : ∃ e, cmdAddDevice true deviceId address description info data = .error e :=
        cmdAddDevice_of_noMapping hfound hnot
      refine iff_of_false ?_ ?_
      · rintro ⟨data', items', new, hcmd, -⟩
        rw [he] at hcmd
        cases hcmd
      · rintro ⟨-, ⟨block, hblock⟩ | ⟨hnone, -⟩⟩
        · rw [hhardware, Option.some.injEq] at hblock
          exact hmap ⟨block, hblock⟩
        · rw [hhardware] at hnone
          cases hnone

end Force

/-! ## `reset-device` -/

section Reset

variable {info : DeviceInfo} {data old : Mapping} {deviceId address : String} {index : ℕ}
  {argument : Option String} {items : List Value}

/-- The removal of an entry: the defaults that name it become null. -/
lemma removeDevice_spec (hget : Dict.get? "devices" data = some (.seq items))
    (hfirst : firstWithId deviceId items = some (index, old)) :
    ∃ data', removeDevice data deviceId = (.ok old, data') ∧
      Dict.get? "devices" data' = some (.seq (items.eraseIdx index)) ∧
      (∀ key, key ≠ "devices" → key ≠ "defaults" → Dict.get? key data' = Dict.get? key data) ∧
      defaultsOf data' = Dict.mapValues (replaceDefault deviceId .null) (defaultsOf data) ∧
      (NoMapping "defaults" data' ↔ NoMapping "defaults" data) := by
  have hlist : devicesList data = (.ok items, data) := by rw [devicesList, hget]
  have hne : "devices" ≠ "defaults" := by decide
  rw [removeDevice, hlist]
  dsimp only
  rw [hfirst]
  dsimp only
  rw [Dict.get?_set_of_ne hne]
  cases hdefaults : Dict.get? "defaults" data with
  | none =>
    refine ⟨_, rfl, Dict.get?_set_self _ _ _, fun key hkey _ => Dict.get?_set_of_ne hkey.symm _ _,
      ?_, ?_⟩
    · rw [defaultsOf, defaultsOf, Dict.get?_set_of_ne hne, hdefaults]
      rfl
    · rw [NoMapping, NoMapping, Dict.get?_set_of_ne hne]
  | some value =>
    cases value with
    | map defaults =>
      refine ⟨_, rfl, ?_, fun key hkey hkey' => ?_, ?_, ?_⟩
      · rw [Dict.get?_set_of_ne hne.symm, Dict.get?_set_self]
      · rw [Dict.get?_set_of_ne hkey'.symm, Dict.get?_set_of_ne hkey.symm]
      · rw [defaultsOf, defaultsOf, Dict.get?_set_self, hdefaults]
      · rw [NoMapping, NoMapping, Dict.get?_set_self, hdefaults]
        simp
    | _ =>
      refine ⟨_, rfl, Dict.get?_set_self _ _ _,
        fun key hkey _ => Dict.get?_set_of_ne hkey.symm _ _, ?_, ?_⟩
      · rw [defaultsOf, defaultsOf, Dict.get?_set_of_ne hne, hdefaults]
        rfl
      · rw [NoMapping, NoMapping, Dict.get?_set_of_ne hne]

/-- A new entry: the default of its runtime is set where there is none. -/
lemma addDevice_spec {new : NewDevice} (hget : Dict.get? "devices" data = some (.seq items))
    (hfresh : firstWithId new.deviceId items = none) (hset : new.setDefault = true)
    (hdefaults : ¬ NoMapping "defaults" data) :
    ∃ data', addDevice data new = (.ok new.entry, data') ∧
      Dict.get? "devices" data' = some (.seq (items ++ [Value.map new.entry])) ∧
      (∀ key, key ≠ "devices" → key ≠ "defaults" → Dict.get? key data' = Dict.get? key data) ∧
      (∀ key value, value ≠ .null → Dict.get? key (defaultsOf data) = some value →
        Dict.get? key (defaultsOf data') = some value) ∧
      (Unset new.runtime (defaultsOf data) →
        Dict.get? new.runtime (defaultsOf data') = some (.str new.deviceId)) := by
  have hlist : devicesList data = (.ok items, data) := by rw [devicesList, hget]
  have hne : "devices" ≠ "defaults" := by decide
  -- the block that the default is looked up in
  obtain ⟨data'', hblock, hdevices, hothers, hview⟩ : ∃ data'',
      defaultsBlock (Dict.set "devices" (.seq (items ++ [Value.map new.entry])) data) =
        (.ok (defaultsOf data), data'') ∧
      Dict.get? "devices" data'' = some (.seq (items ++ [Value.map new.entry])) ∧
      (∀ key, key ≠ "devices" → key ≠ "defaults" → Dict.get? key data'' = Dict.get? key data) ∧
      defaultsOf data'' = defaultsOf data := by
    rw [defaultsBlock, Dict.get?_set_of_ne hne]
    cases hget' : Dict.get? "defaults" data with
    | none =>
      refine ⟨Dict.set "defaults" (.map [])
        (Dict.set "devices" (.seq (items ++ [Value.map new.entry])) data), ?_, ?_,
        fun key hkey hkey' => ?_, ?_⟩
      · rw [defaultsOf, hget']
      · rw [Dict.get?_set_of_ne hne.symm, Dict.get?_set_self]
      · rw [Dict.get?_set_of_ne hkey'.symm, Dict.get?_set_of_ne hkey.symm]
      · rw [defaultsOf, defaultsOf, Dict.get?_set_self, hget']
    | some value =>
      cases value with
      | map defaults =>
        refine ⟨Dict.set "devices" (.seq (items ++ [Value.map new.entry])) data, ?_,
          Dict.get?_set_self _ _ _, fun key hkey _ => Dict.get?_set_of_ne hkey.symm _ _, ?_⟩
        · rw [defaultsOf, hget']
        · rw [defaultsOf, defaultsOf, Dict.get?_set_of_ne hne]
      | _ => exact absurd ⟨_, hget', fun items heq => by cases heq⟩ hdefaults
  rw [addDevice, findDevice_of_seq hget, hfresh]
  dsimp only
  rw [hlist]
  dsimp only
  rw [if_pos hset, hblock]
  dsimp only
  cases hdefault : getD (defaultsOf data) new.runtime with
  | null =>
    have hunset := unset_of_getD hdefault
    refine ⟨_, rfl, ?_, fun key hkey hkey' => ?_, fun key value hvalue hkey => ?_, fun _ => ?_⟩
    · rw [Dict.get?_set_of_ne hne.symm, hdevices]
    · rw [Dict.get?_set_of_ne hkey'.symm, hothers key hkey hkey']
    · have hnot : new.runtime ≠ key := by
        rintro rfl
        rcases hunset with hunset | hunset <;> rw [hunset] at hkey <;> cases hkey
        exact hvalue rfl
      rw [defaultsOf, Dict.get?_set_self]
      dsimp only
      rw [Dict.get?_set_of_ne hnot, hkey]
    · rw [defaultsOf, Dict.get?_set_self]
      exact Dict.get?_set_self _ _ _
  | _ =>
    refine ⟨_, rfl, hdevices, hothers, fun key value _ hkey => by rw [hview, hkey],
      fun hunset => ?_⟩
    rw [getD] at hdefault
    rcases hunset with hunset | hunset <;> rw [hunset] at hdefault <;> cases hdefault

/-- A second entry with the id, or `defaults` that are no mapping, make `add_device` raise. -/
lemma addDevice_raises {new : NewDevice} (hget : Dict.get? "devices" data = some (.seq items))
    (hset : new.setDefault = true)
    (h : firstWithId new.deviceId items ≠ none ∨ NoMapping "defaults" data) :
    ∃ e data', addDevice data new = (.error e, data') := by
  have hlist : devicesList data = (.ok items, data) := by rw [devicesList, hget]
  rw [addDevice, findDevice_of_seq hget]
  cases hfresh : firstWithId new.deviceId items with
  | some found => exact ⟨_, _, rfl⟩
  | none =>
    obtain ⟨value, hvalue, hnot⟩ := h.resolve_left (not_not.mpr hfresh)
    dsimp only
    rw [hlist]
    dsimp only
    rw [if_pos hset, defaultsBlock, Dict.get?_set_of_ne (by decide), hvalue]
    cases value with
    | map defaults => exact absurd rfl (hnot defaults)
    | _ => exact ⟨_, _, rfl⟩

/-- The leaves of the probe are written as they are. -/
lemma foldl_leaves (info : DeviceInfo) :
    info.leaves.foldl (fun m leaf => Dict.set leaf.1 leaf.2 m) [] = info.leaves := by
  unfold leaves hardwareLeaf
  split_ifs <;> simp [Dict.set]

/-- What `reset-device` passes on becomes an entry key by key. -/
lemma entry_newDevice (info : DeviceInfo) (deviceId address : String) :
    (info.newDevice deviceId address none).entry =
      setIf "hardware" ((hardwareFromProbeInfo info).map .map)
        (Dict.set "runtime" (.str info.name)
          (setIf "firmware_version" (info.firmwareVersion.map .str)
            (Dict.set "address" (.str address) (Dict.set "id" (.str deviceId) [])))) := by
  rw [NewDevice.entry, newDevice, hardwareFromProbeInfo]
  by_cases hempty : info.leaves.isEmpty = true
  · rw [if_pos hempty]
    rfl
  · rw [if_neg hempty]
    dsimp only
    rw [if_neg hempty, foldl_leaves]
    rfl

lemma rebuilt_entry (info : DeviceInfo) (deviceId address : String) :
    Rebuilt info deviceId address (info.newDevice deviceId address none).entry := by
  rw [entry_newDevice]
  refine ⟨?_, ?_, ?_, ?_, ?_, fun key hkey => ?_⟩
  all_goals simp only [get?_setIf, Dict.get?_set]
  · rfl
  · rfl
  · rfl
  · simp
  · simp
  · simp only [List.mem_cons, List.not_mem_nil, or_false, not_or] at hkey
    obtain ⟨hid, hruntime, haddress, hfirmware, hhardware⟩ := hkey
    rw [if_neg (Ne.symm hhardware), if_neg (Ne.symm hruntime), if_neg (Ne.symm hfirmware),
      if_neg (Ne.symm haddress), if_neg (Ne.symm hid)]
    rfl

/-- **`reset-device` reflects the probe** exactly if no second entry has the id and the defaults are
a mapping or absent.

**Proof sketch.** The removal takes the entry out and makes the defaults that name it null, which is
as good as unset for the new entry. A second entry with the id would be a duplicate, and then
nothing is written. -/
lemma resetReflects_iff (hfound : findDevice data deviceId = .ok (some (index, old)))
    (haddress : resetAddress argument old = some address) :
    ResetReflects info deviceId address argument data index old ↔
      Resettable data deviceId index := by
  obtain ⟨items, hget, -, -⟩ := items_of_findDevice hfound
  have hfirst : firstWithId deviceId items = some (index, old) := by
    rw [findDevice_of_seq hget, Except.ok.injEq] at hfound
    exact hfound
  obtain ⟨removed, hremove, hdevices, hothers, hdefaults, hmapping⟩ := removeDevice_spec hget hfirst
  have hcmd : cmdResetDevice true deviceId argument info data =
      match addDevice removed (info.newDevice deviceId address none) with
      | (.error e, _) => .error e
      | (.ok _, data) => .ok (some data) := by
    rw [cmdResetDevice, hfound]
    dsimp only
    rw [if_neg (by decide), haddress]
    dsimp only
    rw [hremove]
  constructor
  · rintro ⟨data', items', new, hwritten, -⟩
    rw [hcmd] at hwritten
    have hraises : ¬ (firstWithId deviceId (items.eraseIdx index) ≠ none ∨
        NoMapping "defaults" removed) := by
      intro h
      obtain ⟨e, data'', hadd⟩ : ∃ e data'',
          addDevice removed (info.newDevice deviceId address none) = (.error e, data'') :=
        addDevice_raises hdevices rfl h
      rw [hadd] at hwritten
      cases hwritten
    rw [not_or, not_not, hmapping] at hraises
    refine ⟨fun items' hitems' => ?_, hraises.2⟩
    rw [hget, Option.some.injEq, Value.seq.injEq] at hitems'
    exact hitems' ▸ hraises.1
  · rintro ⟨hfresh, hno⟩
    obtain ⟨data', hadd, hdevices', hothers', hkept, hset⟩ :=
      @addDevice_spec removed _ (info.newDevice deviceId address none) hdevices (hfresh items hget)
        rfl (hmapping.not.mpr hno)
    refine ⟨data', items, _, by rw [hcmd, hadd], hget, hdevices',
      fun key hkey hkey' => (hothers' key hkey hkey').trans (hothers key hkey hkey'),
      rebuilt_entry info deviceId address, fun key other hne hother => ?_, fun _ hwas => ?_⟩
    · refine hkept key _ (by simp) ?_
      rw [hdefaults, Dict.get?_mapValues, hother]
      exact map_replaceDefault_of_ne (by simpa using hne)
    · refine hset (.inr ?_)
      rw [hdefaults, Dict.get?_mapValues]
      exact (congrArg (Option.map _) hwas).trans (map_replaceDefault_self _ _)

end Reset

/-- **Registering a board again reflects the probe**, for every document and every id that has an
entry in it: `add-device --force` exactly if the board has the runtime that is on file, as the
command refreshes everything that was probed but the runtime (and if the hardware can be written as
a block); `reset-device` whenever no second entry has the id and the defaults can be set. -/
theorem reflects_probe_iff (info : DeviceInfo) (data old : Mapping) (deviceId address : String)
    (description argument : Option String) (index : ℕ)
    (hfound : findDevice data deviceId = .ok (some (index, old))) :
    (ForceReflects info deviceId address description data index old ↔
      Dict.get? "runtime" old = some (.str info.name) ∧ HardwareUsable info old) ∧
    (resetAddress argument old = some address →
      (ResetReflects info deviceId address argument data index old ↔
        Resettable data deviceId index)) :=
  ⟨forceReflects_iff hfound, resetReflects_iff hfound⟩

/-! ## A board that was reflashed -/

/-- A registry with one board, which runs CircuitPython. -/
def porchRegistry : Mapping :=
  [("defaults", .map [("circuitpython", .str "porch")]),
    ("devices", .seq [.map [("id", .str "porch"), ("address", .str "/dev/ttyACM0"),
      ("runtime", .str "circuitpython")]])]

/-- The probe of the board after MicroPython was flashed to it. -/
def porchProbe : DeviceInfo := ⟨"micropython", "1.26.0", "Raspberry Pi Pico W", "", "E661"⟩

/-- The entry of the board still says CircuitPython after `add-device --force`. -/
theorem porch_not_reflected :
    ∃ old, findDevice porchRegistry "porch" = .ok (some (0, old)) ∧
      ¬ ForceReflects porchProbe "porch" "/dev/ttyACM0" none porchRegistry 0 old := by
  refine ⟨_, rfl, fun h => ?_⟩
  have hruntime := ((forceReflects_iff rfl).mp h).1
  simp [Dict.get?, porchProbe] at hruntime

theorem reflects_probe_iff_porch :
    ∃ old, findDevice porchRegistry "porch" = .ok (some (0, old)) ∧
      (ForceReflects porchProbe "porch" "/dev/ttyACM0" none porchRegistry 0 old ↔
        Dict.get? "runtime" old = some (.str "micropython") ∧ HardwareUsable porchProbe old) ∧
      (ResetReflects porchProbe "porch" "/dev/ttyACM0" none porchRegistry 0 old ↔
        Resettable porchRegistry "porch" 0) := by
  have hboth := reflects_probe_iff porchProbe porchRegistry _ "porch" "/dev/ttyACM0" none none 0 rfl
  exact ⟨_, rfl, hboth.1, hboth.2 rfl⟩

end ChuMicro.Workspace
