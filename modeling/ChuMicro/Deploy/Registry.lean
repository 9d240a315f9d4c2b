import ChuMicro.Deploy.DevicesYaml
import Mathlib.Data.List.Nodup

/-!
# The integrity of the device registry

What any sequence of edits does to a registry document. The document is looked at through its list
of entries and its defaults, and every edit is one of a few effects on these two (`Effect`).

The edits that take an id away from its entry, by renaming or removing it, rewrite every default
whose value is that id, whatever the default is for. So the integrity is kept in exactly the runs in
which no id that is taken away is also the value of `defaults.deploy_mode` or
`defaults.ide_runtime`.

## Main definitions

* `Deploy.view` — the entries and the defaults of a document.
* `Deploy.WellFormed` — a registry that is sound, from which the runs start.
* `Deploy.Effect` — what an edit can do.
* `Deploy.Op.Retires` — the edit takes this id away from its entry.
* `Deploy.Kept`, `Deploy.OthersKept` — what is to hold in every state reached.

## Main results

* `Deploy.effect_step` — every edit is one of the effects.
* `Deploy.accepted_iff` — when the loader accepts a document of the right shape.
* `Deploy.registry_integrity_iff` — the exact runs that keep the registry sound.
-/

namespace ChuMicro.Deploy

/-! ## Views of a document -/

/-- A value that is a mapping. -/
def asMap : Value → Option Mapping
  | .map items => some items
  | _ => none

/-- The entries of a document. -/
def entriesOf (data : Mapping) : List Mapping :=
  match Dict.get? "devices" data with
  | some (.seq items) => items.filterMap asMap
  | _ => []

/-- The defaults of a document. -/
def defaultsOf (data : Mapping) : Mapping :=
  match Dict.get? "defaults" data with
  | some (.map items) => items
  | _ => []

/-- The part of a document that the edits are about: its entries and its defaults. -/
abbrev View := List Mapping × Mapping

/-- The entries and the defaults of a document. -/
def view (data : Mapping) : View := (entriesOf data, defaultsOf data)

/-- The entry has this id. -/
def HasId (deviceId : String) (entry : Mapping) : Prop :=
  Dict.get? "id" entry = some (.str deviceId)

/-- `devices` is absent, null or a list of mappings, and `defaults` a mapping or nothing. -/
structure Shape (data : Mapping) : Prop where
  devices : Dict.get? "devices" data = none ∨ Dict.get? "devices" data = some .null ∨
    ∃ entries : List Mapping, Dict.get? "devices" data = some (.seq (entries.map .map))
  defaults : (getD data "defaults").truthy = false ∨
    ∃ items, Dict.get? "defaults" data = some (.map items)

/-- A default that names no device: absent or null. -/
def Unset (key : String) (defaults : Mapping) : Prop :=
  Dict.get? key defaults = none ∨ Dict.get? key defaults = some .null

/-- The ids of the entries, in order. -/
def idsOf (entries : List Mapping) : List (Option Value) := entries.map (Dict.get? "id")

/-- Ids are non-empty strings and unique, the runtime defaults are unset or name an entry, and the
other two defaults are valid. -/
structure Sound (v : View) : Prop where
  ids : ∀ found ∈ idsOf v.1, ∃ deviceId, deviceId ≠ "" ∧ found = some (.str deviceId)
  unique : (idsOf v.1).Nodup
  refs : ∀ runtime ∈ VALID_RUNTIMES, Unset runtime v.2 ∨
    ∃ deviceId, Dict.get? runtime v.2 = some (.str deviceId) ∧ some (.str deviceId) ∈ idsOf v.1
  deployMode : passes (isOneOf VALID_DEPLOY_MODES) (Dict.get? "deploy_mode" v.2) = true
  ideRuntime : passes (isOneOf VALID_IDE_RUNTIMES) (Dict.get? "ide_runtime" v.2) = true

/-- A registry document as the edits are to keep it. -/
structure WellFormed (data : Mapping) : Prop where
  shape : Shape data
  sound : Sound (view data)

/-! ## Lookups in a document of the right shape -/

section Lookups

variable {data : Mapping}

/-- The mappings among mappings are all of them. -/
lemma filterMap_asMap_map (entries : List Mapping) :
    (entries.map Value.map).filterMap asMap = entries := by
  induction entries with
  | nil => rfl
  | cons entry rest ih =>
    rw [List.map_cons, List.filterMap_cons]
    simp only [asMap, ih]

/-- The loops over the devices go through the entries. -/
lemma iterDevices_of_shape (h : Shape data) :
    iterDevices data = .ok ((entriesOf data).map .map) := by
  rcases h.devices with hd | hd | ⟨entries, hd⟩
  · simp [iterDevices, entriesOf, getD, hd, Value.truthy]
  · simp [iterDevices, entriesOf, getD, hd, Value.truthy]
  · rw [iterDevices, entriesOf, getD, hd, Option.getD_some]
    dsimp only
    rw [filterMap_asMap_map]
    by_cases hempty : (Value.seq (entries.map .map)).truthy = false
    · rw [if_pos hempty]
      cases entries with
      | nil => rfl
      | cons entry rest => simp [Value.truthy] at hempty
    · rw [if_neg hempty]

variable {deviceId : String} {entry : Mapping}

/-- The comparison of an id with a text. -/
lemma isStr_getD_iff : (getD entry "id").isStr deviceId = true ↔ HasId deviceId entry := by
  rw [getD, HasId]
  cases hid : Dict.get? "id" entry with
  | none => simp [Value.isStr]
  | some value =>
    cases value with
    | str text => simp [Value.isStr]
    | _ => simp [Value.isStr]

/-- No entry with this id is found where none is. -/
lemma firstWithId_eq_none {entries : List Mapping} :
    firstWithId deviceId (entries.map .map) = none ↔ ∀ entry ∈ entries, ¬ HasId deviceId entry := by
  induction entries with
  | nil => simp [firstWithId]
  | cons entry rest ih =>
    rw [List.map_cons, firstWithId, List.forall_mem_cons]
    by_cases hid : HasId deviceId entry
    · rw [if_pos (isStr_getD_iff.mpr hid)]
      simp [hid]
    · rw [if_neg (by rwa [isStr_getD_iff]), Option.map_eq_none_iff, ih]
      simp [hid]

/-- The entry that is found has the id, and the index is its place. -/
lemma firstWithId_eq_some {entries : List Mapping} {index : ℕ}
    (h : firstWithId deviceId (entries.map .map) = some (index, entry)) :
    ∃ before after, entries = before ++ entry :: after ∧ index = before.length ∧
      HasId deviceId entry := by
  induction entries generalizing index with
  | nil => simp [firstWithId] at h
  | cons first rest ih =>
    rw [List.map_cons, firstWithId] at h
    split_ifs at h with hid
    · cases h
      exact ⟨[], rest, rfl, rfl, isStr_getD_iff.mp hid⟩
    · rw [Option.map_eq_some_iff] at h
      obtain ⟨⟨i, e⟩, hfound, heq⟩ := h
      cases heq
      obtain ⟨before, after, rfl, rfl, hid⟩ := ih hfound
      exact ⟨first :: before, after, rfl, rfl, hid⟩

/-- `find_device` finds nothing exactly where no entry has the id. -/
lemma findDevice_eq_none (h : Shape data) :
    findDevice data deviceId = .ok none ↔ ∀ entry ∈ entriesOf data, ¬ HasId deviceId entry := by
  rw [findDevice, iterDevices_of_shape h, ok_bind, ← firstWithId_eq_none, Except.ok.injEq]

/-- `find_device` returns an entry with the id. -/
lemma findDevice_eq_some (h : Shape data) {index : ℕ}
    (hfound : findDevice data deviceId = .ok (some (index, entry))) :
    ∃ before after, entriesOf data = before ++ entry :: after ∧ index = before.length ∧
      HasId deviceId entry := by
  rw [findDevice, iterDevices_of_shape h, ok_bind, Except.ok.injEq] at hfound
  exact firstWithId_eq_some hfound

/-- `find_device` does not raise. -/
lemma findDevice_ne_error (h : Shape data) {e : RegistryExn} :
    findDevice data deviceId ≠ .error e := by
  rw [findDevice, iterDevices_of_shape h, ok_bind]
  simp

end Lookups

/-! ## Writing to a document of the right shape -/

open Dict

section Writes

variable {data : Mapping}

/-- The list of devices replaced. -/
lemma view_setDevices (h : Shape data) (entries : List Mapping) :
    Shape (set "devices" (.seq (entries.map .map)) data) ∧
      view (set "devices" (.seq (entries.map .map)) data) = (entries, defaultsOf data) := by
  have hne : "devices" ≠ "defaults" := by decide
  refine ⟨⟨.inr (.inr ⟨entries, Dict.get?_set_self _ _ _⟩), ?_⟩, ?_⟩
  · rw [getD, Dict.get?_set_of_ne hne]
    exact h.defaults
  · rw [view, entriesOf, defaultsOf, Dict.get?_set_self, Dict.get?_set_of_ne hne]
    dsimp only
    rw [filterMap_asMap_map, defaultsOf]

/-- The defaults replaced. -/
lemma view_setDefaults (h : Shape data) (items : Mapping) :
    Shape (set "defaults" (.map items) data) ∧
      view (set "defaults" (.map items) data) = (entriesOf data, items) := by
  have hne : "defaults" ≠ "devices" := by decide
  refine ⟨⟨?_, .inr ⟨items, Dict.get?_set_self _ _ _⟩⟩, ?_⟩
  · rw [Dict.get?_set_of_ne hne]
    exact h.devices
  · rw [view, entriesOf, defaultsOf, Dict.get?_set_self, Dict.get?_set_of_ne hne, entriesOf]

/-- One entry changed in place. -/
lemma view_putEntry (h : Shape data) {before after : List Mapping} {entry : Mapping}
    (hentries : entriesOf data = before ++ entry :: after) (entry' : Mapping) :
    Shape (putEntry data before.length entry') ∧
      view (putEntry data before.length entry') =
        (before ++ entry' :: after, defaultsOf data) := by
  rcases h.devices with hd | hd | ⟨entries, hd⟩
  · simp [entriesOf, hd] at hentries
  · simp [entriesOf, hd] at hentries
  · rw [entriesOf, hd] at hentries
    dsimp only at hentries
    rw [filterMap_asMap_map] at hentries
    subst hentries
    have hset : ((before ++ entry :: after).map Value.map).set before.length (.map entry') =
        (before ++ entry' :: after).map Value.map := by
      rw [List.map_append, List.set_append_right _ _ (by simp)]
      simp
    rw [putEntry, hd]
    dsimp only
    rw [hset]
    exact view_setDevices h _

/-- `_devices_list` returns the entries, or raises where there are none. -/
lemma devicesList_spec (h : Shape data) :
    (∃ data', devicesList data = (.ok ((entriesOf data).map .map), data') ∧ Shape data' ∧
      view data' = view data) ∨
    ∃ e, devicesList data = (.error e, data) ∧ entriesOf data = [] := by
  rcases h.devices with hd | hd | ⟨entries, hd⟩
  · have hentries : entriesOf data = [] := by simp [entriesOf, hd]
    obtain ⟨hshape, hview⟩ := view_setDevices h []
    refine .inl ⟨_, by simp only [devicesList, hd, hentries, List.map_nil], hshape, ?_⟩
    rw [hview, view, hentries]
  · right
    rw [devicesList, hd]
    exact ⟨_, rfl, by simp [entriesOf, hd]⟩
  · refine .inl ⟨data, ?_, h, rfl⟩
    simp only [devicesList, hd, entriesOf, filterMap_asMap_map]

/-- `_defaults_block` returns the defaults, or raises. -/
lemma defaultsBlock_spec (h : Shape data) :
    (∃ data', defaultsBlock data = (.ok (defaultsOf data), data') ∧ Shape data' ∧
      view data' = view data) ∨
    ∃ e, defaultsBlock data = (.error e, data) := by
  cases hd : Dict.get? "defaults" data with
  | none =>
    have hdefaults : defaultsOf data = [] := by simp [defaultsOf, hd]
    obtain ⟨hshape, hview⟩ := view_setDefaults h []
    refine .inl ⟨_, by simp only [defaultsBlock, hd, hdefaults], hshape, ?_⟩
    rw [hview, view, hdefaults]
  | some value =>
    cases value with
    | map items => exact .inl ⟨data, by simp only [defaultsBlock, hd, defaultsOf], h, rfl⟩
    | _ =>
      right
      rw [defaultsBlock, hd]
      exact ⟨_, rfl⟩

end Writes

/-! ## Effects -/

/-- The edit takes `deviceId` away from the entry that has it: the entry is renamed or removed. -/
def Op.Retires (op : Op) (deviceId : String) (v : View) : Prop :=
  match op with
  | .renameDevice oldId newId =>
    oldId = deviceId ∧ (∃ entry ∈ v.1, HasId oldId entry) ∧ ∀ entry ∈ v.1, ¬ HasId newId entry
  | .removeDevice removed => removed = deviceId ∧ ∃ entry ∈ v.1, HasId removed entry
  | _ => False

/-- The ids that the edit is about. -/
def Op.named : Op → List String
  | .addDevice new => [new.deviceId]
  | .updateDeviceAddress deviceId _ => [deviceId]
  | .updateDeviceFirmwareVersion deviceId _ => [deviceId]
  | .updateDeviceHardware deviceId _ _ => [deviceId]
  | .renameDevice oldId newId => [oldId, newId]
  | .removeDevice deviceId => [deviceId]
  | .setRuntimeDefault _ deviceId => [deviceId]

/-- The keys of an entry that a probe refreshes. -/
def PROBED_KEYS : List String := ["address", "firmware_version", "hardware"]

/-- **What an edit can do** to the entries and the defaults. -/
inductive Effect : Op → View → View → Prop where
  | nothing (op : Op) (v : View) (kept : ∀ deviceId, ¬ op.Retires deviceId v) : Effect op v v
  | added (new : NewDevice) (entries : List Mapping) (defaults defaults' : Mapping)
      (fresh : ∀ entry ∈ entries, ¬ HasId new.deviceId entry)
      (default : defaults' = defaults ∨ Unset new.runtime defaults ∧
        defaults' = Dict.set new.runtime (.str new.deviceId) defaults) :
      Effect (.addDevice new) (entries, defaults) (entries ++ [new.entry], defaults')
  | updated (op : Op) (deviceId : String) (before after : List Mapping) (entry defaults : Mapping)
      (key : String) (value : Value) (named : op.named = [deviceId])
      (kept : ∀ deviceId v, ¬ op.Retires deviceId v) (hid : HasId deviceId entry)
      (probed : key ∈ PROBED_KEYS) :
      Effect op (before ++ entry :: after, defaults)
        (before ++ Dict.set key value entry :: after, defaults)
  | renamed (oldId newId : String) (before after : List Mapping) (entry defaults : Mapping)
      (hid : HasId oldId entry)
      (fresh : ∀ entry' ∈ before ++ entry :: after, ¬ HasId newId entry') :
      Effect (.renameDevice oldId newId) (before ++ entry :: after, defaults)
        (before ++ Dict.set "id" (.str newId) entry :: after,
          Dict.mapValues (replaceDefault oldId (.str newId)) defaults)
  | removed (deviceId : String) (before after : List Mapping) (entry defaults : Mapping)
      (hid : HasId deviceId entry) :
      Effect (.removeDevice deviceId) (before ++ entry :: after, defaults)
        (before ++ after, Dict.mapValues (replaceDefault deviceId .null) defaults)
  | defaulted (runtime deviceId : String) (entries : List Mapping) (defaults : Mapping)
      (found : ∃ entry ∈ entries, HasId deviceId entry) :
      Effect (.setRuntimeDefault runtime deviceId) (entries, defaults)
        (entries, Dict.set runtime (.str deviceId) defaults)

section Steps

variable {data : Mapping}

/-- The defaults are nothing, or a mapping that is not empty. -/
lemma defaults_cases (h : Shape data) :
    ((getD data "defaults").truthy = false ∧ defaultsOf data = []) ∨
      ((getD data "defaults").truthy ≠ false ∧
        getD data "defaults" = .map (defaultsOf data)) := by
  by_cases htruthy : (getD data "defaults").truthy = false
  · refine .inl ⟨htruthy, ?_⟩
    rw [getD] at htruthy
    rw [defaultsOf]
    split
    case h_1 items hget =>
      rw [hget] at htruthy
      simpa [Value.truthy] using htruthy
    case h_2 => rfl
  · obtain ⟨items, hget⟩ := h.defaults.resolve_left htruthy
    exact .inr ⟨htruthy, by rw [getD, defaultsOf, hget]; rfl⟩

/-- A default that reads as null is unset. -/
lemma unset_of_getD {key : String} {defaults : Mapping} (h : getD defaults key = .null) :
    Unset key defaults := by
  rw [getD] at h
  cases hget : Dict.get? key defaults with
  | none => exact .inl hget
  | some value =>
    rw [hget] at h
    cases h
    exact .inr hget

/-- `add_device` has an effect. -/
lemma effect_addDevice (h : Shape data) (new : NewDevice) :
    Shape (addDevice data new).2 ∧
      Effect (.addDevice new) (view data) (view (addDevice data new).2) := by
  have hnothing : Effect (.addDevice new) (view data) (view data) :=
    .nothing _ _ fun _ => not_false
  rw [addDevice]
  cases hfind : findDevice data new.deviceId with
  | error e => exact absurd hfind (findDevice_ne_error h)
  | ok found =>
    cases found with
    | some found => exact ⟨h, hnothing⟩
    | none =>
      have hfresh := (findDevice_eq_none h).mp hfind
      dsimp only
      rcases devicesList_spec h with ⟨data', hlist, hshape, hview⟩ | ⟨e, hlist, -⟩
      · obtain ⟨hentries, hdefaults⟩ := Prod.mk.inj hview
        rw [hlist]
        dsimp only
        rw [show (entriesOf data).map Value.map ++ [Value.map new.entry] =
          (entriesOf data ++ [new.entry]).map Value.map by simp]
        obtain ⟨hshape₂, hview₂⟩ := view_setDevices hshape (entriesOf data ++ [new.entry])
        rw [hdefaults] at hview₂
        have hkept : Effect (.addDevice new) (view data)
            (entriesOf data ++ [new.entry], defaultsOf data) :=
          .added new _ _ _ hfresh (.inl rfl)
        split_ifs
        · rcases defaultsBlock_spec hshape₂ with ⟨data₃, hblock, hshape₃, hview₃⟩ | ⟨e, hblock⟩
          · rw [hblock]
            dsimp only
            rw [hview₂] at hview₃
            obtain ⟨hentries₃, hdefaults₃⟩ := Prod.mk.inj hview₃
            obtain ⟨-, hdefaults₂⟩ := Prod.mk.inj hview₂
            split
            case h_1 hnull =>
              rw [hdefaults₂] at hnull ⊢
              obtain ⟨hshape₄, hview₄⟩ := view_setDefaults hshape₃
                (set new.runtime (.str new.deviceId) (defaultsOf data))
              refine ⟨hshape₄, ?_⟩
              rw [hview₄, hentries₃]
              exact .added new _ _ _ hfresh (.inr ⟨unset_of_getD hnull, rfl⟩)
            case h_2 => exact ⟨hshape₃, hview₃ ▸ hkept⟩
          · rw [hblock]
            exact ⟨hshape₂, hview₂ ▸ hkept⟩
        · exact ⟨hshape₂, hview₂ ▸ hkept⟩
      · rw [hlist]
        exact ⟨h, hnothing⟩

/-- A refresh of one key has an effect. -/
lemma effect_updateField (h : Shape data) {op : Op} {key deviceId : String} (text : String)
    (named : op.named = [deviceId]) (kept : ∀ deviceId v, ¬ op.Retires deviceId v)
    (probed : key ∈ PROBED_KEYS) :
    Shape (updateField key data deviceId text).2 ∧
      Effect op (view data) (view (updateField key data deviceId text).2) := by
  rw [updateField]
  cases hfind : findDevice data deviceId with
  | error e => exact absurd hfind (findDevice_ne_error h)
  | ok found =>
    cases found with
    | none => exact ⟨h, .nothing _ _ fun _ => kept _ _⟩
    | some found =>
      obtain ⟨index, entry⟩ := found
      obtain ⟨before, after, hentries, rfl, hid⟩ := findDevice_eq_some h hfind
      obtain ⟨hshape, hview⟩ := view_putEntry h hentries (set key (.str text) entry)
      refine ⟨hshape, ?_⟩
      dsimp only
      rw [hview, view, hentries]
      exact .updated op deviceId _ _ _ _ _ _ named kept hid probed

/-- `update_device_hardware` has an effect. -/
lemma effect_updateDeviceHardware (h : Shape data) (deviceId : String) (hardware : Mapping)
    (force : Bool) :
    Shape (updateDeviceHardware data deviceId hardware force).2 ∧
      Effect (.updateDeviceHardware deviceId hardware force) (view data)
        (view (updateDeviceHardware data deviceId hardware force).2) := by
  have hnothing : Effect (.updateDeviceHardware deviceId hardware force) (view data) (view data) :=
    .nothing _ _ fun _ => not_false
  rw [updateDeviceHardware]
  cases hfind : findDevice data deviceId with
  | error e => exact absurd hfind (findDevice_ne_error h)
  | ok found =>
    cases found with
    | none => exact ⟨h, hnothing⟩
    | some found =>
      obtain ⟨index, entry⟩ := found
      obtain ⟨before, after, hentries, rfl, hid⟩ := findDevice_eq_some h hfind
      -- whatever block the loop leaves is written back
      have hput : ∀ block : Mapping,
          Shape (putEntry data before.length (set "hardware" (.map block) entry)) ∧
          Effect (.updateDeviceHardware deviceId hardware force) (view data)
            (view (putEntry data before.length (set "hardware" (.map block) entry))) := by
        intro block
        obtain ⟨hshape, hview⟩ :=
          view_putEntry h hentries (set "hardware" (.map block) entry)
        refine ⟨hshape, ?_⟩
        rw [hview, view, hentries]
        exact .updated _ deviceId _ _ _ _ _ _ rfl (fun _ _ => not_false) hid (by decide)
      dsimp only
      cases hblock : Dict.get? "hardware" entry with
      | none => exact hput _
      | some value =>
        cases value with
        | map block => exact hput _
        | _ => exact ⟨h, hnothing⟩

/-- `rename_device` has an effect. -/
lemma effect_renameDevice (h : Shape data) (oldId newId : String) :
    Shape (renameDevice data oldId newId).2 ∧
      Effect (.renameDevice oldId newId) (view data) (view (renameDevice data oldId newId).2) := by
  rw [renameDevice]
  cases hold : findDevice data oldId with
  | error e => exact absurd hold (findDevice_ne_error h)
  | ok found =>
    cases found with
    | none =>
      have hnone := (findDevice_eq_none h).mp hold
      refine ⟨h, .nothing _ _ ?_⟩
      rintro deviceId ⟨-, ⟨entry, hentry, hid⟩, -⟩
      exact hnone entry hentry hid
    | some found =>
      obtain ⟨index, entry⟩ := found
      obtain ⟨before, after, hentries, rfl, hid⟩ := findDevice_eq_some h hold
      dsimp only
      cases hnew : findDevice data newId with
      | error e => exact absurd hnew (findDevice_ne_error h)
      | ok found =>
        cases found with
        | some found =>
          obtain ⟨index', entry'⟩ := found
          obtain ⟨before', after', hentries', -, hid'⟩ := findDevice_eq_some h hnew
          refine ⟨h, .nothing _ _ ?_⟩
          rintro deviceId ⟨-, -, hfresh⟩
          exact hfresh entry' (by simp [view, hentries']) hid'
        | none =>
          have hfresh := (findDevice_eq_none h).mp hnew
          obtain ⟨hshape, hview⟩ := view_putEntry h hentries (set "id" (.str newId) entry)
          obtain ⟨hentries₂, hdefaults₂⟩ := Prod.mk.inj hview
          have hrenamed := Effect.renamed oldId newId before after entry (defaultsOf data) hid
            (hentries ▸ hfresh)
          dsimp only
          rcases defaults_cases hshape with ⟨htruthy, hempty⟩ | ⟨htruthy, hmap⟩
          · rw [if_pos htruthy]
            refine ⟨hshape, ?_⟩
            rw [hempty] at hdefaults₂
            rw [← hdefaults₂] at hrenamed
            rw [hview, view, hentries, ← hdefaults₂]
            exact hrenamed
          · rw [if_neg htruthy, hmap, hdefaults₂]
            obtain ⟨hshape₃, hview₃⟩ := view_setDefaults hshape
              (mapValues (replaceDefault oldId (.str newId)) (defaultsOf data))
            refine ⟨hshape₃, ?_⟩
            dsimp only
            rw [hview₃, hentries₂, view, hentries]
            exact hrenamed

/-- `remove_device` has an effect. -/
lemma effect_removeDevice (h : Shape data) (deviceId : String) :
    Shape (removeDevice data deviceId).2 ∧
      Effect (.removeDevice deviceId) (view data) (view (removeDevice data deviceId).2) := by
  rw [removeDevice]
  rcases devicesList_spec h with ⟨data', hlist, hshape, hview⟩ | ⟨e, hlist, hempty⟩
  · rw [hlist]
    dsimp only
    obtain ⟨hentries', hdefaults'⟩ := Prod.mk.inj hview
    cases hfind : firstWithId deviceId ((entriesOf data).map .map) with
    | none =>
      have hnone := firstWithId_eq_none.mp hfind
      refine ⟨hshape, ?_⟩
      dsimp only
      rw [hview]
      refine .nothing _ _ ?_
      rintro removed ⟨-, entry, hentry, hid⟩
      exact hnone entry hentry hid
    | some found =>
      obtain ⟨index, entry⟩ := found
      obtain ⟨before, after, hentries, rfl, hid⟩ := firstWithId_eq_some hfind
      have herase : ((entriesOf data).map Value.map).eraseIdx before.length =
          (before ++ after).map Value.map := by
        rw [hentries, List.map_append, List.eraseIdx_append_of_length_le (by simp)]
        simp
      have hremoved := Effect.removed deviceId before after entry (defaultsOf data) hid
      dsimp only
      rw [herase]
      obtain ⟨hshape₂, hview₂⟩ := view_setDevices hshape (before ++ after)
      rw [hdefaults'] at hview₂
      obtain ⟨hentries₂, hdefaults₂⟩ := Prod.mk.inj hview₂
      split
      case h_1 defaults hget =>
        have hdefaults : defaults = defaultsOf data := by
          rw [← hdefaults₂, defaultsOf, hget]
        obtain ⟨hshape₃, hview₃⟩ := view_setDefaults hshape₂
          (mapValues (replaceDefault deviceId .null) defaults)
        refine ⟨hshape₃, ?_⟩
        rw [hview₃, hentries₂, hdefaults, view, hentries]
        exact hremoved
      case h_2 hnone =>
        have hdefaults : defaultsOf data = [] := by
          rw [← hdefaults₂, defaultsOf]
          split
          case h_1 items hget => exact absurd hget (hnone items)
          case h_2 => rfl
        refine ⟨hshape₂, ?_⟩
        rw [hdefaults] at hremoved hview₂
        rw [hview₂, view, hentries, hdefaults]
        exact hremoved
  · rw [hlist]
    refine ⟨h, .nothing _ _ ?_⟩
    rintro removed ⟨-, entry, hentry, -⟩
    rw [view, hempty] at hentry
    cases hentry

/-- `set_runtime_default` has an effect. -/
lemma effect_setRuntimeDefault (h : Shape data) (runtime deviceId : String) :
    Shape (setRuntimeDefault data runtime deviceId).2 ∧
      Effect (.setRuntimeDefault runtime deviceId) (view data)
        (view (setRuntimeDefault data runtime deviceId).2) := by
  have hnothing : Effect (.setRuntimeDefault runtime deviceId) (view data) (view data) :=
    .nothing _ _ fun _ => not_false
  rw [setRuntimeDefault]
  cases hfind : findDevice data deviceId with
  | error e => exact absurd hfind (findDevice_ne_error h)
  | ok found =>
    cases found with
    | none => exact ⟨h, hnothing⟩
    | some found =>
      obtain ⟨index, entry⟩ := found
      obtain ⟨before, after, hentries, -, hid⟩ := findDevice_eq_some h hfind
      dsimp only
      rcases defaultsBlock_spec h with ⟨data', hblock, hshape, hview⟩ | ⟨e, hblock⟩
      · rw [hblock]
        obtain ⟨hentries', -⟩ := Prod.mk.inj hview
        obtain ⟨hshape₂, hview₂⟩ := view_setDefaults hshape
          (set runtime (.str deviceId) (defaultsOf data))
        refine ⟨hshape₂, ?_⟩
        dsimp only
        rw [hview₂, hentries']
        exact .defaulted runtime deviceId _ _ ⟨entry, by simp [hentries], hid⟩
      · rw [hblock]
        exact ⟨h, hnothing⟩

/-- **Every edit is one of the effects**, and keeps the shape of the document. -/
theorem effect_step (h : Shape data) (op : Op) :
    Shape (step data op) ∧ Effect op (view data) (view (step data op)) := by
  cases op with
  | addDevice new => exact effect_addDevice h new
  | updateDeviceAddress deviceId newAddress =>
    exact effect_updateField h newAddress rfl (fun _ _ => not_false) (by decide)
  | updateDeviceFirmwareVersion deviceId newVersion =>
    exact effect_updateField h newVersion rfl (fun _ _ => not_false) (by decide)
  | updateDeviceHardware deviceId hardware force =>
    exact effect_updateDeviceHardware h deviceId hardware force
  | renameDevice oldId newId => exact effect_renameDevice h oldId newId
  | removeDevice deviceId => exact effect_removeDevice h deviceId
  | setRuntimeDefault runtime deviceId => exact effect_setRuntimeDefault h runtime deviceId

end Steps

/-! ## What the effects keep -/

/-- What the callers of the edits promise: ids are not empty, a runtime is one of the two, and the
deploy mode of a new entry is absent or valid. -/
def Op.Valid : Op → Prop
  | .addDevice new => new.deviceId ≠ "" ∧ new.runtime ∈ VALID_RUNTIMES ∧
      ∀ mode, new.deployMode = some mode → mode ∈ VALID_DEPLOY_MODES
  | .renameDevice _ newId => newId ≠ ""
  | .setRuntimeDefault runtime _ => runtime ∈ VALID_RUNTIMES
  | _ => True

/-- No id that the edit takes away is the value of a default that is no reference. -/
def Op.Safe (op : Op) (v : View) : Prop :=
  ∀ deviceId, op.Retires deviceId v →
    Dict.get? "deploy_mode" v.2 ≠ some (.str deviceId) ∧
      Dict.get? "ide_runtime" v.2 ≠ some (.str deviceId)

section Kept

/-- The comparison of a value with a text. -/
lemma isStr_iff {text : String} {value : Value} :
    value.isStr text = true ↔ value = .str text := by
  cases value with
  | str text' => simp [Value.isStr]
  | _ => simp [Value.isStr]

/-- A default with another value is not rewritten. -/
lemma map_replaceDefault_of_ne {text : String} {new : Value} {value : Option Value}
    (h : value ≠ some (.str text)) : value.map (replaceDefault text new) = value := by
  cases value with
  | none => rfl
  | some value =>
    rw [Option.map_some, replaceDefault, if_neg]
    rw [isStr_iff]
    rintro rfl
    exact h rfl

/-- A default with that value is rewritten. -/
lemma map_replaceDefault_self (text : String) (new : Value) :
    (some (Value.str text)).map (replaceDefault text new) = some new := by
  rw [Option.map_some, replaceDefault, if_pos (isStr_iff.mpr rfl)]

variable {defaults : Mapping} {deviceId : String} {entries : List Mapping}

/-- An unset default stays unset. -/
lemma Unset.mapValues {key : String} (h : Unset key defaults) (text : String) (new : Value) :
    Unset key (mapValues (replaceDefault text new) defaults) := by
  rw [Unset, Dict.get?_mapValues]
  rcases h with h | h
  · exact .inl (by rw [h]; rfl)
  · exact .inr (by rw [h]; rfl)

/-- The keys of the runtime defaults are not those of the other two. -/
lemma ne_of_mem_runtimes {runtime : String} (h : runtime ∈ VALID_RUNTIMES) :
    runtime ≠ "deploy_mode" ∧ runtime ≠ "ide_runtime" := by
  simp only [VALID_RUNTIMES, List.mem_cons, List.not_mem_nil, or_false] at h
  rcases h with rfl | rfl <;> decide

/-- The ids around a changed entry. -/
lemma idsOf_append_cons (before after : List Mapping) (entry : Mapping) :
    idsOf (before ++ entry :: after) =
      idsOf before ++ Dict.get? "id" entry :: idsOf after := by
  rw [idsOf, List.map_append, List.map_cons, idsOf, idsOf]

/-- Some entry has an id exactly if it is among the ids. -/
lemma exists_hasId_iff :
    (∃ entry ∈ entries, HasId deviceId entry) ↔ some (.str deviceId) ∈ idsOf entries := by
  rw [idsOf, List.mem_map]
  rfl

/-- No entry has an id exactly if it is not among the ids. -/
lemma forall_not_hasId_iff :
    (∀ entry ∈ entries, ¬ HasId deviceId entry) ↔ some (.str deviceId) ∉ idsOf entries := by
  rw [← exists_hasId_iff]
  constructor
  · rintro h ⟨entry, hentry, hid⟩
    exact h entry hentry hid
  · intro h entry hentry hid
    exact h ⟨entry, hentry, hid⟩

/-- Setting a runtime default to an id that is there keeps the view sound. -/
lemma Sound.setDefault (h : Sound (entries, defaults)) {runtime : String}
    (hruntime : runtime ∈ VALID_RUNTIMES) (hid : some (.str deviceId) ∈ idsOf entries) :
    Sound (entries, set runtime (.str deviceId) defaults) where
  ids := h.ids
  unique := h.unique
  refs runtime' hruntime' := by
    dsimp only
    rw [Unset, Dict.get?_set]
    by_cases heq : runtime = runtime'
    · rw [if_pos heq]
      exact .inr ⟨deviceId, rfl, hid⟩
    · rw [if_neg heq]
      exact h.refs runtime' hruntime'
  deployMode := by
    dsimp only
    rw [Dict.get?_set_of_ne (ne_of_mem_runtimes hruntime).1]
    exact h.deployMode
  ideRuntime := by
    dsimp only
    rw [Dict.get?_set_of_ne (ne_of_mem_runtimes hruntime).2]
    exact h.ideRuntime

/-- A key that is set if there is a value. -/
lemma get?_setIf (key key' : String) (value : Option Value) (entry : Mapping) :
    Dict.get? key' (setIf key value entry) =
      if key = key' then value.or (Dict.get? key' entry) else Dict.get? key' entry := by
  cases value with
  | none => simp [setIf]
  | some value => simp [setIf]

/-- What the loader and the lookups read in the entry of `add_device`. -/
lemma get?_entry (new : NewDevice) :
    Dict.get? "id" new.entry = some (.str new.deviceId) ∧
    Dict.get? "runtime" new.entry = some (.str new.runtime) ∧
    Dict.get? "address" new.entry = some (.str new.address) ∧
    Dict.get? "deploy_mode" new.entry = new.deployMode.map .str ∧
    Dict.get? "supports_ram_mode" new.entry = none ∧
    Dict.get? "deploy_transport" new.entry = none := by
  -- none of these keys is `hardware`, which is set last
  have hbody : ∀ key ≠ "hardware", Dict.get? key new.entry =
      Dict.get? key (set "runtime" (.str new.runtime)
        (setIf "firmware_version" (new.firmwareVersion.map .str)
          (set "address" (.str new.address)
            (setIf "serial_baudrate" (new.serialBaudrate.map .int)
              (setIf "deploy_mode" (new.deployMode.map .str)
                (setIf "description" (new.description.map .str)
                  (set "id" (.str new.deviceId) []))))))) := by
    intro key hkey
    rw [NewDevice.entry]
    cases new.hardware with
    | none => rfl
    | some hardware =>
      dsimp only
      split_ifs
      · rfl
      · rw [Dict.get?_set_of_ne hkey.symm]
  refine ⟨?_, ?_, ?_, ?_, ?_, ?_⟩
  all_goals
    rw [hbody _ (by decide)]
    simp [get?_setIf]

/-- A fresh entry keeps the view sound. -/
lemma Sound.addEntry (h : Sound (entries, defaults)) {new : NewDevice} (hne : new.deviceId ≠ "")
    (hfresh : ∀ entry ∈ entries, ¬ HasId new.deviceId entry) :
    Sound (entries ++ [new.entry], defaults) := by
  have hids : idsOf (entries ++ [new.entry]) = idsOf entries ++ [some (.str new.deviceId)] := by
    rw [idsOf_append_cons, (get?_entry new).1]
    rfl
  refine ⟨?_, ?_, ?_, h.deployMode, h.ideRuntime⟩
  · dsimp only
    rw [hids]
    intro found hfound
    rcases List.mem_append.mp hfound with hold | hnew
    · exact h.ids found hold
    · exact ⟨new.deviceId, hne, List.mem_singleton.mp hnew⟩
  · dsimp only
    rw [hids, List.nodup_middle, List.append_nil, List.nodup_cons]
    exact ⟨forall_not_hasId_iff.mp hfresh, h.unique⟩
  · intro runtime hruntime
    dsimp only
    rw [hids]
    rcases h.refs runtime hruntime with hunset | ⟨deviceId, hget, hmem⟩
    · exact .inl hunset
    · exact .inr ⟨deviceId, hget, List.mem_append_left _ hmem⟩

/-- Taking an id away, by a new one or by nothing, keeps the view sound if no other default has it
as its value. -/
lemma Sound.retire {before after : List Mapping} {entry : Mapping}
    (h : Sound (before ++ entry :: after, defaults)) {oldId : String} (hid : HasId oldId entry)
    (hdeploy : Dict.get? "deploy_mode" defaults ≠ some (.str oldId))
    (hide : Dict.get? "ide_runtime" defaults ≠ some (.str oldId))
    {new : Value}
    (hnew : (new = .null ∧ idsOf entries = idsOf before ++ idsOf after) ∨
      ∃ newId, newId ≠ "" ∧ new = .str newId ∧
        some (.str newId) ∉ idsOf (before ++ entry :: after) ∧
        idsOf entries = idsOf before ++ some (.str newId) :: idsOf after) :
    Sound (entries, mapValues (replaceDefault oldId new) defaults) := by
  have hsub : ∀ found, found ∈ idsOf before ++ idsOf after → found ∈ idsOf entries := by
    intro found hfound
    rcases hnew with ⟨-, hentries⟩ | ⟨newId, -, -, -, hentries⟩
    · rwa [hentries]
    · rw [hentries]
      simp only [List.mem_append, List.mem_cons] at hfound ⊢
      tauto
  have hold : Dict.get? "id" entry = some (.str oldId) := hid
  have hids := h.ids
  have hunique := h.unique
  dsimp only at hids hunique
  rw [idsOf_append_cons, hold] at hids hunique
  rw [List.nodup_middle, List.nodup_cons] at hunique
  refine ⟨?_, ?_, ?_, ?_, ?_⟩
  · intro found hfound
    rcases hnew with ⟨-, hentries⟩ | ⟨newId, hne, -, -, hentries⟩
    · rw [hentries] at hfound
      refine hids found ?_
      simp only [List.mem_append, List.mem_cons] at hfound ⊢
      tauto
    · rw [hentries] at hfound
      simp only [List.mem_append, List.mem_cons] at hfound
      by_cases heq : found = some (.str newId)
      · exact ⟨newId, hne, heq⟩
      · refine hids found ?_
        simp only [List.mem_append, List.mem_cons]
        tauto
  · rcases hnew with ⟨-, hentries⟩ | ⟨newId, -, -, hfresh, hentries⟩
    · dsimp only
      rw [hentries]
      exact hunique.2
    · dsimp only
      rw [hentries, List.nodup_middle, List.nodup_cons]
      refine ⟨fun hmem => hfresh ?_, hunique.2⟩
      rw [idsOf_append_cons]
      simp only [List.mem_append, List.mem_cons] at hmem ⊢
      tauto
  · intro runtime hruntime
    rcases h.refs runtime hruntime with hunset | ⟨deviceId, hget, hmem⟩
    · exact .inl (hunset.mapValues oldId new)
    · dsimp only at hget hmem ⊢
      rw [Unset, Dict.get?_mapValues, hget]
      by_cases heq : deviceId = oldId
      · rw [heq, map_replaceDefault_self]
        rcases hnew with ⟨rfl, -⟩ | ⟨newId, -, rfl, -, hentries⟩
        · exact .inl (.inr rfl)
        · exact .inr ⟨newId, rfl, by simp [hentries]⟩
      · rw [map_replaceDefault_of_ne (by simpa using heq)]
        refine .inr ⟨deviceId, rfl, hsub _ ?_⟩
        rw [idsOf_append_cons, hold] at hmem
        simp only [List.mem_append, List.mem_cons, Option.some.injEq, Value.str.injEq] at hmem ⊢
        tauto
  · dsimp only
    rw [Dict.get?_mapValues, map_replaceDefault_of_ne hdeploy]
    exact h.deployMode
  · dsimp only
    rw [Dict.get?_mapValues, map_replaceDefault_of_ne hide]
    exact h.ideRuntime

/-- **What every effect keeps**, unless it takes away an id that another default has as its value:
the view stays sound and the other two defaults are as they were. -/
lemma Effect.kept {op : Op} {v v' : View} (h : Effect op v v') (hv : Sound v) (hop : op.Valid)
    (hsafe : op.Safe v) :
    Sound v' ∧ Dict.get? "deploy_mode" v'.2 = Dict.get? "deploy_mode" v.2 ∧
      Dict.get? "ide_runtime" v'.2 = Dict.get? "ide_runtime" v.2 := by
  cases h with
  | nothing op v kept => exact ⟨hv, rfl, rfl⟩
  | added new entries defaults defaults' fresh default =>
    obtain ⟨hne, hruntime, -⟩ := hop
    have hadd := hv.addEntry hne fresh
    rcases default with rfl | ⟨-, rfl⟩
    · exact ⟨hadd, rfl, rfl⟩
    · obtain ⟨hdeploy, hide⟩ := ne_of_mem_runtimes hruntime
      refine ⟨hadd.setDefault hruntime ?_, Dict.get?_set_of_ne hdeploy _ _,
        Dict.get?_set_of_ne hide _ _⟩
      rw [idsOf_append_cons, (get?_entry new).1]
      simp
  | updated op deviceId before after entry defaults key value named kept hid probed =>
    have hids : idsOf (before ++ set key value entry :: after) =
        idsOf (before ++ entry :: after) := by
      have hkey : key ≠ "id" := by
        simp only [PROBED_KEYS, List.mem_cons, List.not_mem_nil, or_false] at probed
        rcases probed with rfl | rfl | rfl <;> decide
      rw [idsOf_append_cons, idsOf_append_cons, Dict.get?_set_of_ne hkey]
    refine ⟨⟨?_, ?_, ?_, hv.deployMode, hv.ideRuntime⟩, rfl, rfl⟩
    · dsimp only
      rw [hids]
      exact hv.ids
    · dsimp only
      rw [hids]
      exact hv.unique
    · dsimp only
      rw [hids]
      exact hv.refs
  | renamed oldId newId before after entry defaults hid fresh =>
    obtain ⟨hdeploy, hide⟩ := hsafe oldId ⟨rfl, ⟨entry, by simp, hid⟩, fresh⟩
    refine ⟨hv.retire hid hdeploy hide (.inr ⟨newId, hop, rfl, forall_not_hasId_iff.mp fresh, ?_⟩),
      ?_, ?_⟩
    · rw [idsOf_append_cons, Dict.get?_set_self]
    · dsimp only
      rw [Dict.get?_mapValues, map_replaceDefault_of_ne hdeploy]
    · dsimp only
      rw [Dict.get?_mapValues, map_replaceDefault_of_ne hide]
  | removed deviceId before after entry defaults hid =>
    obtain ⟨hdeploy, hide⟩ := hsafe deviceId ⟨rfl, entry, by simp, hid⟩
    refine ⟨hv.retire hid hdeploy hide (.inl ⟨rfl, ?_⟩), ?_, ?_⟩
    · rw [idsOf, List.map_append, idsOf, idsOf]
    · dsimp only
      rw [Dict.get?_mapValues, map_replaceDefault_of_ne hdeploy]
    · dsimp only
      rw [Dict.get?_mapValues, map_replaceDefault_of_ne hide]
  | defaulted runtime deviceId entries defaults found =>
    obtain ⟨hdeploy, hide⟩ := ne_of_mem_runtimes hop
    exact ⟨hv.setDefault hop (exists_hasId_iff.mp found), Dict.get?_set_of_ne hdeploy _ _,
      Dict.get?_set_of_ne hide _ _⟩

end Kept

/-! ## The entries that an edit is not about -/

/-- The entry has one of the ids that the edit is about. -/
def Op.names (op : Op) (entry : Mapping) : Bool :=
  op.named.any fun deviceId => (getD entry "id").isStr deviceId

/-- The entries that the edit is not about are the same, in the same order. -/
def OthersKept (op : Op) (data data' : Mapping) : Prop :=
  (entriesOf data').filter (fun entry => !op.names entry) =
    (entriesOf data).filter fun entry => !op.names entry

variable {op : Op} {v v' : View} {data : Mapping}

/-- An entry with one of the ids. -/
lemma names_of_hasId {deviceId : String} {entry : Mapping} (hmem : deviceId ∈ op.named)
    (hid : HasId deviceId entry) : op.names entry = true := by
  rw [Op.names, List.any_eq_true]
  exact ⟨deviceId, hmem, isStr_getD_iff.mpr hid⟩

/-- **An effect changes no entry but those that the edit names.** -/
lemma Effect.others (h : Effect op v v') :
    v'.1.filter (fun entry => !op.names entry) = v.1.filter fun entry => !op.names entry := by
  -- a named entry does not pass the filter
  have hdrop : ∀ {before after : List Mapping} {entry : Mapping}, op.names entry = true →
      (before ++ entry :: after).filter (fun entry => !op.names entry) =
        before.filter (fun entry => !op.names entry) ++
          after.filter fun entry => !op.names entry := by
    intro before after entry hnamed
    rw [List.filter_append, List.filter_cons, if_neg (by simp [hnamed])]
  cases h with
  | nothing op v kept => rfl
  | added new entries defaults defaults' fresh default =>
    have hnamed : (Op.addDevice new).names new.entry = true :=
      names_of_hasId (List.mem_singleton.mpr rfl) (get?_entry new).1
    dsimp only
    rw [hdrop hnamed, List.filter_nil, List.append_nil]
  | updated op deviceId before after entry defaults key value named kept hid probed =>
    have hkey : key ≠ "id" := by
      simp only [PROBED_KEYS, List.mem_cons, List.not_mem_nil, or_false] at probed
      rcases probed with rfl | rfl | rfl <;> decide
    have hid' : HasId deviceId (set key value entry) := by
      rw [HasId, Dict.get?_set_of_ne hkey]
      exact hid
    have hmem : deviceId ∈ op.named := named ▸ List.mem_singleton.mpr rfl
    dsimp only
    rw [hdrop (names_of_hasId hmem hid'), hdrop (names_of_hasId hmem hid)]
  | renamed oldId newId before after entry defaults hid fresh =>
    have hold : (Op.renameDevice oldId newId).names entry = true :=
      names_of_hasId (by simp [Op.named]) hid
    have hnew : (Op.renameDevice oldId newId).names (set "id" (.str newId) entry) = true :=
      names_of_hasId (by simp [Op.named]) (Dict.get?_set_self _ _ _)
    dsimp only
    rw [hdrop hold, hdrop hnew]
  | removed deviceId before after entry defaults hid =>
    have hnamed : (Op.removeDevice deviceId).names entry = true :=
      names_of_hasId (List.mem_singleton.mpr rfl) hid
    dsimp only
    rw [hdrop hnamed, List.filter_append]
  | defaulted runtime deviceId entries defaults found => rfl

/-! ## The loader -/

/-- An entry that `_validate_device` accepts. -/
structure EntryOk (raw : Mapping) : Prop where
  required : ∀ field ∈ REQUIRED_DEVICE_FIELDS, (Dict.get? field raw).isSome
  runtime : isOneOf VALID_RUNTIMES (getD raw "runtime") = true
  deployMode : passes (isOneOf VALID_DEPLOY_MODES) (Dict.get? "deploy_mode" raw) = true
  supportsRamMode : passes Value.isBool (Dict.get? "supports_ram_mode" raw) = true
  deployTransport :
    passes (isOneOf VALID_DEPLOY_TRANSPORTS) (Dict.get? "deploy_transport" raw) = true

/-- `_validate_device` returns exactly on these entries, whatever the index and the global mode. -/
lemma validateDevice_iff (raw : Mapping) (index : ℕ) (mode : Value) :
    (∃ entry, validateDevice raw index mode = .ok entry) ↔ EntryOk raw := by
  rw [validateDevice]
  constructor
  · rintro ⟨entry, h⟩
    split_ifs at h with hmissing hruntime hmode hram htransport
    rw [Bool.not_eq_true, Bool.not_eq_false', List.isEmpty_iff, List.filter_eq_nil_iff] at hmissing
    rw [Bool.not_eq_false] at hruntime hmode hram htransport
    refine ⟨fun field hfield => ?_, hruntime, hmode, hram, htransport⟩
    have hsome := hmissing field hfield
    rwa [Option.isNone_iff_eq_none, ← Ne, Option.ne_none_iff_isSome] at hsome
  · intro h
    have hmissing :
        (REQUIRED_DEVICE_FIELDS.filter fun field => (Dict.get? field raw).isNone) = [] := by
      rw [List.filter_eq_nil_iff]
      intro field hfield
      rw [Option.isNone_iff_eq_none, ← Ne, Option.ne_none_iff_isSome]
      exact h.required field hfield
    rw [hmissing, if_neg (by simp), if_neg (by simp [h.runtime]), if_neg (by simp [h.deployMode]),
      if_neg (by simp [h.supportsRamMode]), if_neg (by simp [h.deployTransport])]
    exact ⟨_, rfl⟩

/-- All entries are validated exactly if each is. -/
lemma validateAll_iff (mode : Value) (index : ℕ) (entries : List Mapping) :
    (∃ devices, validateAll mode index (entries.map .map) = .ok devices) ↔
      ∀ entry ∈ entries, EntryOk entry := by
  induction entries generalizing index with
  | nil => simp [validateAll]
  | cons entry rest ih =>
    rw [List.map_cons, validateAll, List.forall_mem_cons, ← ih (index + 1),
      ← validateDevice_iff entry index mode]
    constructor
    · rintro ⟨devices, h⟩
      obtain ⟨first, hfirst, h⟩ := bind_eq_ok.mp h
      obtain ⟨others, hothers, -⟩ := bind_eq_ok.mp h
      exact ⟨⟨first, hfirst⟩, others, hothers⟩
    · rintro ⟨⟨first, hfirst⟩, others, hothers⟩
      exact ⟨first :: others, by rw [hfirst, ok_bind, hothers, ok_bind]⟩

/-- The loader accepts the document. -/
def Accepted (data : Mapping) : Prop := ∃ registry, loadDeviceRegistry data = .ok registry

/-- The defaults that a check passes, with a valid value for an absent key. -/
lemma isOneOf_getD {valid : List String} {value : Option Value} {default : String}
    (hdefault : default ∈ valid) :
    isOneOf valid (value.getD (.str default)) = passes (isOneOf valid) value := by
  cases value with
  | none =>
    rw [Option.getD_none, passes, Option.all_none, isOneOf, List.any_eq_true]
    exact ⟨default, hdefault, isStr_iff.mpr rfl⟩
  | some value => rfl

/-- **The loader accepts** a document of the right shape exactly if its deploy mode and IDE runtime
and every entry are valid. -/
theorem accepted_iff (h : Shape data) :
    Accepted data ↔
      passes (isOneOf VALID_DEPLOY_MODES) (Dict.get? "deploy_mode" (defaultsOf data)) = true ∧
      passes (isOneOf VALID_IDE_RUNTIMES) (Dict.get? "ide_runtime" (defaultsOf data)) = true ∧
      ∀ entry ∈ entriesOf data, EntryOk entry := by
  have hdefaults : rawDefaults data = .ok (defaultsOf data) := by
    rw [rawDefaults]
    rcases defaults_cases h with ⟨htruthy, hempty⟩ | ⟨htruthy, hmap⟩
    · rw [if_pos htruthy, hempty]
    · rw [if_neg htruthy, hmap]
  have hdevices : rawDevices data = .ok ((entriesOf data).map .map) := by
    rw [rawDevices, getD, entriesOf]
    rcases h.devices with hd | hd | ⟨entries, hd⟩
    · rw [hd]
      rfl
    · rw [hd]
      rfl
    · rw [hd]
      dsimp only [Option.getD_some]
      rw [filterMap_asMap_map]
  have hraw : loadRawEntries data = .ok ((entriesOf data).map .map, defaultsOf data) := by
    rw [loadRawEntries, hdefaults, ok_bind, hdevices, ok_bind]
  rw [Accepted, loadDeviceRegistry, hraw, ok_bind]
  dsimp only
  rw [parseDefaults]
  dsimp only
  rw [isOneOf_getD (by decide), isOneOf_getD (by decide)]
  cases hdeploy : passes (isOneOf VALID_DEPLOY_MODES)
    (Dict.get? "deploy_mode" (defaultsOf data)) with
  | false => simp
  | true =>
    cases hide : passes (isOneOf VALID_IDE_RUNTIMES)
      (Dict.get? "ide_runtime" (defaultsOf data)) with
    | false => simp
    | true =>
      rw [if_neg (by simp), if_neg (by simp), ok_bind]
      dsimp only
      rw [← validateAll_iff ((Dict.get? "deploy_mode" (defaultsOf data)).getD
        (.str DEFAULT_DEPLOY_MODE)) 0 (entriesOf data)]
      simp only [true_and]
      constructor
      · rintro ⟨registry, hload⟩
        obtain ⟨devices, hdevices, -⟩ := bind_eq_ok.mp hload
        exact ⟨devices, hdevices⟩
      · rintro ⟨devices, hdevices⟩
        exact ⟨_, by rw [hdevices, ok_bind]⟩

/-- A key that the loader does not check may be set to anything. -/
lemma EntryOk.set {raw : Mapping} (h : EntryOk raw) {key : String} (value : Value)
    (hkey : key ≠ "runtime" ∧ key ≠ "deploy_mode" ∧ key ≠ "supports_ram_mode" ∧
      key ≠ "deploy_transport") : EntryOk (set key value raw) := by
  obtain ⟨hruntime, hdeploy, hram, htransport⟩ := hkey
  refine ⟨fun field hfield => ?_, ?_, ?_, ?_, ?_⟩
  · rw [Dict.get?_set]
    split_ifs
    · rfl
    · exact h.required field hfield
  · rw [getD, Dict.get?_set_of_ne hruntime]
    exact h.runtime
  · rw [Dict.get?_set_of_ne hdeploy]
    exact h.deployMode
  · rw [Dict.get?_set_of_ne hram]
    exact h.supportsRamMode
  · rw [Dict.get?_set_of_ne htransport]
    exact h.deployTransport

/-- An effect leaves every entry one that the loader accepts, if they were. -/
lemma Effect.entryOk (h : Effect op v v') (hop : op.Valid) (hv : ∀ entry ∈ v.1, EntryOk entry) :
    ∀ entry ∈ v'.1, EntryOk entry := by
  -- a changed entry among the others
  have hput : ∀ {before after : List Mapping} {entry entry' : Mapping},
      (∀ e ∈ before ++ entry :: after, EntryOk e) → (EntryOk entry → EntryOk entry') →
      ∀ e ∈ before ++ entry' :: after, EntryOk e := by
    intro before after entry entry' hall hchange e he
    rcases List.mem_append.mp he with he | he
    · exact hall e (by simp [he])
    · rcases List.mem_cons.mp he with rfl | he
      · exact hchange (hall entry (by simp))
      · exact hall e (by simp [he])
  cases h with
  | nothing op v kept => exact hv
  | added new entries defaults defaults' fresh default =>
    obtain ⟨-, hruntime, hmode⟩ := hop
    obtain ⟨hid, hrt, haddress, hdeploy, hram, htransport⟩ := get?_entry new
    intro e he
    rcases List.mem_append.mp he with he | he
    · exact hv e he
    · rw [List.mem_singleton.mp he]
      refine ⟨?_, ?_, ?_, by rw [hram]; rfl, by rw [htransport]; rfl⟩
      · intro field hfield
        simp only [REQUIRED_DEVICE_FIELDS, List.mem_cons, List.not_mem_nil, or_false] at hfield
        rcases hfield with rfl | rfl | rfl
        · rw [hid]; rfl
        · rw [hrt]; rfl
        · rw [haddress]; rfl
      · rw [getD, hrt, Option.getD_some, isOneOf, List.any_eq_true]
        exact ⟨new.runtime, hruntime, isStr_iff.mpr rfl⟩
      · rw [hdeploy, passes]
        cases hnew : new.deployMode with
        | none => rfl
        | some mode =>
          rw [Option.map_some, Option.all_some, isOneOf, List.any_eq_true]
          exact ⟨mode, hmode mode hnew, isStr_iff.mpr rfl⟩
  | updated op deviceId before after entry defaults key value named kept hid probed =>
    refine hput hv fun hentry => hentry.set value ?_
    simp only [PROBED_KEYS, List.mem_cons, List.not_mem_nil, or_false] at probed
    rcases probed with rfl | rfl | rfl <;> decide
  | renamed oldId newId before after entry defaults hid fresh =>
    exact hput hv fun hentry => hentry.set _ (by decide)
  | removed deviceId before after entry defaults hid =>
    intro e he
    refine hv e ?_
    rcases List.mem_append.mp he with he | he
    · simp [he]
    · simp [he]
  | defaulted runtime deviceId entries defaults found => exact hv

/-! ## Runs -/

/-- What is to hold in a state reached from `data`: the registry is well-formed, the deploy mode and
the IDE runtime are those of `data`, and the loader accepts the document if it accepted `data`. -/
structure Kept (data data' : Mapping) : Prop where
  wellFormed : WellFormed data'
  deployMode : Dict.get? "deploy_mode" (defaultsOf data') =
    Dict.get? "deploy_mode" (defaultsOf data)
  ideRuntime : Dict.get? "ide_runtime" (defaultsOf data') =
    Dict.get? "ide_runtime" (defaultsOf data)
  accepted : Accepted data → Accepted data'

/-- Every call of the run is safe where it is made. -/
def SafeRun (data : Mapping) (ops : List Op) : Prop :=
  ∀ before op, before ++ [op] <+: ops → op.Safe (view (run data before))

/-- A run and one more call. -/
lemma run_concat (data : Mapping) (ops : List Op) (op : Op) :
    run data (ops ++ [op]) = step (run data ops) op := by
  rw [run, List.foldl_append]
  rfl

/-- One safe call keeps what is to hold. -/
lemma Kept.step {data' : Mapping} (h : Kept data data') (hop : op.Valid)
    (hsafe : op.Safe (view data')) : Kept data (step data' op) := by
  obtain ⟨hshape, heffect⟩ := effect_step h.wellFormed.shape op
  obtain ⟨hsound, hdeploy, hide⟩ := heffect.kept h.wellFormed.sound hop hsafe
  refine ⟨⟨hshape, hsound⟩, hdeploy.trans h.deployMode, hide.trans h.ideRuntime, ?_⟩
  intro haccepted
  obtain ⟨-, -, hentries⟩ := (accepted_iff h.wellFormed.shape).mp (h.accepted haccepted)
  exact (accepted_iff hshape).mpr
    ⟨hsound.deployMode, hsound.ideRuntime, heffect.entryOk hop hentries⟩

/-- A run keeps what is to hold while its calls are safe. -/
lemma kept_run (h : WellFormed data) {ops : List Op} (hops : ∀ op ∈ ops, op.Valid)
    (hsafe : SafeRun data ops) : Kept data (run data ops) := by
  induction ops using List.reverseRecOn with
  | nil => exact ⟨h, rfl, rfl, id⟩
  | append_singleton ops op ih =>
    rw [run_concat]
    refine (ih (fun o ho => hops o (by simp [ho])) ?_).step (hops op (by simp))
      (hsafe ops op List.prefix_rfl)
    intro before o hpre
    exact hsafe before o (hpre.trans (List.prefix_append ops [op]))

/-- A call that is not safe changes the deploy mode or the IDE runtime. -/
lemma Effect.safe_of_kept (h : Effect op v v')
    (hdeploy : Dict.get? "deploy_mode" v'.2 = Dict.get? "deploy_mode" v.2)
    (hide : Dict.get? "ide_runtime" v'.2 = Dict.get? "ide_runtime" v.2) : op.Safe v := by
  -- a default that was the id and is not rewritten cannot be
  have hne : ∀ {key text : String} {new : Value} {defaults : Mapping}, new ≠ .str text →
      Dict.get? key (mapValues (replaceDefault text new) defaults) =
        Dict.get? key defaults → Dict.get? key defaults ≠ some (.str text) := by
    intro key text new defaults hnew hsame hget
    rw [Dict.get?_mapValues, hget, map_replaceDefault_self, Option.some.injEq] at hsame
    exact hnew hsame
  intro deviceId hretires
  cases h with
  | nothing op v kept => exact absurd hretires (kept deviceId)
  | added new entries defaults defaults' fresh default => exact hretires.elim
  | updated op id before after entry defaults key value named kept hid probed =>
    exact absurd hretires (kept deviceId _)
  | renamed oldId newId before after entry defaults hid fresh =>
    obtain ⟨rfl, -, -⟩ := hretires
    have hnew : Value.str newId ≠ .str oldId := by
      intro heq
      rw [Value.str.injEq] at heq
      exact fresh entry (by simp) (heq ▸ hid)
    exact ⟨hne hnew hdeploy, hne hnew hide⟩
  | removed id before after entry defaults hid =>
    obtain ⟨rfl, -⟩ := hretires
    have hnew : Value.null ≠ .str id := by simp
    exact ⟨hne hnew hdeploy, hne hnew hide⟩
  | defaulted runtime id entries defaults found => exact hretires.elim

/-- **The exact runs that keep the registry sound.** From a well-formed document, over any calls
with valid arguments: every state reached is well-formed, has the deploy mode and the IDE runtime of
the document and is accepted by the loader if the document was, and every call leaves the entries
that it does not name as they are, if and only if no call takes away, by renaming or removing an
entry, an id that is also the value of `defaults.deploy_mode` or `defaults.ide_runtime` at that
moment. -/
theorem registry_integrity_iff (data : Mapping) (ops : List Op) (h : WellFormed data)
    (hops : ∀ op ∈ ops, op.Valid) :
    ((∀ reached, reached <+: ops → Kept data (run data reached)) ∧
      ∀ before op, before ++ [op] <+: ops →
        OthersKept op (run data before) (run data (before ++ [op]))) ↔ SafeRun data ops := by
  constructor
  · rintro ⟨hkept, -⟩ before op hpre
    have hbefore := hkept before ((List.prefix_append before [op]).trans hpre)
    have hafter := hkept _ hpre
    rw [run_concat] at hafter
    refine (effect_step hbefore.wellFormed.shape op).2.safe_of_kept ?_ ?_
    · exact hafter.deployMode.trans hbefore.deployMode.symm
    · exact hafter.ideRuntime.trans hbefore.ideRuntime.symm
  · intro hsafe
    have hkept : ∀ reached, reached <+: ops → Kept data (run data reached) := by
      intro reached hpre
      refine kept_run h (fun op hop => hops op (hpre.subset hop)) ?_
      intro before op hbefore
      exact hsafe before op (hbefore.trans hpre)
    refine ⟨hkept, fun before op hpre => ?_⟩
    have hbefore := hkept before ((List.prefix_append before [op]).trans hpre)
    rw [run_concat]
    exact (effect_step hbefore.wellFormed.shape op).2.others

/-- A registry of one board with this id, the default of its runtime, deployed to flash. -/
def oneBoard (deviceId : String) : Mapping :=
  [("defaults", .map [("micropython", .str deviceId), ("deploy_mode", .str "flash"),
      ("ide_runtime", .str "micropython")]),
    ("devices", .seq [.map [("id", .str deviceId), ("runtime", .str "micropython"),
      ("address", .str "/dev/ttyACM0")]])]

/-- The registry of one board is well-formed. -/
lemma wellFormed_oneBoard {deviceId : String} (h : deviceId ≠ "") :
    WellFormed (oneBoard deviceId) where
  shape := ⟨.inr (.inr ⟨[[("id", .str deviceId), ("runtime", .str "micropython"),
    ("address", .str "/dev/ttyACM0")]], rfl⟩), .inr ⟨_, rfl⟩⟩
  sound := {
    ids := by
      intro found hfound
      rw [List.mem_singleton.mp hfound]
      exact ⟨deviceId, h, rfl⟩
    unique := List.nodup_singleton _
    refs := by
      intro runtime hruntime
      simp only [VALID_RUNTIMES, List.mem_cons, List.not_mem_nil, or_false] at hruntime
      rcases hruntime with rfl | rfl
      · exact .inr ⟨deviceId, rfl, List.mem_singleton.mpr rfl⟩
      · exact .inl (.inl rfl)
    deployMode := by rfl
    ideRuntime := by rfl }

/-- Renaming the board of such a registry keeps it sound. -/
theorem registry_integrity_oneBoard :
    Kept (oneBoard "porch") (run (oneBoard "porch") [.renameDevice "porch" "garden"]) := by
  have hvalid : ∀ op ∈ [Op.renameDevice "porch" "garden"], op.Valid := by
    intro op hop
    rw [List.mem_singleton.mp hop]
    exact (by decide : "garden" ≠ "")
  refine ((registry_integrity_iff (oneBoard "porch") _ (wellFormed_oneBoard (by decide))
    hvalid).mpr ?_).1 _ List.prefix_rfl
  intro before op hpre
  obtain ⟨rfl, rfl⟩ : before = [] ∧ op = .renameDevice "porch" "garden" := by
    have hlen := hpre.length_le
    rw [List.length_append, List.length_singleton, List.length_singleton] at hlen
    obtain rfl : before = [] := List.length_eq_zero_iff.mp (by omega)
    rw [List.nil_append, List.cons_prefix_cons] at hpre
    exact ⟨rfl, hpre.1⟩
  rintro deviceId ⟨rfl, -⟩
  exact ⟨by simp [view, defaultsOf, run, oneBoard, Dict.get?],
    by simp [view, defaultsOf, run, oneBoard, Dict.get?]⟩

/-- **A board with the id `flash`** is renamed or removed, and the deploy mode of the whole registry
with it: the loader refuses the document. -/
theorem rename_flash :
    WellFormed (oneBoard "flash") ∧ Accepted (oneBoard "flash") ∧
    Dict.get? "deploy_mode" (defaultsOf (step (oneBoard "flash")
      (.renameDevice "flash" "porch"))) = some (.str "porch") ∧
    ¬ Accepted (step (oneBoard "flash") (.renameDevice "flash" "porch")) ∧
    ¬ Accepted (step (oneBoard "flash") (.removeDevice "flash")) := by
  refine ⟨wellFormed_oneBoard (by decide), ⟨_, rfl⟩, rfl, ?_, ?_⟩
  · rintro ⟨registry, h⟩
    have herr : loadDeviceRegistry (step (oneBoard "flash") (.renameDevice "flash" "porch")) =
        .error (.invalidDefault "deploy_mode" (.str "porch") VALID_DEPLOY_MODES) := rfl
    rw [herr] at h
    cases h
  · rintro ⟨registry, h⟩
    have herr : loadDeviceRegistry (step (oneBoard "flash") (.removeDevice "flash")) =
        .error (.invalidDefault "deploy_mode" .null VALID_DEPLOY_MODES) := rfl
    rw [herr] at h
    cases h

end ChuMicro.Deploy
