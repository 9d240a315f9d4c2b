import ChuMicro.Deploy.DevicesYaml

/-!
# The edits of the device registry that raise

A call of one of the edits of `devices.yml` that raises should leave the document as it was. Four of
them can write before they are through with their checks: `add_device` appends the entry before it
looks at `defaults`, `update_device_hardware` writes leaf by leaf, `rename_device` gives the entry
its new id before it goes through `defaults`, and `remove_device` creates a missing list.

## Main definitions

* `Deploy.Op.call` — what a call returns, with the document it leaves.
* `Deploy.Op.ChecksFirst` — the documents and arguments for which nothing is written before the call
  raises.

## Main results

* `Deploy.updateHardware_raises_iff` — what the loop over the leaves has written when it raises.
* `Deploy.atomic_iff` — a call that raises leaves the document alone in exactly these cases.
-/

namespace ChuMicro.Deploy

/-! ## Calls -/

/-- The result of a call without the value it returns. -/
def asUnit {α : Type} (result : Except RegistryExn α × Mapping) :
    Except RegistryExn Unit × Mapping := (result.1.map fun _ => (), result.2)

/-- One call: whether it raised, and the document it leaves. -/
def Op.call (data : Mapping) : Op → Except RegistryExn Unit × Mapping
  | .addDevice new => asUnit (Deploy.addDevice data new)
  | .updateDeviceAddress deviceId newAddress => Deploy.updateDeviceAddress data deviceId newAddress
  | .updateDeviceFirmwareVersion deviceId newVersion =>
    Deploy.updateDeviceFirmwareVersion data deviceId newVersion
  | .updateDeviceHardware deviceId hardware force =>
    Deploy.updateDeviceHardware data deviceId hardware force
  | .renameDevice oldId newId => Deploy.renameDevice data oldId newId
  | .removeDevice deviceId => asUnit (Deploy.removeDevice data deviceId)
  | .setRuntimeDefault runtime deviceId => Deploy.setRuntimeDefault data runtime deviceId

/-- The document that a call leaves is the next one of a run. -/
lemma call_step (data : Mapping) (op : Op) : (op.call data).2 = step data op := by
  cases op <;> rfl

/-- The computation raised. -/
def Raised {α : Type} (result : Except RegistryExn α × Mapping) : Prop := ∃ e, result.1 = .error e

/-- A call that raises leaves the document as it was. -/
def Atomic {α : Type} (data : Mapping) (result : Except RegistryExn α × Mapping) : Prop :=
  Raised result → result.2 = data

/-! ## When nothing is written before a call raises -/

/-- The value of a key is there and no mapping. -/
def NoMapping (key : String) (data : Mapping) : Prop :=
  ∃ value, Dict.get? key data = some value ∧ ∀ items, value ≠ .map items

/-- `devices` is a list, or absent, so that an empty one is made. -/
def DevicesUsable (data : Mapping) : Prop :=
  Dict.get? "devices" data = none ∨ ∃ items, Dict.get? "devices" data = some (.seq items)

/-- The leaf is in the block with another value, and may not be overwritten. -/
def Refused (force : Bool) (block : Mapping) (leaf : String × Value) : Prop :=
  force = false ∧ ∃ old, Dict.get? leaf.1 block = some old ∧ old ≠ .null ∧ old.eq leaf.2 = false

/-- The leaves that come before the first refused one are in the block with the very values they are
set to. -/
def NothingWritten (force : Bool) (hardware block : Mapping) : Prop :=
  ∀ before leaf after, hardware = before ++ leaf :: after →
    (∀ entry ∈ before, ¬ Refused force block entry) → Refused force block leaf →
      ∀ entry ∈ before, Dict.get? entry.1 block = some entry.2

/-- **The call raises before it writes**, if it raises at all: every way in which an edit can fail
after it wrote something is ruled out. -/
def Op.ChecksFirst (data : Mapping) : Op → Prop
  | .addDevice new =>
    ¬ (new.setDefault = true ∧ findDevice data new.deviceId = .ok none ∧ DevicesUsable data ∧
      NoMapping "defaults" data)
  | .updateDeviceHardware deviceId hardware force =>
    ∀ index entry block, findDevice data deviceId = .ok (some (index, entry)) →
      Dict.get? "hardware" entry = some (.map block) → NothingWritten force hardware block
  | .renameDevice oldId newId =>
    ¬ ((∃ found, findDevice data oldId = .ok (some found)) ∧ findDevice data newId = .ok none ∧
      (getD data "defaults").truthy = true ∧ NoMapping "defaults" data)
  | .removeDevice _ => Dict.get? "devices" data ≠ none
  | .updateDeviceAddress .. | .updateDeviceFirmwareVersion .. | .setRuntimeDefault .. => True

/-- The mapping that a call is given has no key twice, as no mapping has. -/
def Op.DistinctLeaves : Op → Prop
  | .updateDeviceHardware _ hardware _ => (hardware.map Prod.fst).Nodup
  | _ => True

/-- The leaves of the probe have distinct keys. -/
lemma distinctLeaves_hardware (deviceId : String) {hardware : Mapping} (force : Bool)
    (h : (hardware.map Prod.fst).Nodup) :
    (Op.updateDeviceHardware deviceId hardware force).DistinctLeaves := h

/-! ## Lookups -/

section Lookups

variable {data : Mapping} {deviceId : String} {items : List Value} {index : ℕ} {entry : Mapping}

variable {key : String}

/-- Setting a key to the value it has changes nothing. -/
lemma set_of_get? {value : Value} {m : Mapping} (h : Dict.get? key m = some value) :
    Dict.set key value m = m := by
  induction m with
  | nil => cases h
  | cons first rest ih =>
    rw [Dict.get?_cons] at h
    rw [Dict.set]
    split_ifs at h ⊢ with hkey
    · cases h
      rw [← hkey]
    · rw [ih h]

/-- The entry that is found is an item of the list, and has the id. -/
lemma getElem?_of_firstWithId (h : firstWithId deviceId items = some (index, entry)) :
    items[index]? = some (.map entry) ∧ (getD entry "id").isStr deviceId = true := by
  induction items generalizing index with
  | nil => cases h
  | cons first rest ih =>
    have hrest : ∀ i, firstWithId deviceId rest = some (i, entry) → index = i + 1 →
        (first :: rest)[index]? = some (.map entry) ∧ (getD entry "id").isStr deviceId = true := by
      rintro i hi rfl
      exact ih hi
    unfold firstWithId at h
    split at h
    case h_1 heq => cases heq
    case h_2 found rest' heq =>
      rw [List.cons.injEq] at heq
      obtain ⟨rfl, rfl⟩ := heq
      split_ifs at h with hid
      · cases h
        exact ⟨rfl, hid⟩
      · obtain ⟨⟨i, e⟩, hfound, heq⟩ := Option.map_eq_some_iff.mp h
        cases heq
        exact hrest i hfound rfl
    case h_3 rest' _ heq =>
      rw [List.cons.injEq] at heq
      obtain ⟨-, rfl⟩ := heq
      obtain ⟨⟨i, e⟩, hfound, heq⟩ := Option.map_eq_some_iff.mp h
      cases heq
      exact hrest i hfound rfl

/-- Where no entry is found, none of the items has the id. -/
lemma isStr_of_firstWithId_eq_none (h : firstWithId deviceId items = none)
    (hmem : Value.map entry ∈ items) : (getD entry "id").isStr deviceId = false := by
  induction items with
  | nil => cases hmem
  | cons first rest ih =>
    unfold firstWithId at h
    split at h
    case h_1 heq => cases heq
    case h_2 found rest' heq =>
      rw [List.cons.injEq] at heq
      obtain ⟨rfl, rfl⟩ := heq
      split_ifs at h with hid
      rcases List.mem_cons.mp hmem with heq | hmem
      · cases heq
        exact Bool.eq_false_iff.mpr hid
      · exact ih (Option.map_eq_none_iff.mp h) hmem
    case h_3 rest' hnot heq =>
      rw [List.cons.injEq] at heq
      obtain ⟨rfl, rfl⟩ := heq
      rcases List.mem_cons.mp hmem with heq | hmem
      · exact absurd heq.symm (hnot _)
      · exact ih (Option.map_eq_none_iff.mp h) hmem

/-- No text among texts is an entry. -/
lemma firstWithId_map_str {α : Type} (f : α → String) (l : List α) :
    firstWithId deviceId (l.map fun x => .str (f x)) = none := by
  induction l with
  | nil => rfl
  | cons x rest ih => rw [List.map_cons, firstWithId, ih, Option.map_none]; rintro entry ⟨⟩

/-- **An entry is found** only in a list of devices. -/
lemma items_of_findDevice (h : findDevice data deviceId = .ok (some (index, entry))) :
    ∃ items, Dict.get? "devices" data = some (.seq items) ∧
      items[index]? = some (.map entry) ∧ (getD entry "id").isStr deviceId = true := by
  rw [findDevice, iterDevices] at h
  split_ifs at h with hempty
  · cases h
  · cases hget : Dict.get? "devices" data with
    | none => simp [getD, hget, Value.truthy] at hempty
    | some value =>
      rw [getD, hget, Option.getD_some] at h
      cases value with
      | seq items => exact ⟨items, rfl, getElem?_of_firstWithId (Except.ok.inj h)⟩
      | str text =>
        have hnone := Except.ok.inj h
        rw [firstWithId_map_str] at hnone
        cases hnone
      | map m =>
        have hnone := Except.ok.inj h
        rw [firstWithId_map_str] at hnone
        cases hnone
      | _ => cases h

/-- The loops over the devices go through the list. -/
lemma iterDevices_of_seq (h : Dict.get? "devices" data = some (.seq items)) :
    iterDevices data = .ok items := by
  rw [iterDevices, getD, h, Option.getD_some]
  dsimp only
  split_ifs with hempty
  · cases items with
    | nil => rfl
    | cons first rest => simp [Value.truthy] at hempty
  · rfl

/-- Changing an entry leaves the other sections alone. -/
lemma getD_putEntry (hne : "devices" ≠ key) (entry' : Mapping) :
    getD (putEntry data index entry') key = getD data key := by
  rw [getD, getD, putEntry]
  split
  · rw [Dict.get?_set_of_ne hne]
  · rfl

/-- A section that is not empty is there. -/
lemma noMapping_iff (htruthy : (getD data key).truthy = true) :
    NoMapping key data ↔ ∀ items, getD data key ≠ .map items := by
  rw [NoMapping, getD] at *
  cases hget : Dict.get? key data with
  | none => simp [hget, Value.truthy] at htruthy
  | some value => simp

end Lookups

/-! ## The loop over the leaves -/

section Leaves

variable {force : Bool} {block : Mapping}

variable {leaf : String × Value}

/-- A refused leaf ends the loop. -/
lemma updateHardware_of_refused (h : Refused force block leaf) (rest : Mapping) :
    ∃ e, updateHardware force (leaf :: rest) block = (.error e, block) := by
  obtain ⟨hforce, old, hget, hnull, heq⟩ := h
  rw [updateHardware, getD, hget, Option.getD_some, hforce]
  cases old with
  | null => exact absurd rfl hnull
  | _ => exact ⟨_, if_pos (by rw [heq]; rfl)⟩

/-- Any other leaf is written. -/
lemma updateHardware_of_not_refused (h : ¬ Refused force block leaf) (rest : Mapping) :
    updateHardware force (leaf :: rest) block =
      updateHardware force rest (Dict.set leaf.1 leaf.2 block) := by
  rw [updateHardware, getD]
  cases force with
  | true => exact if_neg (by simp)
  | false =>
    cases hget : Dict.get? leaf.1 block with
    | none => exact if_neg (by simp)
    | some old =>
      rw [Option.getD_some]
      refine if_neg fun hraise => h ⟨rfl, old, hget, ?_, ?_⟩
      · rintro rfl
        simp at hraise
      · cases heq : old.eq leaf.2 with
        | false => rfl
        | true =>
          rw [heq] at hraise
          simp at hraise

/-- Writing one leaf does not change what is refused of another. -/
lemma refused_set_iff {entry : String × Value} (h : entry.1 ≠ leaf.1) :
    Refused force (Dict.set entry.1 entry.2 block) leaf ↔ Refused force block leaf := by
  rw [Refused, Refused, Dict.get?_set_of_ne h]

/-- **The loop over the leaves** goes up to the first refused one, and has written those before.

**Proof sketch.** Induction on the leaves: as their keys are distinct, what was written so far does
not change which of the others are refused. -/
theorem updateHardware_raises_iff {hardware : Mapping}
    (hnodup : (hardware.map Prod.fst).Nodup) :
    (∃ before leaf after, hardware = before ++ leaf :: after ∧
      (∀ entry ∈ before, ¬ Refused force block entry) ∧ Refused force block leaf ∧
      ∃ e, updateHardware force hardware block =
        (.error e, before.foldl (fun m entry => Dict.set entry.1 entry.2 m) block)) ∨
    (∀ leaf ∈ hardware, ¬ Refused force block leaf) ∧
      (updateHardware force hardware block).1 = .ok () := by
  induction hardware generalizing block with
  | nil => exact .inr ⟨List.forall_mem_nil _, rfl⟩
  | cons first rest ih =>
    rw [List.map_cons, List.nodup_cons] at hnodup
    by_cases hrefused : Refused force block first
    · exact .inl ⟨[], first, rest, rfl, List.forall_mem_nil _, hrefused,
        updateHardware_of_refused hrefused rest⟩
    · have hsame : ∀ leaf ∈ rest, (Refused force (Dict.set first.1 first.2 block) leaf ↔
          Refused force block leaf) := fun leaf hleaf =>
        refused_set_iff fun heq => hnodup.1 (heq ▸ List.mem_map_of_mem (f := Prod.fst) hleaf)
      rw [updateHardware_of_not_refused hrefused rest]
      rcases ih hnodup.2 with ⟨before, leaf, after, rfl, hbefore, hleaf, e, hloop⟩ | ⟨hnone, hok⟩
      · refine .inl ⟨first :: before, leaf, after, rfl,
          List.forall_mem_cons.mpr ⟨hrefused, fun entry hentry => ?_⟩, ?_, e, hloop⟩
        · exact (not_congr (hsame entry (List.mem_append_left _ hentry))).mp (hbefore entry hentry)
        · exact (hsame leaf (by simp)).mp hleaf
      · refine .inr ⟨List.forall_mem_cons.mpr ⟨hrefused, fun leaf hleaf => ?_⟩, hok⟩
        exact (not_congr (hsame leaf hleaf)).mp (hnone leaf hleaf)

/-- A key that is not written keeps its value. -/
lemma get?_foldl_set_of_notMem {key : String} {leaves : Mapping}
    (h : key ∉ leaves.map Prod.fst) (m : Mapping) :
    Dict.get? key (leaves.foldl (fun m entry => Dict.set entry.1 entry.2 m) m) =
      Dict.get? key m := by
  induction leaves generalizing m with
  | nil => rfl
  | cons first rest ih =>
    rw [List.map_cons, List.mem_cons, not_or] at h
    rw [List.foldl_cons, ih h.2, Dict.get?_set_of_ne (Ne.symm h.1)]

/-- Writing leaves changes nothing exactly where all of them are there. -/
lemma foldl_set_eq_iff {leaves : Mapping} (hnodup : (leaves.map Prod.fst).Nodup) :
    leaves.foldl (fun m entry => Dict.set entry.1 entry.2 m) block = block ↔
      ∀ entry ∈ leaves, Dict.get? entry.1 block = some entry.2 := by
  constructor
  · intro h entry hentry
    rw [← h]
    clear h
    induction leaves generalizing block with
    | nil => cases hentry
    | cons first rest ih =>
      rw [List.map_cons, List.nodup_cons] at hnodup
      rw [List.foldl_cons]
      rcases List.mem_cons.mp hentry with rfl | hentry
      · rw [get?_foldl_set_of_notMem hnodup.1, Dict.get?_set_self]
      · exact ih hnodup.2 hentry
  · intro h
    clear hnodup
    induction leaves with
    | nil => rfl
    | cons first rest ih =>
      obtain ⟨hfirst, hrest⟩ := List.forall_mem_cons.mp h
      rw [List.foldl_cons, set_of_get? hfirst]
      exact ih hrest

/-- **The loop leaves the block alone when it raises** where nothing is written before. -/
lemma atomic_updateHardware_iff {hardware : Mapping} (hnodup : (hardware.map Prod.fst).Nodup) :
    Atomic block (updateHardware force hardware block) ↔ NothingWritten force hardware block := by
  rcases @updateHardware_raises_iff force block hardware hnodup with
    ⟨before, leaf, after, rfl, hbefore, hleaf, e, hloop⟩ | ⟨hnone, hok⟩
  · have hkeys : (before.map Prod.fst).Nodup :=
      hnodup.sublist ((List.sublist_append_left _ _).map Prod.fst)
    rw [Atomic, hloop]
    refine ⟨fun h => ?_, fun h _ => (foldl_set_eq_iff hkeys).mpr (h _ _ _ rfl hbefore hleaf)⟩
    have hthere := (foldl_set_eq_iff hkeys).mp (h ⟨e, rfl⟩)
    intro before' leaf' after' heq hbefore' hleaf' entry hentry
    -- the first refused leaf is the same in both
    rcases List.append_eq_append_iff.mp heq with ⟨more, rfl, hmore⟩ | ⟨more, rfl, hmore⟩
    · rcases List.mem_append.mp hentry with hentry | hentry
      · exact hthere entry hentry
      · obtain ⟨rest, rfl⟩ : ∃ rest, more = leaf :: rest := by
          cases more with
          | nil => cases hentry
          | cons first rest => exact ⟨rest, by rw [(List.cons.inj hmore).1]⟩
        exact absurd hleaf (hbefore' leaf (by simp))
    · exact hthere entry (List.mem_append_left _ hentry)
  · refine ⟨fun _ before leaf after heq _ hleaf => ?_, fun _ => ?_⟩
    · exact absurd hleaf (hnone leaf (heq ▸ by simp))
    · rintro ⟨e, he⟩
      rw [hok] at he
      cases he

end Leaves

/-! ## The edits -/

section Edits

variable {data : Mapping}

variable {α : Type}

/-- A call that returns is atomic. -/
lemma atomic_of_ok {a : α} {data' : Mapping} : Atomic data (.ok a, data') := by
  rintro ⟨e, he⟩
  cases he

/-- A call that left the document alone is atomic. -/
lemma atomic_self (result : Except RegistryExn α) : Atomic data (result, data) :=
  fun _ => rfl

/-- A call that raised and changed the document is not. -/
lemma not_atomic {e : RegistryExn} {data' : Mapping} (h : data' ≠ data) :
    ¬ Atomic data ((.error e, data') : Except RegistryExn α × Mapping) := fun hatomic =>
  h (hatomic ⟨e, rfl⟩)

/-- Whether a call is atomic does not depend on what it returns. -/
lemma atomic_asUnit (result : Except RegistryExn α × Mapping) :
    Atomic data (asUnit result) ↔ Atomic data result := by
  obtain ⟨result, data'⟩ := result
  cases result with
  | ok a => exact iff_of_true atomic_of_ok atomic_of_ok
  | error e => exact ⟨fun h _ => h ⟨e, rfl⟩, fun h _ => h ⟨e, rfl⟩⟩

/-- `_defaults_block` raises where `defaults` is there and no mapping, and then writes nothing. -/
lemma defaultsBlock_cases (data : Mapping) :
    (∃ items data', defaultsBlock data = (.ok items, data') ∧ ¬ NoMapping "defaults" data) ∨
      ∃ e, defaultsBlock data = (.error e, data) ∧ NoMapping "defaults" data := by
  cases hget : Dict.get? "defaults" data with
  | none =>
    refine .inl ⟨[], Dict.set "defaults" (.map []) data, by simp only [defaultsBlock, hget], ?_⟩
    rintro ⟨value, hvalue, -⟩
    rw [hget] at hvalue
    cases hvalue
  | some value =>
    cases value with
    | map items =>
      refine .inl ⟨items, data, by simp only [defaultsBlock, hget], ?_⟩
      rintro ⟨value, hvalue, hnot⟩
      rw [hget] at hvalue
      exact hnot items (Option.some.inj hvalue).symm
    | _ =>
      refine .inr ⟨_, by simp only [defaultsBlock, hget]; rfl, _, hget, ?_⟩
      rintro items ⟨⟩

/-- `_devices_list` raises where `devices` is there and no list, and then writes nothing. -/
lemma devicesList_cases (data : Mapping) :
    (∃ items data', devicesList data = (.ok items, data') ∧ DevicesUsable data ∧
      Dict.get? "defaults" data' = Dict.get? "defaults" data ∧
      ∀ added, Dict.set "devices" (.seq (items ++ [added])) data' ≠ data) ∨
    ∃ e, devicesList data = (.error e, data) ∧ ¬ DevicesUsable data := by
  have hne : "devices" ≠ "defaults" := by decide
  cases hget : Dict.get? "devices" data with
  | none =>
    refine .inl ⟨[], Dict.set "devices" (.seq []) data, by simp only [devicesList, hget], .inl hget,
      Dict.get?_set_of_ne hne _ _, fun added h => ?_⟩
    rw [← h, Dict.get?_set_self] at hget
    cases hget
  | some value =>
    cases value with
    | seq items =>
      refine .inl ⟨items, data, by simp only [devicesList, hget], .inr ⟨items, hget⟩, rfl,
        fun added h => ?_⟩
      rw [← h, Dict.get?_set_self, Option.some.injEq, Value.seq.injEq] at hget
      simp at hget
    | _ =>
      refine .inr ⟨_, by simp only [devicesList, hget]; rfl, ?_⟩
      rintro (h | ⟨items, h⟩) <;> rw [hget] at h <;> cases h

/-- `add_device` may append the entry and then find that `defaults` is no mapping. -/
lemma atomic_addDevice_iff (new : NewDevice) :
    Atomic data (addDevice data new) ↔ (Op.addDevice new).ChecksFirst data := by
  rw [Op.ChecksFirst, addDevice]
  cases hfind : findDevice data new.deviceId with
  | error e => exact iff_of_true (atomic_self _) fun h => by cases h.2.1
  | ok found =>
    cases found with
    | some found => exact iff_of_true (atomic_self _) fun h => by cases h.2.1
    | none =>
      dsimp only
      rcases devicesList_cases data with ⟨items, data', hlist, husable, hdefaults, hchanged⟩ |
        ⟨e, hlist, hnot⟩
      · rw [hlist]
        dsimp only
        split_ifs with hset
        · have hsame : NoMapping "defaults" (Dict.set "devices" (.seq (items ++ [Value.map new.entry]))
              data') ↔ NoMapping "defaults" data := by
            rw [NoMapping, NoMapping, Dict.get?_set_of_ne (by decide), hdefaults]
          rcases defaultsBlock_cases (Dict.set "devices" (.seq (items ++ [Value.map new.entry])) data')
            with ⟨defaults, data'', hblock, hno⟩ | ⟨e, hblock, hno⟩
          · rw [hblock]
            refine iff_of_true ?_ fun h => hno (hsame.mpr h.2.2.2)
            dsimp only
            split
            · exact atomic_of_ok
            · exact atomic_of_ok
          · rw [hblock]
            exact iff_of_false (not_atomic (hchanged _))
              (not_not.mpr ⟨hset, rfl, husable, hsame.mp hno⟩)
        · exact iff_of_true atomic_of_ok fun h => hset h.1
      · rw [hlist]
        exact iff_of_true (atomic_self _) fun h => hnot h.2.2.1

/-- A refresh of one key writes after all its checks. -/
lemma atomic_updateField (key deviceId text : String) :
    Atomic data (updateField key data deviceId text) := by
  rw [updateField]
  cases findDevice data deviceId with
  | error e => exact atomic_self _
  | ok found =>
    cases found with
    | none => exact atomic_self _
    | some found => exact atomic_of_ok

/-- Putting an entry back changes nothing, and putting another one there does. -/
lemma putEntry_eq_iff {items : List Value} {index : ℕ} {entry entry' : Mapping}
    (hget : Dict.get? "devices" data = some (.seq items))
    (hitem : items[index]? = some (.map entry)) :
    putEntry data index entry' = data ↔ entry' = entry := by
  obtain ⟨hlt, hitem'⟩ := List.getElem?_eq_some_iff.mp hitem
  rw [putEntry, hget]
  dsimp only
  constructor
  · intro h
    rw [← h, Dict.get?_set_self, Option.some.injEq, Value.seq.injEq] at hget
    rw [← hget, List.getElem?_set_self hlt, Option.some.injEq, Value.map.injEq] at hitem
    exact hitem
  · rintro rfl
    rw [← hitem', List.set_getElem_self]
    exact set_of_get? hget

/-- `update_device_hardware` may write leaves before it comes to one that it refuses. -/
lemma atomic_updateDeviceHardware_iff (deviceId : String) {hardware : Mapping}
    (hnodup : (hardware.map Prod.fst).Nodup) (force : Bool) :
    Atomic data (updateDeviceHardware data deviceId hardware force) ↔
      (Op.updateDeviceHardware deviceId hardware force).ChecksFirst data := by
  rw [Op.ChecksFirst, updateDeviceHardware]
  cases hfind : findDevice data deviceId with
  | error e => exact iff_of_true (atomic_self _) (by rintro _ _ _ ⟨⟩)
  | ok found =>
    cases found with
    | none => exact iff_of_true (atomic_self _) (by rintro _ _ _ ⟨⟩)
    | some found =>
      obtain ⟨index, entry⟩ := found
      obtain ⟨items, hdevices, hitem, -⟩ := items_of_findDevice hfind
      dsimp only
      have hcond : (∀ i e block, (Except.ok (some (index, entry)) :
          Except RegistryExn (Option (ℕ × Mapping))) = .ok (some (i, e)) →
            Dict.get? "hardware" e = some (.map block) → NothingWritten force hardware block) ↔
          ∀ block, Dict.get? "hardware" entry = some (.map block) →
            NothingWritten force hardware block := by
        constructor
        · exact fun h block => h _ _ block rfl
        · rintro h _ _ block ⟨⟩
          exact h block
      rw [hcond]
      cases hget : Dict.get? "hardware" entry with
      | none =>
        refine iff_of_true ?_ (by rintro _ ⟨⟩)
        -- nothing is refused in an empty block
        rcases @updateHardware_raises_iff force [] hardware hnodup with
          ⟨before, leaf, after, -, -, ⟨-, old, hold, -⟩, -⟩ | ⟨-, hok⟩
        · cases hold
        · rw [show updateHardware force hardware [] = (.ok (), (updateHardware force hardware []).2)
            from Prod.ext hok rfl]
          exact atomic_of_ok
      | some value =>
        cases value with
        | map block =>
          have hblock : (∀ block', some (Value.map block) = some (.map block') →
              NothingWritten force hardware block') ↔ NothingWritten force hardware block := by
            constructor
            · exact fun h => h block rfl
            · rintro h _ ⟨⟩
              exact h
          rw [hblock, ← atomic_updateHardware_iff hnodup]
          dsimp only
          refine imp_congr Iff.rfl ((putEntry_eq_iff hdevices hitem).trans ?_)
          constructor
          · intro h
            rw [← h, Dict.get?_set_self, Option.some.injEq, Value.map.injEq] at hget
            exact hget
          · intro h
            rw [h]
            exact set_of_get? hget
        | _ => exact iff_of_true (atomic_self _) (by rintro _ ⟨⟩)

/-- `rename_device` may give the entry its new id and then find that `defaults` is no mapping. -/
lemma atomic_renameDevice_iff (oldId newId : String) :
    Atomic data (renameDevice data oldId newId) ↔
      (Op.renameDevice oldId newId).ChecksFirst data := by
  rw [Op.ChecksFirst, renameDevice]
  cases hold : findDevice data oldId with
  | error e => exact iff_of_true (atomic_self _) (by rintro ⟨⟨_, ⟨⟩⟩, -⟩)
  | ok found =>
    cases found with
    | none => exact iff_of_true (atomic_self _) (by rintro ⟨⟨_, ⟨⟩⟩, -⟩)
    | some found =>
      obtain ⟨index, entry⟩ := found
      obtain ⟨items, hdevices, hitem, -⟩ := items_of_findDevice hold
      cases hnew : findDevice data newId with
      | error e => exact iff_of_true (atomic_self _) (by rintro ⟨-, ⟨⟩, -⟩)
      | ok found' =>
        cases found' with
        | some found' => exact iff_of_true (atomic_self _) (by rintro ⟨-, ⟨⟩, -⟩)
        | none =>
          have hchanged : putEntry data index (Dict.set "id" (.str newId) entry) ≠ data := by
            rw [Ne, putEntry_eq_iff hdevices hitem]
            intro h
            have hid : (getD entry "id").isStr newId = true := by
              rw [← h, getD, Dict.get?_set_self, Option.getD_some, Value.isStr, beq_iff_eq]
            rw [findDevice, iterDevices_of_seq hdevices] at hnew
            rw [isStr_of_firstWithId_eq_none (Except.ok.inj hnew)
              (List.mem_of_getElem? hitem)] at hid
            cases hid
          dsimp only
          rw [getD_putEntry (by decide)]
          by_cases htruthy : (getD data "defaults").truthy = false
          · rw [if_pos htruthy]
            refine iff_of_true atomic_of_ok fun h => ?_
            rw [h.2.2.1] at htruthy
            cases htruthy
          · rw [if_neg htruthy]
            rw [Bool.not_eq_false] at htruthy
            have hno := noMapping_iff htruthy
            cases hdefaults : getD data "defaults" with
            | map defaults =>
              refine iff_of_true atomic_of_ok fun h => ?_
              exact hno.mp h.2.2.2 _ hdefaults
            | _ =>
              refine iff_of_false (not_atomic hchanged) (not_not.mpr ⟨⟨_, rfl⟩, rfl, ?_, ?_⟩)
              · rw [← hdefaults]
                exact htruthy
              · rw [hno, hdefaults]
                rintro items ⟨⟩

/-- `remove_device` may make an empty list and then find no entry in it. -/
lemma atomic_removeDevice_iff (deviceId : String) :
    Atomic data (removeDevice data deviceId) ↔ (Op.removeDevice deviceId).ChecksFirst data := by
  rw [Op.ChecksFirst, removeDevice]
  cases hget : Dict.get? "devices" data with
  | none =>
    simp only [devicesList, hget, firstWithId]
    refine iff_of_false (not_atomic fun h => ?_) (not_not.mpr rfl)
    rw [← h, Dict.get?_set_self] at hget
    cases hget
  | some value =>
    refine iff_of_true ?_ (Option.some_ne_none _)
    cases value with
    | seq items =>
      simp only [devicesList, hget]
      cases firstWithId deviceId items with
      | none => exact atomic_self _
      | some found =>
        dsimp only
        split
        · exact atomic_of_ok
        · exact atomic_of_ok
    | _ =>
      simp only [devicesList, hget]
      exact atomic_self _

/-- `set_runtime_default` writes after all its checks. -/
lemma atomic_setRuntimeDefault (runtime deviceId : String) :
    Atomic data (setRuntimeDefault data runtime deviceId) := by
  rw [setRuntimeDefault]
  cases findDevice data deviceId with
  | error e => exact atomic_self _
  | ok found =>
    cases found with
    | none => exact atomic_self _
    | some found =>
      dsimp only
      rcases defaultsBlock_cases data with ⟨items, data', hblock, -⟩ | ⟨e, hblock, -⟩
      · rw [hblock]
        exact atomic_of_ok
      · rw [hblock]
        exact atomic_self _

end Edits

/-! ## All edits -/

/-- **A call that raises leaves the document exactly as it was** if and only if it comes to its last
check before it writes.

**Proof sketch.** Edit by edit; in each the document is followed up to the last check that can
raise. -/
theorem atomic_iff (data : Mapping) (op : Op) (hdistinct : op.DistinctLeaves) :
    ((∃ e, (op.call data).1 = .error e) → step data op = data) ↔ op.ChecksFirst data := by
  have hatomic : ((∃ e, (op.call data).1 = .error e) → step data op = data) ↔
      Atomic data (op.call data) := by
    rw [← call_step]
    rfl
  rw [hatomic]
  cases op with
  | addDevice new => exact (atomic_asUnit _).trans (atomic_addDevice_iff new)
  | updateDeviceAddress => exact iff_of_true (atomic_updateField _ _ _) trivial
  | updateDeviceFirmwareVersion => exact iff_of_true (atomic_updateField _ _ _) trivial
  | updateDeviceHardware deviceId hardware force =>
    exact atomic_updateDeviceHardware_iff deviceId hdistinct force
  | renameDevice oldId newId => exact atomic_renameDevice_iff oldId newId
  | removeDevice deviceId => exact (atomic_asUnit _).trans (atomic_removeDevice_iff deviceId)
  | setRuntimeDefault runtime deviceId =>
    exact iff_of_true (atomic_setRuntimeDefault _ _) trivial

/-- A registry with one board, of which the id of its chip is known. -/
def registeredBoard : Mapping :=
  [("devices", .seq [.map [("id", .str "porch"), ("hardware", .map [("uid", .str "A1")])]])]

/-- A probe of another board: a leaf that was not known, and another id. -/
def otherBoard : Op :=
  .updateDeviceHardware "porch" [("flash_mb", .int 8), ("uid", .str "B2")] false

/-- **The probe of another board raises**, and leaves one of its leaves behind. -/
theorem otherBoard_partly_written :
    (∃ e, (otherBoard.call registeredBoard).1 = .error e) ∧
    step registeredBoard otherBoard =
      [("devices", .seq [.map [("id", .str "porch"),
        ("hardware", .map [("uid", .str "A1"), ("flash_mb", .int 8)])]])] ∧
    ¬ ∀ (data : Mapping) (op : Op), op.DistinctLeaves →
      (∃ e, (op.call data).1 = .error e) → step data op = data := by
  have hraise : ∃ e, (otherBoard.call registeredBoard).1 = .error e := ⟨_, rfl⟩
  have hstep : step registeredBoard otherBoard =
      [("devices", .seq [.map [("id", .str "porch"),
        ("hardware", .map [("uid", .str "A1"), ("flash_mb", .int 8)])]])] := rfl
  refine ⟨hraise, hstep, fun h => ?_⟩
  have hsame := h registeredBoard otherBoard (distinctLeaves_hardware _ _ (by decide)) hraise
  rw [hstep] at hsame
  simp [registeredBoard] at hsame

/-- The condition met and missed: the removal of an unknown board from a registry that lists its
boards, and the probe of another board. -/
theorem atomic_iff_registeredBoard :
    step registeredBoard (.removeDevice "attic") = registeredBoard ∧
      ¬ otherBoard.ChecksFirst registeredBoard := by
  constructor
  · refine (atomic_iff registeredBoard (.removeDevice "attic") trivial).mpr ?_ ⟨_, rfl⟩
    simp [Op.ChecksFirst, registeredBoard, Dict.get?]
  · intro h
    have hsame := (atomic_iff registeredBoard otherBoard
      (distinctLeaves_hardware _ _ (by decide))).mpr h ⟨_, rfl⟩
    rw [show step registeredBoard otherBoard =
      [("devices", .seq [.map [("id", .str "porch"),
        ("hardware", .map [("uid", .str "A1"), ("flash_mb", .int 8)])]])] from rfl] at hsame
    simp [registeredBoard] at hsame

end ChuMicro.Deploy
