import ChuMicro.Lib.Dict
import ChuMicro.Python

/-!
# The device registry file

The edits of `devices.yml` in `chumicro_deploy/config/devices_yaml.py` and its loader in
`config/default.py`. A document is the tree of values that YAML gives; writing it to a file and
parsing it again are left out, as the YAML library returns what it wrote. Nodes that a document
shares between two places (anchors and merge keys) are outside of the trees.

An edit changes the document in place and may raise half-way, so that it is given here by its result
and the document it leaves.

## Main definitions

* `Deploy.Value` — the values of a document.
* `Deploy.addDevice` … `Deploy.setRuntimeDefault` — the edits.
* `Deploy.Op`, `Deploy.step`, `Deploy.run` — edits as data, and a run.
* `Deploy.loadDeviceRegistry` — the loader.
-/

namespace ChuMicro.Deploy

/-! ## Values -/

/-- A value of a YAML document. `other` is a scalar of one more type, such as a date, by its text.
The keys of mappings are strings. -/
inductive Value where
  | null
  | bool (value : Bool)
  | int (value : ℤ)
  | float (bits : BitVec 64)
  | str (text : String)
  | other (text : String)
  | seq (items : List Value)
  | map (items : List (String × Value))

/-- A mapping: an entry of the registry, the defaults, or the whole document. -/
abbrev Mapping := List (String × Value)

namespace Value

/-- `bool(value)`. -/
def truthy : Value → Bool
  | null => false
  | bool value => value
  | int value => value != 0
  | float bits => Ieee754.mag (F := Ieee754.binary64) bits != 0
  | str text => text != ""
  | other _ => true
  | seq items => !items.isEmpty
  | map items => !items.isEmpty

/-- `value == text`. -/
def isStr (text : String) : Value → Bool
  | str text' => text' == text
  | _ => false

/-- The number that a value is: a boolean is one too. -/
def number? : Value → Option Number
  | bool value => some (.finite (if value then 1 else 0))
  | int value => some (.finite value)
  | float bits => floatNumber? bits
  | _ => none

mutual

/-- Python's `==` on two values of a document. -/
def eq : Value → Value → Bool
  | null, null => true
  | str a, str b => a == b
  | other a, other b => a == b
  | seq a, seq b => eqItems a b
  | map a, map b => a.length == b.length && subMap a b
  | a, b =>
    match a.number?, b.number? with
    | some p, some q => p == q
    | _, _ => false

/-- Item by item. -/
def eqItems : List Value → List Value → Bool
  | [], [] => true
  | x :: xs, y :: ys => x.eq y && eqItems xs ys
  | _, _ => false

/-- Every key of the first is one of the second, with an equal value. -/
def subMap : List (String × Value) → List (String × Value) → Bool
  | [], _ => true
  | (key, value) :: rest, m =>
    (match Dict.get? key m with
      | some value' => value.eq value'
      | none => false) && subMap rest m

end

end Value

/-- `mapping.get(key)`: an absent key reads as null. -/
def getD (m : Mapping) (key : String) : Value := (Dict.get? key m).getD .null

/-- The errors of the edits, with the data their texts are made of. `attributeError` and `typeError`
are what Python raises on a document of the wrong shape. -/
inductive RegistryExn where
  | devicesYaml (subject : String) (got : Value)
  | deviceNotFound (deviceId : String)
  | deviceAlreadyExists (message : String)
  | hardwareOverwrite (field : String) (old new : Value)
  | typeError (subject : Value)
  | attributeError (subject : Value)

/-! ## Lookups -/

/-- `_devices_list`. -/
def devicesList (data : Mapping) : Except RegistryExn (List Value) × Mapping :=
  match Dict.get? "devices" data with
  | none => (.ok [], Dict.set "devices" (.seq []) data)
  | some (.seq items) => (.ok items, data)
  | some got => (.error (.devicesYaml "'devices' key must be a list" got), data)

/-- `_defaults_block`. -/
def defaultsBlock (data : Mapping) : Except RegistryExn Mapping × Mapping :=
  match Dict.get? "defaults" data with
  | none => (.ok [], Dict.set "defaults" (.map []) data)
  | some (.map items) => (.ok items, data)
  | some got => (.error (.devicesYaml "'defaults' key must be a mapping" got), data)

/-- The items that `for entry in data.get("devices") or []` goes through. -/
def iterDevices (data : Mapping) : Except RegistryExn (List Value) :=
  let devices := getD data "devices"
  if devices.truthy = false then .ok []
  else
    match devices with
    | .seq items => .ok items
    | .str text => .ok (text.toList.map fun c => .str c.toString)
    | .map items => .ok (items.map fun entry => .str entry.1)
    | got => .error (.typeError got)

/-- The first mapping with this `id`, and its index. -/
def firstWithId (deviceId : String) : List Value → Option (ℕ × Mapping)
  | [] => none
  | .map entry :: rest =>
    if (getD entry "id").isStr deviceId then some (0, entry)
    else (firstWithId deviceId rest).map fun found => (found.1 + 1, found.2)
  | _ :: rest => (firstWithId deviceId rest).map fun found => (found.1 + 1, found.2)

/-- `find_device`, with the index of the entry that is returned. -/
def findDevice (data : Mapping) (deviceId : String) :
    Except RegistryExn (Option (ℕ × Mapping)) := do
  let items ← iterDevices data
  .ok (firstWithId deviceId items)

/-- The document after the entry at `index` was changed to `entry` in place. -/
def putEntry (data : Mapping) (index : ℕ) (entry : Mapping) : Mapping :=
  match Dict.get? "devices" data with
  | some (.seq items) => Dict.set "devices" (.seq (items.set index (.map entry))) data
  | _ => data

/-! ## Edits -/

/-- The arguments of `add_device`. -/
structure NewDevice where
  deviceId : String
  runtime : String
  address : String
  hardware : Option Mapping
  description : Option String
  deployMode : Option String
  serialBaudrate : Option ℤ
  firmwareVersion : Option String
  setDefault : Bool

/-- `entry[key] = value` where the value is not `None`. -/
def setIf (key : String) (value : Option Value) (entry : Mapping) : Mapping :=
  match value with
  | none => entry
  | some value => Dict.set key value entry

/-- The entry that `add_device` builds. -/
def NewDevice.entry (new : NewDevice) : Mapping :=
  let entry := Dict.set "id" (.str new.deviceId) []
  let entry := setIf "description" (new.description.map .str) entry
  let entry := setIf "deploy_mode" (new.deployMode.map .str) entry
  let entry := setIf "serial_baudrate" (new.serialBaudrate.map .int) entry
  let entry := Dict.set "address" (.str new.address) entry
  let entry := setIf "firmware_version" (new.firmwareVersion.map .str) entry
  let entry := Dict.set "runtime" (.str new.runtime) entry
  match new.hardware with
  | none => entry
  | some hardware =>
    if hardware.isEmpty then entry
    else Dict.set "hardware" (.map (hardware.foldl (fun m e => Dict.set e.1 e.2 m) [])) entry

/-- `add_device`. -/
def addDevice (data : Mapping) (new : NewDevice) : Except RegistryExn Mapping × Mapping :=
  match findDevice data new.deviceId with
  | .error e => (.error e, data)
  | .ok (some _) =>
    (.error (.deviceAlreadyExists s!"device '{new.deviceId}' already exists in devices.yml"), data)
  | .ok none =>
    match devicesList data with
    | (.error e, data) => (.error e, data)
    | (.ok items, data) =>
      let data := Dict.set "devices" (.seq (items ++ [Value.map new.entry])) data
      if new.setDefault then
        match defaultsBlock data with
        | (.error e, data) => (.error e, data)
        | (.ok defaults, data) =>
          match getD defaults new.runtime with
          | .null =>
            (.ok new.entry,
              Dict.set "defaults" (.map (Dict.set new.runtime (.str new.deviceId) defaults)) data)
          | _ => (.ok new.entry, data)
      else (.ok new.entry, data)

/-- One key of an entry set to a text, which is all that `update_device_address` and
`update_device_firmware_version` do. -/
def updateField (key : String) (data : Mapping) (deviceId text : String) :
    Except RegistryExn Unit × Mapping :=
  match findDevice data deviceId with
  | .error e => (.error e, data)
  | .ok none => (.error (.deviceNotFound deviceId), data)
  | .ok (some (index, entry)) => (.ok (), putEntry data index (Dict.set key (.str text) entry))

/-- `update_device_address`. -/
def updateDeviceAddress (data : Mapping) (deviceId newAddress : String) :
    Except RegistryExn Unit × Mapping :=
  updateField "address" data deviceId newAddress

/-- `update_device_firmware_version`. -/
def updateDeviceFirmwareVersion (data : Mapping) (deviceId newVersion : String) :
    Except RegistryExn Unit × Mapping :=
  updateField "firmware_version" data deviceId newVersion

/-- The loop of `update_device_hardware`: what was written before a refusal stays. -/
def updateHardware (force : Bool) : Mapping → Mapping → Except RegistryExn Unit × Mapping
  | [], block => (.ok (), block)
  | (key, new) :: rest, block =>
    let existing := getD block key
    let isNull := match existing with
      | .null => true
      | _ => false
    if !isNull && !existing.eq new && !force then
      (.error (.hardwareOverwrite s!"hardware.{key}" existing new), block)
    else updateHardware force rest (Dict.set key new block)

/-- `update_device_hardware`. -/
def updateDeviceHardware (data : Mapping) (deviceId : String) (hardware : Mapping) (force : Bool) :
    Except RegistryExn Unit × Mapping :=
  match findDevice data deviceId with
  | .error e => (.error e, data)
  | .ok none => (.error (.deviceNotFound deviceId), data)
  | .ok (some (index, entry)) =>
    match Dict.get? "hardware" entry with
    | none =>
      let (result, block) := updateHardware force hardware []
      (result, putEntry data index (Dict.set "hardware" (.map block) entry))
    | some (.map block) =>
      let (result, block) := updateHardware force hardware block
      (result, putEntry data index (Dict.set "hardware" (.map block) entry))
    | some got => (.error (.devicesYaml s!"'{deviceId}': 'hardware' must be a mapping" got), data)

/-- The loops over `defaults.items()`: every value that is the text becomes `new`. -/
def replaceDefault (text : String) (new : Value) (value : Value) : Value :=
  if value.isStr text then new else value

/-- `rename_device`. -/
def renameDevice (data : Mapping) (oldId newId : String) : Except RegistryExn Unit × Mapping :=
  match findDevice data oldId with
  | .error e => (.error e, data)
  | .ok none => (.error (.deviceNotFound oldId), data)
  | .ok (some (index, entry)) =>
    match findDevice data newId with
    | .error e => (.error e, data)
    | .ok (some _) =>
      (.error (.deviceAlreadyExists s!"cannot rename '{oldId}' to '{newId}': already exists"), data)
    | .ok none =>
      let data := putEntry data index (Dict.set "id" (.str newId) entry)
      let defaults := getD data "defaults"
      if defaults.truthy = false then (.ok (), data)
      else
        match defaults with
        | .map items =>
          (.ok (), Dict.set "defaults"
            (.map (Dict.mapValues (replaceDefault oldId (.str newId)) items)) data)
        | got => (.error (.attributeError got), data)

/-- `remove_device`. -/
def removeDevice (data : Mapping) (deviceId : String) : Except RegistryExn Mapping × Mapping :=
  match devicesList data with
  | (.error e, data) => (.error e, data)
  | (.ok items, data) =>
    match firstWithId deviceId items with
    | none => (.error (.deviceNotFound deviceId), data)
    | some (index, removed) =>
      let data := Dict.set "devices" (.seq (items.eraseIdx index)) data
      match Dict.get? "defaults" data with
      | some (.map defaults) =>
        (.ok removed, Dict.set "defaults"
          (.map (Dict.mapValues (replaceDefault deviceId .null) defaults)) data)
      | _ => (.ok removed, data)

/-- `set_runtime_default`. -/
def setRuntimeDefault (data : Mapping) (runtime deviceId : String) :
    Except RegistryExn Unit × Mapping :=
  match findDevice data deviceId with
  | .error e => (.error e, data)
  | .ok none => (.error (.deviceNotFound deviceId), data)
  | .ok (some _) =>
    match defaultsBlock data with
    | (.error e, data) => (.error e, data)
    | (.ok defaults, data) =>
      (.ok (), Dict.set "defaults" (.map (Dict.set runtime (.str deviceId) defaults)) data)

/-- One call of an edit. -/
inductive Op where
  | addDevice (new : NewDevice)
  | updateDeviceAddress (deviceId newAddress : String)
  | updateDeviceFirmwareVersion (deviceId newVersion : String)
  | updateDeviceHardware (deviceId : String) (hardware : Mapping) (force : Bool)
  | renameDevice (oldId newId : String)
  | removeDevice (deviceId : String)
  | setRuntimeDefault (runtime deviceId : String)

/-- The document after one call, whether it raised or not. -/
def step (data : Mapping) : Op → Mapping
  | .addDevice new => (addDevice data new).2
  | .updateDeviceAddress deviceId newAddress => (updateDeviceAddress data deviceId newAddress).2
  | .updateDeviceFirmwareVersion deviceId newVersion =>
    (updateDeviceFirmwareVersion data deviceId newVersion).2
  | .updateDeviceHardware deviceId hardware force =>
    (updateDeviceHardware data deviceId hardware force).2
  | .renameDevice oldId newId => (renameDevice data oldId newId).2
  | .removeDevice deviceId => (removeDevice data deviceId).2
  | .setRuntimeDefault runtime deviceId => (setRuntimeDefault data runtime deviceId).2

/-- The document after a sequence of calls. -/
def run (data : Mapping) (ops : List Op) : Mapping := ops.foldl step data

/-! ## The loader -/

/-- `DEFAULT_DEPLOY_MODE`. -/
def DEFAULT_DEPLOY_MODE : String := "flash"

/-- `_REQUIRED_DEVICE_FIELDS`. -/
def REQUIRED_DEVICE_FIELDS : List String := ["id", "runtime", "address"]

/-- `_VALID_RUNTIMES`. -/
def VALID_RUNTIMES : List String := ["micropython", "circuitpython"]

/-- `_VALID_DEPLOY_MODES`. -/
def VALID_DEPLOY_MODES : List String := ["ram", "flash"]

/-- `_VALID_DEPLOY_TRANSPORTS`. -/
def VALID_DEPLOY_TRANSPORTS : List String := ["auto", "serial", "drive"]

/-- `_VALID_IDE_RUNTIMES`. -/
def VALID_IDE_RUNTIMES : List String := ["micropython", "circuitpython", "both"]

/-- `_KNOWN_KEYS`. -/
def KNOWN_KEYS : List String :=
  ["id", "description", "deploy_mode", "serial_baudrate", "address", "firmware_version", "runtime",
    "hardware", "connection_type", "supports_ram_mode", "deploy_transport"]

/-- The errors of the loader, with the data their texts are made of. `notAMapping` is an entry that
is no mapping, on which the loader fails with one error or another. -/
inductive ConfigExn where
  | wrongSection (section' : String) (got : Value)
  | invalidDefault (field : String) (got : Value) (valid : List String)
  | missingFields (index : ℕ) (missing : List String)
  | invalidField (index : ℕ) (deviceId : Value) (field : String) (got : Value)
  | notAMapping (index : ℕ) (got : Value)

/-- `value in (...)` for a tuple of strings. -/
def isOneOf (valid : List String) (value : Value) : Bool := valid.any fun text => value.isStr text

/-- `DeviceDefaults`. -/
structure DeviceDefaults where
  micropython : Value
  circuitpython : Value
  deployMode : Value
  ideRuntime : Value

/-- `DeviceEntry`. -/
structure DeviceEntry where
  identifier : Value
  runtime : Value
  address : Value
  description : Value
  connectionType : Value
  serialBaudrate : Value
  deployMode : Value
  supportsRamMode : Value
  deployTransport : Value
  extra : Mapping

/-- `_parse_defaults`. -/
def parseDefaults (raw : Mapping) : Except ConfigExn DeviceDefaults :=
  let deployMode := (Dict.get? "deploy_mode" raw).getD (.str DEFAULT_DEPLOY_MODE)
  if isOneOf VALID_DEPLOY_MODES deployMode = false then
    .error (.invalidDefault "deploy_mode" deployMode VALID_DEPLOY_MODES)
  else
    let ideRuntime := (Dict.get? "ide_runtime" raw).getD (.str "micropython")
    if isOneOf VALID_IDE_RUNTIMES ideRuntime = false then
      .error (.invalidDefault "ide_runtime" ideRuntime VALID_IDE_RUNTIMES)
    else
      .ok ⟨getD raw "micropython", getD raw "circuitpython", deployMode, ideRuntime⟩

/-- `isinstance(value, bool)`. -/
def Value.isBool : Value → Bool
  | .bool _ => true
  | _ => false

/-- A key that is there must pass the check. -/
def passes (check : Value → Bool) (value : Option Value) : Bool := value.all check

/-- `_validate_device`. -/
def validateDevice (raw : Mapping) (index : ℕ) (globalDeployMode : Value) :
    Except ConfigExn DeviceEntry :=
  let missing := REQUIRED_DEVICE_FIELDS.filter fun field => (Dict.get? field raw).isNone
  let deviceId := getD raw "id"
  let runtime := getD raw "runtime"
  if !missing.isEmpty then .error (.missingFields index missing)
  else if isOneOf VALID_RUNTIMES runtime = false then
    .error (.invalidField index deviceId "runtime" runtime)
  else if passes (isOneOf VALID_DEPLOY_MODES) (Dict.get? "deploy_mode" raw) = false then
    .error (.invalidField index deviceId "deploy_mode" (getD raw "deploy_mode"))
  else if passes Value.isBool (Dict.get? "supports_ram_mode" raw) = false then
    .error (.invalidField index deviceId "supports_ram_mode" (getD raw "supports_ram_mode"))
  else if passes (isOneOf VALID_DEPLOY_TRANSPORTS) (Dict.get? "deploy_transport" raw) = false then
    .error (.invalidField index deviceId "deploy_transport" (getD raw "deploy_transport"))
  else
    .ok {
      identifier := deviceId
      runtime := runtime
      address := getD raw "address"
      description := (Dict.get? "description" raw).getD (.str "")
      connectionType := (Dict.get? "connection_type" raw).getD (.str "serial")
      serialBaudrate := (Dict.get? "serial_baudrate" raw).getD (.int 115200)
      deployMode := (Dict.get? "deploy_mode" raw).getD globalDeployMode
      supportsRamMode := (Dict.get? "supports_ram_mode" raw).getD (.bool true)
      deployTransport := (Dict.get? "deploy_transport" raw).getD (.str "auto")
      extra := raw.filter fun entry => !KNOWN_KEYS.contains entry.1 }

/-- `raw_defaults` of `load_raw_entries`. -/
def rawDefaults (document : Mapping) : Except ConfigExn Mapping :=
  let defaults := getD document "defaults"
  if defaults.truthy = false then .ok []
  else
    match defaults with
    | .map items => .ok items
    | got => .error (.wrongSection "defaults" got)

/-- `entries` of `load_raw_entries`. -/
def rawDevices (document : Mapping) : Except ConfigExn (List Value) :=
  match getD document "devices" with
  | .null => .ok []
  | .seq items => .ok items
  | got => .error (.wrongSection "devices" got)

/-- `load_raw_entries`, from the document that was parsed. -/
def loadRawEntries (document : Mapping) : Except ConfigExn (List Value × Mapping) := do
  let defaults ← rawDefaults document
  let entries ← rawDevices document
  .ok (entries, defaults)

/-- The entries validated one by one, from the given index on. -/
def validateAll (globalDeployMode : Value) : ℕ → List Value → Except ConfigExn (List DeviceEntry)
  | _, [] => .ok []
  | index, .map raw :: rest => do
    let entry ← validateDevice raw index globalDeployMode
    let entries ← validateAll globalDeployMode (index + 1) rest
    .ok (entry :: entries)
  | index, got :: _ => .error (.notAMapping index got)

/-- `load_device_registry`, from the document that was parsed. -/
def loadDeviceRegistry (document : Mapping) :
    Except ConfigExn (List DeviceEntry × DeviceDefaults) := do
  let (entries, rawDefaults) ← loadRawEntries document
  let defaults ← parseDefaults rawDefaults
  let devices ← validateAll defaults.deployMode 0 entries
  .ok (devices, defaults)

end ChuMicro.Deploy
