import ChuMicro.Lib.Dict
import ChuMicro.Msgpack.Pure

/-!
# The runtime config that is staged with a library

`set_runtime_config`, `get_runtime_config` and the encoding of the payload, from
`chumicro_pytest_device/runtime_config.py` and `session.py`, and `DeviceBackend.prepare` with its
three staging branches, from `device_backend.py` and `collection.py`.

A payload is a `dict` object: registrations and the one-slot encoding cache hold its identity, and
what it contains may change under them. So there is a memory that tells what the object of an
identity contains at the moment. That another `dict` is made where a dead one was is a change of
that memory too, and no code here can tell it from a mutation.

The encoder is the `msgpack` package of the host, a parameter: `packb` of the contents of a payload,
which may raise. The connection, the resets and `transport.stage` succeed or fail from outside.

## Main definitions

* `PytestDevice.State` — registrations, memory, encoding cache and staging records.
* `PytestDevice.encodeExtraFiles` — `_encode_runtime_config_extra_files`.
* `PytestDevice.prepare` — `DeviceBackend.prepare`.
* `PytestDevice.expectedExtraFiles` — what belongs to a library at the moment.
* `PytestDevice.SameScope`, `PytestDevice.Fresh` — when the path looks up the payload of the
  library, and when the cached encoding is that of the payload as it is.

## Main results

* `PytestDevice.prepare_staged` — what a staging passes, and the state it is made in.
* `PytestDevice.staged_own_config` — a run whose stagings meet both conditions stages every library
  with its own runtime config, and neither condition can be left out.
* `PytestDevice.encoding_never_stale` — a session that mutates no payload whose encoding is cached
  stages what belongs to each library.
-/

namespace ChuMicro.PytestDevice

/-! ## Registrations -/

/-- The identity of a payload object, `id(payload)`. -/
abbrev ObjId := ℕ

/-- `_DEFAULT_SCOPE`. -/
def DEFAULT_SCOPE : String := "__session__"

/-- `_RUNTIME_CONFIG_DEVICE_PATH`. -/
def RUNTIME_CONFIG_DEVICE_PATH : String := "/runtime_config.msgpack"

/-- The device, library and test file of a batch. -/
abbrev BatchKey := String × String × String

/-- The session: the stash of the config, what the payload objects contain, and the records of the
transport cache. -/
structure State (π : Type) where
  memory : ObjId → π
  payloads : List (String × Option ObjId)
  required : List (String × List String)
  encoded : Option (ObjId × List UInt8)
  lastStaged : List (String × String × String)
  stagedLibrary : List (String × String)
  perFileResetDone : List BatchKey

variable {π ε : Type}

/-- A session in which nothing is registered, encoded or staged. -/
def State.initial (memory : ObjId → π) : State π := ⟨memory, [], [], none, [], [], []⟩

/-- `set_runtime_config` called from a conftest of `scope`. -/
def setRuntimeConfig (st : State π) (scope : String) (payload : Option ObjId)
    (requiredKeys : List String) : State π :=
  { st with
    payloads := Dict.set scope payload st.payloads
    required := Dict.set scope requiredKeys st.required }

/-- `get_runtime_config`. -/
def getRuntimeConfig (st : State π) (scope : Option String) : Option ObjId :=
  match Dict.get? (scope.getD DEFAULT_SCOPE) st.payloads with
  | some payload => payload
  | none => (Dict.get? DEFAULT_SCOPE st.payloads).getD none

/-- The extra files of a staging: paths on the device and their bytes. -/
abbrev ExtraFiles := List (String × List UInt8)

variable (packb : π → Except ε (List UInt8))

/-- `_encode_runtime_config_extra_files`. -/
def encodeExtraFiles (st : State π) (scope : Option String) :
    Except ε (Option ExtraFiles) × State π :=
  match getRuntimeConfig st scope with
  | none => (.ok none, st)
  | some payload =>
    let cached := st.encoded.filter fun entry => entry.1 = payload
    match cached with
    | some (_, bytes) => (.ok (some [(RUNTIME_CONFIG_DEVICE_PATH, bytes)]), st)
    | none =>
      match packb (st.memory payload) with
      | .error e => (.error e, st)
      | .ok bytes =>
        (.ok (some [(RUNTIME_CONFIG_DEVICE_PATH, bytes)]),
          { st with encoded := some (payload, bytes) })

/-! ## Staging -/

/-- A device test item: its library or project and its test file. -/
structure Item where
  libraryName : String
  testFile : String

/-- The options of the session and the mode of each device's transport. -/
structure Env where
  perFile : Bool
  mode : String → String

/-- Which calls on the transport succeed during one `prepare`. -/
structure Outcomes where
  connect : Bool
  clearEntrypoints : Bool
  softReset : Bool
  stage : Bool

/-- Why `prepare` raised. -/
inductive PrepareExn (ε : Type) where
  | transportConnection
  | clearEntrypoints
  | softReset (whenText : String)
  | encode (e : ε)
  | stage

/-- One call of `transport.stage`: the device, the item it is made for and the extra files. -/
structure StageCall where
  device : String
  item : Item
  extraFiles : Option ExtraFiles

/-- What one `prepare` does: how it ends, the call of `transport.stage` it makes, and the state
after it. -/
structure Prepared (π ε : Type) where
  result : Except (PrepareExn ε) Unit
  call : Option StageCall
  state : State π

/-- `item.batch_key(device_entry)`. -/
def batchKey (device : String) (item : Item) : BatchKey := (device, item.libraryName, item.testFile)

/-- Whether the transport holds files, `transport.mode not in ("ram", "mount")`. -/
def isFilesystemMode (mode : String) : Bool := mode != "ram" && mode != "mount"

/-- `_bulk_stage_for_device` and `_stage_one_item`: the extra files of `scope` are encoded and
passed to `transport.stage`, and `mark` records a staging that succeeded. -/
def stageWith (st : State π) (device : String) (item : Item) (scope : Option String)
    (out : Outcomes) (mark : State π → State π) : Prepared π ε :=
  match encodeExtraFiles packb st scope with
  | (.error e, st) => ⟨.error (.encode e), none, st⟩
  | (.ok extraFiles, st) =>
    if out.stage then ⟨.ok (), some ⟨device, item, extraFiles⟩, mark st⟩
    else ⟨.error .stage, some ⟨device, item, extraFiles⟩, st⟩

/-- `cache.mark_library_staged`. -/
def markLibraryStaged (device : String) (item : Item) (st : State π) : State π :=
  { st with stagedLibrary := Dict.set device item.libraryName st.stagedLibrary }

/-- `cache.mark_per_file_reset`. -/
def markPerFileReset (key : BatchKey) (st : State π) : State π :=
  { st with perFileResetDone := key :: st.perFileResetDone }

/-- `cache.mark_staged`. -/
def markStaged (device : String) (item : Item) (st : State π) : State π :=
  { st with lastStaged := Dict.set device (item.libraryName, item.testFile) st.lastStaged }

/-- `cache.needs_staging`. -/
def needsStaging (st : State π) (device : String) (item : Item) : Bool :=
  Dict.get? device st.lastStaged != some (item.libraryName, item.testFile)

/-- `_clear_entrypoints_or_fail` before the first staging on a device, and `_soft_reset_or_fail`. -/
def resetFirst (st : State π) (device : String) (out : Outcomes) (whenText : String)
    (next : Prepared π ε) : Prepared π ε :=
  if (Dict.get? device st.stagedLibrary).isNone && !out.clearEntrypoints then
    ⟨.error .clearEntrypoints, none, st⟩
  else if !out.softReset then ⟨.error (.softReset whenText), none, st⟩
  else next

/-- `DeviceBackend.prepare`. -/
def prepare (env : Env) (st : State π) (device : String) (item : Item) (out : Outcomes) :
    Prepared π ε :=
  if !out.connect then ⟨.error .transportConnection, none, st⟩
  else if isFilesystemMode (env.mode device) && env.perFile then
    -- `--per-file`: one test file at a time
    if st.perFileResetDone.contains (batchKey device item) then ⟨.ok (), none, st⟩
    else
      resetFirst st device out "before test file (--per-file)"
        (stageWith packb st device item none out
          (markPerFileReset (batchKey device item) ∘ markLibraryStaged device item))
  else if isFilesystemMode (env.mode device) then
    -- bulk: a library at a time
    if Dict.get? device st.stagedLibrary = some item.libraryName then ⟨.ok (), none, st⟩
    else
      resetFirst st device out "before staging library"
        (stageWith packb st device item (some item.libraryName) out (markLibraryStaged device item))
  else
    -- RAM and mount: the test file is part of what is staged
    if !needsStaging st device item then ⟨.ok (), none, st⟩
    else if (Dict.get? device st.lastStaged).isSome && !out.softReset then
      ⟨.error (.softReset "between test files"), none, st⟩
    else stageWith packb st device item none out (markStaged device item)

/-- `cache.invalidate_device`. -/
def invalidateDevice (st : State π) (device : String) : State π :=
  { st with
    lastStaged := st.lastStaged.filter fun entry => entry.1 != device
    stagedLibrary := st.stagedLibrary.filter fun entry => entry.1 != device
    perFileResetDone := st.perFileResetDone.filter fun key => key.1 != device }

/-! ## Runs -/

/-- What happens in a session: a registration, a change of what a payload object contains, the
preparation of an item, an eviction of a device, or an encoding for another user of the helper. -/
inductive Event (π : Type) where
  | setRuntimeConfig (scope : String) (payload : Option ObjId) (requiredKeys : List String)
  | write (payload : ObjId) (contents : π)
  | prepare (device : String) (item : Item) (out : Outcomes)
  | invalidateDevice (device : String)
  | encode (scope : Option String)

/-- The state after an event. -/
def step (env : Env) (st : State π) : Event π → State π
  | .setRuntimeConfig scope payload requiredKeys =>
    setRuntimeConfig st scope payload requiredKeys
  | .write payload contents => { st with memory := Function.update st.memory payload contents }
  | .prepare device item out => (prepare packb env st device item out).state
  | .invalidateDevice device => invalidateDevice st device
  | .encode scope => (encodeExtraFiles packb st scope).2

/-- The call of `transport.stage` that an event makes. -/
def staged (env : Env) (st : State π) : Event π → Option StageCall
  | .prepare device item out => (prepare packb env st device item out).call
  | _ => none

/-- The state after some events. -/
def run (env : Env) (st : State π) (events : List (Event π)) : State π :=
  events.foldl (step packb env) st

/-- `P` holds at every event of a run, in the state before the event. -/
def Along (env : Env) (P : State π → Event π → Prop) (st : State π) : List (Event π) → Prop
  | [] => True
  | event :: events => P st event ∧ Along env P (step packb env st event) events

/-! ## What belongs to a library -/

/-- The encoding of the payload registered for a scope, of what that payload contains now. -/
def currentExtraFiles (st : State π) (scope : Option String) : Except ε (Option ExtraFiles) :=
  match getRuntimeConfig st scope with
  | none => .ok none
  | some payload =>
    (packb (st.memory payload)).map fun bytes => some [(RUNTIME_CONFIG_DEVICE_PATH, bytes)]

/-- The extra files of a library: the encoding of its own payload, of the session-wide one when it
registered none, and nothing when what it has is `None`. -/
def expectedExtraFiles (st : State π) (library : String) : Except ε (Option ExtraFiles) :=
  currentExtraFiles packb st (some library)

/-- The scope that the path of an item looks up: its library on the bulk path, and the session on
the other two, which pass no scope. -/
def pathScope (env : Env) (device : String) (item : Item) : Option String :=
  if isFilesystemMode (env.mode device) && !env.perFile then some item.libraryName else none

/-- The path of an item looks up a payload that encodes as that of its library. -/
def SameScope (env : Env) (st : State π) (device : String) (item : Item) : Prop :=
  currentExtraFiles packb st (pathScope env device item) =
    expectedExtraFiles packb st item.libraryName

/-- If the cache holds an encoding of the payload of a scope, it is the encoding of what the payload
contains now. -/
def Fresh (st : State π) (scope : Option String) : Prop :=
  ∀ payload bytes, st.encoded = some (payload, bytes) →
    getRuntimeConfig st scope = some payload → packb (st.memory payload) = .ok bytes

/-- An event that stages only what meets both conditions. -/
def SoundStaging (env : Env) (st : State π) : Event π → Prop
  | .prepare device item _ =>
    SameScope packb env st device item ∧ Fresh packb st (pathScope env device item)
  | _ => True

/-- A staging passes what belongs to the library of its item. -/
def StagesOwn (env : Env) (st : State π) (event : Event π) : Prop :=
  ∀ call, staged packb env st event = some call →
    expectedExtraFiles packb st call.item.libraryName = .ok call.extraFiles

/-- The bulk path looks up the scope of the library. -/
lemma sameScope_of_bulk (env : Env) (st : State π) (device : String) (item : Item)
    (hmode : isFilesystemMode (env.mode device) = true) (hbulk : env.perFile = false) :
    SameScope packb env st device item := by
  rw [SameScope, pathScope, hmode, hbulk]
  rfl

/-- Every path looks up the payload of a library that registered none of its own. -/
lemma sameScope_of_unregistered (env : Env) (st : State π) (device : String) (item : Item)
    (hnone : Dict.get? item.libraryName st.payloads = none) :
    SameScope packb env st device item := by
  have hlookup : getRuntimeConfig st none = getRuntimeConfig st (some item.libraryName) := by
    simp only [getRuntimeConfig, Option.getD_none, Option.getD_some, hnone]
    cases Dict.get? DEFAULT_SCOPE st.payloads <;> rfl
  rw [SameScope, pathScope]
  split
  · rfl
  · rw [expectedExtraFiles, currentExtraFiles, currentExtraFiles, hlookup]

/-! ## What a staging passes -/

section Staging

variable {packb}

variable {st : State π} {device : String} {out : Outcomes} {call : StageCall}

/-- Where the cache is fresh, the helper returns the encoding of the payload as it is. -/
lemma encodeExtraFiles_fst {scope : Option String} (h : Fresh packb st scope) :
    (encodeExtraFiles packb st scope).1 = currentExtraFiles packb st scope := by
  unfold encodeExtraFiles currentExtraFiles
  cases hlookup : getRuntimeConfig st scope with
  | none => rfl
  | some payload =>
    dsimp only
    cases hcached : st.encoded.filter fun entry => entry.1 = payload with
    | none => cases packb (st.memory payload) <;> rfl
    | some entry =>
      obtain ⟨hentry, hid⟩ := Option.filter_eq_some_iff.mp hcached
      have hid : entry.1 = payload := by simpa using hid
      have hbytes := h payload entry.2 (by rw [hentry, ← hid]) hlookup
      rw [hbytes]
      rfl

/-- A staging passes what the helper returned. -/
lemma stageWith_call {item : Item} {scope : Option String} {mark : State π → State π}
    (h : (stageWith packb st device item scope out mark).call = some call) :
    call.item = item ∧ (encodeExtraFiles packb st scope).1 = .ok call.extraFiles := by
  unfold stageWith at h
  split at h
  · cases h
  · next extraFiles after heq =>
    have hcall : some ⟨device, item, extraFiles⟩ = some call := by
      split at h <;> exact h
    cases hcall
    rw [heq]
    exact ⟨rfl, rfl⟩

/-- A reset that comes first makes no call, and leaves the state to what comes next. -/
lemma resetFirst_call {whenText : String} {next : Prepared π ε}
    (h : (resetFirst st device out whenText next).call = some call) : next.call = some call := by
  unfold resetFirst at h
  by_cases hclear : ((Dict.get? device st.stagedLibrary).isNone && !out.clearEntrypoints) = true
  · rw [if_pos hclear] at h
    cases h
  · rw [if_neg hclear] at h
    by_cases hsoft : (!out.softReset) = true
    · rw [if_pos hsoft] at h
      cases h
    · rwa [if_neg hsoft] at h

/-- **A staging passes the encoding for the scope of its path.** -/
theorem prepare_staged {env : Env} {item : Item}
    (h : (prepare packb env st device item out).call = some call) :
    call.item = item ∧
      (encodeExtraFiles packb st (pathScope env device item)).1 = .ok call.extraFiles := by
  unfold prepare at h
  by_cases hconnect : (!out.connect) = true
  · rw [if_pos hconnect] at h
    cases h
  rw [if_neg hconnect] at h
  cases hmode : isFilesystemMode (env.mode device) with
  | true =>
    cases hfile : env.perFile with
    | true =>
      rw [pathScope, hmode, hfile]
      rw [hmode, hfile, if_pos (by rfl)] at h
      split at h
      · cases h
      · exact stageWith_call (resetFirst_call h)
    | false =>
      rw [pathScope, hmode, hfile]
      rw [hmode, hfile, if_neg (by decide), if_pos rfl] at h
      split at h
      · cases h
      · exact stageWith_call (resetFirst_call h)
  | false =>
    rw [pathScope, hmode]
    rw [hmode, if_neg (by simp), if_neg (by decide)] at h
    split at h
    · cases h
    · split at h
      · cases h
      · exact stageWith_call h

/-- Both conditions make a staging right. -/
lemma stagesOwn_of_sound {env : Env} {event : Event π} (h : SoundStaging packb env st event) :
    StagesOwn packb env st event := by
  intro call hcall
  cases event with
  | prepare device item out =>
    obtain ⟨hitem, hfiles⟩ := prepare_staged hcall
    rw [hitem, ← h.1, ← encodeExtraFiles_fst h.2, hfiles]
  | setRuntimeConfig scope payload requiredKeys => cases hcall
  | write payload contents => cases hcall
  | invalidateDevice device => cases hcall
  | encode scope => cases hcall

end Staging

/-! ## Every run -/

section Runs

variable {packb}

variable {st : State π}

/-- What holds at one event because of another property holds along a run because of it. -/
lemma Along.imp {env : Env} {P Q : State π → Event π → Prop}
    (h : ∀ st event, P st event → Q st event) {events : List (Event π)}
    (hP : Along packb env P st events) : Along packb env Q st events := by
  induction events generalizing st with
  | nil => exact hP
  | cons event events ih => exact ⟨h st event hP.1, ih hP.2⟩

/-- The cache holds the encoding of what its payload contains now. -/
def CacheFresh (packb : π → Except ε (List UInt8)) (st : State π) : Prop :=
  ∀ payload bytes, st.encoded = some (payload, bytes) → packb (st.memory payload) = .ok bytes

/-- An event that does not change what the payload in the cache encodes as. -/
def KeepsCached (packb : π → Except ε (List UInt8)) (st : State π) : Event π → Prop
  | .write payload contents =>
    ∀ bytes, st.encoded = some (payload, bytes) → packb contents = .ok bytes
  | _ => True

/-- Encoding leaves the cache fresh: what it writes there it has just encoded. -/
lemma CacheFresh.encodeExtraFiles (h : CacheFresh packb st) (scope : Option String) :
    CacheFresh packb (encodeExtraFiles packb st scope).2 := by
  unfold PytestDevice.encodeExtraFiles
  cases getRuntimeConfig st scope with
  | none => exact h
  | some payload =>
    dsimp only
    cases st.encoded.filter fun entry => entry.1 = payload with
    | some entry => exact h
    | none =>
      cases hpack : packb (st.memory payload) with
      | error e => exact h
      | ok packed =>
        rintro payload' bytes ⟨⟩
        exact hpack

/-- The staging records are no part of the cache. -/
lemma CacheFresh.of_eq {st' : State π} (h : CacheFresh packb st)
    (hencoded : st'.encoded = st.encoded) (hmemory : st'.memory = st.memory) :
    CacheFresh packb st' := by
  intro payload bytes hcache
  rw [hmemory]
  exact h payload bytes (hencoded ▸ hcache)

/-- Staging leaves the cache fresh. -/
lemma CacheFresh.stageWith (h : CacheFresh packb st) (device : String) (item : Item)
    (scope : Option String) (out : Outcomes) (mark : State π → State π)
    (hencoded : ∀ st, (mark st).encoded = st.encoded)
    (hmemory : ∀ st, (mark st).memory = st.memory) :
    CacheFresh packb (stageWith packb st device item scope out mark).state := by
  have hafter := h.encodeExtraFiles scope
  unfold PytestDevice.stageWith
  split
  · next heq => exact (heq ▸ hafter :)
  · next after heq =>
    have hafter : CacheFresh packb after := (heq ▸ hafter :)
    split
    · exact hafter.of_eq (hencoded _) (hmemory _)
    · exact hafter

/-- A reset before the staging leaves the cache to it. -/
lemma CacheFresh.resetFirst (h : CacheFresh packb st) (device : String) (out : Outcomes)
    (whenText : String) {next : Prepared π ε} (hnext : CacheFresh packb next.state) :
    CacheFresh packb (resetFirst st device out whenText next).state := by
  unfold PytestDevice.resetFirst
  split
  · exact h
  · split
    · exact h
    · exact hnext

/-- Preparing an item leaves the cache fresh. -/
lemma CacheFresh.prepare (h : CacheFresh packb st) (env : Env) (device : String) (item : Item)
    (out : Outcomes) : CacheFresh packb (prepare packb env st device item out).state := by
  have hstage := fun scope mark => h.stageWith device item scope out mark
  unfold PytestDevice.prepare
  split
  · exact h
  split
  · split
    · exact h
    · exact h.resetFirst _ _ _ (hstage _ _ (fun _ => rfl) fun _ => rfl)
  split
  · split
    · exact h
    · exact h.resetFirst _ _ _ (hstage _ _ (fun _ => rfl) fun _ => rfl)
  split
  · exact h
  split
  · exact h
  · exact hstage _ _ (fun _ => rfl) fun _ => rfl

/-- **One event** that keeps what is cached leaves the cache fresh. -/
lemma CacheFresh.step (h : CacheFresh packb st) (env : Env) (event : Event π)
    (hkeep : KeepsCached packb st event) : CacheFresh packb (step packb env st event) := by
  cases event with
  | setRuntimeConfig scope payload requiredKeys => exact h.of_eq rfl rfl
  | invalidateDevice device => exact h.of_eq rfl rfl
  | prepare device item out => exact h.prepare env device item out
  | encode scope => exact h.encodeExtraFiles scope
  | write payload contents =>
    intro payload' bytes hcache
    by_cases hsame : payload' = payload
    · subst hsame
      simp only [PytestDevice.step, Function.update_self]
      exact hkeep bytes hcache
    · simp only [PytestDevice.step, Function.update_of_ne hsame]
      exact h payload' bytes hcache

/-- **The cache is fresh through every run** that never changes what the payload in it encodes as;
so in such a run each staging is right whose path looks up the payload of its library.

**Proof sketch.** Induction on the events with `CacheFresh.step`; a session begins with an empty
cache. -/
lemma CacheFresh.run (h : CacheFresh packb st) (env : Env) (events : List (Event π))
    (hkeep : Along packb env (KeepsCached packb) st events) :
    CacheFresh packb (run packb env st events) := by
  induction events generalizing st with
  | nil => exact h
  | cons event events ih => exact ih (h.step env event hkeep.1) hkeep.2

end Runs

/-- **Each library is staged with its own runtime config** in every run whose stagings all meet both
conditions: the path looks up a payload that encodes as that of the library, and what the cache
holds of it is the encoding of what it contains now.

**Proof sketch.** `stagesOwn_of_sound` at every event of the run. By `CacheFresh.run` the second
condition holds as long as what the cached id stands for keeps its encoding: the payload is not
mutated, nor dropped and its id given to a new object (the cache keeps no reference). -/
theorem staged_own_config (env : Env) (memory : ObjId → π) (events : List (Event π))
    (h : Along packb env (SoundStaging packb env) (State.initial memory) events) :
    Along packb env (StagesOwn packb env) (State.initial memory) events :=
  h.imp fun _ _ => stagesOwn_of_sound

/-- Every call on the transport succeeds. -/
def Outcomes.allOk : Outcomes := ⟨true, true, true, true⟩

/-- A payload with one entry. -/
def payloadOf (n : ObjId) : Msgpack.PyVal := .dict [(.str (pyStr "a"), .int n)]

/-- A library that registered no payload of its own is staged file by file with the session-wide
one. -/
theorem staged_own_config_perFile :
    let env : Env := ⟨true, fun _ => "flash"⟩
    let events : List (Event Msgpack.PyVal) :=
      [.setRuntimeConfig "__session__" (some 1) [],
        .prepare "board" ⟨"mqtt", "test_connect.py"⟩ .allOk]
    Along Msgpack.packb env (StagesOwn Msgpack.packb env) (State.initial payloadOf) events :=
  staged_own_config Msgpack.packb ⟨true, fun _ => "flash"⟩ payloadOf
    [.setRuntimeConfig "__session__" (some 1) [],
      .prepare "board" ⟨"mqtt", "test_connect.py"⟩ .allOk]
    ⟨trivial, ⟨rfl, nofun⟩, trivial⟩

/-- `--per-file`, on a board with a file system: `mqtt` has registered a payload under its own
scope, and is staged without one, as the path looks up the session's. In bulk, a payload whose entry
changes from 1 to 2 after `mqtt` was staged with it is staged for `wifi` with its old entry. -/
theorem staged_without_own_config :
    (let env : Env := ⟨true, fun _ => "flash"⟩
      let item : Item := ⟨"mqtt", "test_connect.py"⟩
      let st := run Msgpack.packb env (State.initial payloadOf)
        [.setRuntimeConfig "mqtt" (some 1) []]
      staged Msgpack.packb env st (.prepare "board" item .allOk) = some ⟨"board", item, none⟩ ∧
        expectedExtraFiles Msgpack.packb st "mqtt" =
          .ok (some [("/runtime_config.msgpack", [0x81, 0xa1, 0x61, 1])]) ∧
        ¬ StagesOwn Msgpack.packb env st (.prepare "board" item .allOk)) ∧
    (let env : Env := ⟨false, fun _ => "flash"⟩
      let item : Item := ⟨"wifi", "test_join.py"⟩
      let st := run Msgpack.packb env (State.initial payloadOf)
        [.setRuntimeConfig "__session__" (some 1) [],
          .prepare "board" ⟨"mqtt", "test_connect.py"⟩ .allOk, .write 1 (payloadOf 2)]
      staged Msgpack.packb env st (.prepare "board" item .allOk) =
          some ⟨"board", item, some [("/runtime_config.msgpack", [0x81, 0xa1, 0x61, 1])]⟩ ∧
        expectedExtraFiles Msgpack.packb st "wifi" =
          .ok (some [("/runtime_config.msgpack", [0x81, 0xa1, 0x61, 2])]) ∧
        ¬ StagesOwn Msgpack.packb env st (.prepare "board" item .allOk)) := by
  refine ⟨⟨by rfl, by rfl, fun h => ?_⟩, by rfl, by rfl, fun h => ?_⟩
  · cases h _ rfl
  · cases h _ rfl

/-- An event that stages on the bulk path, or an item of a library that registered no payload of its
own, and that does not change what the payload in the cache encodes as. -/
def Unchanging (env : Env) (st : State π) : Event π → Prop
  | .prepare device item _ =>
    (isFilesystemMode (env.mode device) = true ∧ env.perFile = false) ∨
      Dict.get? item.libraryName st.payloads = none
  | event => KeepsCached packb st event

/-- **The encoding cache is never stale** in a session that changes no payload while its encoding is
in the cache (an id that comes to name another payload counts as a change), whatever is registered,
staged, evicted and encoded, and whatever fails: at its end every scope encodes as its payload is
now, and on the way every staging on the bulk path, and every one for a library without a
registration of its own, has passed what belongs to its library.

**Proof sketch.** Induction on the events: the cache is fresh before each, and so the staging of the
event meets both conditions of `SoundStaging`. -/
theorem encoding_never_stale (env : Env) (memory : ObjId → π) (events : List (Event π))
    (h : Along packb env (Unchanging packb env) (State.initial memory) events) :
    Along packb env (StagesOwn packb env) (State.initial memory) events ∧
      ∀ scope, (encodeExtraFiles packb (run packb env (State.initial memory) events) scope).1 =
        currentExtraFiles packb (run packb env (State.initial memory) events) scope := by
  have hkeeps : ∀ (st : State π) event, Unchanging packb env st event →
      KeepsCached packb st event := by
    intro st event hevent
    cases event with
    | prepare device item out => trivial
    | setRuntimeConfig scope payload requiredKeys => exact hevent
    | write payload contents => exact hevent
    | invalidateDevice device => exact hevent
    | encode scope => exact hevent
  have hsound : ∀ {st : State π}, CacheFresh packb st → ∀ event, Unchanging packb env st event →
      SoundStaging packb env st event := by
    intro st hfresh event hevent
    cases event with
    | prepare device item out =>
      refine ⟨?_, fun payload bytes hcache _ => hfresh payload bytes hcache⟩
      obtain ⟨hmode, hbulk⟩ | hnone := hevent
      · exact sameScope_of_bulk packb env st device item hmode hbulk
      · exact sameScope_of_unregistered packb env st device item hnone
    | setRuntimeConfig scope payload requiredKeys => trivial
    | write payload contents => trivial
    | invalidateDevice device => trivial
    | encode scope => trivial
  have hstages : ∀ (events : List (Event π)) {st : State π}, CacheFresh packb st →
      Along packb env (Unchanging packb env) st events →
        Along packb env (StagesOwn packb env) st events := by
    intro events
    induction events with
    | nil => exact fun _ _ => trivial
    | cons event events ih =>
      intro st hfresh hevents
      exact ⟨stagesOwn_of_sound (hsound hfresh event hevents.1),
        ih (hfresh.step env event (hkeeps st event hevents.1)) hevents.2⟩
  have hinitial : CacheFresh packb (State.initial memory) := nofun
  have hend := hinitial.run env events (h.imp hkeeps)
  exact ⟨hstages events hinitial h, fun scope =>
    encodeExtraFiles_fst fun payload bytes hcache _ => hend payload bytes hcache⟩

/-- A payload that is changed before anything is staged. -/
theorem encoding_never_stale_bulk :
    let events : List (Event Msgpack.PyVal) :=
      [.setRuntimeConfig "mqtt" (some 1) [], .write 1 (payloadOf 2),
        .prepare "board" ⟨"mqtt", "test_connect.py"⟩ .allOk]
    Along Msgpack.packb ⟨false, fun _ => "flash"⟩
      (StagesOwn Msgpack.packb ⟨false, fun _ => "flash"⟩) (State.initial payloadOf) events :=
  (encoding_never_stale Msgpack.packb ⟨false, fun _ => "flash"⟩ payloadOf
    [.setRuntimeConfig "mqtt" (some 1) [], .write 1 (payloadOf 2),
      .prepare "board" ⟨"mqtt", "test_connect.py"⟩ .allOk]
    ⟨trivial, nofun, .inl ⟨rfl, rfl⟩, trivial⟩).1

end ChuMicro.PytestDevice
