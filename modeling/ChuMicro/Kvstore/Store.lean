import ChuMicro.Lib.Prog
import ChuMicro.Msgpack.RoundTrip

/-!
# The key-value store

`KVStore` in `chumicro_kvstore/core.py`: a dictionary in memory, a backend that holds its encoding,
and the flag that lets `commit_if_changed` skip a write. The methods are given for any backend: a
load gives a payload or raises, and a save may change the backend also where it raises.

In a run the backend answers every call. A load gives any bytes, or raises; a save that raises may
leave anything behind. The answers are arguments of the operations that ask for them, so that a run
is a list of operations.

The flag is meant to be set whenever the backend may lag behind. Four things break this. A load that
gives an empty payload, or a dictionary, which is not what the backend holds is taken for it. A
reload clears the flag before it asks the backend, so a reload that raises forgets the changes it
has not discarded. A save that raises is forgotten too, so that a dictionary that went back to what
was last written is not written again. And a dictionary that msgpack writes but cannot read is
committed all the same.

## Main definitions

* `Kvstore.KVStore` — the store and its backend.
* `Kvstore.Op` — the operations, with the answers of the backend.
* `Kvstore.KVStore.InSync` — the backend holds what the store has in memory.
* `Kvstore.Op.Sound` — the operations that break nothing.

## Main results

* `Kvstore.commit_spec`, `Kvstore.commitIfChanged_spec` — what a commit does.
* `Kvstore.in_sync_of_clean` — in a run of sound operations a store that is neither dirty nor
  corrupt is in sync, and a commit that is skipped leaves it so.
-/

namespace ChuMicro.Kvstore

open Prog Msgpack

/-! ## The store -/

/-- `KVStoreFull` and `KVStoreCorrupt`, and the built-in exceptions. -/
inductive Exn where
  | kvStoreFull (message : String)
  | kvStoreCorrupt (message : String)
  | py (e : PyExn)
  deriving DecidableEq, Repr

/-- `KVStore`, with its backend. -/
structure KVStore (B : Type) where
  capacity : ℕ
  data : List (PyVal × PyVal) := []
  lastPayload : List UInt8 := []
  isCorrupt : Bool := false
  dirty : Bool := false
  backend : B

/-- A computation of the store. -/
abbrev M (B : Type) := Prog (KVStore B) Exn

section Store

variable {B : Type}

/-- The dictionary in memory, as a value. -/
def KVStore.dict (s : KVStore B) : PyVal := .dict s.data

/-! ## Loading and committing -/

/-- The part of `reload` below the load, for a payload that is not empty. -/
def parsePayload (errorText : PyExn → String) (payload : List UInt8) :
    Except Exn (List (PyVal × PyVal)) :=
  match unpackb payload with
  | .error e =>
    if isValueError e then
      .error (.kvStoreCorrupt s!"payload is not valid msgpack: {errorText e}")
    else .error (.py e)
  | .ok (.dict items) => .ok items
  | .ok _ => .error (.kvStoreCorrupt "payload is not a dict")

/-- `reload`. -/
def reload (errorText : PyExn → String) (load : B → Except Exn (List UInt8)) : M B Unit := do
  modify fun s => { s with dirty := false }
  let s ← get
  let payload ← lift (load s.backend)
  if payload = [] then
    modify fun s => { s with data := [], lastPayload := [], isCorrupt := false }
  else do
    let loaded ← lift (parsePayload errorText payload)
    modify fun s => { s with data := loaded, lastPayload := payload, isCorrupt := false }

/-- The body of `__init__`, on the fields it has set before its first load. -/
def load (errorText : PyExn → String) (load : B → Except Exn (List UInt8)) : M B Unit :=
  tryCatch (reload errorText load) fun e =>
    match e with
    | .kvStoreCorrupt _ => modify fun s => { s with data := [], lastPayload := [], isCorrupt := true }
    | e => throw e

/-- `self._backend.save(payload)`. -/
def backendSave (save : List UInt8 → Prog B Exn Unit) (payload : List UInt8) : M B Unit := fun s =>
  ((save payload s.backend).1, { s with backend := (save payload s.backend).2 })

/-- `_persist`. -/
def persist (save : List UInt8 → Prog B Exn Unit) (payload : List UInt8) : M B Unit := do
  let s ← get
  if 0 < s.capacity ∧ s.capacity < payload.length then
    throw (.kvStoreFull s!"payload size {payload.length} exceeds capacity {s.capacity}")
  else do
    backendSave save payload
    modify fun s => { s with lastPayload := payload, isCorrupt := false, dirty := false }

/-- `packb(self._data)`. -/
def packData : M B (List UInt8) := do
  let s ← get
  match packb s.dict with
  | .ok payload => pure payload
  | .error e => throw (.py e)

/-- `commit`. -/
def commit (save : List UInt8 → Prog B Exn Unit) : M B Unit := do
  let payload ← packData
  persist save payload

/-- `commit_if_changed`. -/
def commitIfChanged (save : List UInt8 → Prog B Exn Unit) : M B Bool := do
  let s ← get
  if s.dirty = false then pure false
  else do
    let payload ← packData
    if payload = s.lastPayload then do
      modify fun s => { s with dirty := false }
      pure false
    else do
      persist save payload
      pure true

/-! ## Mutators -/

/-- Whether `key in self._data`. -/
def hasKey (key : PyVal) (items : List (PyVal × PyVal)) : Bool := items.any fun entry => keyEq entry.1 key

/-- `del items[key]`, for a key that is there. -/
def dictErase (key : PyVal) (items : List (PyVal × PyVal)) : List (PyVal × PyVal) :=
  items.eraseP fun entry => keyEq entry.1 key

/-- `__setitem__`. -/
def setItem (key : PyStr) (value : PyVal) : M B Unit :=
  modify fun s => { s with data := dictSet (.str key) value s.data, dirty := true }

/-- The `KeyError` of a missing key, with `repr(key)` as the text. -/
def keyMissing (keyText : String) : Exn := .py (.keyError keyText)

/-- `__delitem__`. -/
def delItem (key : PyStr) (keyText : String) : M B Unit := do
  let s ← get
  if hasKey (.str key) s.data then
    modify fun s => { s with data := dictErase (.str key) s.data, dirty := true }
  else throw (keyMissing keyText)

/-- `pop`, with the default where one is given. -/
def pop (key : PyStr) (default : Option PyVal) (keyText : String) : M B PyVal := do
  let s ← get
  match s.data.find? fun entry => keyEq entry.1 (.str key), default with
  | some entry, _ => do
    modify fun s => { s with data := dictErase (.str key) s.data, dirty := true }
    pure entry.2
  | none, some value => do
    modify fun s => { s with dirty := true }
    pure value
  | none, none => throw (keyMissing keyText)

/-- `clear`. -/
def clear : M B Unit := modify fun s => { s with data := [], dirty := true }

/-- `update`. -/
def update (other : List (PyStr × PyVal)) : M B Unit :=
  modify fun s => { s with
    data := other.foldl (fun items entry => dictSet (.str entry.1) entry.2 items) s.data
    dirty := true }

/-- The methods that change the dictionary in memory and do not ask the backend. -/
inductive Mutator where
  | setItem (key : PyStr) (value : PyVal)
  | delItem (key : PyStr) (keyText : String)
  | pop (key : PyStr) (default : Option PyVal) (keyText : String)
  | update (other : List (PyStr × PyVal))
  | clear

/-- The store after such a method, which may have raised. -/
def Mutator.after (s : KVStore B) : Mutator → KVStore B
  | .setItem key value => (Kvstore.setItem key value s).2
  | .delItem key keyText => (Kvstore.delItem key keyText s).2
  | .pop key default keyText => (Kvstore.pop key default keyText s).2
  | .update other => (Kvstore.update other s).2
  | .clear => (Kvstore.clear s).2

/-! ## What the methods do -/

variable {errorText : PyExn → String} {s t : KVStore B}

/-- A payload that reads as no dictionary makes a reload raise. -/
lemma parsePayload_ok {payload : List UInt8} {items : List (PyVal × PyVal)}
    (h : parsePayload errorText payload = .ok items) : unpackb payload = .ok (.dict items) := by
  unfold parsePayload at h
  split at h
  · split_ifs at h
  · next loaded hload =>
    cases h
    exact hload
  · cases h

/-- The payload reads as the dictionary: nothing as the empty one. -/
def Reads (payload : List UInt8) (data : List (PyVal × PyVal)) : Prop :=
  (payload = [] ∧ data = []) ∨ (payload ≠ [] ∧ unpackb payload = .ok (.dict data))

/-- What a reload that returns has read. -/
structure Loaded (load : B → Except Exn (List UInt8)) (s t : KVStore B) : Prop where
  load_eq : load s.backend = .ok t.lastPayload
  reads : Reads t.lastPayload t.data
  state : t = { s with
    data := t.data, lastPayload := t.lastPayload, isCorrupt := false, dirty := false }

/-- A reload gives the store what the load gives, or raises and clears only the flag; it raises only
if the load or the reading fails. -/
lemma reload_spec (errorText : PyExn → String) (load : B → Except Exn (List UInt8)) (s : KVStore B) :
    wp (reload errorText load) (fun _ t => Loaded load s t)
      (fun _ t => t = { s with dirty := false } ∧
        ∀ payload, load s.backend = .ok payload → ∀ data, ¬ Reads payload data) s := by
  unfold reload
  simp only [wp_bind, wp_modify, wp_get]
  cases hload : load s.backend with
  | error e => exact ⟨rfl, fun _ h => by cases h⟩
  | ok payload =>
    rw [wp_lift_ok, wp_ite]
    refine ⟨fun hnil => ⟨by rw [hload, hnil], .inl ⟨rfl, rfl⟩, rfl⟩, fun hne => ?_⟩
    rw [wp_bind]
    cases hparse : parsePayload errorText payload with
    | ok items => exact ⟨hload, .inr ⟨hne, parsePayload_ok hparse⟩, rfl⟩
    | error e =>
      refine ⟨rfl, ?_⟩
      rintro _ ⟨⟩ data (⟨hnil, -⟩ | ⟨-, hunpack⟩)
      · exact hne hnil
      · simp [parsePayload, hunpack] at hparse

/-- The store that `__init__` leaves has read the payload, or is marked corrupt. -/
lemma load_spec (errorText : PyExn → String) (loads : B → Except Exn (List UInt8)) (s : KVStore B) :
    wp (load errorText loads)
      (fun _ t => Loaded loads s t ∨
        t = { s with data := [], lastPayload := [], isCorrupt := true, dirty := false })
      (fun _ _ => True) s := by
  rw [load, wp_tryCatch]
  refine wp_mono (reload_spec errorText loads s) (fun _ t ht => .inl ht) (fun e t ht => ?_)
  obtain ⟨rfl, -⟩ := ht
  cases e with
  | kvStoreCorrupt message => exact .inr rfl
  | kvStoreFull message => trivial
  | py e => trivial

section Commit

variable {save : List UInt8 → Prog B Exn Unit} {payload : List UInt8}

/-- A commit that has stored the packed dictionary. -/
structure Stored (save : List UInt8 → Prog B Exn Unit) (s t : KVStore B) (payload : List UInt8) :
    Prop where
  pack : packb s.dict = .ok payload
  save_eq : save payload s.backend = (.ok (), t.backend)
  state : t = { s with
    backend := t.backend, lastPayload := payload, isCorrupt := false, dirty := false }

/-- A commit that has raised: nothing is changed but what a save that raises has done to the
backend.
-/
def Unstored (save : List UInt8 → Prog B Exn Unit) (s t : KVStore B) : Prop :=
  t = s ∨ ∃ payload e b, packb s.dict = .ok payload ∧ save payload s.backend = (.error e, b) ∧
    t = { s with backend := b }

/-- Encoding changes nothing. -/
lemma packData_spec {Q : List UInt8 → KVStore B → Prop} {E : Exn → KVStore B → Prop}
    (hok : ∀ payload, packb s.dict = .ok payload → Q payload s) (herror : ∀ e, E e s) :
    wp packData Q E s := by
  unfold packData
  rw [wp_bind, wp_get]
  cases hpack : packb s.dict with
  | ok payload => exact hok payload hpack
  | error e => exact herror (.py e)

/-- A write stores the payload, or raises. -/
lemma persist_spec (hpack : packb s.dict = .ok payload) :
    wp (persist save payload) (fun _ t => Stored save s t payload) (fun _ t => Unstored save s t) s := by
  unfold persist
  rw [wp_bind, wp_get, wp_ite, wp_throw]
  refine ⟨fun _ => .inl rfl, fun _ => ?_⟩
  rw [wp_bind, wp]
  unfold backendSave
  rcases hsave : save payload s.backend with ⟨e | ⟨⟩, b⟩
  · exact .inr ⟨payload, e, b, hpack, hsave, rfl⟩
  · exact ⟨hpack, hsave, rfl⟩

/-- **What `commit` does**: it stores the packed dictionary, or raises. -/
theorem commit_spec (save : List UInt8 → Prog B Exn Unit) (s : KVStore B) :
    wp (commit save) (fun _ t => ∃ payload, Stored save s t payload)
      (fun _ t => Unstored save s t) s := by
  rw [commit, wp_bind]
  refine packData_spec (fun payload hpack => ?_) (fun _ => .inl rfl)
  exact wp_mono (persist_spec hpack) (fun _ _ h => ⟨payload, h⟩) (fun _ _ h => h)

/-- What `commit_if_changed` can do: store the dictionary and return `True`; or return `False`, and
leave a clean store alone, or clear the flag of one whose dictionary packs to the last payload. -/
inductive Commits (save : List UInt8 → Prog B Exn Unit) (s : KVStore B) : Bool → KVStore B → Prop
  | written {t : KVStore B} {payload : List UInt8} (dirty : s.dirty = true)
      (stored : Stored save s t payload) : Commits save s true t
  | clean (clean : s.dirty = false) : Commits save s false s
  | same (dirty : s.dirty = true) (pack : packb s.dict = .ok s.lastPayload) :
      Commits save s false { s with dirty := false }

/-- **What `commit_if_changed` does.** -/
theorem commitIfChanged_spec (save : List UInt8 → Prog B Exn Unit) (s : KVStore B) :
    wp (commitIfChanged save) (Commits save s) (fun _ t => Unstored save s t) s := by
  rw [commitIfChanged, wp_bind, wp_get, wp_ite, wp_pure]
  refine ⟨.clean, fun hdirty => ?_⟩
  rw [Bool.not_eq_false] at hdirty
  rw [wp_bind]
  refine packData_spec (fun payload hpack => ?_) (fun _ => .inl rfl)
  rw [wp_ite]
  refine ⟨fun hsame => .same hdirty (hsame ▸ hpack), fun _ => ?_⟩
  rw [wp_bind]
  exact wp_mono (persist_spec hpack) (fun _ _ => .written hdirty) (fun _ _ h => h)

end Commit

/-- A method that does not ask the backend raises and changes nothing, or changes the dictionary and
sets the flag. -/
lemma Mutator.after_cases (f : Mutator) (s : KVStore B) :
    f.after s = s ∨ f.after s = { s with data := (f.after s).data, dirty := true } := by
  cases f with
  | setItem key value => exact .inr rfl
  | update other => exact .inr rfl
  | clear => exact .inr rfl
  | delItem key keyText =>
    refine @wp_state _ _ _ (Kvstore.delItem key keyText) s
      (fun t => t = s ∨ t = { s with data := t.data, dirty := true }) ?_
    rw [Kvstore.delItem, wp_bind, wp_get, wp_ite]
    exact ⟨fun _ => .inr rfl, fun _ => .inl rfl⟩
  | pop key default keyText =>
    refine @wp_state _ _ _ (Kvstore.pop key default keyText) s
      (fun t => t = s ∨ t = { s with data := t.data, dirty := true }) ?_
    rw [Kvstore.pop, wp_bind, wp_get]
    split
    · exact .inr rfl
    · exact .inr rfl
    · exact .inl rfl

end Store

/-! ## Runs -/

/-- How the backend answers a save. One that raises leaves the payload alone, or leaves another. -/
inductive SaveAnswer where
  | saved
  | raises (e : Exn) (leaves : Option (List UInt8))

/-- The save of a backend that answers so, as a change of the payload that it holds. -/
def SaveAnswer.save (answer : SaveAnswer) (payload : List UInt8) : Prog (List UInt8) Exn Unit :=
  match answer with
  | .saved => modify fun _ => payload
  | .raises e leaves => do
    modify fun held => leaves.getD held
    throw e

/-- A store of a run: of its backend only the payload is there that it holds. -/
abbrev Answered := KVStore (List UInt8)

/-- The operations, with what the backend answers: a load gives bytes, or raises. -/
inductive Op where
  | mutator (f : Mutator)
  | reload (answer : Except Exn (List UInt8))
  | commit (answer : SaveAnswer)
  | commitIfChanged (answer : SaveAnswer)

/-- The store after an operation, which may have raised. -/
def Op.after (errorText : PyExn → String) (s : Answered) : Op → Answered
  | .mutator f => f.after s
  | .reload answer => (Kvstore.reload errorText (fun _ => answer) s).2
  | .commit answer => (Kvstore.commit answer.save s).2
  | .commitIfChanged answer => (Kvstore.commitIfChanged answer.save s).2

/-- The backend holds what the store has in memory: nothing for the empty dictionary, or bytes that
decode to the dictionary, or to what msgpack makes of it. -/
def KVStore.InSync (s : Answered) : Prop :=
  (s.backend = [] ∧ s.data = []) ∨
    ∃ items, unpackb s.backend = .ok (.dict items) ∧ (items = s.data ∨ .dict items = s.dict.norm)

/-- **The load tells the truth**: if it gives an empty payload or a dictionary, then what the
backend holds. It may as well raise, or give bytes that are no dictionary. -/
def Truthful (held : List UInt8) (answer : Except Exn (List UInt8)) : Prop :=
  ∀ payload data, answer = .ok payload → Reads payload data → payload = held

/-- The load succeeds, and so does reading what it gives. -/
def Succeeds (answer : Except Exn (List UInt8)) : Prop :=
  ∃ payload data, answer = .ok payload ∧ Reads payload data

/-- A save that raises leaves the payload alone. -/
def SaveAnswer.Keeps : SaveAnswer → Prop
  | .saved => True
  | .raises _ leaves => leaves = none

/-- The operations that break nothing. A reload tells the truth, and may fail only if there is
nothing to forget; a save that raises leaves the payload alone; and what is written, or found to be
written already, can be read. -/
def Op.Sound (s : Answered) : Op → Prop
  | .mutator _ => True
  | .reload answer =>
    Truthful s.backend answer ∧ (s.dirty = true → s.isCorrupt = false → Succeeds answer)
  | .commit answer => answer.Keeps ∧ (answer = .saved → s.dict.readable = true)
  | .commitIfChanged answer =>
    answer.Keeps ∧
      (s.dirty = true → answer = .saved ∨ packb s.dict = .ok s.lastPayload → s.dict.readable = true)

/-- The stores that `allowed` operations lead to, after a construction that has not raised and whose
load gives an answer that is allowed of the payload that the backend holds. -/
inductive Reaches (errorText : PyExn → String)
    (truthful : List UInt8 → Except Exn (List UInt8) → Prop) (allowed : Answered → Op → Prop) :
    Answered → Prop where
  | init (capacity : ℕ) (held : List UInt8) (answer : Except Exn (List UInt8))
      (truth : truthful held answer)
      (ok : (load errorText (fun _ => answer) { capacity, backend := held }).1 = .ok ()) :
      Reaches errorText truthful allowed
        (load errorText (fun _ => answer) { capacity, backend := held }).2
  | step {s : Answered} (op : Op) (reached : Reaches errorText truthful allowed s)
      (ok : allowed s op) : Reaches errorText truthful allowed (op.after errorText s)

/-! ## The invariant -/

/-- What sound operations keep. The last payload is the one the backend holds, unless the store is
marked corrupt: then nothing counts as written. -/
structure KVStore.Inv (s : Answered) : Prop where
  sync : s.dirty = false → s.isCorrupt = false → s.InSync
  held_eq : s.isCorrupt = false → s.backend = s.lastPayload
  last_eq : s.isCorrupt = true → s.lastPayload = []

section Inv

variable {errorText : PyExn → String} {s t : Answered}

/-- A truthful load that has been read keeps the invariant. -/
lemma Loaded.inv {answer : Except Exn (List UInt8)} (h : Loaded (fun _ => answer) s t)
    (htruth : Truthful s.backend answer) : t.Inv := by
  have hstate := h.state
  have hheld : t.backend = t.lastPayload := by
    rw [hstate]
    exact (htruth _ _ h.load_eq h.reads).symm
  refine ⟨fun _ _ => ?_, fun _ => hheld, fun hc => ?_⟩
  · obtain ⟨hnil, hdata⟩ | ⟨-, hunpack⟩ := h.reads
    · exact .inl ⟨hheld.trans hnil, hdata⟩
    · exact .inr ⟨_, by rw [hheld]; exact hunpack, .inl rfl⟩
  · rw [hstate] at hc
    cases hc

/-- The store that `__init__` leaves keeps the invariant. -/
lemma inv_load {capacity : ℕ} {held : List UInt8} {answer : Except Exn (List UInt8)}
    (htruth : Truthful held answer) :
    wp (load errorText fun _ => answer) (fun _ t => t.Inv) (fun _ _ => True)
      { capacity, backend := held } := by
  refine wp_mono (load_spec errorText _ _) (fun _ t ht => ?_) (fun _ _ h => h)
  obtain hloaded | rfl := ht
  · exact hloaded.inv htruth
  · exact ⟨fun _ hc => (by cases hc), fun hc => (by cases hc), fun _ => rfl⟩

/-- A sound reload keeps the invariant. One that raises has forgotten nothing. -/
lemma inv_reload {answer : Except Exn (List UInt8)} (h : s.Inv)
    (hsound : (Op.reload answer).Sound s) :
    wp (reload errorText fun _ => answer) (fun _ t => t.Inv) (fun _ t => t.Inv) s := by
  refine wp_mono (reload_spec errorText _ s) (fun _ t ht => ht.inv hsound.1) (fun e t ht => ?_)
  obtain ⟨rfl, hfails⟩ := ht
  refine ⟨fun _ hc => ?_, h.held_eq, h.last_eq⟩
  -- the flag was not set before, or the reload would have succeeded
  have hclean : s.dirty = false := by
    rw [← Bool.not_eq_true]
    intro hdirty
    obtain ⟨payload, data, hload, hreads⟩ := hsound.2 hdirty hc
    exact hfails payload hload data hreads
  exact h.sync hclean hc

/-- A dictionary that was written and can be read is in sync. -/
lemma inSync_of_packb {payload : List UInt8} (hpack : packb s.dict = .ok payload)
    (hread : s.dict.readable = true) (hheld : t.backend = payload) (hdata : t.data = s.data) :
    t.InSync := by
  have hunpack := (unpackb_packb_iff s.dict payload hpack).mpr hread
  refine .inr ⟨normPairs s.data, ?_, .inr ?_⟩
  · rw [hheld, hunpack, KVStore.dict, PyVal.norm]
  · rw [KVStore.dict, PyVal.norm, hdata]

/-- A dictionary that was stored and can be read keeps the invariant. -/
lemma Stored.inv {answer : SaveAnswer} {payload : List UInt8} (h : Stored answer.save s t payload)
    (hread : answer = .saved → s.dict.readable = true) : t.Inv := by
  have hsave := h.save_eq
  have hstate := h.state
  cases answer with
  | raises e leaves => cases hsave
  | saved =>
    have hheld : t.backend = payload := (congrArg Prod.snd hsave).symm
    have hlast : t.lastPayload = payload := by rw [hstate]
    refine ⟨fun _ _ => inSync_of_packb h.pack (hread rfl) hheld (by rw [hstate]),
      fun _ => hheld.trans hlast.symm, fun hc => ?_⟩
    rw [hstate] at hc
    cases hc

/-- A commit that raises leaves the store alone, if the save does. -/
lemma Unstored.eq {answer : SaveAnswer} (h : Unstored answer.save s t) (hkeeps : answer.Keeps) :
    t = s := by
  obtain rfl | ⟨payload, e, b, -, hsave, rfl⟩ := h
  · rfl
  · cases answer with
    | saved => cases hsave
    | raises e leaves =>
      cases (show leaves = none from hkeeps)
      cases hsave
      rfl

/-- A sound commit keeps the invariant. -/
lemma inv_commit {answer : SaveAnswer} (h : s.Inv) (hsound : (Op.commit answer).Sound s) :
    wp (commit answer.save) (fun _ t => t.Inv) (fun _ t => t.Inv) s :=
  wp_mono (commit_spec answer.save s) (fun _ _ ⟨_, ht⟩ => ht.inv hsound.2)
    fun _ _ ht => ht.eq hsound.1 ▸ h

/-- A sound `commit_if_changed` keeps the invariant, and one that returns `False` leaves the store
in sync if it was dirty or not marked corrupt. -/
lemma inv_commitIfChanged {answer : SaveAnswer} (h : s.Inv)
    (hsound : (Op.commitIfChanged answer).Sound s) :
    wp (commitIfChanged answer.save)
      (fun written t => t.Inv ∧
        (written = false → s.dirty = true ∨ s.isCorrupt = false → t.InSync))
      (fun _ t => t.Inv) s := by
  obtain ⟨hkeeps, hread⟩ := hsound
  refine wp_mono (commitIfChanged_spec answer.save s) (fun written t ht => ?_)
    fun _ _ ht => ht.eq hkeeps ▸ h
  cases ht with
  | clean hclean =>
    exact ⟨h, fun _ hmark => h.sync hclean (hmark.resolve_left (by simp [hclean]))⟩
  | same hdirty hpack =>
    -- the last payload is not empty, so the store is not marked corrupt and the backend holds it
    have hcorrupt : s.isCorrupt = false := by
      rw [← Bool.not_eq_true]
      intro hc
      have hpos := encode_pos hpack
      rw [h.last_eq hc] at hpos
      simp at hpos
    have hsync : ∀ t : Answered, t.backend = s.lastPayload → t.data = s.data → t.InSync := fun t =>
      inSync_of_packb hpack (hread hdirty (.inr hpack))
    have hheld := h.held_eq hcorrupt
    exact ⟨⟨fun _ _ => hsync _ hheld rfl, h.held_eq, h.last_eq⟩, fun _ _ => hsync _ hheld rfl⟩
  | written hdirty hstored =>
    exact ⟨hstored.inv fun ha => hread hdirty (.inl ha), fun hfalse => by cases hfalse⟩

/-- **One sound operation** keeps the invariant. -/
lemma Op.inv_after (op : Op) (h : s.Inv) (hsound : op.Sound s) : (op.after errorText s).Inv := by
  cases op with
  | mutator f =>
    obtain hsame | hchanged := f.after_cases s
    · rw [Op.after, hsame]
      exact h
    · rw [Op.after, hchanged]
      exact ⟨fun hclean => (by cases hclean), h.held_eq, h.last_eq⟩
  | reload answer => exact wp_state (inv_reload h hsound)
  | commit answer => exact wp_state (inv_commit h hsound)
  | commitIfChanged answer =>
    exact wp_state (wp_mono (inv_commitIfChanged h hsound) (fun _ _ ht => ht.1) fun _ _ ht => ht)

/-- **A run of sound operations** keeps the invariant. -/
lemma Reaches.inv (h : Reaches errorText Truthful (fun s op => op.Sound s) s) : s.Inv := by
  induction h with
  | init capacity held answer truth ok => exact wp_ok (inv_load truth) ok
  | step op reached ok ih => exact op.inv_after ih ok

end Inv

/-! ## Skipped writes -/

/-- **No write is skipped in a run of sound operations**: a store that is neither dirty nor marked
corrupt is in sync, and so is one that `commit_if_changed` has left unwritten, unless it was clean
and marked corrupt. -/
theorem in_sync_of_clean (errorText : PyExn → String) (s : Answered)
    (h : Reaches errorText Truthful (fun s op => op.Sound s) s) :
    (s.dirty = false → s.isCorrupt = false → s.InSync) ∧
    ∀ answer, (Op.commitIfChanged answer).Sound s → s.dirty = true ∨ s.isCorrupt = false →
      (commitIfChanged answer.save s).1 = .ok false →
        (commitIfChanged answer.save s).2.InSync :=
  ⟨h.inv.sync, fun _ hsound hmark hfalse =>
    (wp_ok (inv_commitIfChanged h.inv hsound) hfalse).2 rfl hmark⟩

/-- The operations of a list, one after the other. -/
def runOps (errorText : PyExn → String) (s : Answered) (ops : List Op) : Answered :=
  ops.foldl (fun s op => op.after errorText s) s

/-- A new store on an empty backend. -/
def blankStore : Answered := (load (fun _ => "") (fun _ => .ok []) { capacity := 0, backend := [] }).2

/-- **A reload that raises forgets the changes**: the store is neither dirty nor corrupt, has the
key in memory and nothing in the backend, and `commit_if_changed` writes nothing. -/
theorem reload_forgets :
    let s := runOps (fun _ => "") blankStore
      [.mutator (.setItem (pyStr "a") (.int 1)), .reload (.error (.py (.osError 5)))]
    Reaches (fun _ => "") Truthful (fun _ _ => True) s ∧ s.dirty = false ∧ s.isCorrupt = false ∧
      ¬ s.InSync ∧ (commitIfChanged SaveAnswer.saved.save s).1 = .ok false ∧
      ¬ (commitIfChanged SaveAnswer.saved.save s).2.InSync := by
  have hsync : ∀ t : Answered, t.backend = [] → t.data ≠ [] → ¬ t.InSync := by
    rintro t hheld hdata (⟨-, hnil⟩ | ⟨items, hitems, -⟩)
    · exact hdata hnil
    · rw [hheld] at hitems
      cases hitems
  have hreached : Reaches (fun _ => "") Truthful (fun _ _ => True) blankStore :=
    .init 0 [] (.ok []) (fun _ _ h _ => (Except.ok.inj h).symm) rfl
  have hrun := Reaches.step (.reload (.error (.py (.osError 5))))
    (.step (.mutator (.setItem (pyStr "a") (.int 1))) hreached trivial) trivial
  exact ⟨hrun, rfl, rfl, hsync _ rfl (List.cons_ne_nil _ _), rfl, hsync _ rfl (List.cons_ne_nil _ _)⟩

/-- A key that is set, committed, and read back. -/
theorem in_sync_of_clean_committed :
    let s := runOps (fun _ => "") blankStore
      [.mutator (.setItem (pyStr "a") (.int 1)), .commit .saved, .reload (.ok [0x81, 0xa1, 0x61, 0x01])]
    s.backend = [0x81, 0xa1, 0x61, 0x01] ∧ s.InSync ∧
      (commitIfChanged SaveAnswer.saved.save s).2.InSync := by
  have hinit : Reaches (fun _ => "") Truthful (fun s op => op.Sound s) blankStore :=
    .init 0 [] (.ok []) (fun _ _ h _ => (Except.ok.inj h).symm) rfl
  have hcommitted := Reaches.step (.commit .saved)
    (.step (.mutator (.setItem (pyStr "a") (.int 1))) hinit trivial) ⟨trivial, fun _ => rfl⟩
  have hreached := Reaches.step (.reload (.ok [0x81, 0xa1, 0x61, 0x01])) hcommitted
    ⟨fun _ _ h _ => (Except.ok.inj h).symm, fun hdirty => by cases hdirty⟩
  obtain ⟨hclean, hskipped⟩ := in_sync_of_clean _ _ hreached
  exact ⟨rfl, hclean rfl rfl, hskipped .saved ⟨trivial, fun _ _ => rfl⟩ (.inr rfl) rfl⟩

end ChuMicro.Kvstore
