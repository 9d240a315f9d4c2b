import ChuMicro.Kvstore.Backends

/-!
# Commits on a backend

`KVStore` in `chumicro_kvstore/core.py` on a memory or an NVM backend, which answers from what it
holds.

A commit packs the dictionary, checks the capacity, saves and only then notes what it has written,
so that one that raises has changed nothing. One that returns has stored the packed dictionary, and
a new store on the same backend reads it back, if every key is a string.

`commit_if_changed` does nothing on a store whose flag is not set. Such a store need not agree with
its backend: one that was opened on a corrupt payload is empty, clean and marked corrupt, and a list
inside the dictionary can be changed without any method of the store.

## Main definitions

* `Kvstore.Mounted` — a store on one of the backends.
* `Kvstore.Mounted.Op` — what can be done to a store, changes inside a value included.
* `Kvstore.Backend.Opens` — a new store on the backend holds a dictionary and is not marked corrupt.

## Main results

* `Kvstore.Mounted.commit_atomic` — a commit that raises changes nothing; one that returns has
  stored the dictionary, except for `commit_if_changed` on a clean store.
-/

namespace ChuMicro.Kvstore

open Prog Msgpack

/-! ## String keys -/

/-- A `str`. -/
def isStr : PyVal → Bool
  | .str _ => true
  | _ => false

mutual

/-- In every dictionary inside the value the keys are strings, and different ones, as the keys of a
dictionary are. -/
def stringKeys : PyVal → Bool
  | .list items => stringKeysItems items
  | .tuple items => stringKeysItems items
  | .dict items => stringKeysPairs items
  | _ => true

/-- The same of every item. -/
def stringKeysItems : List PyVal → Bool
  | [] => true
  | item :: rest => stringKeys item && stringKeysItems rest

/-- The same of every value, and of the keys themselves. -/
def stringKeysPairs : List (PyVal × PyVal) → Bool
  | [] => true
  | (key, val) :: rest =>
    isStr key && stringKeys val && (rest.all fun entry => !keyEq key entry.1) &&
      stringKeysPairs rest

end

/-- Conversion makes no key equal to a string that was not. -/
lemma keyEq_str_norm (value : PyStr) (key : PyVal) :
    keyEq (.str value) key.norm = keyEq (.str value) key := by
  cases key <;> simp [PyVal.norm, keyEq, PyVal.number?]

mutual

/-- A value with string keys only can be read back. -/
lemma readable_of_stringKeys (x : PyVal) (h : stringKeys x = true) : x.readable = true := by
  match x with
  | .list items => exact readableItems_of_stringKeys items h
  | .tuple items => exact readableItems_of_stringKeys items h
  | .dict items => exact readablePairs_of_stringKeys items h
  | .none | .bool _ | .int _ | .float _ | .str _ | .bytes _ | .bytearray _ => rfl

/-- The same of a list of items. -/
lemma readableItems_of_stringKeys (items : List PyVal) (h : stringKeysItems items = true) :
    readableItems items = true := by
  match items with
  | [] => rfl
  | item :: rest =>
    rw [stringKeysItems, Bool.and_eq_true] at h
    rw [readableItems, readable_of_stringKeys item h.1, readableItems_of_stringKeys rest h.2,
      Bool.and_true]

/-- The same of the entries of a dictionary. -/
lemma readablePairs_of_stringKeys (items : List (PyVal × PyVal))
    (h : stringKeysPairs items = true) : readablePairs items = true := by
  match items with
  | [] => rfl
  | (key, val) :: rest =>
    simp only [stringKeysPairs, Bool.and_eq_true] at h
    obtain ⟨⟨⟨hstr, hval⟩, hfresh⟩, hrest⟩ := h
    cases key with
    | str value =>
      have hkeys : freshKey (.str value) rest = true := by
        rw [freshKey, ← hfresh, PyVal.norm]
        simp only [keyEq_str_norm]
      simp [readablePairs, PyVal.isCollection, readable_of_stringKeys val hval, hkeys,
        readablePairs_of_stringKeys rest hrest]
    | _ => simp [isStr] at hstr

end

/-! ## The store on its backend -/

/-- `KVStore` on a memory or an NVM backend. -/
abbrev Mounted := KVStore Backend

/-- `self._backend.save(payload)` on such a backend. One that raises has stored nothing. -/
def Backend.saving (payload : List UInt8) : Prog Backend Exn Unit := fun b =>
  match b.save payload with
  | .ok b' => (.ok (), b')
  | .error e => (.error e, b)

/-- The save leaves the backend alone where it raises. -/
def RaisesFirst {B : Type} (save : List UInt8 → Prog B Exn Unit) : Prop :=
  ∀ payload b e b', save payload b = (.error e, b') → b' = b

/-- Both backends do. -/
lemma Backend.raisesFirst_saving : RaisesFirst Backend.saving := by
  intro payload b e b' h
  unfold Backend.saving at h
  cases hsave : b.save payload with
  | ok stored => simp [hsave] at h
  | error e' =>
    simp only [hsave, Prod.mk.injEq] at h
    exact h.2.symm

/-- What has been saved is what a load returns. -/
lemma Backend.load_of_saving {b b' : Backend} {payload : List UInt8}
    (h : Backend.saving payload b = (.ok (), b')) : b'.load = .ok payload := by
  unfold Backend.saving at h
  cases hsave : b.save payload with
  | ok stored =>
    simp only [hsave, Prod.mk.injEq, true_and] at h
    exact h ▸ Backend.load_of_save hsave
  | error e => simp [hsave] at h

namespace Mounted

/-- The fields that `__init__` sets before its first load. -/
def fresh (backend : Backend) : Mounted := { capacity := backend.capacity, backend }

end Mounted

/-- A new `KVStore` on the backend holds `data`, or what msgpack makes of it, and is not marked
corrupt. -/
def Backend.Opens (errorText : PyExn → String) (b : Backend) (data : List (PyVal × PyVal)) : Prop :=
  ∃ m, Kvstore.load errorText Backend.load (Mounted.fresh b) = (.ok (), m) ∧ m.isCorrupt = false ∧
    (m.data = data ∨ m.dict = PyVal.norm (.dict data))

namespace Mounted

section Opens

variable {errorText : PyExn → String} {m m' : Mounted} {b : Backend} {payload : List UInt8}
  {data loaded : List (PyVal × PyVal)}

/-! ## A new store on the backend -/

/-- A new store on a backend that returns a readable payload. -/
lemma opens_of_load (hload : b.load = .ok payload) (hread : Reads payload loaded)
    (heq : loaded = data ∨ .dict loaded = PyVal.norm (.dict data)) : b.Opens errorText data := by
  have hreload : wp (reload errorText Backend.load) (fun _ t => t.isCorrupt = false ∧ t.data = loaded)
      (fun _ _ => False) (fresh b) := by
    refine wp_mono (reload_spec errorText Backend.load (fresh b)) (fun _ t ht => ?_) fun _ _ h =>
      h.2 payload hload loaded hread
    have hlast : t.lastPayload = payload := Except.ok.inj (ht.load_eq.symm.trans hload)
    refine ⟨by rw [ht.state], ?_⟩
    have hreads := ht.reads
    rw [hlast] at hreads
    obtain ⟨hnil, rfl⟩ | ⟨hne, hunpack⟩ := hread <;> obtain ⟨hnil', hdata⟩ | ⟨hne', hunpack'⟩ := hreads
    · exact hdata
    · exact absurd hnil hne'
    · exact absurd hnil' hne
    · rw [hunpack] at hunpack'
      exact (PyVal.dict.inj (Except.ok.inj hunpack')).symm
  have hrun : wp (load errorText Backend.load) (fun _ t => t.isCorrupt = false ∧ t.data = loaded)
      (fun _ _ => False) (fresh b) := by
    rw [load, wp_tryCatch]
    exact wp_mono hreload (fun _ _ h => h) (fun _ _ h => h.elim)
  obtain ⟨_, t, ht, hclean, hdata⟩ := returns_of_wp hrun
  refine ⟨t, ht, hclean, ?_⟩
  rw [KVStore.dict, hdata]
  exact heq

/-- A packed dictionary with string keys opens as that dictionary, up to conversion. -/
lemma opens_of_packb (hkeys : stringKeys (.dict data) = true)
    (hpack : packb (.dict data) = .ok payload) (hload : b.load = .ok payload) :
    b.Opens errorText data := by
  have hne : payload ≠ [] := List.length_pos_iff.mp (encode_pos hpack)
  have hunpack := (unpackb_packb_iff _ _ hpack).mpr (readable_of_stringKeys _ hkeys)
  rw [PyVal.norm] at hunpack
  exact opens_of_load hload (.inr ⟨hne, hunpack⟩) (.inr (by rw [PyVal.norm]))

/-- A stored dictionary with string keys opens. -/
lemma opens_of_stored (h : Stored Backend.saving m m' payload) (hkeys : stringKeys m.dict = true) :
    m'.backend.Opens errorText m.data :=
  opens_of_packb hkeys h.pack (Backend.load_of_saving h.save_eq)

end Opens

/-! ## Runs -/

/-- What can be done to a store. `inPlace` is a change inside a value, such as an item appended to a
list, that no method of the store sees. -/
inductive Op where
  | mutator (f : Mutator)
  | inPlace (data : List (PyVal × PyVal))
  | reload
  | commit
  | commitIfChanged

/-- The store after an operation, which may have raised. -/
def Op.after (errorText : PyExn → String) (m : Mounted) : Op → Mounted
  | .mutator f => f.after m
  | .inPlace data => { m with data }
  | .reload => (Kvstore.reload errorText Backend.load m).2
  | .commit => (Kvstore.commit Backend.saving m).2
  | .commitIfChanged => (Kvstore.commitIfChanged Backend.saving m).2

/-- The stores that `allowed` operations lead to, after a construction that has not raised, on a
backend in any state. -/
inductive Reaches (errorText : PyExn → String) (allowed : Mounted → Op → Prop) : Mounted → Prop
  | init (b : Backend) (ok : (load errorText Backend.load (fresh b)).1 = .ok ()) :
      Reaches errorText allowed (load errorText Backend.load (fresh b)).2
  | step {m : Mounted} (op : Op) (reached : Reaches errorText allowed m) (ok : allowed m op) :
      Reaches errorText allowed (op.after errorText m)

/-- Every operation. -/
def anything : Mounted → Op → Prop := fun _ _ => True

/-- The operations after which a clean store still holds what its backend does: no change inside a
value, and no reload that fails when there are changes to forget. -/
def gentle (errorText : PyExn → String) (m : Mounted) : Op → Prop
  | .inPlace _ => False
  | .reload =>
    m.dirty = true → m.isCorrupt = false → (Kvstore.reload errorText Backend.load m).1 = .ok ()
  | _ => True

section Runs

variable {errorText : PyExn → String} {m m' : Mounted}

/-- What every run keeps. The last payload is the one that the backend returns, unless the store is
marked corrupt: then nothing counts as written. -/
structure Inv (m : Mounted) : Prop where
  load_eq : m.isCorrupt = false → m.backend.load = .ok m.lastPayload
  last_eq : m.isCorrupt = true → m.lastPayload = []

/-- What gentle operations keep on top: the dictionary of a clean store that is not marked corrupt
is what was packed, or read, as the last payload. -/
def Clean (m : Mounted) : Prop :=
  m.dirty = false → m.isCorrupt = false →
    packb m.dict = .ok m.lastPayload ∨ Reads m.lastPayload m.data

/-- A commit that has stored the dictionary keeps both. -/
lemma inv_of_stored {payload : List UInt8} (h : Stored Backend.saving m m' payload) :
    Inv m' ∧ Clean m' := by
  have hstate := h.state
  refine ⟨⟨fun _ => ?_, fun hc => ?_⟩, fun _ _ => .inl ?_⟩
  · rw [Backend.load_of_saving h.save_eq, hstate]
  · rw [hstate] at hc
    cases hc
  · rw [hstate]
    exact h.pack

/-- So does a reload that has read the payload. -/
lemma inv_of_loaded (h : Loaded Backend.load m m') : Inv m' ∧ Clean m' := by
  have hstate := h.state
  refine ⟨⟨fun _ => ?_, fun hc => ?_⟩, fun _ _ => .inr h.reads⟩
  · rw [← h.load_eq, hstate]
  · rw [hstate] at hc
    cases hc

/-- A commit that raises leaves the store alone. -/
lemma eq_of_unstored {B : Type} {save : List UInt8 → Prog B Exn Unit} {s t : KVStore B}
    (hfirst : RaisesFirst save) (h : Unstored save s t) : t = s := by
  obtain rfl | ⟨payload, e, b, -, hsave, rfl⟩ := h
  · rfl
  · rw [hfirst _ _ _ _ hsave]

/-- The store that `__init__` leaves has read the payload, or is marked corrupt. -/
lemma inv_load (errorText : PyExn → String) (b : Backend) :
    wp (load errorText Backend.load) (fun _ m => Inv m ∧ Clean m) (fun _ _ => True) (fresh b) := by
  refine wp_mono (load_spec errorText Backend.load (fresh b)) (fun _ t ht => ?_) (fun _ _ h => h)
  obtain hloaded | rfl := ht
  · exact inv_of_loaded hloaded
  · exact ⟨⟨fun hc => (by cases hc), fun _ => rfl⟩, fun _ hc => (by cases hc)⟩

/-- **Every operation** keeps the invariant. -/
lemma Op.inv_after (op : Op) (h : Inv m) : Inv (op.after errorText m) := by
  cases op with
  | mutator f =>
    obtain hsame | hchanged := f.after_cases m
    · rw [Op.after, hsame]
      exact h
    · rw [Op.after, hchanged]
      exact ⟨h.load_eq, h.last_eq⟩
  | inPlace data => exact ⟨h.load_eq, h.last_eq⟩
  | reload =>
    refine @wp_state _ _ _ (Kvstore.reload errorText Backend.load) m Inv ?_
    refine wp_mono (reload_spec errorText _ m) (fun _ _ ht => (inv_of_loaded ht).1) fun _ _ ht => ?_
    rw [ht.1]
    exact ⟨h.load_eq, h.last_eq⟩
  | commit =>
    refine @wp_state _ _ _ (Kvstore.commit Backend.saving) m Inv ?_
    exact wp_mono (commit_spec _ m) (fun _ _ ⟨_, ht⟩ => (inv_of_stored ht).1)
      fun _ _ ht => eq_of_unstored Backend.raisesFirst_saving ht ▸ h
  | commitIfChanged =>
    refine @wp_state _ _ _ (Kvstore.commitIfChanged Backend.saving) m Inv ?_
    refine wp_mono (commitIfChanged_spec _ m) (fun _ t ht => ?_)
      fun _ _ ht => eq_of_unstored Backend.raisesFirst_saving ht ▸ h
    cases ht with
    | written _ hstored => exact (inv_of_stored hstored).1
    | clean _ => exact h
    | same _ _ => exact ⟨h.load_eq, h.last_eq⟩

/-- **A gentle operation** keeps a clean store in step with its last payload. -/
lemma Op.clean_after (op : Op) (h : Clean m) (hgentle : gentle errorText m op) :
    Clean (op.after errorText m) := by
  cases op with
  | mutator f =>
    obtain hsame | hchanged := f.after_cases m
    · rw [Op.after, hsame]
      exact h
    · rw [Op.after, hchanged]
      exact fun hclean => by cases hclean
  | inPlace data => exact hgentle.elim
  | reload =>
    cases hrun : (Kvstore.reload errorText Backend.load m).1 with
    | ok u =>
      have hloaded := wp_ok (reload_spec errorText Backend.load m) hrun
      exact (inv_of_loaded hloaded).2
    | error e =>
      have hstate := (wp_error (reload_spec errorText Backend.load m) hrun).1
      rw [Op.after, hstate]
      intro _ hcorrupt
      -- a dirty store would have been reloaded
      have hclean : m.dirty = false := by
        rw [← Bool.not_eq_true]
        intro hdirty
        rw [hgentle hdirty hcorrupt] at hrun
        cases hrun
      exact h hclean hcorrupt
  | commit =>
    refine @wp_state _ _ _ (Kvstore.commit Backend.saving) m Clean ?_
    exact wp_mono (commit_spec _ m) (fun _ _ ⟨_, ht⟩ => (inv_of_stored ht).2)
      fun _ _ ht => eq_of_unstored Backend.raisesFirst_saving ht ▸ h
  | commitIfChanged =>
    refine @wp_state _ _ _ (Kvstore.commitIfChanged Backend.saving) m Clean ?_
    refine wp_mono (commitIfChanged_spec _ m) (fun _ t ht => ?_)
      fun _ _ ht => eq_of_unstored Backend.raisesFirst_saving ht ▸ h
    cases ht with
    | written _ hstored => exact (inv_of_stored hstored).2
    | clean _ => exact h
    | same _ hpack => exact fun _ _ => .inl hpack

/-- **Every run** keeps the invariant. -/
lemma Reaches.inv {allowed : Mounted → Op → Prop} (h : Reaches errorText allowed m) : Inv m := by
  induction h with
  | init b ok => exact (wp_ok (inv_load errorText b) ok).1
  | step op reached ok ih => exact op.inv_after ih

/-- **A gentle run** keeps a clean store in step with its last payload. -/
lemma Reaches.clean (h : Reaches errorText (gentle errorText) m) : Clean m := by
  induction h with
  | init b ok => exact (wp_ok (inv_load errorText b) ok).2
  | step op reached ok ih => exact op.clean_after ih ok

end Runs

/-! ## Whole commits -/

section Atomic

variable {errorText : PyExn → String} {m : Mounted}

/-- A clean store in step with its last payload: a new store holds the same dictionary. -/
lemma Clean.opens (h : Clean m) (hinv : Inv m) (hdirty : m.dirty = false)
    (hcorrupt : m.isCorrupt = false) (hkeys : stringKeys m.dict = true) :
    m.backend.Opens errorText m.data := by
  have hload := hinv.load_eq hcorrupt
  obtain hpack | hreads := h hdirty hcorrupt
  · exact opens_of_packb hkeys hpack hload
  · exact opens_of_load hload hreads (.inl rfl)

/-- A dictionary that packs to the last payload is the one that the backend returns. -/
lemma Inv.opens (h : Inv m) (hpack : packb m.dict = .ok m.lastPayload)
    (hkeys : stringKeys m.dict = true) : m.backend.Opens errorText m.data := by
  -- the last payload is not empty, so the store is not marked corrupt
  have hcorrupt : m.isCorrupt = false := by
    rw [← Bool.not_eq_true]
    intro hc
    have hpos := encode_pos hpack
    rw [h.last_eq hc] at hpos
    simp at hpos
  exact opens_of_packb hkeys hpack (h.load_eq hcorrupt)

/-- **A failed commit changes nothing, and one that returns has stored the dictionary.** The first
half holds on every backend whose saves store nothing when they raise. `commit_if_changed` passes
over a store whose flag is not set, whatever its dictionary is; so the last part leaves out a clean
store that is marked corrupt, or that was changed inside a value, or whose changes a failed reload
has forgotten.

**Proof sketch.** A commit that returns has stored what `packb` gave, and string keys make it
readable. A `commit_if_changed` that finds the last payload again relies on the invariant of all
runs, that the backend still returns it; one that finds the flag not set, on the invariant of gentle
runs. -/
theorem commit_atomic (errorText : PyExn → String) :
    (∀ (B : Type) (save : List UInt8 → Prog B Exn Unit) (s : KVStore B), RaisesFirst save →
      (∀ e, (commit save s).1 = .error e → (commit save s).2 = s) ∧
      (∀ e, (commitIfChanged save s).1 = .error e → (commitIfChanged save s).2 = s)) ∧
    (∀ (B : Type) (save : List UInt8 → Prog B Exn Unit) (s : KVStore B), s.dirty = false →
      commitIfChanged save s = (.ok false, s)) ∧
    RaisesFirst Backend.saving ∧
    (∀ m : Mounted, stringKeys m.dict = true → (commit Backend.saving m).1 = .ok () →
      (commit Backend.saving m).2.backend.Opens errorText m.data) ∧
    ∀ m : Mounted, stringKeys m.dict = true →
      (Reaches errorText anything m ∧ m.dirty = true) ∨
        (Reaches errorText (gentle errorText) m ∧ m.isCorrupt = false) →
      ∀ written, (commitIfChanged Backend.saving m).1 = .ok written →
        (commitIfChanged Backend.saving m).2.backend.Opens errorText m.data := by
  refine ⟨fun B save s hfirst => ⟨fun e he => ?_, fun e he => ?_⟩, fun B save s hclean => ?_,
    Backend.raisesFirst_saving, fun m hkeys hok => ?_, fun m hkeys hreached written hok => ?_⟩
  · exact eq_of_unstored hfirst (wp_error (commit_spec save s) he)
  · exact eq_of_unstored hfirst (wp_error (commitIfChanged_spec save s) he)
  · unfold commitIfChanged
    rw [get_bind_apply, if_pos hclean]
    rfl
  · obtain ⟨payload, hstored⟩ := wp_ok (commit_spec Backend.saving m) hok
    exact opens_of_stored hstored hkeys
  · have hinv : Inv m := by
      obtain ⟨hany, -⟩ | ⟨hgentle, -⟩ := hreached
      · exact hany.inv
      · exact hgentle.inv
    have hcommits := wp_ok (commitIfChanged_spec Backend.saving m) hok
    generalize (commitIfChanged Backend.saving m).2 = t at hcommits
    cases hcommits with
    | written _ hstored => exact opens_of_stored hstored hkeys
    | clean hclean =>
      obtain ⟨-, hdirty⟩ | ⟨hgentle, hcorrupt⟩ := hreached
      · rw [hclean] at hdirty
        cases hdirty
      · exact hgentle.clean.opens hinv hclean hcorrupt hkeys
    | same _ hpack => exact hinv.opens hpack hkeys

/-- A store on a blank slab of 24 bytes, with one key: the commit writes the record, and a new store
holds the key. -/
theorem commit_atomic_blank :
    let blank : Backend := .nvm ⟨List.replicate 24 0, by decide⟩
    let m := Op.after (fun _ => "") (load (fun _ => "") Backend.load (fresh blank)).2
      (.mutator (.setItem (pyStr "a") (.int 1)))
    (commitIfChanged Backend.saving m).1 = .ok true ∧
      (commitIfChanged Backend.saving m).2.backend.Opens (fun _ => "") [(.str (pyStr "a"), .int 1)] := by
  intro blank m
  have hinit : Reaches (fun _ => "") anything (load (fun _ => "") Backend.load (fresh blank)).2 :=
    .init blank (by rfl)
  have hreached : Reaches (fun _ => "") anything m := .step _ hinit trivial
  have htrue : (commitIfChanged Backend.saving m).1 = .ok true := by rfl
  exact ⟨htrue, (commit_atomic _).2.2.2.2 m (by rfl) (.inl ⟨hreached, rfl⟩) true htrue⟩

/-- **A store that was opened on a corrupt payload stays corrupt**: it is empty and clean, so
`commit_if_changed` returns, and a new store on the backend is marked corrupt again. -/
theorem commit_if_changed_leaves_corrupt :
    ¬ ∀ m : Mounted, Reaches (fun _ => "") anything m → stringKeys m.dict = true →
      ∀ written, (commitIfChanged Backend.saving m).1 = .ok written →
        (commitIfChanged Backend.saving m).2.backend.Opens (fun _ => "") m.data := by
  intro h
  let junk : Backend := .memory { capacity := 0, payload := [0xC1] }
  let parked : Mounted := { capacity := 0, isCorrupt := true, backend := junk }
  have hload : load (fun _ => "") Backend.load (fresh junk) = (.ok (), parked) := by rfl
  have hreached : Reaches (fun _ => "") anything parked := by
    have hinit : Reaches (fun _ => "") anything (load (fun _ => "") Backend.load (fresh junk)).2 :=
      .init junk (by rw [hload])
    rwa [hload] at hinit
  obtain ⟨m, hm, hclean, -⟩ := h parked hreached rfl false rfl
  have hbackend : (commitIfChanged Backend.saving parked).2.backend = junk := rfl
  rw [hbackend, hload] at hm
  cases hm
  cases hclean

end Atomic

end Mounted

end ChuMicro.Kvstore
