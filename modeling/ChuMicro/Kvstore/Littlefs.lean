import ChuMicro.Lib.Prog
import Mathlib.Logic.Function.Basic

/-!
# The LittleFS backend

`MpLittlefsBackend` in `chumicro_kvstore/_backends/mp_littlefs.py`: a save writes a temporary file,
closes it, syncs, and renames it over the store's file.

Every operation of the file system may succeed, raise, or be cut off by a loss of power. One that
does not succeed may leave anything in the temporary file; a rename happens whole or not at all.
Loss of power is an exception that no handler and no `finally` sees.

A load whose `open` raises returns the empty payload, whether the file is missing or cannot be read.

## Main definitions

* `Kvstore.Disk` — the files, and the payload of the last save that was renamed.
* `Kvstore.LittlefsBackend.save`, `Kvstore.LittlefsBackend.loadFile` — `save` and `load`.
* `Kvstore.LittlefsBackend.history` — the disk after a list of saves.

## Main results

* `Kvstore.LittlefsBackend.loadFile_exact_iff` — after any history a load raises or returns the
  payload of the last save that was renamed if and only if its `open` does not hide a file with a payload.
-/

namespace ChuMicro.Kvstore

open Prog

/-! ## The file system -/

/-- What can stop an operation: an `OSError`, a payload that is too large, or the loss of power. -/
inductive Fault where
  | osError (errno : ℕ)
  | kvStoreFull (message : String)
  | powerLoss
  deriving DecidableEq, Repr

/-- `errno.ENOENT`. -/
def ENOENT : ℕ := 2

/-- The files by their paths. The last field is no file: it is the payload of the last save whose
rename has happened. -/
structure Disk where
  files : String → Option (List UInt8)
  renamed : Option (List UInt8) := none

/-- How an operation on the temporary file goes. One that does not succeed leaves whatever it
leaves in its place. -/
inductive Outcome where
  | succeeds
  | raises (errno : ℕ) (leaves : Option (List UInt8))
  | cut (leaves : Option (List UInt8))
  deriving DecidableEq, Repr

/-- How a rename goes. Power may be lost before or after it happens. -/
inductive RenameOutcome where
  | succeeds
  | raises (errno : ℕ)
  | cut (happened : Bool)
  deriving DecidableEq, Repr

/-- A computation on the disk. -/
abbrev D := Prog Disk Fault

/-- A file gets a content, or is removed. -/
def Disk.put (d : Disk) (path : String) (content : Option (List UInt8)) : Disk :=
  { d with files := Function.update d.files path content }

/-- An operation on the file at `path` that changes its content by `change`. -/
def fileOp (path : String) (outcome : Outcome) (change : Option (List UInt8) → Option (List UInt8)) :
    D Unit :=
  match outcome with
  | .succeeds => modify fun d => d.put path (change (d.files path))
  | .raises errno leaves => do
    modify fun d => d.put path leaves
    throw (.osError errno)
  | .cut leaves => do
    modify fun d => d.put path leaves
    throw .powerLoss

/-- `rename(source, destination)` by a save of `payload`. -/
def rename (payload : List UInt8) (source destination : String) (outcome : RenameOutcome) : D Unit := do
  let move : D Unit := modify fun d =>
    { ((d.put destination (d.files source)).put source none) with renamed := some payload }
  match outcome with
  | .succeeds => move
  | .raises errno => throw (.osError errno)
  | .cut happened => do
    when happened move
    throw .powerLoss

/-- Whether power was lost. -/
def isLost : Except Fault Unit → Bool
  | .error .powerLoss => true
  | _ => false

/-- `try m finally after`, where nothing runs after a loss of power. -/
def finallyIfPowered (m after : D Unit) : D Unit := fun d =>
  if isLost (m d).1 then m d else tryFinally m after d

/-- `try m except OSError: handler`. -/
def exceptOsError (m : D Unit) (handler : ℕ → D Unit) : D Unit :=
  tryCatch m fun e =>
    match e with
    | .osError errno => handler errno
    | e => throw e

/-! ## The backend -/

/-- The settings of `MpLittlefsBackend`. -/
structure LittlefsBackend where
  path : String := "/_chu_kv.msgpack"
  capacity : ℕ := 16384

/-- `_tmp_path`. -/
def LittlefsBackend.tmpPath (b : LittlefsBackend) : String := b.path ++ ".tmp"

/-- How the operations of one save go. The ones it does not reach do not matter. -/
structure SaveOutcomes where
  onOpen : Outcome
  onWrite : Outcome
  onClose : Outcome
  onRemove : Outcome
  onSync : Outcome
  onRename : RenameOutcome

/-- How the operations of one load go: the `errno` of the one that raises, if it raises. -/
structure LoadOutcomes where
  onOpen : Option ℕ := none
  onRead : Option ℕ := none
  onClose : Option ℕ := none

/-- `_check_capacity`. -/
def LittlefsBackend.checkCapacity (b : LittlefsBackend) (payload : List UInt8) : D Unit :=
  if 0 < b.capacity ∧ b.capacity < payload.length then
    throw (.kvStoreFull
      s!"payload size {payload.length} exceeds littlefs capacity {b.capacity}")
  else pure ()

/-- The part of `save` that fills the temporary file. A write that raises has its file removed. -/
def LittlefsBackend.fillTmp (b : LittlefsBackend) (outcomes : SaveOutcomes) (payload : List UInt8) :
    D Unit :=
  exceptOsError
    (finallyIfPowered
      (fileOp b.tmpPath outcomes.onWrite fun content => some (content.getD [] ++ payload))
      (fileOp b.tmpPath outcomes.onClose id))
    fun errno => do
      exceptOsError (fileOp b.tmpPath outcomes.onRemove fun _ => none) fun _ => pure ()
      throw (.osError errno)

/-- `save`. -/
def LittlefsBackend.save (b : LittlefsBackend) (outcomes : SaveOutcomes) (payload : List UInt8) :
    D Unit := do
  b.checkCapacity payload
  fileOp b.tmpPath outcomes.onOpen fun _ => some []
  b.fillTmp outcomes payload
  fileOp b.tmpPath outcomes.onSync id
  rename payload b.tmpPath b.path outcomes.onRename

/-- `open(path, "rb")`: the content of the file. -/
def openRead (path : String) (fails : Option ℕ) : D (List UInt8) := do
  let d ← get
  match fails, d.files path with
  | some errno, _ => throw (.osError errno)
  | none, none => throw (.osError ENOENT)
  | none, some content => pure content

/-- `load`. -/
def LittlefsBackend.loadFile (b : LittlefsBackend) (outcomes : LoadOutcomes) : D (List UInt8) :=
  fun d =>
    match openRead b.path outcomes.onOpen d with
    | (.error (.osError _), d) => (.ok [], d)
    | (.error e, d) => (.error e, d)
    | (.ok content, d) =>
      tryFinally
        (match outcomes.onRead with
          | some errno => throw (.osError errno)
          | none => pure content)
        (match outcomes.onClose with
          | some errno => throw (.osError errno)
          | none => pure ()) d

/-- The disk after a list of saves, each of which may have been cut off by a loss of power. -/
def LittlefsBackend.history (b : LittlefsBackend) (d : Disk) (saves : List (SaveOutcomes × List UInt8)) :
    Disk :=
  saves.foldl (fun d call => (b.save call.1 call.2 d).2) d

/-! ## What a save leaves -/

section Saves

variable {b : LittlefsBackend} {d : Disk}

/-- The temporary file is not the store's file. -/
lemma LittlefsBackend.path_ne_tmpPath (b : LittlefsBackend) : b.path ≠ b.tmpPath := by
  intro h
  have hlen := congrArg String.length h
  rw [tmpPath, String.length_append] at hlen
  simp at hlen

/-- The file of the store has the payload of the last save that was renamed. -/
def LittlefsBackend.Holds (b : LittlefsBackend) (d : Disk) : Prop := d.files b.path = d.renamed

/-- What is done to the temporary file leaves the file of the store alone. -/
lemma LittlefsBackend.holds_put (h : b.Holds d) (content : Option (List UInt8)) :
    b.Holds (d.put b.tmpPath content) := by
  unfold Holds Disk.put
  dsimp only
  rw [Function.update_of_ne b.path_ne_tmpPath]
  exact h

/-- An operation on the temporary file, whichever way it goes. -/
lemma LittlefsBackend.holds_fileOp (h : b.Holds d) (outcome : Outcome)
    (change : Option (List UInt8) → Option (List UInt8)) :
    wp (fileOp b.tmpPath outcome change)
      (fun _ t => b.Holds t ∧ t.files b.tmpPath = change (d.files b.tmpPath)) (fun _ => b.Holds) d := by
  cases outcome with
  | succeeds => exact ⟨holds_put h _, by simp [Disk.put]⟩
  | raises errno leaves => exact holds_put h leaves
  | cut leaves => exact holds_put h leaves

/-- A `finally` that closes the temporary file. -/
lemma LittlefsBackend.holds_finally {m after : D Unit} {Q : Disk → Prop}
    (hm : wp m (fun _ t => b.Holds t ∧ Q t) (fun _ => b.Holds) d)
    (hafter : ∀ t, b.Holds t → wp after (fun _ u => b.Holds u ∧ (Q t → Q u)) (fun _ => b.Holds) t) :
    wp (finallyIfPowered m after) (fun _ t => b.Holds t ∧ Q t) (fun _ => b.Holds) d := by
  by_cases hlost : isLost (m d).1 = true
  · simpa only [wp, finallyIfPowered, hlost, if_true] using hm
  · have hrest : wp (tryFinally m after) (fun _ t => b.Holds t ∧ Q t) (fun _ => b.Holds) d := by
      rw [wp_tryFinally]
      refine wp_mono hm (fun _ t ht => ?_) fun _ t ht => ?_
      · exact wp_mono (hafter t ht.1) (fun _ u hu => ⟨hu.1, hu.2 ht.2⟩) fun _ _ hu => hu
      · exact wp_mono (hafter t ht) (fun _ u hu => hu.1) fun _ _ hu => hu
    simpa only [wp, finallyIfPowered, hlost, Bool.false_eq_true, if_false] using hrest

/-- A handler of `OSError` that raises in the end. -/
lemma LittlefsBackend.holds_except {m : D Unit} {handler : ℕ → D Unit} {Q : Unit → Disk → Prop}
    (hm : wp m Q (fun _ => b.Holds) d)
    (hhandler : ∀ errno t, b.Holds t → wp (handler errno) Q (fun _ => b.Holds) t) :
    wp (exceptOsError m handler) Q (fun _ => b.Holds) d := by
  rw [exceptOsError, wp_tryCatch]
  refine wp_mono hm (fun _ _ h => h) (fun e t ht => ?_)
  cases e with
  | osError errno => exact hhandler errno t ht
  | kvStoreFull message => exact ht
  | powerLoss => exact ht

/-- Filling the temporary file: if nothing is raised, the payload is in it. -/
lemma LittlefsBackend.holds_fillTmp (h : b.Holds d) (hempty : d.files b.tmpPath = some [])
    (outcomes : SaveOutcomes) (payload : List UInt8) :
    wp (b.fillTmp outcomes payload)
      (fun _ t => b.Holds t ∧ t.files b.tmpPath = some payload) (fun _ => b.Holds) d := by
  refine holds_except (holds_finally ?_ fun t ht => ?_) fun errno t ht => ?_
  · refine wp_mono (holds_fileOp h _ _) (fun _ t ht => ⟨ht.1, ?_⟩) fun _ _ ht => ht
    rw [ht.2, hempty]
    rfl
  · refine wp_mono (holds_fileOp ht _ _) (fun _ u hu => ⟨hu.1, fun hfull => ?_⟩) fun _ _ hu => hu
    rw [hu.2, hfull]
    rfl
  · rw [wp_bind]
    have hremove : wp (exceptOsError (fileOp b.tmpPath outcomes.onRemove fun _ => none) fun _ => pure ())
        (fun _ => b.Holds) (fun _ => b.Holds) t := by
      refine holds_except ?_ fun _ u hu => hu
      exact wp_mono (holds_fileOp ht _ _) (fun _ _ hu => hu.1) fun _ _ hu => hu
    exact wp_mono hremove (fun _ _ hu => hu) fun _ _ hu => hu

/-- A rename puts the payload in the file of the store, or does nothing. -/
lemma LittlefsBackend.holds_rename (h : b.Holds d) {payload : List UInt8}
    (hfull : d.files b.tmpPath = some payload) (outcome : RenameOutcome) :
    wp (rename payload b.tmpPath b.path outcome) (fun _ => b.Holds) (fun _ => b.Holds) d := by
  have hmoved : b.Holds { ((d.put b.path (d.files b.tmpPath)).put b.tmpPath none) with
      renamed := some payload } := by
    unfold Holds Disk.put
    dsimp only
    rw [Function.update_of_ne b.path_ne_tmpPath, Function.update_self, hfull]
  cases outcome with
  | succeeds => exact hmoved
  | raises errno => exact h
  | cut happened =>
    cases happened with
    | true => exact hmoved
    | false => exact h

/-- **One save**, whatever stops it, leaves the file of the store with the payload of the last save
that was renamed. -/
lemma LittlefsBackend.holds_save (h : b.Holds d) (outcomes : SaveOutcomes) (payload : List UInt8) :
    b.Holds (b.save outcomes payload d).2 := by
  refine @wp_state _ _ _ (b.save outcomes payload) d b.Holds ?_
  unfold save checkCapacity
  rw [wp_bind, wp_ite, wp_throw, wp_pure]
  refine ⟨fun _ => h, fun _ => ?_⟩
  rw [wp_bind]
  refine wp_mono (holds_fileOp h outcomes.onOpen _) (fun _ t ht => ?_) fun _ _ ht => ht
  rw [wp_bind]
  refine wp_mono (holds_fillTmp ht.1 ht.2 outcomes payload) (fun _ u hu => ?_) fun _ _ hu => hu
  rw [wp_bind]
  refine wp_mono (holds_fileOp hu.1 outcomes.onSync _) (fun _ v hv => ?_) fun _ _ hv => hv
  exact holds_rename hv.1 (hv.2.trans hu.2) outcomes.onRename

/-- **A history of saves** does. -/
lemma LittlefsBackend.holds_history (h : b.Holds d) (saves : List (SaveOutcomes × List UInt8)) :
    b.Holds (b.history d saves) := by
  induction saves generalizing d with
  | nil => exact h
  | cons call saves ih => exact ih (holds_save h call.1 call.2)

end Saves

/-! ## Loads -/

/-- The load raises, or returns the payload of the last save that was renamed, in full; the empty
payload if there is none. -/
def LittlefsBackend.LoadExact (b : LittlefsBackend) (d : Disk) (outcomes : LoadOutcomes) : Prop :=
  match (b.loadFile outcomes d).1 with
  | .error _ => True
  | .ok payload => payload = d.renamed.getD []

/-- **Loads after any history of saves**: on a disk that had no file for the store, a load raises or
returns the payload of the last save that was renamed if and only if its `open` succeeds or there is
no such payload to hide. -/
theorem LittlefsBackend.loadFile_exact_iff (b : LittlefsBackend) (d : Disk)
    (hblank : d.files b.path = none ∧ d.renamed = none) (saves : List (SaveOutcomes × List UInt8))
    (outcomes : LoadOutcomes) :
    b.LoadExact (b.history d saves) outcomes ↔
      (outcomes.onOpen = none ∨ (b.history d saves).renamed.getD [] = []) := by
  have hholds : b.Holds (b.history d saves) := holds_history (hblank.1.trans hblank.2.symm) saves
  unfold Holds at hholds
  generalize b.history d saves = e at hholds
  cases hopen : outcomes.onOpen with
  | some errno =>
    have hload : b.loadFile outcomes e = (.ok [], e) := by
      unfold loadFile openRead
      rw [hopen]
      rfl
    rw [LoadExact, hload]
    constructor
    · intro h
      exact .inr h.symm
    · rintro (h | h)
      · cases h
      · exact h.symm
  | none =>
    simp only [true_or, iff_true]
    cases hfile : e.files b.path with
    | none =>
      have hload : b.loadFile outcomes e = (.ok [], e) := by
        unfold loadFile openRead
        simp only [Bind.bind, Prog.get, hopen, hfile]
        rfl
      rw [LoadExact, hload, ← hholds, hfile]
      rfl
    | some content =>
      have hopened : openRead b.path outcomes.onOpen e = (.ok content, e) := by
        unfold openRead
        simp only [Bind.bind, Prog.get, hopen, hfile]
        rfl
      rw [LoadExact, loadFile, hopened, ← hholds, hfile]
      -- neither the read nor the close returns anything but the content
      cases outcomes.onRead with
      | some errno =>
        cases outcomes.onClose <;> trivial
      | none =>
        cases outcomes.onClose with
        | some errno => trivial
        | none => rfl

/-- A disk with no file. -/
def blankDisk : Disk := { files := fun _ => none }

/-- A save in which nothing fails. -/
def flawless : SaveOutcomes :=
  ⟨.succeeds, .succeeds, .succeeds, .succeeds, .succeeds, .succeeds⟩

/-- **A load whose `open` raises `EIO` returns the empty payload for a store that exists.** -/
theorem loadFile_hides_store :
    let b : LittlefsBackend := {}
    let d := b.history blankDisk [(flawless, [7])]
    d.renamed = some [7] ∧ (b.loadFile { onOpen := some 5 } d).1 = .ok [] ∧
      ¬ b.LoadExact d { onOpen := some 5 } := by
  refine ⟨rfl, rfl, ?_⟩
  intro h
  cases (show [] = [(7 : UInt8)] from h)

/-- A save, one that loses power in the middle of its write, and one whose rename raises: the load
returns the payload of the first. -/
theorem loadFile_exact_after_cuts :
    let b : LittlefsBackend := {}
    let saves := [(flawless, [7]), ({ flawless with onWrite := .cut (some [8]) }, [8, 9]),
      ({ flawless with onRename := .raises 5 }, [6])]
    b.LoadExact (b.history blankDisk saves) {} ∧
      (b.loadFile {} (b.history blankDisk saves)).1 = .ok [7] := by
  refine ⟨(LittlefsBackend.loadFile_exact_iff {} blankDisk ⟨rfl, rfl⟩ _ {}).mpr (.inl rfl), rfl⟩

end ChuMicro.Kvstore
