import ChuMicro.Lib.Dict
import Mathlib.Data.List.Sort

/-!
# Updating a workspace from its template

`update` of `template_apply.py` with its helpers, and `classify` of `template_zones.py`.

A workspace is its files and the file of the template state. Only contents are modelled: parent
directories are there when a file is, and the pruning of empty ones changes no file. Paths are those
that `relative_to(..).as_posix()` gives, which `PurePosixPath` leaves as they are. Where `update`
raises (a directory at a path, a clone that fails, an interrupt), it is a run cut off between two
files: `updateAborted`.

What is not of this repository is `Tools`: SHA-256 as a hex digest, `tomllib.loads`, `json.dumps` of
a document, and `tomlkit`. The fingerprints, the carry-over of dependencies and the template state
are translated over them.

## Main definitions

* `Workspace.classify` — the zone of a path.
* `Workspace.fingerprint` — `_fingerprint` with `_normalized_pyproject_structure`.
* `Workspace.reflow` — `_reflow_pyproject_preserving_dependencies`.
* `Workspace.update`, `Workspace.updateAborted` — a run, and one that is cut off.

## Main results

* `Workspace.update_files`, `Workspace.update_record`, `Workspace.update_actions` — what a run does
  at one path depends on that path alone.
* `Workspace.updateAborted_at` — a run that is cut off has done at a path what a complete run does,
  if it has come to it, or nothing.
-/

namespace ChuMicro.Workspace

/-! ## Zones -/

/-- Two ownership zones. -/
inductive Zone where
  | toolOwned
  | userOwned
  deriving DecidableEq

/-- `TOOL_OWNED_PATHS`. -/
def TOOL_OWNED_PATHS : List String :=
  ["run.py", "AGENTS.md", "CONTRIBUTING.md", "pyproject.toml", "requirements.txt", "constraints.txt"]

/-- `TOOL_OWNED_PREFIXES`. -/
def TOOL_OWNED_PREFIXES : List String :=
  ["projects/_template/", ".github/skills/", ".github/workflows/", "examples/"]

/-- `USER_OWNED_PATHS`. -/
def USER_OWNED_PATHS : List String := ["workspace.yml", "secrets.toml", "devices.yml"]

/-- `USER_OWNED_PREFIXES`. -/
def USER_OWNED_PREFIXES : List String := ["shared/", "packages/"]

/-- `posix.startswith(start)`. -/
def startsWith (posix start : String) : Bool := start.toList.isPrefixOf posix.toList

/-- `classify`. -/
def classify (targetPath : String) : Zone :=
  if USER_OWNED_PATHS.contains targetPath then .userOwned
  else if USER_OWNED_PREFIXES.any (startsWith targetPath) then .userOwned
  else if TOOL_OWNED_PATHS.contains targetPath then .toolOwned
  else if TOOL_OWNED_PREFIXES.any (startsWith targetPath) then .toolOwned
  else .userOwned

/-! ## Documents and fingerprints -/

/-- A value of a JSON or TOML document; a scalar that is not a string is its text. -/
inductive Value where
  | dict (items : List (String × Value))
  | list (items : List Value)
  | str (value : String)
  | other (text : String)

/-- The contents of a file. -/
abbrev Content := List UInt8

/-- What `update` uses of other packages. `Doc` is a `tomlkit` document, which keeps comments and
layout; `unwrap` is what it holds, and `appendDependency` appends to the array of its
`[project].dependencies`. -/
structure Tools (Doc : Type) where
  sha256 : Content → String
  loads : Content → Option (List (String × Value))
  jsonDumps : List (String × Value) → Content
  repr : Value → String
  parse : Content → Option Doc
  unwrap : Doc → List (String × Value)
  appendDependency : Doc → String → Doc
  dumps : Doc → Content

variable {Doc : Type} (tools : Tools Doc)

/-- `_PYPROJECT_RELATIVE_PATH`. -/
def PYPROJECT_RELATIVE_PATH : String := "pyproject.toml"

/-- `document` with `[project].dependencies` removed. -/
def dropDependencies (document : List (String × Value)) : List (String × Value) :=
  match Dict.get? "project" document with
  | some (.dict project) => Dict.set "project" (.dict (Dict.erase "dependencies" project)) document
  | _ => document

/-- `_normalized_pyproject_structure`. -/
def normalizedPyprojectStructure (content : Content) : Option Content :=
  (tools.loads content).map fun document => tools.jsonDumps (dropDependencies document)

/-- `_fingerprint`. -/
def fingerprint (relative : String) (content : Content) : String :=
  if relative = PYPROJECT_RELATIVE_PATH then
    match normalizedPyprojectStructure tools content with
    | some normalized => tools.sha256 normalized
    | none => tools.sha256 content
  else tools.sha256 content

/-- `_project_dependencies_array` of what a document holds. -/
def projectDependenciesArray (document : List (String × Value)) : Option (List Value) :=
  match Dict.get? "project" document with
  | some (.dict project) =>
    match Dict.get? "dependencies" project with
    | some (.list dependencies) => some dependencies
    | _ => none
  | _ => none

/-- `str(entry)`. -/
def entryStr : Value → String
  | .str value => value
  | value => tools.repr value

/-- `_reflow_pyproject_preserving_dependencies`. -/
def reflow (incumbent incoming : Content) : Content × Bool :=
  match tools.parse incoming, tools.parse incumbent with
  | some incomingDocument, some incumbentDocument =>
    match projectDependenciesArray (tools.unwrap incomingDocument),
      projectDependenciesArray (tools.unwrap incumbentDocument) with
    | some incomingDependencies, some incumbentDependencies =>
      let incomingRequirements := incomingDependencies.map (entryStr tools)
      let userAdded := (incumbentDependencies.map (entryStr tools)).filter
        fun entry => !incomingRequirements.contains entry
      if userAdded.isEmpty then (incoming, false)
      else (tools.dumps (userAdded.foldl tools.appendDependency incomingDocument), true)
    | _, _ => (incoming, false)
  | _, _ => (incoming, false)

/-! ## The template state -/

/-- The `{relative: fingerprint}` record. -/
abbrev TemplateState := List (String × String)

/-- The file of the template state: it cannot be read, is not JSON, or holds a value. -/
inductive StateFile where
  | unreadable
  | malformed
  | document (value : Value)

/-- One entry of the comprehension in `_read_template_state`. -/
def readEntry (record : TemplateState) (entry : String × Value) : TemplateState :=
  match entry.2 with
  | .str print => Dict.set entry.1 print record
  | _ => record

/-- `_read_template_state`. -/
def readTemplateState : StateFile → TemplateState
  | .document (.dict document) =>
    match Dict.get? "applied" document with
    | some (.dict applied) => applied.foldl readEntry []
    | _ => []
  | _ => []

/-- `sorted(record.items())`. -/
def sortedItems (record : TemplateState) : TemplateState :=
  record.insertionSort fun a b => a.1 ≤ b.1

/-- `_write_template_state`: the file after it. -/
def writeTemplateState (applied : TemplateState) : StateFile :=
  .document (.dict [("applied", .dict ((sortedItems applied).map fun e => (e.1, .str e.2)))])

/-! ## A run -/

/-- What happened to one file during an update. -/
inductive ApplyAction where
  | skipped
  | refreshed
  | unchanged
  | removed
  | refused
  deriving DecidableEq

/-- Per-file actions taken during one run, and the files whose added dependencies were carried
across. -/
structure ApplyReport where
  actions : List (String × ApplyAction)
  dependencyPreservedPaths : List String

/-- `report.add`. -/
def ApplyReport.add (report : ApplyReport) (targetRelative : String) (action : ApplyAction) :
    ApplyReport :=
  { report with actions := report.actions ++ [(targetRelative, action)] }

/-- `report.note_dependencies_preserved`. -/
def ApplyReport.noteDependenciesPreserved (report : ApplyReport) (targetRelative : String) :
    ApplyReport :=
  { report with dependencyPreservedPaths := report.dependencyPreservedPaths ++ [targetRelative] }

/-- The regular files under a directory. -/
abbrev Files := String → Option Content

/-- A workspace root: its files, less the one of the template state, and that one. -/
structure Target where
  files : Files
  state : StateFile

/-- The fresh clone of the template, in the order it is walked. -/
structure Upstream where
  files : List (String × Content)
  nodup : (files.map Prod.fst).Nodup

/-- Where a run stands: the files, the record it will write and its report. -/
structure Progress where
  files : Files
  applied : TemplateState
  report : ApplyReport

/-- Whether a file differs from what the record says of it. -/
def locallyEdited (relative : String) (incumbent : Option Content) (baseline : Option String) :
    Bool :=
  match incumbent, baseline with
  | some bytes, some print => fingerprint tools relative bytes != print
  | _, _ => false

/-- The bytes that `update` would write at a path, and whether dependencies were carried across. -/
def incomingBytes (relative : String) (incumbent : Option Content) (shipped : Content) :
    Content × Bool :=
  match incumbent with
  | some bytes => if relative = PYPROJECT_RELATIVE_PATH then reflow tools bytes shipped
    else (shipped, false)
  | none => (shipped, false)

/-- What `update` does with one file of the clone. -/
def applyFile (force : Bool) (previous : TemplateState) (run : Progress)
    (source : String × Content) : Progress :=
  let relative := source.1
  if classify relative ≠ .toolOwned then { run with report := run.report.add relative .skipped }
  else
    let incumbent := run.files relative
    let (incoming, preserved) := incomingBytes tools relative incumbent source.2
    if incumbent = some incoming then
      { run with
        applied := Dict.set relative (fingerprint tools relative incoming) run.applied
        report := run.report.add relative .unchanged }
    else
      let baseline := Dict.get? relative previous
      if locallyEdited tools relative incumbent baseline && !force then
        { run with
          applied := match baseline with
            | some print => Dict.set relative print run.applied
            | none => run.applied
          report := run.report.add relative .refused }
      else
        let report := run.report.add relative .refreshed
        { files := Function.update run.files relative (some incoming)
          applied := Dict.set relative (fingerprint tools relative incoming) run.applied
          report := if preserved then report.noteDependenciesPreserved relative else report }

/-- What `_reconcile_deletions` does with one entry of the record. -/
def reconcileDeletion (force : Bool) (upstreamRelatives : List String) (run : Progress)
    (entry : String × String) : Progress :=
  let relative := entry.1
  if upstreamRelatives.contains relative then run
  else if classify relative ≠ .toolOwned then run
  else
    match run.files relative with
    | none => run
    | some onDisk =>
      if fingerprint tools relative onDisk != entry.2 && !force then
        { run with
          applied := Dict.set relative entry.2 run.applied
          report := run.report.add relative .refused }
      else
        { run with
          files := Function.update run.files relative none
          report := run.report.add relative .removed }

/-- A run that has walked `files` of the clone and then `deletions` of the record. -/
def walk (force : Bool) (previous : TemplateState) (upstreamRelatives : List String)
    (files : List (String × Content)) (deletions : TemplateState) (start : Files) : Progress :=
  deletions.foldl (reconcileDeletion tools force upstreamRelatives)
    (files.foldl (applyFile tools force previous) ⟨start, [], ⟨[], []⟩⟩)

/-- `update`, which returns its report. -/
def update (force : Bool) (upstream : Upstream) (target : Target) : Target × ApplyReport :=
  let previous := readTemplateState target.state
  let run := walk tools force previous (upstream.files.map Prod.fst) upstream.files
    (sortedItems previous) target.files
  (⟨run.files, writeTemplateState run.applied⟩, run.report)

/-- `update` cut off after some of the files of the clone and, where it has walked them all, some of
the deletions: the template state is what it was. -/
def updateAborted (force : Bool) (upstream : Upstream) (steps : ℕ) (target : Target) :
    Target × ApplyReport :=
  let previous := readTemplateState target.state
  let run := walk tools force previous (upstream.files.map Prod.fst) (upstream.files.take steps)
    ((sortedItems previous).take (steps - upstream.files.length)) target.files
  (⟨run.files, target.state⟩, run.report)

/-! ## What a run does at one path -/

/-- The actions that a report has for a path. -/
def ApplyReport.at (report : ApplyReport) (path : String) : List ApplyAction :=
  (report.actions.filter fun entry => entry.1 = path).map Prod.snd

/-- What is seen of a run at one path: the file, the record and the actions reported. -/
@[ext] structure PathView where
  file : Option Content
  record : Option String
  actions : List ApplyAction

/-- What a run shows at a path. -/
def Progress.at (path : String) (run : Progress) : PathView :=
  ⟨run.files path, Dict.get? path run.applied, run.report.at path⟩

/-- What `applyFile` does at the path of a file that the clone ships. -/
def applyAt (force : Bool) (previous : TemplateState) (path : String) (shipped : Content)
    (view : PathView) : PathView :=
  if classify path ≠ .toolOwned then { view with actions := view.actions ++ [ApplyAction.skipped] }
  else
    let incoming := (incomingBytes tools path view.file shipped).1
    let baseline := Dict.get? path previous
    if view.file = some incoming then
      ⟨view.file, some (fingerprint tools path incoming), view.actions ++ [ApplyAction.unchanged]⟩
    else if locallyEdited tools path view.file baseline && !force then
      ⟨view.file, baseline.or view.record, view.actions ++ [ApplyAction.refused]⟩
    else ⟨some incoming, some (fingerprint tools path incoming), view.actions ++ [ApplyAction.refreshed]⟩

/-- What `reconcileDeletion` does at the path of an entry of the record. -/
def reconcileAt (force : Bool) (upstreamRelatives : List String) (path : String) (print : String)
    (view : PathView) : PathView :=
  if upstreamRelatives.contains path then view
  else if classify path ≠ .toolOwned then view
  else
    match view.file with
    | none => view
    | some onDisk =>
      if fingerprint tools path onDisk != print && !force then
        ⟨view.file, some print, view.actions ++ [ApplyAction.refused]⟩
      else ⟨none, view.record, view.actions ++ [ApplyAction.removed]⟩

/-- What a complete run does at a path: from what the record has of it, what the clone ships there
and the file that is there. -/
def outcome (force : Bool) (path : String) (baseline : Option String) (shipped : Option Content)
    (file : Option Content) : PathView :=
  if classify path ≠ .toolOwned then ⟨file, none, if shipped.isSome then [.skipped] else []⟩
  else
    match shipped with
    | some content =>
      let incoming := (incomingBytes tools path file content).1
      if file = some incoming then ⟨file, some (fingerprint tools path incoming), [.unchanged]⟩
      else if locallyEdited tools path file baseline && !force then ⟨file, baseline, [.refused]⟩
      else ⟨some incoming, some (fingerprint tools path incoming), [.refreshed]⟩
    | none =>
      match baseline with
      | none => ⟨file, none, []⟩
      | some print =>
        match file with
        | none => ⟨none, none, []⟩
        | some onDisk =>
          if fingerprint tools path onDisk != print && !force then ⟨file, baseline, [.refused]⟩
          else ⟨none, none, [.removed]⟩

lemma ApplyReport.at_add (report : ApplyReport) (path path' : String) (action : ApplyAction) :
    (report.add path action).at path' =
      if path = path' then report.at path' ++ [action] else report.at path' := by
  simp only [ApplyReport.at, ApplyReport.add, List.filter_append]
  by_cases h : path = path'
  · rw [if_pos h, List.filter_cons_of_pos (by simpa using h)]
    simp
  · rw [if_neg h, List.filter_cons_of_neg (by simpa using h)]
    simp

@[simp] lemma ApplyReport.at_add_self (report : ApplyReport) (path : String)
    (action : ApplyAction) : (report.add path action).at path = report.at path ++ [action] := by
  rw [at_add, if_pos rfl]

lemma ApplyReport.at_add_of_ne (report : ApplyReport) {path path' : String} (h : path ≠ path')
    (action : ApplyAction) : (report.add path action).at path' = report.at path' := by
  rw [at_add, if_neg h]

@[simp] lemma ApplyReport.at_noteDependenciesPreserved (report : ApplyReport)
    (path path' : String) : (report.noteDependenciesPreserved path).at path' = report.at path' := rfl

/-- **One file of the clone** acts at its own path. -/
lemma applyFile_local (force : Bool) (previous : TemplateState) :
    Dict.Local (applyFile tools force previous) Progress.at (applyAt tools force previous) where
  at_key run path shipped := by
    unfold applyFile applyAt Progress.at
    dsimp only
    by_cases hzone : classify path ≠ .toolOwned
    · rw [if_pos hzone, if_pos hzone]
      simp
    rw [if_neg hzone, if_neg hzone]
    by_cases hsame : run.files path = some (incomingBytes tools path (run.files path) shipped).1
    · rw [if_pos hsame, if_pos hsame]
      simp
    rw [if_neg hsame, if_neg hsame]
    by_cases hedited :
        (locallyEdited tools path (run.files path) (Dict.get? path previous) && !force) = true
    · rw [if_pos hedited, if_pos hedited]
      cases Dict.get? path previous with
      | none => simp
      | some print => simp
    rw [if_neg hedited, if_neg hedited]
    split <;> simp
  elsewhere run source path hne := by
    have hfile (content : Option Content) :
        Function.update run.files source.1 content path = run.files path :=
      Function.update_of_ne hne.symm _ _
    unfold applyFile Progress.at
    dsimp only
    by_cases hzone : classify source.1 ≠ .toolOwned
    · rw [if_pos hzone]
      simp [ApplyReport.at_add_of_ne _ hne]
    rw [if_neg hzone]
    split
    · simp [ApplyReport.at_add_of_ne _ hne, Dict.get?_set_of_ne hne]
    split
    · cases Dict.get? source.1 previous with
      | none => simp [ApplyReport.at_add_of_ne _ hne]
      | some print => simp [ApplyReport.at_add_of_ne _ hne, Dict.get?_set_of_ne hne]
    split <;> simp [ApplyReport.at_add_of_ne _ hne, Dict.get?_set_of_ne hne, hfile]

/-- **One entry of the record** acts at its own path. -/
lemma reconcileDeletion_local (force : Bool) (upstreamRelatives : List String) :
    Dict.Local (reconcileDeletion tools force upstreamRelatives) Progress.at
      (reconcileAt tools force upstreamRelatives) where
  at_key run path print := by
    unfold reconcileDeletion reconcileAt
    dsimp only [Progress.at]
    split
    · rfl
    split
    · rfl
    cases hfile : run.files path with
    | none => simp [hfile]
    | some onDisk =>
      dsimp only
      split
      · simp [hfile]
      · simp
  elsewhere run entry path hne := by
    unfold reconcileDeletion
    dsimp only
    split
    · rfl
    split
    · rfl
    cases run.files entry.1 with
    | none => rfl
    | some onDisk =>
      dsimp only [Progress.at]
      split
      · simp [ApplyReport.at_add_of_ne _ hne, Dict.get?_set_of_ne hne]
      · simp [ApplyReport.at_add_of_ne _ hne, Function.update_of_ne hne.symm]

/-! ## The record from run to run -/

/-- Reading the template state gives a dictionary. -/
lemma nodup_readTemplateState (file : StateFile) :
    ((readTemplateState file).map Prod.fst).Nodup := by
  unfold readTemplateState
  split
  · split
    · next applied _ =>
      refine List.foldlRecOn applied readEntry
        (motive := fun record : TemplateState => (record.map Prod.fst).Nodup)
        List.nodup_nil fun record hrecord entry _ => ?_
      unfold readEntry
      split
      · exact Dict.nodup_set hrecord _ _
      · exact hrecord
    · simp
  · simp

/-- Sorting changes no lookup. -/
lemma get?_sortedItems {record : TemplateState} (hnodup : (record.map Prod.fst).Nodup)
    (path : String) : Dict.get? path (sortedItems record) = Dict.get? path record :=
  (Dict.get?_perm (List.perm_insertionSort _ record).symm hnodup path).symm

lemma nodup_sortedItems {record : TemplateState} (hnodup : (record.map Prod.fst).Nodup) :
    ((sortedItems record).map Prod.fst).Nodup :=
  ((List.perm_insertionSort _ record).map Prod.fst).nodup_iff.mpr hnodup

/-- Setting the entries of a dictionary one by one acts at the key of each. -/
lemma set_local : Dict.Local (fun (record : TemplateState) entry => Dict.set entry.1 entry.2 record)
    (fun path record => Dict.get? path record) (fun _ print _ => some print) where
  at_key _ _ _ := Dict.get?_set_self _ _ _
  elsewhere _ _ _ hne := Dict.get?_set_of_ne hne _ _

/-- **What is written is what the next run reads.** -/
lemma get?_read_write {applied : TemplateState} (hnodup : (applied.map Prod.fst).Nodup)
    (path : String) :
    Dict.get? path (readTemplateState (writeTemplateState applied)) = Dict.get? path applied := by
  have hread : readTemplateState (writeTemplateState applied) =
      (sortedItems applied).foldl (fun record entry => Dict.set entry.1 entry.2 record) [] := by
    simp only [readTemplateState, writeTemplateState, Dict.get?_cons, if_true, List.foldl_map]
    rfl
  rw [hread]
  have hset := set_local.view_foldl (nodup_sortedItems hnodup) [] path
  rw [get?_sortedItems hnodup] at hset
  rw [hset]
  cases Dict.get? path applied <;> rfl

/-- The record that a run will write is a dictionary. -/
lemma nodup_walk (force : Bool) (previous : TemplateState) (upstreamRelatives : List String)
    (files : List (String × Content)) (deletions : TemplateState) (start : Files) :
    ((walk tools force previous upstreamRelatives files deletions start).applied.map
      Prod.fst).Nodup := by
  refine List.foldlRecOn deletions _ (motive := fun run : Progress => (run.applied.map Prod.fst).Nodup)
    ?_ fun run hrun entry _ => ?_
  · refine List.foldlRecOn files _ (motive := fun run : Progress => (run.applied.map Prod.fst).Nodup)
      (by simp) fun run hrun source _ => ?_
    unfold applyFile
    dsimp only
    split
    · exact hrun
    split
    · exact Dict.nodup_set hrun _ _
    split
    · split
      · exact Dict.nodup_set hrun _ _
      · exact hrun
    · exact Dict.nodup_set hrun _ _
  · unfold reconcileDeletion
    dsimp only
    split
    · exact hrun
    split
    · exact hrun
    split
    · exact hrun
    split
    · exact Dict.nodup_set hrun _ _
    · exact hrun

/-! ## Complete runs and runs cut off -/

/-- What a walk over some files and some deletions shows at a path. -/
lemma walk_at (force : Bool) (previous : TemplateState) (upstreamRelatives : List String)
    {files : List (String × Content)} {deletions : TemplateState} (start : Files)
    (hfiles : (files.map Prod.fst).Nodup) (hdeletions : (deletions.map Prod.fst).Nodup)
    (path : String) :
    (walk tools force previous upstreamRelatives files deletions start).at path =
      let applied := (Dict.get? path files).elim ⟨start path, none, []⟩ fun shipped =>
        applyAt tools force previous path shipped ⟨start path, none, []⟩
      (Dict.get? path deletions).elim applied fun print =>
        reconcileAt tools force upstreamRelatives path print applied := by
  have happly := (applyFile_local tools force previous).view_foldl hfiles ⟨start, [], ⟨[], []⟩⟩ path
  have hreconcile := (reconcileDeletion_local tools force upstreamRelatives).view_foldl hdeletions
    (files.foldl (applyFile tools force previous) ⟨start, [], ⟨[], []⟩⟩) path
  rw [happly] at hreconcile
  exact hreconcile

/-- What a file that the clone ships comes to. -/
lemma applyAt_eq_outcome (force : Bool) (previous : TemplateState) (path : String)
    (shipped : Content) (file : Option Content) :
    applyAt tools force previous path shipped ⟨file, none, []⟩ =
      outcome tools force path (Dict.get? path previous) (some shipped) file := by
  simp only [applyAt, outcome, List.nil_append, Option.or_none, Option.isSome_some, if_true]

/-- A file that the clone ships is not deleted. -/
lemma reconcileAt_of_shipped (force : Bool) (upstream : Upstream) {path : String}
    {shipped : Content} (h : Dict.get? path upstream.files = some shipped) (print : String)
    (view : PathView) :
    reconcileAt tools force (upstream.files.map Prod.fst) path print view = view := by
  have hmem : (upstream.files.map Prod.fst).contains path = true := by
    rw [List.contains_iff_mem]
    exact List.mem_map_of_mem (f := Prod.fst) (Dict.mem_of_get? h)
  rw [reconcileAt, if_pos hmem]

/-- What an entry of the record comes to that the clone does not ship. -/
lemma reconcileAt_eq_outcome (force : Bool) (upstream : Upstream) {path : String}
    (h : Dict.get? path upstream.files = none) (print : String) (file : Option Content) :
    reconcileAt tools force (upstream.files.map Prod.fst) path print ⟨file, none, []⟩ =
      outcome tools force path (some print) none file := by
  have hmem : ¬ (upstream.files.map Prod.fst).contains path = true := by
    rw [List.contains_iff_mem]
    exact Dict.get?_eq_none_iff.mp h
  rw [reconcileAt, if_neg hmem]
  unfold outcome
  split
  · rfl
  · cases file with
    | none => rfl
    | some onDisk => rfl

/-- **A complete run at one path.** -/
lemma walk_at_complete (force : Bool) {previous : TemplateState}
    (hprevious : (previous.map Prod.fst).Nodup) (upstream : Upstream) (start : Files)
    (path : String) :
    (walk tools force previous (upstream.files.map Prod.fst) upstream.files (sortedItems previous)
      start).at path =
      outcome tools force path (Dict.get? path previous) (Dict.get? path upstream.files)
        (start path) := by
  rw [walk_at tools force previous _ start upstream.nodup (nodup_sortedItems hprevious) path,
    get?_sortedItems hprevious]
  cases hshipped : Dict.get? path upstream.files with
  | some shipped =>
    have hstay := fun print view => reconcileAt_of_shipped tools force upstream hshipped print view
    rw [← applyAt_eq_outcome]
    cases Dict.get? path previous with
    | none => rfl
    | some print => exact hstay print _
  | none =>
    cases Dict.get? path previous with
    | none =>
      dsimp only [outcome, Option.elim_none]
      split <;> rfl
    | some print => exact reconcileAt_eq_outcome tools force upstream hshipped print _

/-- The files after a run. -/
theorem update_files (force : Bool) (upstream : Upstream) (target : Target) (path : String) :
    (update tools force upstream target).1.files path =
      (outcome tools force path (Dict.get? path (readTemplateState target.state))
        (Dict.get? path upstream.files) (target.files path)).file :=
  congrArg PathView.file
    (walk_at_complete tools force (nodup_readTemplateState target.state) upstream target.files path)

/-- The record that the next run reads. -/
theorem update_record (force : Bool) (upstream : Upstream) (target : Target) (path : String) :
    Dict.get? path (readTemplateState (update tools force upstream target).1.state) =
      (outcome tools force path (Dict.get? path (readTemplateState target.state))
        (Dict.get? path upstream.files) (target.files path)).record := by
  rw [update, get?_read_write (nodup_walk tools force _ _ _ _ _)]
  exact congrArg PathView.record
    (walk_at_complete tools force (nodup_readTemplateState target.state) upstream target.files path)

/-- The actions that a run reports of a path. -/
theorem update_actions (force : Bool) (upstream : Upstream) (target : Target) (path : String) :
    (update tools force upstream target).2.at path =
      (outcome tools force path (Dict.get? path (readTemplateState target.state))
        (Dict.get? path upstream.files) (target.files path)).actions :=
  congrArg PathView.actions
    (walk_at_complete tools force (nodup_readTemplateState target.state) upstream target.files path)

/-- A walk over some of the files of the clone and some of the record leaves at a path what a
complete run does, if it has come to it, or has left it.

**Proof sketch.** Where the clone ships the path only the first loop acts on it, and where it does
not only the second. -/
lemma walk_at_part (force : Bool) {previous : TemplateState} (upstream : Upstream)
    {files : List (String × Content)} {deletions : TemplateState} (start : Files)
    (hfiles : (files.map Prod.fst).Nodup) (hdeletions : (deletions.map Prod.fst).Nodup)
    {path : String}
    (hsome : Dict.get? path files = none ∨ Dict.get? path files = Dict.get? path upstream.files)
    (hsome' : Dict.get? path deletions = none ∨
      Dict.get? path deletions = Dict.get? path previous) :
    let view := (walk tools force previous (upstream.files.map Prod.fst) files deletions start).at path
    view = ⟨start path, none, []⟩ ∨
      ((Dict.get? path files).isSome ∨ (Dict.get? path deletions).isSome) ∧
        view = outcome tools force path (Dict.get? path previous) (Dict.get? path upstream.files)
          (start path) := by
  intro view
  have hview : view = _ := walk_at tools force previous _ start hfiles hdeletions path
  rw [hview]
  cases hshipped : Dict.get? path upstream.files with
  | some shipped =>
    have hstay := fun print view => reconcileAt_of_shipped tools force upstream hshipped print view
    rw [hshipped] at hsome
    rw [← applyAt_eq_outcome]
    rcases hsome with hnone | hsame
    · left
      rw [hnone]
      cases Dict.get? path deletions with
      | none => rfl
      | some print => exact hstay print _
    · right
      rw [hsame]
      refine ⟨.inl rfl, ?_⟩
      cases Dict.get? path deletions with
      | none => rfl
      | some print => exact hstay print _
  | none =>
    have hnone : Dict.get? path files = none := by
      rw [hshipped] at hsome
      exact hsome.elim id id
    rw [hnone]
    rcases hsome' with hnone' | hsame
    · left
      rw [hnone']
      rfl
    · rw [hsame]
      cases Dict.get? path previous with
      | none => exact Or.inl rfl
      | some print =>
        exact Or.inr ⟨.inr rfl, reconcileAt_eq_outcome tools force upstream hshipped print _⟩

/-- The first entries of a dictionary have distinct keys. -/
lemma nodup_keys_take {α : Type} {d : List (String × α)} (h : (d.map Prod.fst).Nodup) (n : ℕ) :
    ((d.take n).map Prod.fst).Nodup := by
  rw [List.map_take]
  exact h.sublist (List.take_sublist n _)

/-- A run that is cut off after some steps has come to a path: as a file of the clone, or as an
entry of the record. -/
def Reached (upstream : Upstream) (previous : TemplateState) (steps : ℕ) (path : String) : Prop :=
  (Dict.get? path (upstream.files.take steps)).isSome ∨
    (Dict.get? path ((sortedItems previous).take (steps - upstream.files.length))).isSome

/-- **A run that is cut off** leaves and reports at a path what a complete run does, if it has come
to it, or has left it. -/
theorem updateAborted_at (force : Bool) (upstream : Upstream) (steps : ℕ) (target : Target)
    (path : String) :
    let run := updateAborted tools force upstream steps target
    let whole := outcome tools force path (Dict.get? path (readTemplateState target.state))
      (Dict.get? path upstream.files) (target.files path)
    (run.1.files path = target.files path ∧ run.2.at path = []) ∨
      Reached upstream (readTemplateState target.state) steps path ∧
        run.1.files path = whole.file ∧ run.2.at path = whole.actions := by
  intro run whole
  have hprevious := nodup_readTemplateState target.state
  have hrest := Dict.get?_take path (sortedItems (readTemplateState target.state))
    (steps - upstream.files.length)
  rw [get?_sortedItems hprevious] at hrest
  rcases walk_at_part tools force upstream target.files (nodup_keys_take upstream.nodup steps)
    (nodup_keys_take (nodup_sortedItems hprevious) (steps - upstream.files.length))
    (Dict.get?_take path upstream.files steps) hrest with h | ⟨hreached, h⟩
  · exact Or.inl ⟨congrArg PathView.file h, congrArg PathView.actions h⟩
  · exact Or.inr ⟨hreached, congrArg PathView.file h, congrArg PathView.actions h⟩

end ChuMicro.Workspace
