import ChuMicro.Python
import ChuMicro.Workspace.TemplateApply

/-!
# The dependencies that `update` carries across

Histories of complete runs on a workspace whose `pyproject.toml` the user edits only by adding
requirement strings to its `[project].dependencies`. Every clone ships a `pyproject.toml` with such
an array.

`tomlkit` and `tomllib` stay parameters; `Faithful` is what they are taken to do.

## Main definitions

* `Workspace.Faithful` — printing and parsing a document keeps what it holds.
* `Workspace.requirements` — the requirement strings of a `pyproject.toml`.
* `Workspace.carried` — the array after a run.
* `Workspace.Brought` — the requirements that came into the array so far.

## Main results

* `Workspace.requirements_reflow` — the array of the merged document.
* `Workspace.reflow_reflow` — merging once more changes no byte.
* `Workspace.dependencies_carried` — the array after every run of every history.
-/

namespace ChuMicro.Workspace

variable {Doc : Type} (tools : Tools Doc)

/-! ## Documents -/

/-- `document` with another `[project].dependencies` array. -/
def setDependencies (dependencies : List Value) (document : List (String × Value)) :
    List (String × Value) :=
  match Dict.get? "project" document with
  | some (.dict project) =>
    Dict.set "project" (.dict (Dict.set "dependencies" (.list dependencies) project)) document
  | _ => document

/-- `tomlkit` parses what it prints to a document that holds the same, appends to the array and to
nothing else, and reads a file as `tomllib` does. -/
structure Faithful : Prop where
  parse_dumps : ∀ document, ∃ printed, tools.parse (tools.dumps document) = some printed ∧
    tools.unwrap printed = tools.unwrap document
  unwrap_append : ∀ document requirement dependencies,
    projectDependenciesArray (tools.unwrap document) = some dependencies →
      tools.unwrap (tools.appendDependency document requirement) =
        setDependencies (dependencies ++ [Value.str requirement]) (tools.unwrap document)
  loads_eq : ∀ content, tools.loads content = (tools.parse content).map tools.unwrap

/-- The requirement strings of a `pyproject.toml` that has the array. -/
def requirements (content : Content) : Option (List String) :=
  (tools.parse content).bind fun document =>
    (projectDependenciesArray (tools.unwrap document)).map (List.map (entryStr tools))

/-- The array that a document was given is its array. -/
lemma projectDependenciesArray_setDependencies {document : List (String × Value)}
    {dependencies : List Value} (h : projectDependenciesArray document = some dependencies)
    (dependencies' : List Value) :
    projectDependenciesArray (setDependencies dependencies' document) = some dependencies' := by
  unfold projectDependenciesArray at h
  split at h
  · next project hproject =>
    rw [setDependencies, hproject]
    simp only [projectDependenciesArray, Dict.get?_set_self]
  · cases h

/-- Of two arrays a document was given the second stays. -/
lemma setDependencies_setDependencies (dependencies dependencies' : List Value)
    (document : List (String × Value)) :
    setDependencies dependencies (setDependencies dependencies' document) =
      setDependencies dependencies document := by
  unfold setDependencies
  cases hproject : Dict.get? "project" document with
  | none => simp only [hproject]
  | some value =>
    cases value with
    | dict project => simp only [Dict.get?_set_self, Dict.set_set]
    | list items => simp only [hproject]
    | str text => simp only [hproject]
    | other text => simp only [hproject]

section Reflow

variable {tools}

/-- Appending requirements one by one appends them to the array. -/
lemma unwrap_foldl_append (hfaithful : Faithful tools) (added : List String) {document : Doc}
    {dependencies : List Value}
    (h : projectDependenciesArray (tools.unwrap document) = some dependencies) :
    tools.unwrap (added.foldl tools.appendDependency document) =
      if added = [] then tools.unwrap document
      else setDependencies (dependencies ++ added.map .str) (tools.unwrap document) := by
  induction added generalizing document dependencies with
  | nil => rfl
  | cons requirement added ih =>
    have happend := hfaithful.unwrap_append document requirement dependencies h
    have harray : projectDependenciesArray
        (tools.unwrap (tools.appendDependency document requirement)) =
          some (dependencies ++ [Value.str requirement]) := by
      rw [happend, projectDependenciesArray_setDependencies h]
    rw [List.foldl_cons, ih harray, if_neg (List.cons_ne_nil _ _), happend,
      setDependencies_setDependencies]
    split
    · next hnil => rw [hnil]; rfl
    · rw [List.append_assoc]
      rfl

/-- The array after a run: that of the clone, and after it what it lacks of the one on disk. -/
def carried (upstream onDisk : List String) : List String :=
  upstream ++ onDisk.filter fun requirement => !upstream.contains requirement

variable {incumbent incoming : Content} {onDisk upstream : List String}

/-- What merging two documents that have the array comes to. -/
lemma reflow_eq (hincumbent : requirements tools incumbent = some onDisk)
    (hincoming : requirements tools incoming = some upstream) :
    ∃ document, tools.parse incoming = some document ∧
      (reflow tools incumbent incoming).1 =
        let added := onDisk.filter fun requirement => !upstream.contains requirement
        if added.isEmpty then incoming
        else tools.dumps (added.foldl tools.appendDependency document) := by
  simp only [requirements, Option.bind_eq_some_iff, Option.map_eq_some_iff] at hincumbent hincoming
  obtain ⟨incumbentDocument, hparse, array, harray, rfl⟩ := hincumbent
  obtain ⟨document, hparse', array', harray', rfl⟩ := hincoming
  refine ⟨document, hparse', ?_⟩
  simp only [reflow, hparse, hparse', harray, harray']
  split <;> rfl

/-- **The array of the merged document**, whose structure is that of the incoming one. -/
theorem requirements_reflow (hfaithful : Faithful tools)
    (hincumbent : requirements tools incumbent = some onDisk)
    (hincoming : requirements tools incoming = some upstream) :
    requirements tools (reflow tools incumbent incoming).1 = some (carried upstream onDisk) := by
  obtain ⟨document, hparse, hreflow⟩ := reflow_eq hincumbent hincoming
  dsimp only at hreflow
  rw [hreflow]
  simp only [requirements, hparse, Option.bind_some, Option.map_eq_some_iff] at hincoming
  obtain ⟨array, harray, rfl⟩ := hincoming
  set added := onDisk.filter fun requirement => !(array.map (entryStr tools)).contains requirement
    with hadded
  by_cases hempty : added.isEmpty = true
  · rw [if_pos hempty]
    have hnil : added = [] := List.isEmpty_iff.mp hempty
    simp only [requirements, hparse, Option.bind_some, harray, Option.map_some, carried, ← hadded,
      hnil, List.append_nil]
  · rw [if_neg hempty]
    obtain ⟨printed, hprinted, hunwrap⟩ :=
      hfaithful.parse_dumps (added.foldl tools.appendDependency document)
    have hne : added ≠ [] := fun hnil => hempty (List.isEmpty_iff.mpr hnil)
    rw [unwrap_foldl_append hfaithful added harray, if_neg hne] at hunwrap
    simp only [requirements, hprinted, Option.bind_some, hunwrap,
      projectDependenciesArray_setDependencies harray, Option.map_some, carried, ← hadded,
      List.map_append, List.map_map]
    have hstr : (entryStr tools ∘ Value.str) = id := rfl
    rw [hstr, List.map_id]

/-- Carrying across what was carried changes nothing. -/
lemma filter_carried (upstream onDisk : List String) :
    ((carried upstream onDisk).filter fun requirement => !upstream.contains requirement) =
      onDisk.filter fun requirement => !upstream.contains requirement := by
  rw [carried, List.filter_append, List.filter_filter]
  have hnone : (upstream.filter fun requirement => !upstream.contains requirement) = [] := by
    rw [List.filter_eq_nil_iff]
    intro requirement hmem
    simpa using hmem
  rw [hnone]
  simp

/-- **Merging once more changes no byte.** -/
theorem reflow_reflow (hfaithful : Faithful tools)
    (hincumbent : requirements tools incumbent = some onDisk)
    (hincoming : requirements tools incoming = some upstream) :
    (reflow tools (reflow tools incumbent incoming).1 incoming).1 =
      (reflow tools incumbent incoming).1 := by
  obtain ⟨document, hparse, hreflow⟩ := reflow_eq hincumbent hincoming
  obtain ⟨document', hparse', hagain⟩ :=
    reflow_eq (requirements_reflow hfaithful hincumbent hincoming) hincoming
  cases hparse.symm.trans hparse'
  rw [hagain, hreflow]
  simp only [filter_carried]

end Reflow

/-! ## Histories -/

/-- What happens to a workspace: a complete run, an edit of another file, or the user's adding
requirements to `pyproject.toml`. -/
inductive Change where
  | update (force : Bool) (upstream : Upstream)
  | edit (path : String) (content : Option Content)
  | addRequirements (content : Content) (added : List String)

/-- The requirement strings of the `pyproject.toml` on disk. -/
def onDiskRequirements (target : Target) : List String :=
  ((target.files PYPROJECT_RELATIVE_PATH).bind (requirements tools)).getD []

/-- The requirement strings of the `pyproject.toml` that a clone ships. -/
def upstreamRequirements (upstream : Upstream) : List String :=
  ((Dict.get? PYPROJECT_RELATIVE_PATH upstream.files).bind (requirements tools)).getD []

/-- The workspace after a change. -/
def Change.apply (target : Target) : Change → Target
  | .update force upstream => (Workspace.update tools force upstream target).1
  | .edit path content => { target with files := Function.update target.files path content }
  | .addRequirements content _ =>
    { target with files := Function.update target.files PYPROJECT_RELATIVE_PATH (some content) }

/-- The requirements that a change brings. -/
def Change.brings : Change → List String
  | .update _ upstream => upstreamRequirements tools upstream
  | .edit _ _ => []
  | .addRequirements _ added => added

/-- The clone ships a `pyproject.toml` with the array. -/
def ShipsArray (upstream : Upstream) : Prop :=
  ∃ shipped array, Dict.get? PYPROJECT_RELATIVE_PATH upstream.files = some shipped ∧
    requirements tools shipped = some array

/-- A clone ships the array, an edit is of another file, and adding requirements keeps those that
are there, in order, and everything else in the document. -/
def Change.Allowed (target : Target) : Change → Prop
  | .update _ upstream => ShipsArray tools upstream
  | .edit path _ => path ≠ PYPROJECT_RELATIVE_PATH
  | .addRequirements content added => ∃ onDisk old new,
      target.files PYPROJECT_RELATIVE_PATH = some onDisk ∧
      requirements tools onDisk = some old ∧ requirements tools content = some new ∧
      old.Sublist new ∧ new.Perm (old ++ added) ∧
      normalizedPyprojectStructure tools content = normalizedPyprojectStructure tools onDisk

/-- Every change is allowed where it happens. -/
def AllAllowed (target : Target) : List Change → Prop
  | [] => True
  | change :: changes =>
    change.Allowed tools target ∧ AllAllowed (change.apply tools target) changes

/-- The workspace after some changes. -/
def applyAll (target : Target) (changes : List Change) : Target :=
  changes.foldl (Change.apply tools) target

/-- A requirement is in the array at the start, or some change brought it. -/
def Brought (start : Target) (changes : List Change) (requirement : String) : Prop :=
  requirement ∈ onDiskRequirements tools start ∨
    ∃ change ∈ changes, requirement ∈ change.brings tools

/-- The `pyproject.toml` on disk, where there is one, has the array, and is not edited by what the
template state says of it, where that says something. -/
structure Ready (target : Target) : Prop where
  array : ∀ content, target.files PYPROJECT_RELATIVE_PATH = some content →
    ∃ array, requirements tools content = some array
  unedited : ∀ content print, target.files PYPROJECT_RELATIVE_PATH = some content →
    Dict.get? PYPROJECT_RELATIVE_PATH (readTemplateState target.state) = some print →
      fingerprint tools PYPROJECT_RELATIVE_PATH content = print

section Runs

variable {tools}

variable {target : Target} {array : List String} {upstream : Upstream}

/-- What a run writes to `pyproject.toml` has the array carried across. -/
lemma requirements_incomingBytes (hfaithful : Faithful tools) (hready : Ready tools target)
    {shipped : Content} (harray : requirements tools shipped = some array) :
    requirements tools (incomingBytes tools PYPROJECT_RELATIVE_PATH
      (target.files PYPROJECT_RELATIVE_PATH) shipped).1 =
        some (carried array (onDiskRequirements tools target)) := by
  rw [onDiskRequirements]
  cases hfile : target.files PYPROJECT_RELATIVE_PATH with
  | none => simp [incomingBytes, harray, carried]
  | some onDisk =>
    obtain ⟨old, hold⟩ := hready.array onDisk hfile
    rw [incomingBytes, if_pos rfl, requirements_reflow hfaithful hold harray, Option.bind_some, hold]
    rfl

/-- **A run on a `pyproject.toml` that is not edited** leaves what it would write, and records it.
-/
lemma outcome_pyproject (hready : Ready tools target) (force : Bool) (shipped : Content) :
    let incoming := (incomingBytes tools PYPROJECT_RELATIVE_PATH
      (target.files PYPROJECT_RELATIVE_PATH) shipped).1
    let whole := outcome tools force PYPROJECT_RELATIVE_PATH
      (Dict.get? PYPROJECT_RELATIVE_PATH (readTemplateState target.state)) (some shipped)
      (target.files PYPROJECT_RELATIVE_PATH)
    whole.file = some incoming ∧
      whole.record = some (fingerprint tools PYPROJECT_RELATIVE_PATH incoming) := by
  intro incoming whole
  have hzone : ¬ classify PYPROJECT_RELATIVE_PATH ≠ .toolOwned := by decide
  have hclean : locallyEdited tools PYPROJECT_RELATIVE_PATH (target.files PYPROJECT_RELATIVE_PATH)
      (Dict.get? PYPROJECT_RELATIVE_PATH (readTemplateState target.state)) = false := by
    unfold locallyEdited
    split
    · next onDisk print hfile hprint => simpa using hready.unedited onDisk print hfile hprint
    · rfl
  have hwhole : whole = if target.files PYPROJECT_RELATIVE_PATH = some incoming then
      ⟨target.files PYPROJECT_RELATIVE_PATH,
        some (fingerprint tools PYPROJECT_RELATIVE_PATH incoming), [.unchanged]⟩
      else ⟨some incoming, some (fingerprint tools PYPROJECT_RELATIVE_PATH incoming),
        [.refreshed]⟩ := by
    simp only [whole, outcome, if_neg hzone, hclean]
    rfl
  rw [hwhole]
  split
  · next hsame => exact ⟨hsame, rfl⟩
  · exact ⟨rfl, rfl⟩

/-- A run leaves the `pyproject.toml` of the clone with the array carried across. -/
lemma update_pyproject (hfaithful : Faithful tools) (hready : Ready tools target) (force : Bool)
    (hships : ShipsArray tools upstream) :
    ∃ content, (update tools force upstream target).1.files PYPROJECT_RELATIVE_PATH = some content ∧
      requirements tools content =
        some (carried (upstreamRequirements tools upstream) (onDiskRequirements tools target)) ∧
      Dict.get? PYPROJECT_RELATIVE_PATH
        (readTemplateState (update tools force upstream target).1.state) =
          some (fingerprint tools PYPROJECT_RELATIVE_PATH content) := by
  obtain ⟨shipped, array, hshipped, harray⟩ := hships
  have hupstream : upstreamRequirements tools upstream = array := by
    rw [upstreamRequirements, hshipped, Option.bind_some, harray]
    rfl
  have hwhole := outcome_pyproject hready force shipped
  refine ⟨_, ?_, hupstream ▸ requirements_incomingBytes hfaithful hready harray, ?_⟩
  · rw [update_files, hshipped]
    exact hwhole.1
  · rw [update_record, hshipped]
    exact hwhole.2

/-- The array on disk after a run. -/
lemma onDiskRequirements_update (hfaithful : Faithful tools) (hready : Ready tools target)
    (force : Bool) (hships : ShipsArray tools upstream) :
    onDiskRequirements tools (update tools force upstream target).1 =
      carried (upstreamRequirements tools upstream) (onDiskRequirements tools target) := by
  obtain ⟨content, hfile, harray, -⟩ := update_pyproject hfaithful hready force hships
  rw [onDiskRequirements, hfile, Option.bind_some, harray]
  rfl

/-- The fingerprint of a document that has the array is that of its structure. -/
lemma fingerprint_of_structure_eq (hfaithful : Faithful tools) {content content' : Content}
    (harray : requirements tools content' = some array)
    (h : normalizedPyprojectStructure tools content = normalizedPyprojectStructure tools content') :
    fingerprint tools PYPROJECT_RELATIVE_PATH content =
      fingerprint tools PYPROJECT_RELATIVE_PATH content' := by
  simp only [requirements, Option.bind_eq_some_iff] at harray
  obtain ⟨document, hparse, -⟩ := harray
  have hnormalized : ∃ normalized,
      normalizedPyprojectStructure tools content' = some normalized := by
    rw [normalizedPyprojectStructure, hfaithful.loads_eq, hparse]
    exact ⟨_, rfl⟩
  obtain ⟨normalized, hnormalized⟩ := hnormalized
  rw [fingerprint, fingerprint, if_pos rfl, if_pos rfl, h, hnormalized]

/-- **One change** keeps the workspace ready for the next run. -/
lemma Ready.step (hfaithful : Faithful tools) (h : Ready tools target) {change : Change}
    (hallowed : change.Allowed tools target) : Ready tools (change.apply tools target) := by
  cases change with
  | update force upstream =>
    obtain ⟨content, hfile, harray, hrecord⟩ := update_pyproject hfaithful h force hallowed
    have hsame {content' : Content} (hfile' : (update tools force upstream target).1.files
        PYPROJECT_RELATIVE_PATH = some content') : content' = content :=
      Option.some.inj (hfile'.symm.trans hfile)
    constructor
    · intro content' hfile'
      exact ⟨_, hsame hfile' ▸ harray⟩
    · intro content' print hfile' hprint
      rw [hsame hfile']
      exact Option.some.inj (hrecord.symm.trans hprint)
  | edit path content =>
    have hfile : (Change.apply tools target (.edit path content)).files PYPROJECT_RELATIVE_PATH =
        target.files PYPROJECT_RELATIVE_PATH :=
      Function.update_of_ne (Ne.symm hallowed) _ _
    exact ⟨fun content' h' => h.array content' (hfile ▸ h'),
      fun content' print h' => h.unedited content' print (hfile ▸ h')⟩
  | addRequirements content added =>
    obtain ⟨onDisk, old, new, hfile, hold, hnew, -, -, hstructure⟩ := hallowed
    have hcontent : (Change.apply tools target (.addRequirements content added)).files
        PYPROJECT_RELATIVE_PATH = some content := by
      simp [Change.apply]
    have hsame {content' : Content} (hfile' : (Change.apply tools target
        (.addRequirements content added)).files PYPROJECT_RELATIVE_PATH = some content') :
        content' = content := Option.some.inj (hfile'.symm.trans hcontent)
    constructor
    · intro content' hfile'
      exact ⟨new, hsame hfile' ▸ hnew⟩
    · intro content' print hfile' hprint
      rw [hsame hfile', fingerprint_of_structure_eq hfaithful hold hstructure]
      exact h.unedited onDisk print hfile hprint

/-- A requirement of the array after a run. -/
lemma mem_carried {upstream onDisk : List String} {requirement : String} :
    requirement ∈ carried upstream onDisk ↔ requirement ∈ upstream ∨ requirement ∈ onDisk := by
  simp only [carried, List.mem_append, List.mem_filter, Bool.not_eq_true', List.contains_eq_mem,
    decide_eq_false_iff_not]
  tauto

/-- **What one change brings comes into the array, and nothing leaves it.** -/
lemma mem_onDiskRequirements_apply (hfaithful : Faithful tools) (h : Ready tools target)
    {change : Change} (hallowed : change.Allowed tools target) (requirement : String) :
    requirement ∈ onDiskRequirements tools (change.apply tools target) ↔
      requirement ∈ onDiskRequirements tools target ∨ requirement ∈ change.brings tools := by
  cases change with
  | update force upstream =>
    rw [Change.apply, onDiskRequirements_update hfaithful h force hallowed, mem_carried, or_comm]
    rfl
  | edit path content =>
    have hfile : (Change.apply tools target (.edit path content)).files PYPROJECT_RELATIVE_PATH =
        target.files PYPROJECT_RELATIVE_PATH :=
      Function.update_of_ne (Ne.symm hallowed) _ _
    rw [onDiskRequirements, hfile]
    simp [onDiskRequirements, Change.brings]
  | addRequirements content added =>
    obtain ⟨onDisk, old, new, hfile, hold, hnew, -, hperm, -⟩ := hallowed
    have hafter : onDiskRequirements tools
        (Change.apply tools target (.addRequirements content added)) = new := by
      simp [onDiskRequirements, Change.apply, hnew]
    have hbefore : onDiskRequirements tools target = old := by
      simp [onDiskRequirements, hfile, hold]
    rw [hafter, hbefore, hperm.mem_iff, List.mem_append]
    rfl

/-- **The array of every history** has what it had at the start and what the changes brought.

**Proof sketch.** Induction on the changes; one change is `mem_onDiskRequirements_apply`, and leaves
the workspace ready for the next (`Ready.step`). -/
lemma mem_onDiskRequirements (hfaithful : Faithful tools) {start : Target}
    (h : Ready tools start) {changes : List Change} (hallowed : AllAllowed tools start changes)
    (requirement : String) :
    Ready tools (applyAll tools start changes) ∧
      (requirement ∈ onDiskRequirements tools (applyAll tools start changes) ↔
        Brought tools start changes requirement) := by
  induction changes generalizing start with
  | nil => exact ⟨h, by simp [applyAll, Brought]⟩
  | cons change changes ih =>
    obtain ⟨hready, hmem⟩ := ih (h.step hfaithful hallowed.1) hallowed.2
    refine ⟨hready, hmem.trans ?_⟩
    rw [Brought, Brought, mem_onDiskRequirements_apply hfaithful h hallowed.1 requirement, or_assoc]
    simp

/-- **A second run at another path** changes nothing that the first left. -/
lemma outcome_outcome (force : Bool) {path : String} (hpath : path ≠ PYPROJECT_RELATIVE_PATH)
    (baseline : Option String) (shipped file : Option Content) :
    let first := outcome tools force path baseline shipped file
    let second := outcome tools force path first.record shipped first.file
    second.file = first.file ∧ second.record = first.record := by
  have hincoming (file : Option Content) (content : Content) :
      (incomingBytes tools path file content).1 = content := by
    cases file with
    | none => rfl
    | some onDisk => rw [incomingBytes, if_neg hpath]
  by_cases hzone : classify path ≠ .toolOwned
  · simp only [outcome, if_pos hzone, and_self]
  cases shipped with
  | some content =>
    simp only [outcome, if_neg hzone, hincoming]
    by_cases hsame : file = some content
    · simp only [if_pos hsame, and_self]
    by_cases hedited : (locallyEdited tools path file baseline && !force) = true
    · simp only [if_neg hsame, if_pos hedited, and_self]
    · simp only [if_neg hsame, if_neg hedited, if_true, and_self]
  | none =>
    cases baseline with
    | none => simp only [outcome, if_neg hzone, and_self]
    | some print =>
      cases file with
      | none => simp only [outcome, if_neg hzone, and_self]
      | some onDisk =>
        by_cases hedited : (fingerprint tools path onDisk != print && !force) = true
        · simp only [outcome, if_neg hzone, if_pos hedited, and_self]
        · simp only [outcome, if_neg hzone, if_neg hedited, and_self]

/-- What a second run would write to `pyproject.toml` is what the first wrote. -/
lemma incomingBytes_again (hfaithful : Faithful tools) (hready : Ready tools target)
    {shipped : Content} (harray : requirements tools shipped = some array) :
    let incoming := (incomingBytes tools PYPROJECT_RELATIVE_PATH
      (target.files PYPROJECT_RELATIVE_PATH) shipped).1
    (incomingBytes tools PYPROJECT_RELATIVE_PATH (some incoming) shipped).1 = incoming := by
  intro incoming
  rw [incomingBytes, if_pos rfl]
  cases hfile : target.files PYPROJECT_RELATIVE_PATH with
  | none =>
    have hincoming : incoming = shipped := by simp [incoming, hfile, incomingBytes]
    obtain ⟨document, -, hreflow⟩ := reflow_eq harray harray
    have hnone : (array.filter fun requirement => !array.contains requirement) = [] := by
      rw [List.filter_eq_nil_iff]
      intro requirement hmem
      simpa using hmem
    rw [hincoming, hreflow]
    simp only [hnone]
    rfl
  | some onDisk =>
    have hincoming : incoming = (reflow tools onDisk shipped).1 := by
      simp [incoming, hfile, incomingBytes]
    obtain ⟨old, hold⟩ := hready.array onDisk hfile
    rw [hincoming, reflow_reflow hfaithful hold harray]

/-- **Running `update` again with the same upstream changes nothing**: no file, and nothing that the
next run reads of the record.

**Proof sketch.** At `pyproject.toml` the second run would write what the first wrote; elsewhere it
is `outcome_outcome`. -/
lemma update_update (hfaithful : Faithful tools) (hready : Ready tools target) (force : Bool)
    (hships : ShipsArray tools upstream) :
    let first := (update tools force upstream target).1
    let second := (update tools force upstream first).1
    second.files = first.files ∧ ∀ path, Dict.get? path (readTemplateState second.state) =
      Dict.get? path (readTemplateState first.state) := by
  intro first second
  have hpath (path : String) : second.files path = first.files path ∧
      Dict.get? path (readTemplateState second.state) =
        Dict.get? path (readTemplateState first.state) := by
    have hfile : first.files path = _ := update_files tools force upstream target path
    have hrecord : Dict.get? path (readTemplateState first.state) = _ :=
      update_record tools force upstream target path
    have hfile' : second.files path = _ := update_files tools force upstream first path
    have hrecord' : Dict.get? path (readTemplateState second.state) = _ :=
      update_record tools force upstream first path
    by_cases hpath : path = PYPROJECT_RELATIVE_PATH
    · subst hpath
      have hallowed : (Change.update force upstream).Allowed tools target := hships
      have hready' : Ready tools first := hready.step hfaithful hallowed
      obtain ⟨shipped, array, hshipped, harray⟩ := hships
      have hfirst := outcome_pyproject hready force shipped
      have hsecond := outcome_pyproject hready' force shipped
      rw [hshipped, hfirst.1] at hfile
      rw [hshipped, hfirst.2] at hrecord
      rw [hshipped, hsecond.1, hfile, incomingBytes_again hfaithful hready harray] at hfile'
      rw [hshipped, hsecond.2, hfile, incomingBytes_again hfaithful hready harray] at hrecord'
      exact ⟨hfile'.trans hfile.symm, hrecord'.trans hrecord.symm⟩
    · have htwice := @outcome_outcome _ tools force _ hpath
        (Dict.get? path (readTemplateState target.state)) (Dict.get? path upstream.files)
        (target.files path)
      rw [hfile, hrecord, htwice.1] at hfile'
      rw [hfile, hrecord, htwice.2] at hrecord'
      exact ⟨hfile'.trans hfile.symm, hrecord'.trans hrecord.symm⟩
  exact ⟨funext fun path => (hpath path).1, fun path => (hpath path).2⟩

end Runs

/-- **The dependencies after a run** of any history in which clones ship the array and the user
edits `pyproject.toml` only by adding to it: the array is that of the clone, and after it, in their
order on disk, those requirements of the array on disk that it lacks. The requirements in it are
those of the clone, those there were at the start and those that the user and the clones of earlier
runs brought; and another run with the same clone changes nothing.

**Proof sketch.** The workspace stays ready along the history (`mem_onDiskRequirements`); one run is
`onDiskRequirements_update`, and two are `update_update`. -/
theorem dependencies_carried (hfaithful : Faithful tools) (start : Target)
    (hstart : Ready tools start) (changes : List Change)
    (hallowed : AllAllowed tools start changes) (force : Bool) (upstream : Upstream)
    (hships : ShipsArray tools upstream) :
    let target := applyAll tools start changes
    let next := (update tools force upstream target).1
    let again := (update tools force upstream next).1
    let shipped := upstreamRequirements tools upstream
    onDiskRequirements tools next = shipped ++
        ((onDiskRequirements tools target).filter fun requirement =>
          !shipped.contains requirement) ∧
      (∀ requirement, requirement ∈ onDiskRequirements tools next ↔
        requirement ∈ shipped ∨ Brought tools start changes requirement) ∧
      again.files = next.files ∧ ∀ path, Dict.get? path (readTemplateState again.state) =
        Dict.get? path (readTemplateState next.state) := by
  intro target next again shipped
  have hready : Ready tools target := (mem_onDiskRequirements hfaithful hstart hallowed "").1
  have harray : onDiskRequirements tools next = carried shipped (onDiskRequirements tools target) :=
    onDiskRequirements_update hfaithful hready force hships
  refine ⟨harray, fun requirement => ?_, update_update hfaithful hready force hships⟩
  rw [harray, mem_carried, (mem_onDiskRequirements hfaithful hstart hallowed requirement).2]

/-! ## Documents with nothing but the array -/

/-- The quotation mark. -/
def QUOTE : Char := Char.ofNat 34

/-- The backslash. -/
def BACKSLASH : Char := Char.ofNat 92

/-- A character of a basic string. -/
def escape (char : Char) : List Char :=
  if char = QUOTE ∨ char = BACKSLASH then [BACKSLASH, char] else [char]

/-- A basic string and what follows it. -/
def quoteThen (text : List Char) (rest : List Char) : List Char :=
  QUOTE :: (text.flatMap escape ++ QUOTE :: rest)

/-- The array after one of its entries, to the end of the document. -/
def arrayRest : List String → List Char
  | [] => [']', '\n']
  | entry :: entries => ',' :: ' ' :: quoteThen entry.toList (arrayRest entries)

/-- The array and the end of the document. -/
def arrayText : List String → List Char
  | [] => [']', '\n']
  | entry :: entries => quoteThen entry.toList (arrayRest entries)

/-- The document whose `[project].dependencies` is this array, and that has nothing else. -/
def pyprojectText (entries : List String) : Content :=
  encodeUtf8 (String.ofList ("[project]\ndependencies = [".toList ++ arrayText entries))

/-- A basic string ends where it ends. -/
lemma quoteThen_inj {text text' rest rest' : List Char}
    (h : quoteThen text rest = quoteThen text' rest') : text = text' ∧ rest = rest' := by
  have hplain {char : Char} (hchar : ¬ (char = QUOTE ∨ char = BACKSLASH)) : escape char = [char] :=
    if_neg hchar
  have hquoted {char : Char} (hchar : char = QUOTE ∨ char = BACKSLASH) :
      escape char = [BACKSLASH, char] := if_pos hchar
  have hne : QUOTE ≠ BACKSLASH := by decide
  have hbody : text.flatMap escape ++ QUOTE :: rest = text'.flatMap escape ++ QUOTE :: rest' :=
    (List.cons.inj h).2
  clear h
  induction text generalizing text' with
  | nil =>
    cases text' with
    | nil => simpa using hbody
    | cons char' text' =>
      by_cases hchar : char' = QUOTE ∨ char' = BACKSLASH
      · simp [hquoted hchar, hne] at hbody
      · have hhead := congrArg List.head? hbody
        simp only [List.flatMap_nil, List.nil_append, List.flatMap_cons, hplain hchar,
          List.cons_append, List.head?_cons, Option.some.injEq] at hhead
        exact absurd (Or.inl hhead.symm) hchar
  | cons char text ih =>
    cases text' with
    | nil =>
      by_cases hchar : char = QUOTE ∨ char = BACKSLASH
      · simp [hquoted hchar, hne.symm] at hbody
      · have hhead := congrArg List.head? hbody
        simp only [List.flatMap_nil, List.nil_append, List.flatMap_cons, hplain hchar,
          List.cons_append, List.head?_cons, Option.some.injEq] at hhead
        exact absurd (Or.inl hhead) hchar
    | cons char' text' =>
      rw [List.flatMap_cons, List.flatMap_cons, List.append_assoc, List.append_assoc] at hbody
      have hstep : char = char' ∧
          text.flatMap escape ++ QUOTE :: rest = text'.flatMap escape ++ QUOTE :: rest' := by
        by_cases hchar : char = QUOTE ∨ char = BACKSLASH <;>
          by_cases hchar' : char' = QUOTE ∨ char' = BACKSLASH
        · rw [hquoted hchar, hquoted hchar'] at hbody
          simpa using hbody
        · rw [hquoted hchar, hplain hchar'] at hbody
          exact absurd (Or.inr (List.cons.inj hbody).1.symm) hchar'
        · rw [hplain hchar, hquoted hchar'] at hbody
          exact absurd (Or.inr (List.cons.inj hbody).1) hchar
        · rw [hplain hchar, hplain hchar'] at hbody
          simpa using hbody
      obtain ⟨htext, hrest⟩ := ih hstep.2
      exact ⟨by rw [hstep.1, htext], hrest⟩

/-- The rest of an array tells its entries. -/
lemma arrayRest_injective : Function.Injective arrayRest := by
  intro entries entries' h
  induction entries generalizing entries' with
  | nil =>
    cases entries' with
    | nil => rfl
    | cons entry' entries' => cases h
  | cons entry entries ih =>
    cases entries' with
    | nil => cases h
    | cons entry' entries' =>
      obtain ⟨hentry, hrest⟩ := quoteThen_inj (List.cons.inj (List.cons.inj h).2).2
      rw [String.toList_inj.mp hentry, ih hrest]

/-- The document tells the array. -/
lemma pyprojectText_injective : Function.Injective pyprojectText := by
  intro entries entries' h
  have htext := decodeUtf8_encodeUtf8 (String.ofList
    ("[project]\ndependencies = [".toList ++ arrayText entries))
  rw [show encodeUtf8 _ = encodeUtf8 _ from h, decodeUtf8_encodeUtf8] at htext
  have harray := List.append_cancel_left (String.ofList_injective (Except.ok.inj htext))
  cases entries with
  | nil =>
    cases entries' with
    | nil => rfl
    | cons entry' entries' => exact absurd (List.cons.inj harray).1 (by decide)
  | cons entry entries =>
    cases entries' with
    | nil => exact absurd (List.cons.inj harray).1 (by decide)
    | cons entry' entries' =>
      obtain ⟨hentry, hrest⟩ := quoteThen_inj harray
      rw [String.toList_inj.mp hentry, arrayRest_injective hrest]

open Classical in
/-- The array of such a document. -/
noncomputable def parsePyproject (content : Content) : Option (List String) :=
  if h : ∃ entries, pyprojectText entries = content then some h.choose else none

/-- A document is read as what it was printed from. -/
lemma parsePyproject_pyprojectText (entries : List String) :
    parsePyproject (pyprojectText entries) = some entries := by
  have h : ∃ entries', pyprojectText entries' = pyprojectText entries := ⟨entries, rfl⟩
  rw [parsePyproject, dif_pos h, pyprojectText_injective h.choose_spec]

/-- `tomlkit` and `tomllib` on these documents. Without the array each is `\x7b"project":
\x7b\x7d\x7d` as JSON, so there is one digest. -/
noncomputable def arrayTools : Tools (List String) where
  sha256 _ := "ec7bf889d65811470da70bab97ef48f9e008f53bdb5d803354764a70c66b62df"
  loads content := (parsePyproject content).map fun entries =>
    [("project", .dict [("dependencies", .list (entries.map .str))])]
  jsonDumps _ := encodeUtf8 "\x7b\"project\": \x7b\x7d\x7d"
  repr _ := ""
  parse := parsePyproject
  unwrap entries := [("project", .dict [("dependencies", .list (entries.map .str))])]
  appendDependency entries requirement := entries ++ [requirement]
  dumps := pyprojectText

/-- On these documents printing and parsing keep the array. -/
lemma arrayTools_faithful : Faithful arrayTools where
  parse_dumps entries := ⟨entries, parsePyproject_pyprojectText entries, rfl⟩
  unwrap_append entries requirement dependencies h := by
    have hdependencies : entries.map Value.str = dependencies := Option.some.inj h
    rw [← hdependencies]
    show [("project", Value.dict [("dependencies", .list ((entries ++ [requirement]).map .str))])] =
      [("project", Value.dict [("dependencies", .list (entries.map .str ++ [Value.str requirement]))])]
    rw [List.map_append, List.map_singleton]
  loads_eq content := rfl

/-- The requirement strings of such a document. -/
lemma requirements_pyprojectText (entries : List String) :
    requirements arrayTools (pyprojectText entries) = some entries := by
  have hparse : arrayTools.parse (pyprojectText entries) = some entries :=
    parsePyproject_pyprojectText entries
  have hstr : (entryStr arrayTools ∘ Value.str) = id := rfl
  rw [requirements, hparse, Option.bind_some]
  show some ((entries.map Value.str).map (entryStr arrayTools)) = some entries
  rw [List.map_map, hstr, List.map_id]

/-- A clone with such a document. -/
def shippingArray (entries : List String) : Upstream where
  files := [("pyproject.toml", pyprojectText entries)]
  nodup := by simp

/-- It ships the array. -/
lemma shipsArray_shippingArray (entries : List String) :
    ShipsArray arrayTools (shippingArray entries) :=
  ⟨pyprojectText entries, entries, rfl, requirements_pyprojectText entries⟩

/-- It ships its requirement strings. -/
lemma upstreamRequirements_shippingArray (entries : List String) :
    upstreamRequirements arrayTools (shippingArray entries) = entries := by
  show ((some (pyprojectText entries)).bind (requirements arrayTools)).getD [] = entries
  rw [Option.bind_some, requirements_pyprojectText]
  rfl

/-- A workspace without files. -/
def emptyWorkspace : Target := ⟨fun _ => none, .unreadable⟩

/-- A workspace without files is ready for a run. -/
lemma ready_emptyWorkspace : Ready arrayTools emptyWorkspace :=
  ⟨nofun, nofun⟩

/-- A first run writes what the clone ships. -/
lemma files_first (entries : List String) :
    (Change.apply arrayTools emptyWorkspace (.update false (shippingArray entries))).files
      PYPROJECT_RELATIVE_PATH = some (pyprojectText entries) := by
  rw [Change.apply, update_files]
  exact (outcome_pyproject ready_emptyWorkspace false (pyprojectText entries)).1

/-- After a first run the array is that of the clone. -/
lemma onDiskRequirements_first (entries : List String) :
    onDiskRequirements arrayTools
      (Change.apply arrayTools emptyWorkspace (.update false (shippingArray entries))) = entries := by
  rw [onDiskRequirements, files_first, Option.bind_some, requirements_pyprojectText]
  rfl

/-- A run with `c` after a run with `a`: the array is `c` and `a`. -/
theorem dependencies_carried_twice :
    onDiskRequirements arrayTools (update arrayTools false (shippingArray ["c"])
      (applyAll arrayTools emptyWorkspace [.update false (shippingArray ["a"])])).1 = ["c", "a"] := by
  have h := (dependencies_carried arrayTools arrayTools_faithful emptyWorkspace ready_emptyWorkspace
    [.update false (shippingArray ["a"])] ⟨shipsArray_shippingArray ["a"], trivial⟩ false
    (shippingArray ["c"]) (shipsArray_shippingArray ["c"])).1
  have hdisk : onDiskRequirements arrayTools
      (applyAll arrayTools emptyWorkspace [.update false (shippingArray ["a"])]) = ["a"] :=
    onDiskRequirements_first ["a"]
  rw [hdisk, upstreamRequirements_shippingArray] at h
  exact h

/-- The clone ships `a`, and at the next run no requirement: `a`, which the user did not add and an
earlier upstream array had, stays. And where the user has added `b` twice, it stays twice. -/
theorem dropped_requirement_carried :
    (let target := applyAll arrayTools emptyWorkspace [.update false (shippingArray ["a"])];
      onDiskRequirements arrayTools (update arrayTools false (shippingArray []) target).1 = ["a"]) ∧
    (let changes : List Change :=
        [.update false (shippingArray []), .addRequirements (pyprojectText ["b", "b"]) ["b", "b"]];
      AllAllowed arrayTools emptyWorkspace changes ∧
        onDiskRequirements arrayTools (update arrayTools false (shippingArray [])
          (applyAll arrayTools emptyWorkspace changes)).1 = ["b", "b"]) := by
  have hready (entries : List String) : Ready arrayTools
      (Change.apply arrayTools emptyWorkspace (.update false (shippingArray entries))) :=
    ready_emptyWorkspace.step arrayTools_faithful (shipsArray_shippingArray entries)
  refine ⟨?_, ?_⟩
  · have h := onDiskRequirements_update arrayTools_faithful (hready ["a"]) false
      (shipsArray_shippingArray [])
    rw [upstreamRequirements_shippingArray, onDiskRequirements_first] at h
    exact h
  · have hallowed : AllAllowed arrayTools emptyWorkspace [.update false (shippingArray []),
        .addRequirements (pyprojectText ["b", "b"]) ["b", "b"]] := by
      refine ⟨shipsArray_shippingArray [], ?_, trivial⟩
      refine ⟨pyprojectText [], [], ["b", "b"], files_first [], requirements_pyprojectText [],
        requirements_pyprojectText ["b", "b"], List.nil_sublist _, List.Perm.refl _, ?_⟩
      simp only [normalizedPyprojectStructure, arrayTools, parsePyproject_pyprojectText,
        Option.map_some]
    refine ⟨hallowed, ?_⟩
    have h := onDiskRequirements_update arrayTools_faithful
      (mem_onDiskRequirements arrayTools_faithful ready_emptyWorkspace hallowed "").1 false
      (shipsArray_shippingArray [])
    have hdisk : onDiskRequirements arrayTools (applyAll arrayTools emptyWorkspace
        [.update false (shippingArray []),
          .addRequirements (pyprojectText ["b", "b"]) ["b", "b"]]) = ["b", "b"] := by
      show ((some (pyprojectText ["b", "b"])).bind (requirements arrayTools)).getD [] = ["b", "b"]
      rw [Option.bind_some, requirements_pyprojectText]
      rfl
    rw [upstreamRequirements_shippingArray, hdisk] at h
    exact h

end ChuMicro.Workspace
