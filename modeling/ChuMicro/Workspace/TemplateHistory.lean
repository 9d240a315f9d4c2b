import ChuMicro.Workspace.TemplateApply

/-!
# What runs of `update` do to edited files

Histories of runs without `force`, complete or cut off, between which the user edits files and the
template state.

Beside the workspace a history keeps what the tool *last wrote* at a path, and whether the file that
it wrote there *is gone*: a run has removed it since, or a complete run has found no file there and
shipped none. Both are read off the reports, the files and the clones, not off the template state.

A file that the tool wrote and that is not gone should be on record with what the tool wrote. It is,
as long as the history lets it (`Meets`). It is not after a run that is cut off behind the write,
for the record is written at the end of a run. And a file that a complete run finds identical to
what it ships is put on record, though the tool may never have written it.

`pyproject.toml` is left aside: its fingerprint does not cover its dependencies.

## Main definitions

* `Workspace.Event`, `Workspace.History` — what happens between two moments, and the workspace with
  what the tool wrote.
* `Workspace.Decides` — the ways a run can deal with a path.
* `Workspace.Meets` — the events that let the record agree with what the tool wrote.
* `Workspace.Agrees` — the template state has the fingerprint of what the tool wrote.

## Main results

* `Workspace.outcome_decides` — a run deals with a path in one of these ways.
* `Workspace.Agrees.run` — the invariant holds along every history whose events meet the condition.
* `Workspace.update_guards_written` — what a run may overwrite, refuse and delete.
-/

namespace ChuMicro.Workspace

variable {Doc : Type} (tools : Tools Doc)

/-! ## Histories -/

/-- What happens to a workspace: a run of `update`, cut off after some steps or complete, an edit, a
creation or a deletion by the user, or a change that the user makes to the template state. -/
inductive Event where
  | update (upstream : Upstream) (cut : Option ℕ)
  | edit (path : String) (content : Option Content)
  | editState (file : StateFile)

/-- A run without `force`, complete or cut off. -/
def updateRun (upstream : Upstream) (cut : Option ℕ) (target : Target) : Target × ApplyReport :=
  match cut with
  | none => update tools false upstream target
  | some steps => updateAborted tools false upstream steps target

/-- A workspace, what the tool last wrote at a path, and whether that file is gone. -/
structure History where
  target : Target
  wrote : String → Option Content
  gone : String → Bool

/-- What the tool wrote at a path and has not been gone since. -/
def History.kept (s : History) (path : String) : Option Content :=
  if s.gone path then none else s.wrote path

/-- Whether the file that the tool wrote is gone, after a run that reported `actions` of it: a run
that is complete and finds no file notices that, if it ships none. -/
def goneAfter (complete : Bool) (actions : List ApplyAction) (shipped file : Option Content)
    (gone : Bool) : Bool :=
  if .refreshed ∈ actions then false
  else gone || decide (.removed ∈ actions) || complete && shipped.isNone && file.isNone

/-- A history after one more event. -/
def History.step (s : History) : Event → History
  | .update upstream cut =>
    let run := updateRun tools upstream cut s.target
    { target := run.1
      wrote := fun path => if .refreshed ∈ run.2.at path then run.1.files path else s.wrote path
      gone := fun path => goneAfter cut.isNone (run.2.at path) (Dict.get? path upstream.files)
        (run.1.files path) (s.gone path) }
  | .edit path content =>
    { s with target := { s.target with files := Function.update s.target.files path content } }
  | .editState file => { s with target := { s.target with state := file } }

/-- A workspace in which the tool has written nothing. -/
def History.start (target : Target) : History := ⟨target, fun _ => none, fun _ => false⟩

/-- A history after some events. -/
def History.run (s : History) (events : List Event) : History := events.foldl (History.step tools) s

/-! ## The ways to deal with a path -/

/-- What a run without `force` does at a path, from what is on record, what the clone ships and what
is on disk. -/
inductive Decides (path : String) (recorded shipped file : Option Content) : PathView → Prop where
  | userOwned (hzone : classify path ≠ .toolOwned) (actions : List ApplyAction)
    (hactions : actions = [] ∨ actions = [.skipped]) :
    Decides path recorded shipped file ⟨file, none, actions⟩
  | unchanged (content : Content) (hzone : classify path = .toolOwned)
    (hshipped : shipped = some content) (hfile : file = some content) :
    Decides path recorded shipped file ⟨file, some (tools.sha256 content), [.unchanged]⟩
  | refreshed (content : Content) (hzone : classify path = .toolOwned)
    (hshipped : shipped = some content) (hnew : file ≠ some content)
    (hclean : ∀ onDisk on, file = some onDisk → recorded = some on → onDisk = on) :
    Decides path recorded shipped file
      ⟨some content, some (tools.sha256 content), [.refreshed]⟩
  | refused (onDisk on : Content) (hzone : classify path = .toolOwned) (hfile : file = some onDisk)
    (hrecorded : recorded = some on) (hedited : onDisk ≠ on) :
    Decides path recorded shipped file ⟨file, some (tools.sha256 on), [.refused]⟩
  | removed (onDisk : Content) (hzone : classify path = .toolOwned) (hshipped : shipped = none)
    (hfile : file = some onDisk) (hrecorded : recorded = some onDisk) :
    Decides path recorded shipped file ⟨none, none, [.removed]⟩
  | dropped (hshipped : shipped = none) (hgone : recorded = none ∨ file = none) :
    Decides path recorded shipped file ⟨file, none, []⟩

lemma fingerprint_of_ne {path : String} (h : path ≠ PYPROJECT_RELATIVE_PATH) (content : Content) :
    fingerprint tools path content = tools.sha256 content := by
  rw [fingerprint, if_neg h]

lemma incomingBytes_of_ne {path : String} (h : path ≠ PYPROJECT_RELATIVE_PATH)
    (file : Option Content) (shipped : Content) :
    incomingBytes tools path file shipped = (shipped, false) := by
  cases file with
  | none => rfl
  | some onDisk => rw [incomingBytes, if_neg h]

/-- **A run deals with a path in one of these ways**, where the record has the fingerprint
of what is on record. -/
theorem outcome_decides (hsha : Function.Injective tools.sha256) {path : String}
    (hpath : path ≠ PYPROJECT_RELATIVE_PATH) (recorded shipped file : Option Content) :
    Decides tools path recorded shipped file
      (outcome tools false path (recorded.map tools.sha256) shipped file) := by
  unfold outcome
  by_cases hzone : classify path ≠ .toolOwned
  · rw [if_pos hzone]
    refine .userOwned hzone _ ?_
    cases shipped with
    | none => exact Or.inl rfl
    | some content => exact Or.inr rfl
  rw [if_neg hzone]
  have hzone : classify path = .toolOwned := not_not.mp hzone
  have hedited (onDisk on : Content) :
      (tools.sha256 onDisk != tools.sha256 on && !false) = true ↔ onDisk ≠ on := by
    simp [hsha.eq_iff]
  cases shipped with
  | some content =>
    simp only [incomingBytes_of_ne tools hpath, fingerprint_of_ne tools hpath]
    by_cases hsame : file = some content
    · rw [if_pos hsame]
      exact .unchanged content hzone rfl hsame
    rw [if_neg hsame]
    cases file with
    | none => exact .refreshed content hzone rfl hsame nofun
    | some onDisk =>
      cases recorded with
      | none => exact .refreshed content hzone rfl hsame nofun
      | some on =>
        rw [Option.map_some, locallyEdited, fingerprint_of_ne tools hpath]
        by_cases hne : onDisk ≠ on
        · rw [if_pos ((hedited onDisk on).mpr hne)]
          exact .refused onDisk on hzone rfl rfl hne
        · rw [if_neg (fun h => hne ((hedited onDisk on).mp h))]
          refine .refreshed content hzone rfl hsame fun onDisk' on' hfile hrecorded => ?_
          cases hfile
          cases hrecorded
          exact not_not.mp hne
  | none =>
    cases recorded with
    | none => exact .dropped rfl (Or.inl rfl)
    | some on =>
      cases file with
      | none => exact .dropped rfl (Or.inr rfl)
      | some onDisk =>
        dsimp only [Option.map_some]
        rw [fingerprint_of_ne tools hpath]
        by_cases hne : onDisk ≠ on
        · rw [if_pos ((hedited onDisk on).mpr hne)]
          exact .refused onDisk on hzone rfl rfl hne
        · rw [if_neg (fun h => hne ((hedited onDisk on).mp h))]
          exact .removed onDisk hzone rfl rfl (congrArg some (not_not.mp hne).symm)

/-! ## The condition -/

/-- A run without `force` that comes to the path would write or delete the file: it is tool-owned
and not as the clone has it, and there is no local edit to refuse. -/
def Acts (path : String) (baseline : Option String) (shipped file : Option Content) : Prop :=
  classify path = .toolOwned ∧ file ≠ shipped ∧ locallyEdited tools path file baseline = false

/-- **The events after which the record agrees with what the tool wrote at a path**:

* a complete run that finds there what it ships, if that is what the tool last wrote there;
* a run that is cut off, if it has not come to the path or would not write or delete the file;
* an edit;
* a change of the template state that leaves the entry of the path as it is. -/
def Meets (path : String) (s : History) : Event → Prop
  | .update upstream none => ∀ content, classify path = .toolOwned →
      Dict.get? path upstream.files = some content → s.target.files path = some content →
        s.kept path = some content
  | .update upstream (some steps) =>
    Reached upstream (readTemplateState s.target.state) steps path →
      ¬ Acts tools path (Dict.get? path (readTemplateState s.target.state))
        (Dict.get? path upstream.files) (s.target.files path)
  | .edit _ _ => True
  | .editState file =>
    Dict.get? path (readTemplateState file) = Dict.get? path (readTemplateState s.target.state)

/-- All events of a history meet the condition. -/
def MeetsAll (path : String) : History → List Event → Prop
  | _, [] => True
  | s, event :: events => Meets tools path s event ∧ MeetsAll path (s.step tools event) events

/-! ## The invariant -/

/-- **The template state has the fingerprint of what the tool wrote at a path**, and the tool writes
only what it owns. -/
structure Agrees (path : String) (s : History) : Prop where
  record_eq : Dict.get? path (readTemplateState s.target.state) = (s.kept path).map tools.sha256
  wrote_eq : classify path ≠ .toolOwned → s.wrote path = none

section Invariant

variable {tools} {path : String} {recorded shipped file : Option Content} {view : PathView}
  {s : History}

/-- What a complete run does at a path. -/
lemma Agrees.decides (h : Agrees tools path s) (hsha : Function.Injective tools.sha256)
    (upstream : Upstream) (hpath : path ≠ PYPROJECT_RELATIVE_PATH) :
    Decides tools path (s.kept path) (Dict.get? path upstream.files) (s.target.files path)
      (outcome tools false path (Dict.get? path (readTemplateState s.target.state))
        (Dict.get? path upstream.files) (s.target.files path)) := by
  rw [h.record_eq]
  exact outcome_decides tools hsha hpath _ _ _

/-- What any run does at a path: what a complete run does, or nothing. -/
lemma Agrees.updateRun_at (h : Agrees tools path s) (hsha : Function.Injective tools.sha256)
    (upstream : Upstream) (cut : Option ℕ) (hpath : path ≠ PYPROJECT_RELATIVE_PATH) :
    let run := updateRun tools upstream cut s.target
    (run.1.files path = s.target.files path ∧ run.2.at path = []) ∨
      ∃ view, Decides tools path (s.kept path) (Dict.get? path upstream.files)
        (s.target.files path) view ∧ run.1.files path = view.file ∧ run.2.at path = view.actions := by
  intro run
  have hdecides := h.decides hsha upstream hpath
  cases cut with
  | none =>
    exact Or.inr ⟨_, hdecides, update_files tools false upstream s.target path,
      update_actions tools false upstream s.target path⟩
  | some steps =>
    rcases updateAborted_at tools false upstream steps s.target path with hnot | ⟨-, hdone⟩
    · exact Or.inl hnot
    · exact Or.inr ⟨_, hdecides, hdone⟩

/-- A run that would not act leaves the file. -/
lemma Decides.of_not_acts (h : Decides tools path recorded shipped file view)
    (hpath : path ≠ PYPROJECT_RELATIVE_PATH)
    (hacts : ¬ Acts tools path (recorded.map tools.sha256) shipped file) :
    view.file = file ∧ .refreshed ∉ view.actions ∧ .removed ∉ view.actions := by
  -- a file that is as it is on record is not locally edited
  have hclean : (∀ onDisk on, file = some onDisk → recorded = some on → onDisk = on) →
      locallyEdited tools path file (recorded.map tools.sha256) = false := by
    intro hclean
    unfold locallyEdited
    cases file with
    | none => rfl
    | some onDisk =>
      cases recorded with
      | none => rfl
      | some on => simp [fingerprint_of_ne tools hpath, hclean onDisk on rfl rfl]
  cases h with
  | userOwned hzone actions hactions => rcases hactions with rfl | rfl <;> simp
  | unchanged content hzone hshipped hfile => simp
  | refreshed content hzone hshipped hnew hunedited =>
    exact absurd ⟨hzone, by rwa [hshipped], hclean hunedited⟩ hacts
  | refused onDisk on hzone hfile hrecorded hedited => simp
  | removed onDisk hzone hshipped hfile hrecorded =>
    refine absurd ⟨hzone, by simp [hshipped, hfile], hclean fun onDisk' on hfile' hon => ?_⟩ hacts
    rw [hfile] at hfile'
    rw [hrecorded] at hon
    exact (Option.some.inj hfile').symm.trans (Option.some.inj hon)
  | dropped hshipped hgone => simp

/-- **A run that is cut off** and meets the condition changes nothing at the path. -/
lemma Agrees.step_aborted (h : Agrees tools path s) (hsha : Function.Injective tools.sha256)
    (hpath : path ≠ PYPROJECT_RELATIVE_PATH) (upstream : Upstream) (steps : ℕ)
    (hmeets : Meets tools path s (.update upstream (some steps))) :
    Agrees tools path (s.step tools (.update upstream (some steps))) := by
  have hquiet : .refreshed ∉ (updateAborted tools false upstream steps s.target).2.at path ∧
      .removed ∉ (updateAborted tools false upstream steps s.target).2.at path := by
    rcases updateAborted_at tools false upstream steps s.target path with hnot | ⟨hreached, hdone⟩
    · simp [hnot.2]
    · have hacts := hmeets hreached
      rw [h.record_eq] at hacts
      rw [hdone.2]
      exact ((h.decides hsha upstream hpath).of_not_acts hpath hacts).2
  have hwrote : (s.step tools (.update upstream (some steps))).wrote path = s.wrote path :=
    if_neg hquiet.1
  have hgone : (s.step tools (.update upstream (some steps))).gone path = s.gone path := by
    show goneAfter _ ((updateAborted tools false upstream steps s.target).2.at path) _ _ _ = _
    simp [goneAfter, hquiet.1, hquiet.2]
  have hkept : (s.step tools (.update upstream (some steps))).kept path = s.kept path := by
    rw [History.kept, hwrote, hgone, History.kept]
  exact ⟨by rw [hkept]; exact h.record_eq, fun hzone => hwrote.trans (h.wrote_eq hzone)⟩

/-- What the tool has written at a path after a complete run, and has not been gone. -/
def keptAfter (view : PathView) (shipped wrote : Option Content) (gone : Bool) : Option Content :=
  if goneAfter true view.actions shipped view.file gone then none
  else if .refreshed ∈ view.actions then view.file else wrote

/-- **The record after a complete run** has the fingerprint of what the tool wrote.

**Proof sketch.** By the ways to deal with the path. Only a file that is found identical is put on
record without being written; the condition says that the tool wrote it before. -/
lemma Decides.record_eq {wrote : Option Content} {gone : Bool}
    (h : Decides tools path (if gone then none else wrote) shipped file view)
    (huser : classify path ≠ .toolOwned → wrote = none)
    (hmeets : ∀ content, classify path = .toolOwned → shipped = some content →
      file = some content → (if gone then none else wrote) = some content) :
    view.record = (keptAfter view shipped wrote gone).map tools.sha256 := by
  cases h with
  | userOwned hzone actions hactions =>
    rcases hactions with rfl | rfl <;> simp [keptAfter, huser hzone]
  | unchanged content hzone hshipped hfile =>
    have hkept := hmeets content hzone hshipped hfile
    cases gone with
    | true => cases hkept
    | false => simp_all [keptAfter, goneAfter]
  | refreshed content hzone hshipped hnew hclean => simp [keptAfter, goneAfter]
  | refused onDisk on hzone hfile hrecorded hedited =>
    cases gone with
    | true => cases hrecorded
    | false => simp_all [keptAfter, goneAfter]
  | removed onDisk hzone hshipped hfile hrecorded => simp [keptAfter, goneAfter]
  | dropped hshipped hgone =>
    rcases hgone with hnone | hfile
    · cases gone with
      | true => simp [keptAfter, goneAfter]
      | false => simp_all [keptAfter]
    · simp [keptAfter, goneAfter, hshipped, hfile]

/-- A run writes only what the tool owns. -/
lemma Decides.toolOwned_of_refreshed (h : Decides tools path recorded shipped file view)
    (hrefreshed : .refreshed ∈ view.actions) : classify path = .toolOwned := by
  cases h with
  | refreshed content hzone hshipped hnew hclean => exact hzone
  | userOwned hzone actions hactions => rcases hactions with rfl | rfl <;> simp at hrefreshed
  | unchanged content hzone hshipped hfile => exact hzone
  | refused onDisk on hzone hfile hrecorded hedited => exact hzone
  | removed onDisk hzone hshipped hfile hrecorded => exact hzone
  | dropped hshipped hgone => simp at hrefreshed

/-- **A complete run** that meets the condition keeps the record in agreement. -/
lemma Agrees.step_complete (h : Agrees tools path s) (hsha : Function.Injective tools.sha256)
    (hpath : path ≠ PYPROJECT_RELATIVE_PATH) (upstream : Upstream)
    (hmeets : Meets tools path s (.update upstream none)) :
    Agrees tools path (s.step tools (.update upstream none)) := by
  have hdecides := h.decides hsha upstream hpath
  have hread := update_record tools false upstream s.target path
  have hfiles := update_files tools false upstream s.target path
  have hactions := update_actions tools false upstream s.target path
  constructor
  · show Dict.get? path (readTemplateState (update tools false upstream s.target).1.state) =
      (if goneAfter true ((update tools false upstream s.target).2.at path)
          (Dict.get? path upstream.files) ((update tools false upstream s.target).1.files path)
          (s.gone path) then none
        else if .refreshed ∈ (update tools false upstream s.target).2.at path then
          (update tools false upstream s.target).1.files path
        else s.wrote path).map tools.sha256
    rw [hread, hfiles, hactions]
    exact hdecides.record_eq h.wrote_eq hmeets
  · intro hzone
    show (if .refreshed ∈ (update tools false upstream s.target).2.at path then
      (update tools false upstream s.target).1.files path else s.wrote path) = none
    rw [hactions, if_neg fun hrefreshed => hzone (hdecides.toolOwned_of_refreshed hrefreshed)]
    exact h.wrote_eq hzone

/-- **One event** that meets the condition keeps the record in agreement. -/
lemma Agrees.step (h : Agrees tools path s) (hsha : Function.Injective tools.sha256)
    (hpath : path ≠ PYPROJECT_RELATIVE_PATH) (event : Event) (hmeets : Meets tools path s event) :
    Agrees tools path (s.step tools event) := by
  cases event with
  | update upstream cut =>
    cases cut with
    | none => exact h.step_complete hsha hpath upstream hmeets
    | some steps => exact h.step_aborted hsha hpath upstream steps hmeets
  | edit path' content => exact ⟨h.record_eq, h.wrote_eq⟩
  | editState state => exact ⟨Eq.trans hmeets h.record_eq, h.wrote_eq⟩

/-- **The invariant holds along every history** whose events meet the condition.

**Proof sketch.** Induction on the events with `Agrees.step`. -/
theorem Agrees.run (h : Agrees tools path s) (hsha : Function.Injective tools.sha256)
    (hpath : path ≠ PYPROJECT_RELATIVE_PATH) {events : List Event}
    (hmeets : MeetsAll tools path s events) : Agrees tools path (s.run tools events) := by
  induction events generalizing s with
  | nil => exact h
  | cons event events ih => exact ih (h.step hsha hpath event hmeets.1) hmeets.2

/-- Nothing is on record of a workspace that has no template state. -/
lemma agrees_start {target : Target} (h : readTemplateState target.state = []) :
    Agrees tools path (.start target) where
  record_eq := by
    show Dict.get? path (readTemplateState target.state) = none
    rw [h]
    rfl
  wrote_eq _ := rfl

end Invariant

/-! ## What a run may do -/

section Guard

variable {tools} {path : String} {recorded shipped file : Option Content} {view : PathView}

/-- A user-owned file stays. -/
lemma Decides.file_of_userOwned (h : Decides tools path recorded shipped file view)
    (hzone : classify path ≠ .toolOwned) : view.file = file := by
  cases h with
  | userOwned hzone' actions hactions => rfl
  | unchanged content howned hshipped hfile => rfl
  | refreshed content howned hshipped hnew hclean => exact absurd howned hzone
  | refused onDisk on howned hfile hrecorded hedited => rfl
  | removed onDisk howned hshipped hfile hrecorded => exact absurd howned hzone
  | dropped hshipped hgone => rfl

/-- A file that differs from what is on record stays. -/
lemma Decides.file_of_edited {onDisk on : Content}
    (h : Decides tools path (some on) shipped (some onDisk) view) (hedited : onDisk ≠ on) :
    view.file = some onDisk := by
  cases h with
  | userOwned hzone actions hactions => rfl
  | unchanged content hzone hshipped hfile => rfl
  | refreshed content hzone hshipped hnew hclean =>
    exact absurd (hclean onDisk on rfl rfl) hedited
  | refused onDisk' on' hzone hfile hrecorded hedited' => rfl
  | removed onDisk' hzone hshipped hfile hrecorded =>
    cases hfile
    cases hrecorded
    exact absurd rfl hedited
  | dropped hshipped hgone => rfl

/-- A file that is neither on record nor shipped stays. -/
lemma Decides.file_of_unknown (h : Decides tools path none none file view) : view.file = file := by
  cases h with
  | userOwned hzone actions hactions => rfl
  | unchanged content hzone hshipped hfile => rfl
  | refreshed content hzone hshipped hnew hclean => cases hshipped
  | refused onDisk on hzone hfile hrecorded hedited => rfl
  | removed onDisk hzone hshipped hfile hrecorded => cases hrecorded
  | dropped hshipped hgone => rfl

/-- What is deleted is tool-owned and has the content on record. -/
lemma Decides.of_deleted {onDisk : Content}
    (h : Decides tools path recorded shipped (some onDisk) view) (hgone : view.file = none) :
    classify path = .toolOwned ∧ recorded = some onDisk := by
  cases h with
  | userOwned hzone actions hactions => cases hgone
  | unchanged content hzone hshipped hfile => cases hgone
  | refreshed content hzone hshipped hnew hclean => cases hgone
  | refused onDisk' on hzone hfile hrecorded hedited => cases hgone
  | removed onDisk' hzone hshipped hfile hrecorded =>
    cases hfile
    exact ⟨hzone, hrecorded⟩
  | dropped hshipped hgone' => cases hgone

/-- What is refused differs from what is on record. -/
lemma Decides.of_refused (h : Decides tools path recorded shipped file view)
    (hrefused : .refused ∈ view.actions) :
    ∃ onDisk on, file = some onDisk ∧ recorded = some on ∧ onDisk ≠ on := by
  cases h with
  | userOwned hzone actions hactions => rcases hactions with rfl | rfl <;> simp at hrefused
  | unchanged content hzone hshipped hfile => simp at hrefused
  | refreshed content hzone hshipped hnew hclean => simp at hrefused
  | refused onDisk on hzone hfile hrecorded hedited => exact ⟨onDisk, on, hfile, hrecorded, hedited⟩
  | removed onDisk hzone hshipped hfile hrecorded => simp at hrefused
  | dropped hshipped hgone => simp at hrefused

end Guard

/-- **Histories of `update`.** In every history of runs without `force`, complete or cut off, and
edits of the user between them, whose events meet the condition at a path, a run, complete or cut
off:

* does not change a user-owned file;
* does not change a file at a path that the tool has written and whose content is not what it last
  wrote, unless that file was created anew after the tool's had been gone, and is shipped;
* reports as refused only a file that the tool wrote and whose content is not what it last wrote;
* deletes only a tool-owned file that the tool wrote and whose content is what it last wrote.

**Proof sketch.** `Agrees.run` and the cases of `Decides`. -/
theorem update_guards_written (hsha : Function.Injective tools.sha256) (target : Target)
    (htarget : readTemplateState target.state = []) (events : List Event) (path : String)
    (hpath : path ≠ PYPROJECT_RELATIVE_PATH) (hmeets : MeetsAll tools path (.start target) events)
    (upstream : Upstream) (cut : Option ℕ) :
    let s := (History.start target).run tools events
    let run := updateRun tools upstream cut s.target
    (classify path ≠ .toolOwned → run.1.files path = s.target.files path) ∧
      (∀ onDisk last, s.target.files path = some onDisk → s.wrote path = some last →
        onDisk ≠ last → (s.gone path = true → Dict.get? path upstream.files = none) →
          run.1.files path = some onDisk) ∧
      (.refused ∈ run.2.at path → ∃ onDisk last, s.target.files path = some onDisk ∧
        s.kept path = some last ∧ onDisk ≠ last) ∧
      (∀ onDisk, s.target.files path = some onDisk → run.1.files path = none →
        classify path = .toolOwned ∧ s.kept path = some onDisk) := by
  intro s run
  have hagrees : Agrees tools path s := (agrees_start htarget).run hsha hpath hmeets
  rcases hagrees.updateRun_at hsha upstream cut hpath with hnot | ⟨view, hdecides, hview, hactions⟩
  · -- the run has not come to the path
    refine ⟨fun _ => hnot.1, fun onDisk last hfile _ _ _ => hnot.1.trans hfile, fun hrefused => ?_,
      fun onDisk hfile hdeleted => ?_⟩
    · rw [hnot.2] at hrefused
      cases hrefused
    · cases hfile.symm.trans (hnot.1.symm.trans hdeleted)
  refine ⟨fun hzone => hview.trans (hdecides.file_of_userOwned hzone), ?_,
    fun hrefused => hdecides.of_refused (hactions ▸ hrefused), ?_⟩
  · intro onDisk last hfile hwrote hedited hgone
    rw [hfile] at hdecides
    refine hview.trans ?_
    cases hg : s.gone path with
    | true =>
      rw [hgone hg, History.kept, hg, if_pos rfl] at hdecides
      exact hdecides.file_of_unknown
    | false =>
      rw [History.kept, hg, hwrote] at hdecides
      exact hdecides.file_of_edited hedited
  · intro onDisk hfile hdeleted
    rw [hfile] at hdecides
    exact hdecides.of_deleted (hview.symm.trans hdeleted)

/-! ## Some short histories -/

/-- The digests of three contents of one byte, and for any other content its bytes after a dash. -/
def sampleSha256 (content : Content) : String :=
  if content = [1] then "4bf5122f344554c53bde2ebb8cd2b7e3d1600ad631c385a5d7cce23c7785459a"
  else if content = [2] then "dbc1b4c900ffe48d575b5da5c638040125f65db0fe3e24494b76ea986457d986"
  else if content = [3] then "084fed08b978af4d7d196a7446a86b58009e636b611db16211b65a9aadff29c5"
  else String.ofList ('-' :: content.map fun byte => Char.ofNat byte.toNat)

/-- The content of a digest. -/
def sampleContent (digest : String) : Content :=
  if digest = sampleSha256 [1] then [1]
  else if digest = sampleSha256 [2] then [2]
  else if digest = sampleSha256 [3] then [3]
  else (digest.toList.drop 1).map fun char => UInt8.ofNat char.toNat

/-- Different contents have different digests. -/
lemma sampleSha256_injective : Function.Injective sampleSha256 := by
  have hbyte (byte : UInt8) : UInt8.ofNat (Char.ofNat byte.toNat).toNat = byte := by
    have hvalid : byte.toNat.isValidChar := Or.inl (by have := byte.toNat_lt; omega)
    rw [Char.ofNat, dif_pos hvalid]
    exact UInt8.ofNat_toNat
  have hdash (content : Content) {digest : String} (hdigest : digest.toList.head? ≠ some '-') :
      String.ofList ('-' :: content.map fun byte => Char.ofNat byte.toNat) ≠ digest := by
    rintro rfl
    simp at hdigest
  refine Function.LeftInverse.injective (g := sampleContent) fun content => ?_
  by_cases h1 : content = [1]
  · rw [h1]
    rfl
  by_cases h2 : content = [2]
  · rw [h2]
    rfl
  by_cases h3 : content = [3]
  · rw [h3]
    rfl
  have hother : sampleSha256 content =
      String.ofList ('-' :: content.map fun byte => Char.ofNat byte.toNat) := by
    rw [sampleSha256, if_neg h1, if_neg h2, if_neg h3]
  rw [hother, sampleContent, if_neg (hdash content (by decide)), if_neg (hdash content (by decide)),
    if_neg (hdash content (by decide)), String.toList_ofList, List.drop_one, List.tail_cons,
    List.map_map]
  exact (List.map_congr_left fun byte _ => hbyte byte).trans (List.map_id content)

/-- These digests, and no TOML: no `pyproject.toml` is in the histories below. -/
def sampleTools : Tools Unit where
  sha256 := sampleSha256
  loads _ := none
  jsonDumps _ := []
  repr _ := ""
  parse _ := none
  unwrap _ := []
  appendDependency document _ := document
  dumps _ := []

/-- A clone with one file. -/
def shipping (path : String) (content : Content) : Upstream where
  files := [(path, content)]
  nodup := by simp

/-- A clone without files. -/
def shippingNothing : Upstream := ⟨[], List.nodup_nil⟩

/-- An empty directory. -/
def emptyTarget : Target := ⟨fun _ => none, .unreadable⟩

/-- A file that a complete run wrote and the user edited is not overwritten by the next run. -/
theorem update_guards_written_edited :
    let events : List Event :=
      [.update (shipping "run.py" [1]) none, .edit "run.py" (some [2])]
    let s := (History.start emptyTarget).run sampleTools events
    let run := updateRun sampleTools (shipping "run.py" [3]) none s.target
    run.1.files "run.py" = some [2] := by
  -- the complete run finds no file
  have hmeets : MeetsAll sampleTools "run.py" (.start emptyTarget)
      [.update (shipping "run.py" [1]) none, .edit "run.py" (some [2])] := by
    refine ⟨fun _ _ _ hfile => ?_, trivial, trivial⟩
    cases hfile
  exact (update_guards_written sampleTools sampleSha256_injective emptyTarget rfl _ "run.py"
    (by decide) hmeets (shipping "run.py" [3]) none).2.1 [2] [1] (by rfl) (by rfl) (by decide)
    fun hgone => absurd hgone (by decide)

/-- **Three histories that the record does not keep up with.**

A first run is cut off after it has written `run.py`; the user edits the file, and the next run
overwrites it. A complete run has written `run.py` and one that is cut off has written it anew; the
next run refuses the file, which nobody has edited. A file that the user created is put on record
because the clone ships the same content, and deleted when it no longer does, though the tool never
wrote it. -/
theorem record_left_behind :
    (let s := (History.start emptyTarget).run sampleTools
        [.update (shipping "run.py" [1]) (some 1), .edit "run.py" (some [2])]
      let run := updateRun sampleTools (shipping "run.py" [3]) none s.target
      s.wrote "run.py" = some [1] ∧ s.target.files "run.py" = some [2] ∧
        run.1.files "run.py" = some [3]) ∧
    (let s := (History.start emptyTarget).run sampleTools
        [.update (shipping "run.py" [1]) none, .update (shipping "run.py" [2]) (some 1)]
      let run := updateRun sampleTools (shipping "run.py" [3]) none s.target
      s.wrote "run.py" = some [2] ∧ s.target.files "run.py" = some [2] ∧
        run.2.actions = [("run.py", .refused)]) ∧
    (let s := (History.start emptyTarget).run sampleTools
        [.edit "examples/blink.py" (some [1]), .update (shipping "examples/blink.py" [1]) none]
      let run := updateRun sampleTools shippingNothing none s.target
      s.wrote "examples/blink.py" = none ∧ s.target.files "examples/blink.py" = some [1] ∧
        run.1.files "examples/blink.py" = none) := by
  refine ⟨⟨by rfl, by rfl, by rfl⟩, ⟨by rfl, by rfl, by rfl⟩, by rfl, by rfl, by rfl⟩

end ChuMicro.Workspace
