import ChuMicro.Deploy.SerialWrites
import Mathlib.Data.Set.Finite.Lattice

/-!
# The files that an entrypoint imports

`ImportGraphSource` of `chumicro_deploy/sources.py` walks the imports that begin at an entrypoint,
and stages the files that it finds on its search paths. What is read out of a file's syntax tree is
a parameter: its import statements, the names that are imported under a guard against `ImportError`,
the runtimes it is for, and the data files it declares.

Paths on the host are lists of names.

## Main definitions

* `Deploy.HostFiles` — the files of the host.
* `Deploy.ImportGraphSource.walk` — the walk.
* `Deploy.ImportGraphSource.Reached` — what the imports lead to.

## Main results

* `Deploy.ImportGraphSource.import_walk` — the walk ends, and has found what the imports lead to.
-/

namespace ChuMicro.Deploy

/-! ## The host -/

/-- A path on the host, by its names. -/
abbrev HostPath := List Str

/-- The files of the host. -/
structure HostFiles where
  items : List (HostPath × List UInt8)
  nodup : (items.map Prod.fst).Nodup
  proper : ∀ path ∈ items.map Prod.fst, Proper path

/-- `Path.is_file`, with the spelling that the file has. -/
def HostFiles.isFile (host : HostFiles) (path : HostPath) : Bool :=
  decide (path ∈ host.items.map Prod.fst)

/-- `Path.read_bytes`. -/
def HostFiles.read (host : HostFiles) (path : HostPath) : List UInt8 :=
  (Dict.get? path host.items).getD []

/-- `path.name`. -/
def fileName (path : HostPath) : Str := path.getLastD []

/-! ## Modules -/

/-- A part of a dotted name. -/
abbrev Part := { part : Str // part ≠ [] ∧ '/' ∉ part }

/-- A dotted name, by the parts before the last one and the last one. -/
structure ModuleName where
  parents : List Part
  last : Part
  deriving DecidableEq

namespace ModuleName

/-- The parts before the last one. -/
def parentNames (module : ModuleName) : HostPath := module.parents.map Subtype.val

/-- `f"{module}.{name}"`. -/
def child (module : ModuleName) (name : Part) : ModuleName :=
  ⟨module.parents ++ [module.last], name⟩

/-- The file of a module below a directory. -/
def moduleFile (dir : HostPath) (module : ModuleName) : HostPath :=
  dir ++ (module.parentNames ++ [module.last.val ++ ".py".toList])

/-- The file of a package below a directory. -/
def packageInit (dir : HostPath) (module : ModuleName) : HostPath :=
  dir ++ (module.parentNames ++ [module.last.val, "__init__.py".toList])

end ModuleName

/-- An import statement; `level` counts the dots of a relative one. -/
inductive ImportStatement where
  | importNames (names : List ModuleName)
  | importFrom (module : Option ModuleName) (level : ℕ) (names : List Part)

/-- What is staged at a path: the file it is read from, and the module unless it is the entrypoint
or a data file. -/
structure Staged where
  hostPath : HostPath
  module : Option ModuleName
  deriving DecidableEq

/-- `ImportGraphSource`, with its default prefix `/lib`, which the boot shim gives it too; a source
with another `resource_prefix` is left out. `skipModules` is what `_compute_skip_modules` has
found, and `targets` is `file_targets_runtime` for the runtime of the device. `dataFiles` has the
files that a module declares as `__chumicro_data_files__` and that are there, by the names it uses.
-/
structure ImportGraphSource where
  host : HostFiles
  entrypointPath : HostPath
  searchPaths : List HostPath
  extraModules : List ModuleName
  deviceEntrypoint : Str
  skipModules : List ModuleName
  isDeviceBuiltin : ModuleName → Bool
  targets : HostPath → Bool
  testSupport : HostPath → Bool
  statements : HostPath → List ImportStatement
  guarded : HostPath → List ModuleName
  dataFiles : HostPath → List (Str × HostPath)

/-- An import that is to be looked at: the name, whether it is required, and the file it is in. -/
structure Wanted where
  name : ModuleName
  required : Bool
  path : HostPath

/-- Where the walk stands. -/
structure Walk where
  queue : List Wanted
  visited : List ModuleName
  collected : List (Str × Staged)
  unresolved : List (HostPath × ModuleName)

namespace ImportGraphSource

variable (s : ImportGraphSource)

/-- `_imports_from_file`. -/
def importsFromFile (path : HostPath) : List Wanted :=
  (s.statements path).flatMap fun statement =>
    match statement with
    | .importNames names => names.map fun name => ⟨name, decide (name ∉ s.guarded path), path⟩
    | .importFrom (some module) 0 names =>
      ⟨module, decide (module ∉ s.guarded path), path⟩ ::
        (names.filter fun name => name.val ≠ "*".toList).map fun name =>
          ⟨module.child name, false, path⟩
    | .importFrom _ _ _ => []

/-- `_resolve_module`. -/
def resolveModule (module : ModuleName) : Option HostPath :=
  s.searchPaths.findSome? fun dir =>
    if s.host.isFile (module.moduleFile dir) then some (module.moduleFile dir)
    else if s.host.isFile (module.packageInit dir) then some (module.packageInit dir)
    else none

/-- The path of a module under `/lib`. -/
def relativeDevice (module : ModuleName) (resolved : HostPath) : HostPath :=
  if fileName resolved = "__init__.py".toList then
    module.parentNames ++ [module.last.val, "__init__.py".toList]
  else module.parentNames ++ [fileName resolved]

/-- `_device_path_for`. -/
def devicePathFor (module : ModuleName) (resolved : HostPath) : Str :=
  joinParts ("lib".toList :: relativeDevice module resolved)

/-- A module that is found, is for the device and is not there for tests. -/
def Ships (resolved : HostPath) : Prop := s.targets resolved = true ∧ s.testSupport resolved = false

instance (resolved : HostPath) : Decidable (s.Ships resolved) := by
  unfold Ships
  infer_instance

/-- A module and its data files are staged. -/
def stage (collected : List (Str × Staged)) (module : ModuleName) (resolved : HostPath) :
    List (Str × Staged) :=
  let deviceDir := joinParts ("lib".toList :: (relativeDevice module resolved).dropLast)
  (s.dataFiles resolved).foldl
    (fun collected data => Dict.set (deviceDir ++ ('/' :: data.1)) ⟨data.2, none⟩ collected)
    (Dict.set (devicePathFor module resolved) ⟨resolved, some module⟩ collected)

/-- An import that nothing on the search paths and nothing on the device answers. -/
def Missing (name : ModuleName) : Prop :=
  name ∉ s.skipModules ∧ s.resolveModule name = none ∧ s.isDeviceBuiltin name = false

instance (name : ModuleName) : Decidable (s.Missing name) := by
  unfold Missing
  infer_instance

/-- The file whose imports the walk goes on with: what a name is found as, if it is not opted out
and ships. -/
def found (name : ModuleName) : Option HostPath :=
  if name ∈ s.skipModules then none
  else
    match s.resolveModule name with
    | none => none
    | some resolved => if s.Ships resolved then some resolved else none

/-- One import off the queue. -/
def step (w : Walk) (wanted : Wanted) : Walk :=
  let w := if wanted.required = true ∧ s.Missing wanted.name ∧
      wanted.name ∉ w.unresolved.map Prod.snd then
    { w with unresolved := w.unresolved ++ [(wanted.path, wanted.name)] } else w
  if wanted.name ∈ w.visited then w
  else
    let w := { w with visited := w.visited ++ [wanted.name] }
    match s.found wanted.name with
    | none => w
    | some resolved =>
      { w with
        collected := s.stage w.collected wanted.name resolved
        queue := w.queue ++ s.importsFromFile resolved }

/-- The loop of `_collect`. -/
def walk : ℕ → Walk → Option Walk
  | 0, _ => none
  | fuel + 1, w =>
    match w.queue with
    | [] => some w
    | wanted :: rest => walk fuel (s.step { w with queue := rest } wanted)

/-- The start of `_collect`. -/
def start : Walk where
  queue := s.importsFromFile s.entrypointPath ++
    s.extraModules.map fun name => ⟨name, true, s.entrypointPath⟩
  visited := []
  collected := [(s.deviceEntrypoint, ⟨s.entrypointPath, none⟩)]
  unresolved := []

/-- What is staged for names in the order of their visits. -/
def collect (names : List ModuleName) : List (Str × Staged) :=
  names.foldl
    (fun collected name =>
      match s.found name with
      | none => collected
      | some resolved => s.stage collected name resolved)
    [(s.deviceEntrypoint, ⟨s.entrypointPath, none⟩)]

/-! ## What the imports lead to -/

/-- The imports on the way from the entrypoint. -/
inductive Reached : Wanted → Prop
  | extra {name : ModuleName} (h : name ∈ s.extraModules) : Reached ⟨name, true, s.entrypointPath⟩
  | first {wanted : Wanted} (h : wanted ∈ s.importsFromFile s.entrypointPath) : Reached wanted
  | next {wanted wanted' : Wanted} {resolved : HostPath} (h : Reached wanted)
      (hfound : s.found wanted.name = some resolved) (hmem : wanted' ∈ s.importsFromFile resolved) :
      Reached wanted'

/-! ## One step -/

variable {s} {w : Walk} {wanted : Wanted} {name : ModuleName} {resolved : HostPath}

/-- The names that are reported after an import has been looked at. -/
lemma step_unresolved : (s.step w wanted).unresolved =
    if wanted.required = true ∧ s.Missing wanted.name ∧ wanted.name ∉ w.unresolved.map Prod.snd then
      w.unresolved ++ [(wanted.path, wanted.name)] else w.unresolved := by
  rw [step]
  dsimp only
  split_ifs <;> cases s.found wanted.name <;> rfl

/-- A name that has been visited is only reported. -/
lemma step_of_visited (h : wanted.name ∈ w.visited) :
    (s.step w wanted).queue = w.queue ∧ (s.step w wanted).visited = w.visited ∧
      (s.step w wanted).collected = w.collected := by
  rw [step]
  dsimp only
  split_ifs
  all_goals exact ⟨rfl, rfl, rfl⟩

/-- A name that leads nowhere is visited. -/
lemma step_of_not_found (h : wanted.name ∉ w.visited) (hfound : s.found wanted.name = none) :
    (s.step w wanted).queue = w.queue ∧ (s.step w wanted).visited = w.visited ++ [wanted.name] ∧
      (s.step w wanted).collected = w.collected := by
  rw [step]
  dsimp only
  rw [hfound]
  split_ifs
  all_goals exact ⟨rfl, rfl, rfl⟩

/-- A file that is found is staged, and its imports are looked at later. -/
lemma step_of_found (h : wanted.name ∉ w.visited) (hfound : s.found wanted.name = some resolved) :
    (s.step w wanted).queue = w.queue ++ s.importsFromFile resolved ∧
      (s.step w wanted).visited = w.visited ++ [wanted.name] ∧
      (s.step w wanted).collected = s.stage w.collected wanted.name resolved := by
  rw [step]
  dsimp only
  rw [hfound]
  split_ifs
  all_goals exact ⟨rfl, rfl, rfl⟩

/-! ## The walk -/

/-- An import that is in the queue, or has been looked at. -/
def Seen (s : ImportGraphSource) (w : Walk) (wanted : Wanted) : Prop :=
  wanted ∈ w.queue ∨ wanted.name ∈ w.visited ∧
    (wanted.required = true → s.Missing wanted.name → wanted.name ∈ w.unresolved.map Prod.snd)

/-- **Where the walk stands**: the queue and the visited names have been reached, the imports of the
files walked so far have been seen, and what is staged and reported is so for the visited names. -/
structure Walking (s : ImportGraphSource) (w : Walk) : Prop where
  queued : ∀ wanted ∈ w.queue, s.Reached wanted
  visited : ∀ name ∈ w.visited, ∃ wanted, s.Reached wanted ∧ wanted.name = name
  nodup : w.visited.Nodup
  extra : ∀ name ∈ s.extraModules, s.Seen w ⟨name, true, s.entrypointPath⟩
  first : ∀ wanted ∈ s.importsFromFile s.entrypointPath, s.Seen w wanted
  next : ∀ name ∈ w.visited, ∀ resolved, s.found name = some resolved →
    ∀ wanted ∈ s.importsFromFile resolved, s.Seen w wanted
  collected : w.collected = s.collect w.visited
  unresolved : ∀ entry ∈ w.unresolved, s.Reached ⟨entry.2, true, entry.1⟩ ∧ s.Missing entry.2
  reported : (w.unresolved.map Prod.snd).Nodup

lemma walking_start : s.Walking s.start where
  queued wanted h := by
    rcases List.mem_append.mp h with h | h
    · exact .first h
    · obtain ⟨name, hname, rfl⟩ := List.mem_map.mp h
      exact .extra hname
  visited := fun _ h => by cases h
  nodup := List.nodup_nil
  extra name h := .inl (List.mem_append_right _ (List.mem_map_of_mem h))
  first wanted h := .inl (List.mem_append_left _ h)
  next := fun _ h => by cases h
  collected := rfl
  unresolved := fun _ h => by cases h
  reported := List.nodup_nil

lemma mem_unresolved_step (hname : name ∈ w.unresolved.map Prod.snd) :
    name ∈ (s.step w wanted).unresolved.map Prod.snd := by
  rw [step_unresolved]
  split_ifs
  · rw [List.map_append]
    exact List.mem_append_left _ hname
  · exact hname

lemma step_grows : (∀ other ∈ w.queue, other ∈ (s.step w wanted).queue) ∧
    (∀ name ∈ w.visited, name ∈ (s.step w wanted).visited) ∧
    wanted.name ∈ (s.step w wanted).visited := by
  by_cases hvisited : wanted.name ∈ w.visited
  · obtain ⟨hqueue, hsame, -⟩ := step_of_visited (s := s) hvisited
    rw [hqueue, hsame]
    exact ⟨fun _ h => h, fun _ h => h, hvisited⟩
  · cases hfound : s.found wanted.name with
    | none =>
      obtain ⟨hqueue, hmore, -⟩ := step_of_not_found hvisited hfound
      rw [hqueue, hmore]
      exact ⟨fun _ h => h, fun _ h => List.mem_append_left _ h,
        List.mem_append_right _ List.mem_cons_self⟩
    | some resolved =>
      obtain ⟨hqueue, hmore, -⟩ := step_of_found hvisited hfound
      rw [hqueue, hmore]
      exact ⟨fun _ h => List.mem_append_left _ h, fun _ h => List.mem_append_left _ h,
        List.mem_append_right _ List.mem_cons_self⟩

/-- The import that is looked at is reported if it is missing. -/
lemma reported_step (hrequired : wanted.required = true) (hmissing : s.Missing wanted.name) :
    wanted.name ∈ (s.step w wanted).unresolved.map Prod.snd := by
  rw [step_unresolved]
  split_ifs with h
  · rw [List.map_append]
    exact List.mem_append_right _ List.mem_cons_self
  · by_contra hnot
    exact h ⟨hrequired, hmissing, hnot⟩

/-- What has been seen stays seen. -/
lemma seen_step {rest : List Wanted} {other : Wanted}
    (h : s.Seen { w with queue := wanted :: rest } other) :
    s.Seen (s.step { w with queue := rest } wanted) other := by
  obtain ⟨hqueue, hvisited, hname⟩ := @step_grows s { w with queue := rest } wanted
  rcases h with hmem | ⟨hmem, hreported⟩
  · rcases List.mem_cons.mp hmem with rfl | hmem
    · exact .inr ⟨hname, reported_step⟩
    · exact .inl (hqueue other hmem)
  · refine .inr ⟨hvisited _ hmem, fun hrequired hmissing => ?_⟩
    exact mem_unresolved_step (hreported hrequired hmissing)

/-- **One import off the queue keeps the walk in order.**

**Proof sketch.** A name that is visited for the first time may bring the imports of its file to the
queue, and all that was seen before stays seen. -/
lemma Walking.step {rest : List Wanted} (h : s.Walking { w with queue := wanted :: rest }) :
    s.Walking (s.step { w with queue := rest } wanted) := by
  have hwanted : s.Reached wanted := h.queued wanted List.mem_cons_self
  have hrest : ∀ other ∈ rest, s.Reached other := fun other hmem =>
    h.queued other (List.mem_cons_of_mem _ hmem)
  have hextra : ∀ name ∈ s.extraModules,
      s.Seen (s.step { w with queue := rest } wanted) ⟨name, true, s.entrypointPath⟩ :=
    fun name hname => seen_step (h.extra name hname)
  have hfirst : ∀ other ∈ s.importsFromFile s.entrypointPath,
      s.Seen (s.step { w with queue := rest } wanted) other :=
    fun other hother => seen_step (h.first other hother)
  have hold : ∀ name ∈ w.visited, ∀ resolved, s.found name = some resolved →
      ∀ other ∈ s.importsFromFile resolved,
        s.Seen (s.step { w with queue := rest } wanted) other :=
    fun name hname resolved hfound other hother =>
      seen_step (h.next name hname resolved hfound other hother)
  have hunresolved : ∀ entry ∈ (s.step { w with queue := rest } wanted).unresolved,
      s.Reached ⟨entry.2, true, entry.1⟩ ∧ s.Missing entry.2 := by
    rw [step_unresolved]
    split_ifs with hreport
    · refine List.forall_mem_append.mpr ⟨h.unresolved, List.forall_mem_singleton.mpr ?_⟩
      obtain ⟨hrequired, hmissing, -⟩ := hreport
      refine ⟨?_, hmissing⟩
      rw [← hrequired]
      exact hwanted
    · exact h.unresolved
  have hreported : ((s.step { w with queue := rest } wanted).unresolved.map Prod.snd).Nodup := by
    rw [step_unresolved]
    split_ifs with hreport
    · rw [List.map_append, List.map_singleton, ← List.concat_eq_append]
      exact List.Nodup.concat hreport.2.2 h.reported
    · exact h.reported
  by_cases hvisited : wanted.name ∈ w.visited
  · obtain ⟨hqueue, hsame, hcollected⟩ :=
      step_of_visited (s := s) (w := { w with queue := rest }) hvisited
    constructor
    case queued => rw [hqueue]; exact hrest
    case visited => rw [hsame]; exact h.visited
    case nodup => rw [hsame]; exact h.nodup
    case extra => exact hextra
    case first => exact hfirst
    case next => rw [hsame]; exact hold
    case collected => rw [hcollected, hsame]; exact h.collected
    case unresolved => exact hunresolved
    case reported => exact hreported
  · have hnodup : (w.visited ++ [wanted.name]).Nodup := by
      rw [← List.concat_eq_append]
      exact List.Nodup.concat hvisited h.nodup
    have hreached : ∀ name ∈ w.visited ++ [wanted.name],
        ∃ other, s.Reached other ∧ other.name = name :=
      List.forall_mem_append.mpr
        ⟨h.visited, List.forall_mem_singleton.mpr ⟨wanted, hwanted, rfl⟩⟩
    have hcollect : s.collect (w.visited ++ [wanted.name]) =
        match s.found wanted.name with
        | none => s.collect w.visited
        | some resolved => s.stage (s.collect w.visited) wanted.name resolved := by
      rw [collect, List.foldl_append]
      rfl
    cases hfound : s.found wanted.name with
    | none =>
      rw [hfound] at hcollect
      obtain ⟨hqueue, hmore, hcollected⟩ :=
        step_of_not_found (w := { w with queue := rest }) hvisited hfound
      constructor
      case queued => rw [hqueue]; exact hrest
      case visited => rw [hmore]; exact hreached
      case nodup => rw [hmore]; exact hnodup
      case extra => exact hextra
      case first => exact hfirst
      case next =>
        rw [hmore]
        refine List.forall_mem_append.mpr ⟨hold, List.forall_mem_singleton.mpr ?_⟩
        intro resolved hsome
        rw [hfound] at hsome
        cases hsome
      case collected => rw [hcollected, hmore, hcollect]; exact h.collected
      case unresolved => exact hunresolved
      case reported => exact hreported
    | some resolved =>
      rw [hfound] at hcollect
      obtain ⟨hqueue, hmore, hcollected⟩ :=
        step_of_found (w := { w with queue := rest }) hvisited hfound
      constructor
      case queued =>
        rw [hqueue]
        exact List.forall_mem_append.mpr
          ⟨hrest, fun other hother => .next hwanted hfound hother⟩
      case visited => rw [hmore]; exact hreached
      case nodup => rw [hmore]; exact hnodup
      case extra => exact hextra
      case first => exact hfirst
      case next =>
        rw [hmore]
        refine List.forall_mem_append.mpr ⟨hold, List.forall_mem_singleton.mpr ?_⟩
        intro other hsome imported himported
        rw [hfound] at hsome
        cases hsome
        refine .inl ?_
        rw [hqueue]
        exact List.mem_append_right _ himported
      case collected =>
        rw [hcollected, hmore, hcollect]
        exact congrArg (fun collected => s.stage collected wanted.name resolved) h.collected
      case unresolved => exact hunresolved
      case reported => exact hreported

/-- A whole walk keeps it in order and empties the queue. -/
lemma Walking.walk {fuel : ℕ} {result : Walk} (h : s.Walking w)
    (hwalk : s.walk fuel w = some result) : s.Walking result ∧ result.queue = [] := by
  induction fuel generalizing w with
  | zero => cases hwalk
  | succ fuel ih =>
    obtain ⟨queue, visited, collected, unresolved⟩ := w
    cases queue with
    | nil =>
      cases hwalk
      exact ⟨h, rfl⟩
    | cons wanted rest => exact ih h.step hwalk

/-! ## The walk ends -/

lemma moduleFile_inj {dir : HostPath} {module module' : ModuleName}
    (h : module.moduleFile dir = module'.moduleFile dir) : module = module' := by
  obtain ⟨parents, last⟩ := module
  obtain ⟨parents', last'⟩ := module'
  obtain ⟨hparents, hlast⟩ := List.append_inj' (List.append_cancel_left h) rfl
  obtain rfl := List.map_injective_iff.mpr Subtype.val_injective hparents
  rw [List.singleton_inj] at hlast
  obtain rfl := Subtype.val_injective (List.append_cancel_right hlast)
  rfl

lemma packageInit_inj {dir : HostPath} {module module' : ModuleName}
    (h : module.packageInit dir = module'.packageInit dir) : module = module' := by
  obtain ⟨parents, last⟩ := module
  obtain ⟨parents', last'⟩ := module'
  obtain ⟨hparents, hlast⟩ := List.append_inj' (List.append_cancel_left h) rfl
  obtain rfl := List.map_injective_iff.mpr Subtype.val_injective hparents
  obtain rfl := Subtype.val_injective (List.cons.inj hlast).1
  rfl

/-- A module is found in a directory, as a file or as a package. -/
lemma exists_of_resolve (h : s.resolveModule name = some resolved) :
    s.host.isFile resolved = true ∧ ∃ dir ∈ s.searchPaths,
      resolved = name.moduleFile dir ∨ resolved = name.packageInit dir := by
  obtain ⟨dir, hdir, hfound⟩ := List.exists_of_findSome?_eq_some h
  split_ifs at hfound with hfile hinit
  · cases hfound
    exact ⟨hfile, dir, hdir, .inl rfl⟩
  · cases hfound
    exact ⟨hinit, dir, hdir, .inr rfl⟩

lemma found_eq_some (h : s.found name = some resolved) :
    name ∉ s.skipModules ∧ s.resolveModule name = some resolved ∧ s.Ships resolved := by
  rw [found] at h
  split_ifs at h with hskip
  split at h
  · cases h
  · next other hresolve =>
    split_ifs at h with hships
    cases h
    exact ⟨hskip, hresolve, hships⟩

/-- A host has finitely many modules: a file is that of one module below a directory. -/
lemma finite_found (s : ImportGraphSource) : {name | s.found name ≠ none}.Finite := by
  have hdirs : {dir | dir ∈ s.searchPaths}.Finite := List.finite_toSet _
  have hpaths : {path | path ∈ s.host.items.map Prod.fst}.Finite := List.finite_toSet _
  refine (hdirs.biUnion fun dir _ => hpaths.biUnion fun path _ =>
    Set.Finite.union (s := {name : ModuleName | name.moduleFile dir = path})
      (t := {name : ModuleName | name.packageInit dir = path}) ?_ ?_).subset ?_
  · exact Set.Subsingleton.finite fun _ h _ h' => moduleFile_inj (h.trans h'.symm)
  · exact Set.Subsingleton.finite fun _ h _ h' => packageInit_inj (h.trans h'.symm)
  · intro name hname
    obtain ⟨resolved, hfound⟩ := Option.ne_none_iff_exists'.mp hname
    obtain ⟨hfile, dir, hdir, hcases⟩ := exists_of_resolve (found_eq_some hfound).2.1
    simp only [Set.mem_iUnion]
    refine ⟨dir, hdir, resolved, of_decide_eq_true hfile, ?_⟩
    exact hcases.imp Eq.symm Eq.symm

/-- **The walk ends**: a step takes an import off the queue, and brings in others only when it
visits one of the finitely many modules for the first time. -/
lemma exists_walk (s : ImportGraphSource) (w : Walk) :
    ∃ least result, ∀ fuel, least ≤ fuel → s.walk fuel w = some result := by
  classical
  generalize hleft : (s.finite_found.toFinset.filter fun name => name ∉ w.visited).card = left
  induction left using Nat.strong_induction_on generalizing w with
  | _ left ih =>
    obtain ⟨queue, visited, collected, unresolved⟩ := w
    induction queue generalizing visited collected unresolved with
    | nil => exact ⟨1, _, fun fuel hfuel => by
        obtain ⟨fuel, rfl⟩ := Nat.exists_eq_add_of_le' hfuel
        rfl⟩
    | cons wanted rest ihrest =>
      have hstep : ∃ least result, ∀ fuel, least ≤ fuel →
          s.walk fuel (s.step ⟨rest, visited, collected, unresolved⟩ wanted) = some result := by
        by_cases hvisited : wanted.name ∈ visited
        · obtain ⟨hqueue, hsame, -⟩ :=
            step_of_visited (s := s) (w := ⟨rest, visited, collected, unresolved⟩) hvisited
          generalize s.step _ wanted = next at hqueue hsame ⊢
          obtain ⟨queue', visited', collected', unresolved'⟩ := next
          cases hqueue
          cases hsame
          exact ihrest visited collected' unresolved' hleft
        · cases hfound : s.found wanted.name with
          | none =>
            obtain ⟨hqueue, hmore, -⟩ :=
              step_of_not_found (w := ⟨rest, visited, collected, unresolved⟩) hvisited hfound
            generalize s.step _ wanted = next at hqueue hmore ⊢
            obtain ⟨queue', visited', collected', unresolved'⟩ := next
            cases hqueue
            cases hmore
            refine ihrest _ collected' unresolved' (hleft ▸ congrArg Finset.card ?_)
            refine Finset.filter_congr fun name hname => ?_
            have hne : name ≠ wanted.name := fun heq =>
              (s.finite_found.mem_toFinset.mp hname) (heq ▸ hfound)
            simp [hne]
          | some resolved =>
            obtain ⟨hqueue, hmore, -⟩ :=
              step_of_found (w := ⟨rest, visited, collected, unresolved⟩) hvisited hfound
            refine ih _ ?_ _ rfl
            rw [← hleft, hmore]
            refine Finset.card_lt_card (Finset.ssubset_iff_subset_ne.mpr ⟨?_, fun heq => ?_⟩)
            · exact Finset.monotone_filter_right _ fun name _ hname hmem =>
                hname (List.mem_append_left _ hmem)
            · have hmem : wanted.name ∈
                  s.finite_found.toFinset.filter fun name => name ∉ visited := by
                refine Finset.mem_filter.mpr ⟨s.finite_found.mem_toFinset.mpr ?_, hvisited⟩
                exact fun hnone => by
                  rw [hfound] at hnone
                  cases hnone
              rw [← heq] at hmem
              exact (Finset.mem_filter.mp hmem).2 (List.mem_append_right _ List.mem_cons_self)
      obtain ⟨least, result, h⟩ := hstep
      refine ⟨least + 1, result, fun fuel hfuel => ?_⟩
      obtain ⟨fuel, rfl⟩ := Nat.exists_eq_add_of_le' (Nat.one_le_of_lt hfuel)
      exact h fuel (Nat.le_of_succ_le_succ hfuel)

/-! ## What is staged -/

lemma mem_keys_data {key dir : Str} (data : List (Str × HostPath))
    {collected : List (Str × Staged)} (h : key ∈ collected.map Prod.fst) :
    key ∈ (data.foldl (fun collected entry => Dict.set (dir ++ ('/' :: entry.1)) ⟨entry.2, none⟩
      collected) collected).map Prod.fst := by
  induction data generalizing collected with
  | nil => exact h
  | cons entry data ih => exact ih (Dict.mem_keys_set.mpr (.inr h))

/-- Staging keeps what is staged, and adds a module at its path. -/
lemma mem_keys_stage {key : Str} {collected : List (Str × Staged)}
    (h : key = devicePathFor name resolved ∨ key ∈ collected.map Prod.fst) :
    key ∈ (s.stage collected name resolved).map Prod.fst :=
  mem_keys_data _ (Dict.mem_keys_set.mpr h)

lemma mem_keys_collect {names : List ModuleName} (hmem : name ∈ names)
    (hfound : s.found name = some resolved) :
    devicePathFor name resolved ∈ (s.collect names).map Prod.fst := by
  induction names using List.reverseRecOn with
  | nil => cases hmem
  | append_singleton names last ih =>
    have hstep : s.collect (names ++ [last]) =
        match s.found last with
        | none => s.collect names
        | some resolved => s.stage (s.collect names) last resolved := by
      rw [collect, List.foldl_append]
      rfl
    rw [hstep]
    rcases List.mem_append.mp hmem with hmem | hmem
    · cases hlast : s.found last with
      | none => exact ih hmem
      | some other => exact mem_keys_stage (.inr (ih hmem))
    · rw [← List.mem_singleton.mp hmem, hfound]
      exact mem_keys_stage (.inl rfl)

/-- **What the walk does**: it ends, having visited the names that the imports lead to, each once.
It stages what they are found as, and reports exactly the names that are required and missing, each
once. If it reports nothing, then each import that is required, of the entrypoint or of a file that
is staged, is opted out, built into the device, or staged unless the file is not for the device.

**Proof sketch.** `Walking` holds at the start and after each step. At the end the queue is empty,
so all that has been seen has been visited. -/
theorem import_walk (s : ImportGraphSource) :
    ∃ least result, (∀ fuel, least ≤ fuel → s.walk fuel s.start = some result) ∧
      result.visited.Nodup ∧
      (∀ name, name ∈ result.visited ↔ ∃ wanted, s.Reached wanted ∧ wanted.name = name) ∧
      result.collected = s.collect result.visited ∧
      (result.unresolved.map Prod.snd).Nodup ∧
      (∀ name, name ∈ result.unresolved.map Prod.snd ↔ s.Missing name ∧
        ∃ wanted, s.Reached wanted ∧ wanted.name = name ∧ wanted.required = true) ∧
      (∀ entry ∈ result.unresolved, s.Reached ⟨entry.2, true, entry.1⟩) ∧
      (result.unresolved = [] → ∀ wanted, s.Reached wanted → wanted.required = true →
        wanted.name ∈ s.skipModules ∨ s.isDeviceBuiltin wanted.name = true ∨
          ∃ resolved, s.resolveModule wanted.name = some resolved ∧
            (s.Ships resolved →
              devicePathFor wanted.name resolved ∈ result.collected.map Prod.fst)) := by
  obtain ⟨least, result, hwalk⟩ := s.exists_walk s.start
  obtain ⟨hwalking, hqueue⟩ := walking_start.walk (hwalk least le_rfl)
  have hseen : ∀ wanted, s.Reached wanted → s.Seen result wanted := by
    intro wanted h
    induction h with
    | extra h => exact hwalking.extra _ h
    | first h => exact hwalking.first _ h
    | next h hfound hmem ih =>
      rcases ih with ih | ⟨ih, -⟩
      · rw [hqueue] at ih
        cases ih
      · exact hwalking.next _ ih _ hfound _ hmem
  have hvisited : ∀ wanted, s.Reached wanted → wanted.name ∈ result.visited ∧
      (wanted.required = true → s.Missing wanted.name →
        wanted.name ∈ result.unresolved.map Prod.snd) := by
    intro wanted h
    rcases hseen wanted h with hmem | hmem
    · rw [hqueue] at hmem
      cases hmem
    · exact hmem
  refine ⟨least, result, hwalk, hwalking.nodup, fun name => ⟨hwalking.visited name, ?_⟩,
    hwalking.collected, hwalking.reported, fun name => ⟨fun hname => ?_, ?_⟩,
    fun entry hentry => (hwalking.unresolved entry hentry).1,
    fun hnone wanted hreached hrequired => ?_⟩
  · rintro ⟨wanted, hreached, rfl⟩
    exact (hvisited wanted hreached).1
  · obtain ⟨entry, hentry, rfl⟩ := List.mem_map.mp hname
    obtain ⟨hreached, hmissing⟩ := hwalking.unresolved entry hentry
    exact ⟨hmissing, _, hreached, rfl, rfl⟩
  · rintro ⟨hmissing, wanted, hreached, rfl, hrequired⟩
    exact (hvisited wanted hreached).2 hrequired hmissing
  · obtain ⟨hmem, hreported⟩ := hvisited wanted hreached
    by_cases hskip : wanted.name ∈ s.skipModules
    · exact .inl hskip
    cases hresolve : s.resolveModule wanted.name with
    | none =>
      cases hbuiltin : s.isDeviceBuiltin wanted.name with
      | true => exact .inr (.inl rfl)
      | false =>
        have hlisted := hreported hrequired ⟨hskip, hresolve, hbuiltin⟩
        rw [hnone] at hlisted
        cases hlisted
    | some resolved =>
      refine .inr (.inr ⟨resolved, rfl, fun hships => ?_⟩)
      rw [hwalking.collected]
      refine mem_keys_collect hmem ?_
      rw [found, if_neg hskip, hresolve]
      exact if_pos hships

end ImportGraphSource

end ChuMicro.Deploy
