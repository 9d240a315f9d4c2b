import ChuMicro.Deploy.ImportGraph

/-!
# The boot shim with the libraries it needs

`chumicro_workspace/boot_shim.py` puts a shim and the files of a project at the root of a board, and
merges them with what the import graph stages under `/lib`, less the files of the project itself.

The order of the entries in a dictionary is left out.

## Main definitions

* `Workspace.walkProjectFiles` — the files of the project.
* `Workspace.BootShimWithImportGraphSource.files` — what is deployed.

## Main results

* `Workspace.BootShimWithImportGraphSource.merged_modules` — what becomes of the modules of the
  graph.
-/

namespace ChuMicro.Workspace

open Deploy

/-! ## The project -/

/-- `rglob("*")`: the files below a directory, by their paths from there. -/
def rglob (host : HostFiles) (dir : HostPath) : List HostPath :=
  ((host.items.map Prod.fst).filter fun path => dir <+: path ∧ path ≠ dir).map
    fun path => path.drop dir.length

/-- `SHIM_ENTRYPOINT_SOURCE`. -/
def SHIM_ENTRYPOINT_SOURCE : List UInt8 :=
  encodeUtf8 ("# Shipped by chumicro-workspace; do not edit.\n" ++
    ("from app import run as _run\n" ++ "_run()\n"))

/-- `_PROJECT_HOST_ONLY_NAMES`. -/
def PROJECT_HOST_ONLY_NAMES : List Str := ["project_config.toml".toList]

/-- `_SHIM_OWNED_FILENAMES`. -/
def SHIM_OWNED_FILENAMES : List Str := ["code.py".toList, "main.py".toList]

/-- `_DEFAULT_EXCLUDED_DIRS`. -/
def DEFAULT_EXCLUDED_DIRS : List Str :=
  ["__pycache__".toList, ".DS_Store".toList, ".git".toList, ".pytest_cache".toList,
    ".mypy_cache".toList, "_generated".toList]

/-- The file that the runtime starts: `"code.py"` on CircuitPython, `"main.py"` on MicroPython. -/
inductive Entrypoint where
  | codePy
  | mainPy

/-- `entrypoint_filename`. -/
def Entrypoint.fileName : Entrypoint → Str
  | codePy => "code.py".toList
  | mainPy => "main.py".toList

section Sources

variable (host : HostFiles) (project : HostPath) (extraExcluded : List Str)
  (targets : HostPath → Bool) (entrypoint : Entrypoint)

/-- `boot_shim_files`. -/
def bootShimFiles : List (Str × List UInt8) :=
  [(joinParts [entrypoint.fileName], SHIM_ENTRYPOINT_SOURCE)]

/-- The files that `_walk_project_files` does not skip, by their paths in the project. `targets` is
`file_targets_runtime` for the runtime of the device. -/
def Ships (relative : HostPath) : Prop :=
  (∀ part ∈ relative, part ∉ DEFAULT_EXCLUDED_DIRS ∧ part ∉ extraExcluded) ∧
    fileName relative ∉ PROJECT_HOST_ONLY_NAMES ∧
    ¬ (relative.length = 1 ∧ fileName relative ∈ SHIM_OWNED_FILENAMES) ∧
    (".py".toList <:+ fileName relative ∧ fileName relative ≠ ".py".toList →
      targets (project ++ relative) = true)

instance (relative : HostPath) : Decidable (Ships project extraExcluded targets relative) := by
  unfold Ships
  infer_instance

/-- `_walk_project_files`. -/
def walkProjectFiles : List (Str × List UInt8) :=
  ((rglob host project).filter fun relative => Ships project extraExcluded targets relative).map
    fun relative => (joinParts relative, host.read (project ++ relative))

/-- `_BootShimSource.files`. -/
def bootFiles : List (Str × List UInt8) :=
  Dict.update (bootShimFiles entrypoint) (walkProjectFiles host project extraExcluded targets)

end Sources

/-! ## Both -/

/-- `_BootShimWithImportGraphSource`, as `project_boot_with_import_graph_source` builds it: the walk
of the imports looks into the project first. `names` are those that the walk visits, in order. -/
structure BootShimWithImportGraphSource where
  host : HostFiles
  project : HostPath
  projectEntrypoint : HostPath
  extraExcluded : List Str
  entrypoint : Entrypoint
  searchTail : List HostPath
  extraModules : List ModuleName
  skipModules : List ModuleName
  isDeviceBuiltin : ModuleName → Bool
  targets : HostPath → Bool
  testSupport : HostPath → Bool
  statements : HostPath → List ImportStatement
  guarded : HostPath → List ModuleName
  dataFiles : HostPath → List (Str × HostPath)
  names : List ModuleName

namespace BootShimWithImportGraphSource

variable (s : BootShimWithImportGraphSource)

/-- `graph_inner`. -/
def graph : ImportGraphSource where
  host := s.host
  entrypointPath := s.project ++ s.projectEntrypoint
  searchPaths := s.project :: s.searchTail
  extraModules := s.extraModules
  deviceEntrypoint := joinParts [s.entrypoint.fileName]
  skipModules := s.skipModules
  isDeviceBuiltin := s.isDeviceBuiltin
  targets := s.targets
  testSupport := s.testSupport
  statements := s.statements
  guarded := s.guarded
  dataFiles := s.dataFiles

/-- What the import graph has staged. -/
def collected : List (Str × Staged) := s.graph.collect s.names

/-- The files that the boot shim ships from the project. -/
def Shipped (relative : HostPath) : Prop :=
  relative ∈ rglob s.host s.project ∧ Ships s.project s.extraExcluded s.targets relative

instance (relative : HostPath) : Decidable (s.Shipped relative) :=
  decidable_of_iff ((∃ path ∈ rglob s.host s.project, path = relative) ∧
    Ships s.project s.extraExcluded s.targets relative) (by simp [Shipped])

/-- `_project_local_device_paths`. -/
def projectLocalDevicePaths : List Str :=
  ((rglob s.host s.project).filter fun relative => ".py".toList <:+ fileName relative).map
    fun relative => joinParts ("lib".toList :: relative)

/-- `files`. -/
def files : List (Str × List UInt8) :=
  Dict.update
    ((s.collected.map fun entry => (entry.1, s.host.read entry.2.hostPath)).filter fun entry =>
      entry.1 ∉ s.projectLocalDevicePaths)
    (bootFiles s.host s.project s.extraExcluded s.targets s.entrypoint)

end BootShimWithImportGraphSource

/-! ## Where the files of the project go -/

section Lookup

variable {host : HostFiles} {project relative path : HostPath}

lemma isFile_iff : host.isFile path = true ↔ path ∈ host.items.map Prod.fst := decide_eq_true_iff

lemma proper_of_isFile (h : host.isFile path = true) : Proper path :=
  host.proper path (isFile_iff.mp h)

lemma mem_rglob :
    relative ∈ rglob host project ↔ host.isFile (project ++ relative) = true ∧ relative ≠ [] := by
  rw [rglob, List.mem_map, isFile_iff]
  constructor
  · rintro ⟨path, hpath, rfl⟩
    obtain ⟨hmem, hdir⟩ := List.mem_filter.mp hpath
    obtain ⟨⟨rest, rfl⟩, hne⟩ := of_decide_eq_true hdir
    rw [List.drop_left]
    refine ⟨hmem, fun hrest => hne ?_⟩
    rw [hrest, List.append_nil]
  · rintro ⟨hmem, hne⟩
    refine ⟨project ++ relative, List.mem_filter.mpr ⟨hmem, ?_⟩, List.drop_left⟩
    exact decide_eq_true ⟨List.prefix_append _ _, fun h => hne (List.append_right_eq_self.mp h)⟩

lemma proper_of_mem_rglob (h : relative ∈ rglob host project) : Proper relative :=
  fun part hpart =>
    proper_of_isFile (mem_rglob.mp h).1 part (List.mem_append_right _ hpart)

lemma joinParts_inj {parts parts' : HostPath} (h : Proper parts) (h' : Proper parts')
    (hne : parts ≠ []) (hne' : parts' ≠ []) (heq : joinParts parts = joinParts parts') :
    parts = parts' := by
  rw [← pathParts_joinParts h hne, heq, pathParts_joinParts h' hne']

end Lookup

open ImportGraphSource

namespace BootShimWithImportGraphSource

variable {s : BootShimWithImportGraphSource} {relative hostPath : HostPath} {devicePath : Str}
  {module : ModuleName}

lemma proper_entrypoint (entrypoint : Entrypoint) : Proper [entrypoint.fileName] := by
  have hproper : ∀ name ∈ SHIM_OWNED_FILENAMES, name ≠ [] ∧ '/' ∉ name := by decide +kernel
  refine List.forall_mem_singleton.mpr (hproper _ ?_)
  cases entrypoint
  · exact List.mem_cons_self
  · exact List.mem_cons_of_mem _ List.mem_cons_self

/-- What the boot shim has at a path of a file that it ships. -/
lemma get?_bootFiles_of_shipped (h : s.Shipped relative) :
    Dict.get? (joinParts relative)
        (bootFiles s.host s.project s.extraExcluded s.targets s.entrypoint) =
      some (s.host.read (s.project ++ relative)) := by
  rw [bootFiles, Dict.get?_update, walkProjectFiles, ← List.map_reverse, Dict.get?_map_of_mem,
    Option.some_or]
  · rw [List.mem_reverse, List.mem_filter]
    exact ⟨h.1, decide_eq_true h.2⟩
  · intro other hother heq
    obtain ⟨hmem, -⟩ := List.mem_filter.mp (List.mem_reverse.mp hother)
    exact joinParts_inj (proper_of_mem_rglob hmem) (proper_of_mem_rglob h.1) (mem_rglob.mp hmem).2
      (mem_rglob.mp h.1).2 heq

/-- Elsewhere it has the shim and nothing else. -/
lemma get?_bootFiles_of_not (hproper : Proper relative) (hne : relative ≠ [])
    (h : ¬ s.Shipped relative) :
    Dict.get? (joinParts relative)
        (bootFiles s.host s.project s.extraExcluded s.targets s.entrypoint) =
      if relative = [s.entrypoint.fileName] then some SHIM_ENTRYPOINT_SOURCE else none := by
  have hentry := proper_entrypoint s.entrypoint
  rw [bootFiles, Dict.get?_update, walkProjectFiles, ← List.map_reverse,
    Dict.get?_map_of_forall_ne, Option.none_or, bootShimFiles, Dict.get?_cons, Dict.get?_nil]
  · by_cases hsame : relative = [s.entrypoint.fileName]
    · rw [if_pos hsame, hsame, if_pos rfl]
    · rw [if_neg hsame, if_neg fun heq => hsame
        (joinParts_inj hentry hproper (List.cons_ne_nil _ _) hne heq).symm]
  · intro other hother heq
    obtain ⟨hmem, hships⟩ := List.mem_filter.mp (List.mem_reverse.mp hother)
    obtain rfl :=
      joinParts_inj (proper_of_mem_rglob hmem) hproper (mem_rglob.mp hmem).2 hne heq
    exact h ⟨hmem, of_decide_eq_true hships⟩

/-- The walk never ships a file at the place of the shim. -/
lemma not_shipped_entrypoint : ¬ s.Shipped [s.entrypoint.fileName] := by
  rintro ⟨-, -, -, hown, -⟩
  refine hown ⟨rfl, ?_⟩
  cases s.entrypoint
  · exact List.mem_cons_self
  · exact List.mem_cons_of_mem _ List.mem_cons_self

/-- What is deployed: what the boot shim has, and else what the graph has outside the project. -/
lemma get?_files (key : Str) :
    Dict.get? key s.files =
      (Dict.get? key (bootFiles s.host s.project s.extraExcluded s.targets s.entrypoint)).or
        (if key ∉ s.projectLocalDevicePaths then
          (Dict.get? key s.collected).map fun staged => s.host.read staged.hostPath else none) := by
  have hshim : ((bootShimFiles s.entrypoint).map Prod.fst).Nodup := List.nodup_singleton _
  have hnodup := Dict.nodup_update hshim
    (walkProjectFiles s.host s.project s.extraExcluded s.targets)
  have hfilter := Dict.get?_filter_key (fun key => key ∉ s.projectLocalDevicePaths) key
    (s.collected.map fun entry => (entry.1, s.host.read entry.2.hostPath))
  have hread := Dict.get?_map_value (fun staged : Staged => s.host.read staged.hostPath) key
    s.collected
  rw [files, Dict.get?_update, bootFiles, Dict.get?_reverse hnodup, hfilter, hread]

/-! ## Where the modules come from -/

/-- Every module is staged at its own path. -/
def Placed (graph : ImportGraphSource) (collected : List (Str × Staged)) : Prop :=
  ∀ devicePath hostPath module, Dict.get? devicePath collected = some ⟨hostPath, some module⟩ →
    graph.resolveModule module = some hostPath ∧
      devicePath = ImportGraphSource.devicePathFor module hostPath

section Placed

variable {graph : ImportGraphSource} {collected : List (Str × Staged)}

lemma Placed.foldl_data (h : Placed graph collected) (dir : Str) (data : List (Str × HostPath)) :
    Placed graph (data.foldl
      (fun collected entry => Dict.set (dir ++ ('/' :: entry.1)) ⟨entry.2, none⟩ collected)
      collected) := by
  induction data generalizing collected with
  | nil => exact h
  | cons entry data ih =>
    refine ih fun devicePath hostPath module hget => ?_
    rw [Dict.get?_set] at hget
    split_ifs at hget
    · cases hget
    · exact h devicePath hostPath module hget

lemma Placed.stage (h : Placed graph collected)
    (hresolve : graph.resolveModule module = some hostPath) :
    Placed graph (graph.stage collected module hostPath) := by
  refine Placed.foldl_data ?_ _ _
  intro devicePath other otherModule hget
  rw [Dict.get?_set] at hget
  split_ifs at hget with hkey
  · cases hget
    exact ⟨hresolve, hkey.symm⟩
  · exact h devicePath other otherModule hget

lemma placed_collect (graph : ImportGraphSource) (names : List ModuleName) :
    Placed graph (graph.collect names) := by
  have hstart : Placed graph [(graph.deviceEntrypoint, ⟨graph.entrypointPath, none⟩)] := by
    intro devicePath hostPath module hget
    rw [Dict.get?_cons] at hget
    split_ifs at hget <;> cases hget
  rw [collect]
  generalize [(graph.deviceEntrypoint, Staged.mk graph.entrypointPath none)] = start at hstart
  induction names generalizing start with
  | nil => exact hstart
  | cons module names ih =>
    refine ih _ ?_
    dsimp only
    split
    · exact hstart
    · next resolved hfound => exact hstart.stage (found_eq_some hfound).2.1

end Placed

@[simp] lemma fileName_concat (path : HostPath) (name : Str) :
    fileName (path ++ [name]) = name := by
  rw [fileName, List.getLastD_concat]

/-- The path under `/lib` is that of a file, or of a package. -/
lemma relativeDevice_cases {dir : HostPath}
    (h : hostPath = module.moduleFile dir ∨ hostPath = module.packageInit dir) :
    relativeDevice module hostPath =
        module.parentNames ++ [module.last.val ++ ".py".toList] ∨
      relativeDevice module hostPath =
        module.parentNames ++ [module.last.val, "__init__.py".toList] := by
  rw [relativeDevice]
  split_ifs with hinit
  · exact .inr rfl
  · refine .inl ?_
    rcases h with rfl | rfl
    · rw [ModuleName.moduleFile, ← List.append_assoc, fileName_concat]
    · refine absurd ?_ hinit
      have hlast : module.packageInit dir =
          (dir ++ (module.parentNames ++ [module.last.val])) ++ ["__init__.py".toList] := by
        simp [ModuleName.packageInit]
      rw [hlast, fileName_concat]

/-- The project is searched first: if it has a file at the path of the module, then the module is
one of its files. -/
lemma exists_relative (h : s.graph.resolveModule module = some hostPath)
    (hfile : s.host.isFile
      (s.project ++ relativeDevice module hostPath) = true) :
    ∃ relative, hostPath = s.project ++ relative := by
  obtain ⟨-, dir, -, hdir⟩ := exists_of_resolve h
  have hcases := relativeDevice_cases hdir
  rw [resolveModule, graph, List.findSome?_cons] at h
  dsimp only at h
  split_ifs at h with hmodule hinit
  · cases h
    exact ⟨_, rfl⟩
  · cases h
    exact ⟨_, rfl⟩
  · rcases hcases with heq | heq
    · rw [heq] at hfile
      exact absurd hfile hmodule
    · rw [heq] at hfile
      exact absurd hfile hinit

lemma proper_relativeDevice {dir : HostPath}
    (h : hostPath = module.moduleFile dir ∨ hostPath = module.packageInit dir) :
    Proper ("lib".toList :: relativeDevice module hostPath) := by
  have hlib : "lib".toList ≠ [] ∧ '/' ∉ "lib".toList := by decide +kernel
  have hinit : "__init__.py".toList ≠ [] ∧ '/' ∉ "__init__.py".toList := by decide +kernel
  have hpy : '/' ∉ ".py".toList := by decide +kernel
  have hparents : Proper module.parentNames := by
    intro part hpart
    obtain ⟨parent, -, rfl⟩ := List.mem_map.mp hpart
    exact parent.property
  have hlast := module.last.property
  refine List.forall_mem_cons.mpr ⟨hlib, ?_⟩
  rcases relativeDevice_cases h with heq | heq
  · rw [heq]
    refine List.forall_mem_append.mpr ⟨hparents, List.forall_mem_singleton.mpr ⟨fun hnil => ?_, ?_⟩⟩
    · exact hlast.1 (List.append_eq_nil_iff.mp hnil).1
    · rw [List.mem_append, not_or]
      exact ⟨hlast.2, hpy⟩
  · rw [heq]
    exact List.forall_mem_append.mpr
      ⟨hparents, List.forall_mem_cons.mpr ⟨hlast, List.forall_mem_singleton.mpr hinit⟩⟩

/-- A module whose path under `/lib` is left to the project is a file of the project. -/
lemma exists_relative_of_local
    (hget : Dict.get? devicePath s.collected = some ⟨hostPath, some module⟩)
    (hlocal : devicePath ∈ s.projectLocalDevicePaths) :
    ∃ relative, hostPath = s.project ++ relative := by
  obtain ⟨hresolve, rfl⟩ := placed_collect _ _ devicePath hostPath module hget
  obtain ⟨-, dir, -, hdir⟩ := exists_of_resolve hresolve
  obtain ⟨relative, hmem, heq⟩ := List.mem_map.mp hlocal
  have hfound := (List.mem_filter.mp hmem).1
  have hlib : "lib".toList ≠ [] ∧ '/' ∉ "lib".toList := by decide +kernel
  have hproper : Proper ("lib".toList :: relative) :=
    List.forall_mem_cons.mpr ⟨hlib, proper_of_mem_rglob hfound⟩
  have hsame := joinParts_inj hproper (proper_relativeDevice hdir) (List.cons_ne_nil _ _)
    (List.cons_ne_nil _ _) heq
  rw [List.cons.injEq] at hsame
  exact exists_relative hresolve (hsame.2 ▸ (mem_rglob.mp hfound).1)

/-- **What becomes of the modules of the graph**: the shim is the entrypoint, and a module is at its
path under `/lib`, unless the project ships a file of its own to that path, which then is there, or
has a Python file at the same path from its root. In that case the module is itself a file of the
project, and it is at the root of the device if the walk of the project does not skip it.

**Proof sketch.** The boot shim wins wherever it has something. As the project is searched first, a
module whose path is one of the project has been found there. -/
theorem merged_modules (s : BootShimWithImportGraphSource) :
    Dict.get? (joinParts [s.entrypoint.fileName]) s.files = some SHIM_ENTRYPOINT_SOURCE ∧
      ∀ devicePath hostPath module,
        Dict.get? devicePath s.collected = some ⟨hostPath, some module⟩ →
        ∃ relative, devicePath = joinParts relative ∧
          Dict.get? devicePath s.files =
            (if s.Shipped relative then some (s.host.read (s.project ++ relative))
            else if devicePath ∈ s.projectLocalDevicePaths then none
            else some (s.host.read hostPath)) ∧
          (devicePath ∈ s.projectLocalDevicePaths → ∃ own, hostPath = s.project ++ own ∧
            (s.Shipped own → Dict.get? (joinParts own) s.files = some (s.host.read hostPath))) := by
  constructor
  · rw [get?_files, get?_bootFiles_of_not (proper_entrypoint s.entrypoint) (List.cons_ne_nil _ _)
      not_shipped_entrypoint, if_pos rfl, Option.some_or]
  intro devicePath hostPath module hget
  obtain ⟨hresolve, hpath⟩ := placed_collect _ _ devicePath hostPath module hget
  obtain ⟨-, dir, -, hdir⟩ := exists_of_resolve hresolve
  refine ⟨"lib".toList :: relativeDevice module hostPath, hpath, ?_,
    fun hlocal => ?_⟩
  · by_cases hshipped : s.Shipped ("lib".toList :: relativeDevice module hostPath)
    · -- the project has a file of its own there
      rw [if_pos hshipped, hpath, devicePathFor, get?_files,
        get?_bootFiles_of_shipped hshipped, Option.some_or]
    · have hnot : "lib".toList :: relativeDevice module hostPath ≠
          [s.entrypoint.fileName] := by
        intro heq
        rw [List.cons.injEq] at heq
        rcases relativeDevice_cases hdir with h | h <;> rw [h] at heq <;> simp at heq
      have hboot := get?_bootFiles_of_not (s := s) (proper_relativeDevice hdir)
        (List.cons_ne_nil _ _) hshipped
      rw [if_neg hnot, ← devicePathFor, ← hpath] at hboot
      rw [if_neg hshipped, get?_files, hboot, Option.none_or, hget, Option.map_some, ite_not]
  · obtain ⟨own, rfl⟩ := exists_relative_of_local hget hlocal
    refine ⟨own, rfl, fun hshipped => ?_⟩
    rw [get?_files, get?_bootFiles_of_shipped hshipped, Option.some_or]

/-- A project whose own `lib/foo.py` stands where the library `foo` would go. -/
def overriding : BootShimWithImportGraphSource where
  host :=
    { items := [(["p".toList, "app.py".toList], []),
        (["p".toList, "lib".toList, "foo.py".toList], [1]), (["l".toList, "foo.py".toList], [2])]
      nodup := by decide +kernel
      proper := by unfold Proper; decide +kernel }
  project := ["p".toList]
  projectEntrypoint := ["app.py".toList]
  extraExcluded := []
  entrypoint := Entrypoint.codePy
  searchTail := [["l".toList]]
  extraModules := []
  skipModules := []
  isDeviceBuiltin _ := false
  targets _ := true
  testSupport _ := false
  statements _ := []
  guarded _ := []
  dataFiles _ := []
  names := [⟨[], "foo".toList, by decide +kernel⟩]

/-- The library is staged, and gives way. -/
theorem merged_modules_overriding :
    ∃ hostPath module,
      Dict.get? "/lib/foo.py".toList overriding.collected = some ⟨hostPath, some module⟩ ∧
      ∃ relative, "/lib/foo.py".toList = joinParts relative ∧
        Dict.get? "/lib/foo.py".toList overriding.files =
          (if overriding.Shipped relative then
            some (overriding.host.read (overriding.project ++ relative))
          else if "/lib/foo.py".toList ∈ overriding.projectLocalDevicePaths then none
          else some (overriding.host.read hostPath)) := by
  have hstaged : ((Dict.get? "/lib/foo.py".toList overriding.collected).bind fun staged =>
      staged.module).isSome = true := by decide +kernel
  obtain ⟨module, hmodule⟩ := Option.isSome_iff_exists.mp hstaged
  obtain ⟨⟨hostPath, found⟩, hget, rfl⟩ := Option.bind_eq_some_iff.mp hmodule
  obtain ⟨relative, hpath, hfiles, -⟩ := (merged_modules overriding).2 _ hostPath module hget
  exact ⟨hostPath, module, hget, relative, hpath, hfiles⟩

end BootShimWithImportGraphSource

end ChuMicro.Workspace
