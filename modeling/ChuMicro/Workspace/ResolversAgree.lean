import ChuMicro.Workspace.Resolvers
import Mathlib.Data.List.Dedup

/-!
# When the three resolvers agree

The two depth-first resolvers are depth-first searches of one graph, and the closure is a search
with a queue of another: they read the requirement strings differently. So they agree on every tree
of libraries whose requirement strings both read alike, and on no wider set of requirement strings.

## Main definitions

* `Workspace.LibraryTree` — libraries whose names and packages are the underscore form of their
  distribution name.
* `Workspace.ReadAlike` — a requirement string names a library to one reading exactly when it does
  to the other.
* `Workspace.Agree` — what the three resolvers return for a library.

## Main results

* `Workspace.resolveLibrarySourceDirs_depthFirst`, `Workspace.accumulateProjectSourceDir_depthFirst`
  — the resolvers end, and are depth-first searches.
* `Workspace.resolvers_agree_iff` — the requirement strings on which the resolvers agree.
-/

namespace ChuMicro.Workspace

/-! ## Trees of libraries -/

/-- A word of a distribution name. -/
def IsWord (word : Str) : Prop := word ≠ [] ∧ ∀ c ∈ word, c.isLower ∨ c.isDigit

instance (word : Str) : Decidable (IsWord word) := inferInstanceAs (Decidable (_ ∧ _))

/-- The underscore form of `<words>` in `chumicro-<words>`. -/
def IsLibraryName (name : String) : Prop :=
  ∃ words : List Str, words ≠ [] ∧ (∀ word ∈ words, IsWord word) ∧
    name.toList = ['_'].intercalate words

/-- A tree of libraries: each under its own name, the underscore form of its distribution name, with
one package under `src`, which has the import name. -/
structure LibraryTree where
  libraries : Libraries
  nodup : (libraries.map Prod.fst).Nodup
  named : ∀ entry ∈ libraries, IsLibraryName entry.1
  packaged : ∀ entry ∈ libraries, ∃ children, entry.2.source = some children ∧
    children.filterMap importablePackageName = [importName entry.1]

variable (tree : LibraryTree)

/-- A library that is there. -/
def LibraryTree.Has (name : String) : Prop := name ∈ tree.libraries.map Prod.fst

/-- What the depth-first resolvers take a library to depend on. -/
def namedByPip (libraries : Libraries) (name : String) : Option (List String) :=
  (Dict.get? name libraries).map fun library =>
    library.requirements.filterMap libraryNameFromPipDependency

/-- A library depends on another that is there, by `chumicro_dependencies`. -/
def DependsOn (name name' : String) : Prop :=
  ∃ library, Dict.get? name tree.libraries = some library ∧
    importName name' ∈ chumicroDependencies library.requirements ∧ tree.Has name'

/-- No library depends on itself, directly or not. -/
def AcyclicDependencies : Prop := ∀ name, ¬ Relation.TransGen (DependsOn tree) name name

/-- Every dependency that is there comes before its dependent. -/
def DependencyFirst (dirs : List String) : Prop :=
  ∀ before name after, dirs = before ++ name :: after →
    ∀ name', DependsOn tree name name' → name' ∈ before

/-- **What the resolvers are to return for a library**: with enough fuel they end; the two
depth-first ones return exactly the libraries of the closure that are there, each once and, in a
tree without cycles, every dependency before its dependent. -/
def Agree (root : String) : Prop :=
  ∃ bound names dirs visited projectDirs projectVisited,
    (∀ fuel, bound ≤ fuel →
      transitiveClosure tree.libraries fuel [importName root] = some names ∧
      resolveLibrarySourceDirs tree.libraries fuel root [] = some (dirs, visited) ∧
      accumulateProjectSourceDir tree.libraries (projectLibrarySourceMap tree.libraries) fuel
        (importName root) ([], []) = some (projectDirs, projectVisited)) ∧
    (dirs.Nodup ∧ ∀ name, name ∈ dirs ↔ tree.Has name ∧ importName name ∈ names) ∧
    (projectDirs.Nodup ∧ ∀ name, name ∈ projectDirs ↔ tree.Has name ∧ importName name ∈ names) ∧
    (AcyclicDependencies tree → DependencyFirst tree dirs ∧ DependencyFirst tree projectDirs)

/-- To both readings a requirement string names the same library, or none. -/
def ReadAlike (requirement : String) : Prop :=
  ∀ name, IsLibraryName name →
    (libraryNameFromPipDependency requirement = some name ↔
      importNameOfRequirement requirement = some (importName name))

/-! ## The libraries -/

lemma importName_injective : Function.Injective importName := by
  intro name name' h
  have hlist := congrArg String.toList h
  rw [importName, importName, String.toList_append, String.toList_append] at hlist
  exact String.toList_inj.mp (List.append_cancel_left hlist)

section Libraries

variable {tree}

lemma LibraryTree.has_iff {name : String} :
    tree.Has name ↔ ∃ library, Dict.get? name tree.libraries = some library := by
  rw [LibraryTree.Has, ← not_iff_not, ← Dict.get?_eq_none_iff]
  cases Dict.get? name tree.libraries <;> simp

/-- A node of the graph of the depth-first resolvers is a library that is there. -/
lemma exists_namedByPip {name : String} :
    Search.Exists (namedByPip tree.libraries) name ↔ tree.Has name := by
  rw [LibraryTree.has_iff, Search.Exists, namedByPip]
  cases Dict.get? name tree.libraries <;> simp

end Libraries

/-! ## The depth-first resolvers -/

section DepthFirst

variable {tree}

/-- How many libraries were not visited. -/
def unvisited (libraries : Libraries) (visited : List String) : ℕ :=
  (libraries.filter fun entry => entry.1 ∉ visited).length

/-- Visiting more leaves no more to visit. -/
lemma unvisited_le {libraries : Libraries} {visited visited' : List String}
    (h : visited ⊆ visited') : unvisited libraries visited' ≤ unvisited libraries visited := by
  refine List.Sublist.length_le (List.monotone_filter_right _ fun entry hentry => ?_)
  simp only [decide_eq_true_eq] at hentry ⊢
  exact fun hmem => hentry (h hmem)

/-- Visiting a library leaves less to visit. -/
lemma unvisited_lt {libraries : Libraries} {visited : List String} {name : String}
    {library : Library} (hlibrary : Dict.get? name libraries = some library)
    (hfresh : name ∉ visited) :
    unvisited libraries (name :: visited) < unvisited libraries visited := by
  have hmem := Dict.mem_of_get? hlibrary
  have hsplit : unvisited libraries (name :: visited) =
      ((libraries.filter fun entry => entry.1 ∉ visited).filter fun entry => entry.1 ≠ name).length := by
    rw [unvisited, List.filter_filter]
    congr 1
    apply List.filter_congr
    intro entry _
    simp [not_or]
  rw [hsplit, unvisited]
  refine List.length_filter_lt_length_iff_exists.mpr ⟨(name, library), ?_, by simp⟩
  exact List.mem_filter.mpr ⟨hmem, by simpa using hfresh⟩

/-- Directories that are new are appended. -/
lemma mergeDirs_eq {dirs new : List String} (hnodup : new.Nodup) (hfresh : ∀ dir ∈ new, dir ∉ dirs) :
    mergeDirs dirs new = dirs ++ new := by
  induction new generalizing dirs with
  | nil => simp [mergeDirs]
  | cons dir new ih =>
    rw [List.nodup_cons] at hnodup
    have hdir : dir ∉ dirs := hfresh dir List.mem_cons_self
    have hrest : ∀ dir' ∈ new, dir' ∉ dirs ++ [dir] := by
      intro dir' hdir' hmem
      rcases List.mem_append.mp hmem with hmem | hmem
      · exact hfresh dir' (List.mem_cons_of_mem _ hdir') hmem
      · rw [List.mem_singleton] at hmem
        exact hnodup.1 (hmem ▸ hdir')
    rw [mergeDirs, List.foldl_cons, if_neg hdir]
    rw [show new.foldl _ (dirs ++ [dir]) = mergeDirs (dirs ++ [dir]) new from rfl,
      ih hnodup.2 hrest, List.append_assoc]
    rfl

/-- What a search adds is new. -/
lemma fresh_of_depthFirst {next : String → Option (List String)}
    {starts visited finished visited' new : List String}
    (h : Search.DepthFirst next starts visited finished visited' (finished ++ new)) :
    new.Nodup ∧ (∀ node ∈ new, node ∉ visited) ∧ ∀ node ∈ new, node ∈ visited' := by
  obtain ⟨new', heq, hnodup, hnew, hmem, -⟩ := h.adds
  have heq : new = new' := List.append_cancel_left heq
  subst heq
  exact ⟨hnodup, fun node hnode => (hnew node hnode).1,
    fun node hnode => (hmem node (hnew node hnode).2.1).mpr (Or.inr hnode)⟩

/-- **`resolve_library_source_dirs` ends and is a depth-first search**: what it returns is what it
finishes.

**Proof sketch.** Induction on the fuel, which exceeds the number of libraries not visited: entering
a library makes that smaller. The inner induction is over the dependencies: what one call returns is
new to what the calls before it returned, so the lists are put together without loss. -/
theorem resolveLibrarySourceDirs_depthFirst (fuel : ℕ) (name : String)
    (visited finished : List String) (hfuel : unvisited tree.libraries visited < fuel) :
    ∃ new visited', resolveLibrarySourceDirs tree.libraries fuel name visited = some (new, visited') ∧
      Search.DepthFirst (namedByPip tree.libraries) [name] visited finished visited'
        (finished ++ new) := by
  induction fuel generalizing name visited finished with
  | zero => omega
  | succ fuel ih =>
    have hloop (dependencies : List String) : ∀ (dirs visited finished : List String),
        unvisited tree.libraries visited < fuel → (∀ dir ∈ dirs, dir ∈ visited) →
        ∃ new visited', dependencies.foldlM (fun s dependency =>
          (resolveLibrarySourceDirs tree.libraries fuel dependency s.2).map fun transitive =>
            (mergeDirs s.1 transitive.1, transitive.2)) (dirs, visited) =
              some (dirs ++ new, visited') ∧
          Search.DepthFirst (namedByPip tree.libraries) dependencies visited finished visited'
            (finished ++ new) := by
      induction dependencies with
      | nil =>
        intro dirs visited finished _ _
        exact ⟨[], visited, by simp, by simpa using .nil⟩
      | cons dependency dependencies ihd =>
        intro dirs visited finished hfuel hdirs
        obtain ⟨new₁, visited₁, hcall, hfirst⟩ := ih dependency visited finished hfuel
        obtain ⟨hnodup, hfresh, hentered⟩ := fresh_of_depthFirst hfirst
        have hmerge : mergeDirs dirs new₁ = dirs ++ new₁ :=
          mergeDirs_eq hnodup fun dir hdir hmem => hfresh dir hdir (hdirs dir hmem)
        have hdirs₁ : ∀ dir ∈ dirs ++ new₁, dir ∈ visited₁ := by
          intro dir hdir
          rcases List.mem_append.mp hdir with hdir | hdir
          · exact hfirst.grows (hdirs dir hdir)
          · exact hentered dir hdir
        obtain ⟨new₂, visited₂, hrest, hsecond⟩ := ihd (dirs ++ new₁) visited₁ (finished ++ new₁)
          ((unvisited_le hfirst.grows).trans_lt hfuel) hdirs₁
        refine ⟨new₁ ++ new₂, visited₂, ?_, ?_⟩
        · rw [List.foldlM_cons, hcall]
          simp only [Option.map_some, hmerge, Option.bind_eq_bind, Option.bind_some, hrest,
            List.append_assoc]
        · rw [← List.append_assoc]
          exact hfirst.cons hsecond
    rw [resolveLibrarySourceDirs]
    cases hlibrary : Dict.get? name tree.libraries with
    | none =>
      refine ⟨[], visited, rfl, ?_⟩
      rw [List.append_nil]
      refine .skip (fun hexists => ?_) (Or.inl rfl)
      rw [exists_namedByPip, LibraryTree.has_iff, hlibrary] at hexists
      obtain ⟨_, h⟩ := hexists
      cases h
    | some library =>
      dsimp only
      by_cases hmem : name ∈ visited
      · rw [if_pos hmem]
        refine ⟨[], visited, rfl, ?_⟩
        rw [List.append_nil]
        exact .skip (fun _ => hmem) (Or.inl rfl)
      · rw [if_neg hmem]
        have hless := unvisited_lt hlibrary hmem
        obtain ⟨new, visited', hcall, hsearch⟩ :=
          hloop (library.requirements.filterMap libraryNameFromPipDependency) [] (name :: visited)
            finished (by omega) (by simp)
        have hsource : library.source.isSome = true := by
          obtain ⟨children, hsource, -⟩ := tree.packaged _ (Dict.mem_of_get? hlibrary)
          exact Option.isSome_iff_exists.mpr ⟨children, hsource⟩
        obtain ⟨-, hfresh, -⟩ := fresh_of_depthFirst hsearch
        have hname : name ∉ new := fun h => hfresh name h List.mem_cons_self
        refine ⟨new ++ [name], visited', ?_, ?_⟩
        · rw [hcall]
          simp [hsource, hname]
        · rw [← List.append_assoc]
          exact .finish (by rw [namedByPip, hlibrary]; rfl) hmem hsearch

/-- The source map of a tree of libraries. -/
lemma get?_projectLibrarySourceMap (name : String) :
    Dict.get? name (projectLibrarySourceMap tree.libraries) =
      Dict.get? name (tree.libraries.map fun entry => (importName entry.1, entry.1)) := by
  have hentries : tree.libraries.flatMap sourceEntries =
      tree.libraries.map fun entry => (importName entry.1, entry.1) := by
    rw [List.map_eq_flatMap]
    apply List.flatMap_congr
    intro entry hentry
    obtain ⟨children, hsource, hpackage⟩ := tree.packaged entry hentry
    simp [sourceEntries, hsource, hpackage]
  have hlocal : Dict.Local setDefault (fun name sourceMap => Dict.get? name sourceMap)
      (fun _ dir found => found.or (some dir)) := by
    constructor
    · intro sourceMap name dir
      rw [setDefault]
      cases hfound : Dict.get? name sourceMap with
      | none => exact Dict.get?_set_self _ _ _
      | some found => exact hfound
    · intro sourceMap entry name hne
      rw [setDefault]
      cases Dict.get? entry.1 sourceMap with
      | none => exact Dict.get?_set_of_ne hne _ _
      | some found => rfl
  have hnodup : ((tree.libraries.map fun entry => (importName entry.1, entry.1)).map
      Prod.fst).Nodup := by
    have himports := tree.nodup.map importName_injective
    rw [List.map_map] at himports ⊢
    exact himports
  rw [projectLibrarySourceMap, hentries, hlocal.view_foldl hnodup [] name]
  cases Dict.get? name (tree.libraries.map fun entry => (importName entry.1, entry.1)) <;> rfl

/-- The source directory of an import name is that of the library. -/
lemma get?_importName (name : String) :
    Dict.get? (importName name) (projectLibrarySourceMap tree.libraries) =
      (Dict.get? name tree.libraries).map fun _ => name := by
  rw [get?_projectLibrarySourceMap]
  induction tree.libraries with
  | nil => rfl
  | cons entry libraries ih =>
    rw [List.map_cons, Dict.get?_cons, Dict.get?_cons, ih]
    by_cases h : entry.1 = name
    · rw [if_pos h, if_pos (congrArg importName h), h]
      rfl
    · rw [if_neg h, if_neg (fun heq => h (importName_injective heq))]

/-- **`_accumulate_project_source_dir` ends and is a depth-first search** of the same graph.

**Proof sketch.** As for `resolveLibrarySourceDirs_depthFirst`; a name that is no library is marked
as visited, which the rule for what is skipped allows. -/
theorem accumulateProjectSourceDir_depthFirst (fuel : ℕ) (name : String)
    (visited resolved : List String) (hfuel : unvisited tree.libraries visited < fuel)
    (hresolved : ∀ dir ∈ resolved, dir ∈ visited) :
    ∃ resolved' visited', accumulateProjectSourceDir tree.libraries
        (projectLibrarySourceMap tree.libraries) fuel (importName name)
        (resolved, visited.map importName) = some (resolved', visited'.map importName) ∧
      (∀ dir ∈ resolved', dir ∈ visited') ∧
      Search.DepthFirst (namedByPip tree.libraries) [name] visited resolved visited' resolved' := by
  induction fuel generalizing name visited resolved with
  | zero => omega
  | succ fuel ih =>
    have hloop (dependencies : List String) : ∀ (visited resolved : List String),
        unvisited tree.libraries visited < fuel → (∀ dir ∈ resolved, dir ∈ visited) →
        ∃ resolved' visited', (dependencies.map importName).foldlM (fun s dependency =>
            accumulateProjectSourceDir tree.libraries (projectLibrarySourceMap tree.libraries) fuel
              dependency s) (resolved, visited.map importName) =
                some (resolved', visited'.map importName) ∧
          (∀ dir ∈ resolved', dir ∈ visited') ∧
          Search.DepthFirst (namedByPip tree.libraries) dependencies visited resolved visited'
            resolved' := by
      induction dependencies with
      | nil =>
        intro visited resolved _ hresolved
        exact ⟨resolved, visited, rfl, hresolved, .nil⟩
      | cons dependency dependencies ihd =>
        intro visited resolved hfuel hresolved
        obtain ⟨resolved₁, visited₁, hcall, hresolved₁, hfirst⟩ :=
          ih dependency visited resolved hfuel hresolved
        obtain ⟨resolved₂, visited₂, hrest, hresolved₂, hsecond⟩ := ihd visited₁ resolved₁
          ((unvisited_le hfirst.grows).trans_lt hfuel) hresolved₁
        refine ⟨resolved₂, visited₂, ?_, hresolved₂, hfirst.cons hsecond⟩
        rw [List.map_cons, List.foldlM_cons, hcall, Option.bind_eq_bind, Option.bind_some, hrest]
    have hvisited : importName name ∈ visited.map importName ↔ name ∈ visited :=
      List.mem_map_of_injective importName_injective
    rw [accumulateProjectSourceDir]
    by_cases hmem : name ∈ visited
    · rw [if_pos (hvisited.mpr hmem)]
      exact ⟨resolved, visited, rfl, hresolved, .skip (fun _ => hmem) (Or.inl rfl)⟩
    rw [if_neg (fun h => hmem (hvisited.mp h)), get?_importName]
    cases hlibrary : Dict.get? name tree.libraries with
    | none =>
      refine ⟨resolved, name :: visited, rfl, fun dir hdir => List.mem_cons_of_mem _ (hresolved dir hdir),
        .skip (fun hexists => ?_) (Or.inr rfl)⟩
      rw [exists_namedByPip, LibraryTree.has_iff, hlibrary] at hexists
      obtain ⟨_, h⟩ := hexists
      cases h
    | some library =>
      have hless := unvisited_lt hlibrary hmem
      obtain ⟨resolved', visited', hcall, hresolved', hsearch⟩ :=
        hloop (library.requirements.filterMap libraryNameFromPipDependency) (name :: visited) resolved
          (by omega) (fun dir hdir => List.mem_cons_of_mem _ (hresolved dir hdir))
      have hname : name ∉ resolved' := by
        obtain ⟨new, rfl, -, hnew, -⟩ := hsearch.adds
        intro hin
        rcases List.mem_append.mp hin with hin | hin
        · exact hmem (hresolved name hin)
        · exact (hnew name hin).1 List.mem_cons_self
      refine ⟨resolved' ++ [name], visited', ?_, ?_, ?_⟩
      · rw [List.map_cons] at hcall
        simp only [Option.map_some, chumicroDependencyImportNames, hlibrary, hcall, if_neg hname]
      · intro dir hdir
        rcases List.mem_append.mp hdir with hdir | hdir
        · exact hresolved' dir hdir
        · rw [List.mem_singleton] at hdir
          exact hdir ▸ hsearch.grows List.mem_cons_self
      · exact .finish (by rw [namedByPip, hlibrary]; rfl) hmem hsearch

end DepthFirst

/-! ## More fuel -/

/-- A loop whose steps give what they gave gives what it gave. -/
lemma foldlM_mono {σ β : Type} {f g : σ → β → Option σ}
    (hstep : ∀ s b r, f s b = some r → g s b = some r) {l : List β} {s r : σ}
    (h : l.foldlM f s = some r) : l.foldlM g s = some r := by
  induction l generalizing s with
  | nil => exact h
  | cons b l ih =>
    rw [List.foldlM_cons, Option.bind_eq_bind, Option.bind_eq_some_iff] at h ⊢
    obtain ⟨s', hs', hrest⟩ := h
    exact ⟨s', hstep s b s' hs', ih hrest⟩

/-- More fuel changes no result of `resolve_library_source_dirs`. -/
lemma resolveLibrarySourceDirs_mono {libraries : Libraries} {fuel : ℕ} {name : String}
    {visited : List String} {result : List String × List String}
    (h : resolveLibrarySourceDirs libraries fuel name visited = some result) {fuel' : ℕ}
    (hle : fuel ≤ fuel') : resolveLibrarySourceDirs libraries fuel' name visited = some result := by
  induction fuel generalizing fuel' name visited result with
  | zero => cases h
  | succ fuel ih =>
    obtain ⟨fuel', rfl⟩ : ∃ n, fuel' = n + 1 := ⟨fuel' - 1, by omega⟩
    rw [resolveLibrarySourceDirs] at h ⊢
    cases hlibrary : Dict.get? name libraries with
    | none => rwa [hlibrary] at h
    | some library =>
      rw [hlibrary] at h
      dsimp only at h ⊢
      by_cases hmem : name ∈ visited
      · rwa [if_pos hmem] at h ⊢
      · rw [if_neg hmem, Option.map_eq_some_iff] at h ⊢
        obtain ⟨s, hs, hresult⟩ := h
        refine ⟨s, foldlM_mono (fun s dependency r hr => ?_) hs, hresult⟩
        rw [Option.map_eq_some_iff] at hr ⊢
        obtain ⟨transitive, htransitive, heq⟩ := hr
        exact ⟨transitive, ih htransitive (by omega), heq⟩

/-- More fuel changes no result of `_accumulate_project_source_dir`. -/
lemma accumulateProjectSourceDir_mono {libraries : Libraries} {sourceMap : List (String × String)}
    {fuel : ℕ} {name : String} {state result : List String × List String}
    (h : accumulateProjectSourceDir libraries sourceMap fuel name state = some result) {fuel' : ℕ}
    (hle : fuel ≤ fuel') :
    accumulateProjectSourceDir libraries sourceMap fuel' name state = some result := by
  induction fuel generalizing fuel' name state result with
  | zero => cases h
  | succ fuel ih =>
    obtain ⟨fuel', rfl⟩ : ∃ n, fuel' = n + 1 := ⟨fuel' - 1, by omega⟩
    obtain ⟨resolved, visited⟩ := state
    rw [accumulateProjectSourceDir] at h ⊢
    by_cases hmem : name ∈ visited
    · rwa [if_pos hmem] at h ⊢
    rw [if_neg hmem] at h ⊢
    cases hsource : Dict.get? name sourceMap with
    | none => rwa [hsource] at h
    | some sourceDirectory =>
      rw [hsource] at h
      dsimp only at h ⊢
      rw [Option.map_eq_some_iff] at h ⊢
      obtain ⟨s, hs, hresult⟩ := h
      exact ⟨s, foldlM_mono (fun s dependency r hr => ih hr (by omega)) hs, hresult⟩

/-! ## The closure -/

section Closure

variable {tree}

/-- What `chumicro_dependencies` reads. -/
lemma mem_chumicroDependencies {requirements : List String} {name : String} :
    name ∈ chumicroDependencies requirements ↔
      ∃ requirement ∈ requirements, importNameOfRequirement requirement = some name := by
  rw [chumicroDependencies, List.mem_insertionSort, List.mem_dedup, List.mem_filterMap]

/-- What the closure takes a library to depend on. -/
lemma depsOf_importName (libraries : Libraries) (name : String) :
    depsOf libraries (importName name) =
      ((Dict.get? name libraries).map fun library => chumicroDependencies library.requirements).getD
        [] := by
  rw [depsOf]
  induction libraries with
  | nil => rfl
  | cons entry libraries ih =>
    rw [List.find?_cons, Dict.get?_cons]
    by_cases h : entry.1 = name
    · rw [if_pos h, h]
      simp
    · have hne : ¬ importName entry.1 = importName name := fun heq => h (importName_injective heq)
      simp only [hne, decide_false, if_neg h]
      exact ih

/-- Only libraries lead anywhere. -/
lemma exists_of_mem_depsOf {libraries : Libraries} {name name' : String}
    (h : name' ∈ depsOf libraries name) : ∃ library ∈ libraries.map Prod.fst,
      name = importName library := by
  rw [depsOf] at h
  split at h
  · cases h
  · next entry hentry =>
    have hname : importName entry.1 = name := by simpa using List.find?_some hentry
    exact ⟨entry.1, List.mem_map_of_mem (List.mem_of_find?_eq_some hentry), hname.symm⟩

/-- A library that is there is in the closure exactly when it is reached along the dependencies that
are there.

**Proof sketch.** A name that is no library leads nowhere, so a path to a library passes libraries
only. -/
lemma leads_iff {root name : String} (hname : tree.Has name) :
    Search.Leads (depsOf tree.libraries) (importName root) (importName name) ↔
      Relation.ReflTransGen (DependsOn tree) root name := by
  have hdeps {a b : String} : importName b ∈ depsOf tree.libraries (importName a) ↔
      ∃ library, Dict.get? a tree.libraries = some library ∧
        importName b ∈ chumicroDependencies library.requirements := by
    rw [depsOf_importName]
    cases Dict.get? a tree.libraries <;> simp
  constructor
  · intro h
    have hpath : ∀ z, Search.Leads (depsOf tree.libraries) (importName root) z →
        ∀ b, z = importName b → tree.Has b → Relation.ReflTransGen (DependsOn tree) root b := by
      intro z hz
      induction hz with
      | refl =>
        intro b hb _
        rw [importName_injective hb]
      | tail _ hstep ih =>
        rintro b rfl hb
        obtain ⟨a, ha, rfl⟩ := exists_of_mem_depsOf hstep
        obtain ⟨library, hlibrary, hmem⟩ := hdeps.mp hstep
        exact (ih a rfl ha).tail ⟨library, hlibrary, hmem, hb⟩
    exact hpath _ h name rfl hname
  · intro h
    induction h with
    | refl => exact Relation.ReflTransGen.refl
    | tail _ hstep ih =>
      obtain ⟨library, hlibrary, hmem, hhas⟩ := hstep
      refine Relation.ReflTransGen.tail (ih ?_) (hdeps.mpr ⟨library, hlibrary, hmem⟩)
      exact LibraryTree.has_iff.mpr ⟨library, hlibrary⟩

/-- A dependency as the depth-first resolvers read it. -/
lemma edge_namedByPip {name name' : String} :
    Search.Edge (namedByPip tree.libraries) name name' ↔
      ∃ library, Dict.get? name tree.libraries = some library ∧
        (∃ requirement ∈ library.requirements, libraryNameFromPipDependency requirement = some name') ∧
        tree.Has name' := by
  rw [Search.Edge, exists_namedByPip, namedByPip]
  cases Dict.get? name tree.libraries with
  | none => simp
  | some library => simp [List.mem_filterMap]

end Closure

/-- **The three resolvers on every tree**: with enough fuel they end; the first two are depth-first
searches along the dependencies as they read them, and the libraries in the closure are those
reached along the dependencies as it reads them. -/
lemma resolvers_spec (root : String) :
    ∃ bound names dirs visited projectDirs projectVisited projectImports,
      (∀ fuel, bound ≤ fuel →
        transitiveClosure tree.libraries fuel [importName root] = some names ∧
        resolveLibrarySourceDirs tree.libraries fuel root [] = some (dirs, visited) ∧
        accumulateProjectSourceDir tree.libraries (projectLibrarySourceMap tree.libraries) fuel
          (importName root) ([], []) = some (projectDirs, projectImports)) ∧
      Search.DepthFirst (namedByPip tree.libraries) [root] [] [] visited dirs ∧
      Search.DepthFirst (namedByPip tree.libraries) [root] [] [] projectVisited projectDirs ∧
      ∀ name, tree.Has name →
        (importName name ∈ names ↔ Relation.ReflTransGen (DependsOn tree) root name) := by
  have hsupport (name : String) (hname : name ∉ (tree.libraries.map Prod.fst).map importName) :
      depsOf tree.libraries name = [] := by
    rw [List.eq_nil_iff_forall_not_mem]
    intro name' hmem
    obtain ⟨library, hlibrary, rfl⟩ := exists_of_mem_depsOf hmem
    exact hname (List.mem_map_of_mem hlibrary)
  obtain ⟨names, bound, hnames, -, hmem⟩ := Search.breadthFirst_spec
    (tree.nodup.map importName_injective) hsupport [importName root]
  obtain ⟨dirs, visited, hdirs, hsearch⟩ := @resolveLibrarySourceDirs_depthFirst tree
    (unvisited tree.libraries [] + 1) root [] [] (by omega)
  obtain ⟨projectDirs, projectVisited, hproject, -, hsearch'⟩ :=
    @accumulateProjectSourceDir_depthFirst tree (unvisited tree.libraries [] + 1) root [] []
      (by omega) (by simp)
  refine ⟨max bound (unvisited tree.libraries [] + 1), names, dirs, visited, projectDirs,
    projectVisited, projectVisited.map importName, fun fuel hfuel => ⟨?_, ?_, ?_⟩, hsearch, hsearch',
    fun name hname => ?_⟩
  · exact hnames fuel (by omega)
  · exact resolveLibrarySourceDirs_mono hdirs (by omega)
  · exact accumulateProjectSourceDir_mono hproject (by omega)
  · rw [hmem, ← leads_iff hname]
    simp

/-! ## Agreement -/

section Agreement

variable {tree}

/-- Where both readings agree on every requirement string, they have the same dependencies. -/
lemma edge_iff_dependsOn (halike : ∀ entry ∈ tree.libraries, ∀ requirement ∈ entry.2.requirements,
    ReadAlike requirement) {name name' : String} :
    Search.Edge (namedByPip tree.libraries) name name' ↔ DependsOn tree name name' := by
  rw [edge_namedByPip, DependsOn]
  refine exists_congr fun library => and_congr_right fun hlibrary => and_congr_left fun hhas => ?_
  rw [mem_chumicroDependencies]
  obtain ⟨entry, hentry, rfl⟩ := List.mem_map.mp hhas
  exact exists_congr fun requirement => and_congr_right fun hrequirement =>
    halike _ (Dict.mem_of_get? hlibrary) requirement hrequirement entry.1 (tree.named entry hentry)

/-- **The resolvers agree on a tree whose requirement strings both readings read alike.** -/
lemma agree_of_readAlike (halike : ∀ entry ∈ tree.libraries,
    ∀ requirement ∈ entry.2.requirements, ReadAlike requirement) (root : String) :
    Agree tree root := by
  obtain ⟨bound, names, dirs, visited, projectDirs, projectVisited, projectImports, hends, hsearch,
    hsearch', hnames⟩ := resolvers_spec tree root
  have hedges : Search.Edge (namedByPip tree.libraries) = DependsOn tree := by
    funext name name'
    exact propext (edge_iff_dependsOn halike)
  have hmem {finished visited : List String} (h : Search.DepthFirst (namedByPip tree.libraries)
      [root] [] [] visited finished) (name : String) :
      name ∈ finished ↔ tree.Has name ∧ importName name ∈ names := by
    rw [h.mem_iff, exists_namedByPip]
    refine and_congr_right fun hhas => ?_
    rw [hnames name hhas, Search.Reaches, hedges]
    simp
  have hfirst {finished visited : List String} (h : Search.DepthFirst (namedByPip tree.libraries)
      [root] [] [] visited finished) (hacyclic : AcyclicDependencies tree) :
      DependencyFirst tree finished := by
    have hnext := h.nextFirst (by rw [Search.Acyclic, hedges]; exact hacyclic)
    rwa [Search.NextFirst, hedges] at hnext
  exact ⟨bound, names, dirs, visited, projectDirs, projectImports, hends, ⟨hsearch.nodup, hmem hsearch⟩,
    ⟨hsearch'.nodup, hmem hsearch'⟩, fun hacyclic => ⟨hfirst hsearch hacyclic, hfirst hsearch' hacyclic⟩⟩

/-- Where the resolvers agree, the same libraries are reached along the dependencies as the
depth-first ones read them and as the closure does. -/
lemma Agree.reaches_iff {root : String} (h : Agree tree root) {name : String}
    (hname : tree.Has name) :
    Search.Reaches (namedByPip tree.libraries) root name ↔
      Relation.ReflTransGen (DependsOn tree) root name := by
  obtain ⟨bound, names, dirs, visited, _, _, hends, ⟨-, hdirs⟩, -, -⟩ := h
  obtain ⟨bound', names', dirs', visited', _, _, _, hends', hsearch, -, hnames⟩ :=
    resolvers_spec tree root
  obtain ⟨hclosure, hresolve, -⟩ := hends (max bound bound') (by omega)
  obtain ⟨hclosure', hresolve', -⟩ := hends' (max bound bound') (by omega)
  cases hclosure.symm.trans hclosure'
  cases hresolve.symm.trans hresolve'
  have hfinished : name ∈ dirs ↔ _ := hsearch.mem_iff
  have hmem := hfinished.symm.trans (hdirs name)
  rw [exists_namedByPip, hnames name hname] at hmem
  simpa [hname] using hmem

end Agreement

/-- A library with its package. -/
def packagedLibrary (name : String) (requirements : List String) : String × Library :=
  (name, ⟨requirements, some [.package (importName name)]⟩)

/-- A library that requires one string, and another library. -/
def twoLibraries (root name requirement : String) (hne : root ≠ name) (hroot : IsLibraryName root)
    (hname : IsLibraryName name) : LibraryTree where
  libraries := [packagedLibrary root [requirement], packagedLibrary name []]
  nodup := by simpa [packagedLibrary] using hne
  named := by
    intro entry hentry
    rcases List.mem_pair.mp hentry with rfl | rfl
    · exact hroot
    · exact hname
  packaged := by
    intro entry hentry
    rcases List.mem_pair.mp hentry with rfl | rfl
    · exact ⟨_, rfl, rfl⟩
    · exact ⟨_, rfl, rfl⟩

/-- A word is a library name. -/
lemma isLibraryName_word {word : Str} (h : IsWord word) : IsLibraryName (String.ofList word) :=
  ⟨[word], by simp, by simpa using h, by simp [String.toList_ofList]⟩

/-- What is reached of two libraries, where only the first leads anywhere. -/
lemma reflTransGen_two {R : String → String → Prop} {root name : String} (hne : root ≠ name)
    (honly : ∀ z, R z name → z = root) :
    Relation.ReflTransGen R root name ↔ R root name := by
  refine ⟨fun h => ?_, Relation.ReflTransGen.single⟩
  rcases Relation.ReflTransGen.cases_tail h with heq | ⟨z, -, hstep⟩
  · exact absurd heq.symm hne
  · exact honly z hstep ▸ hstep

/-- Only the first of two libraries has a requirement. -/
lemma get?_twoLibraries {root name requirement : String} {hne : root ≠ name}
    {hroot : IsLibraryName root} {hname : IsLibraryName name} {z : String} {library : Library}
    (h : Dict.get? z (twoLibraries root name requirement hne hroot hname).libraries = some library) :
    (z = root ∧ library.requirements = [requirement]) ∨ library.requirements = [] := by
  have hmem := Dict.mem_of_get? h
  rcases List.mem_pair.mp hmem with heq | heq
  · cases heq
    exact Or.inl ⟨rfl, rfl⟩
  · cases heq
    exact Or.inr rfl

/-- **Where a requirement string is read differently**, the resolvers disagree on two libraries. -/
lemma readAlike_of_agree {requirement : String}
    (h : ∀ (root name : String) (hne : root ≠ name) (hroot : IsLibraryName root)
      (hname : IsLibraryName name), Agree (twoLibraries root name requirement hne hroot hname) root) :
    ReadAlike requirement := by
  intro name hname
  obtain ⟨root, hroot, hne⟩ : ∃ root, IsLibraryName root ∧ root ≠ name := by
    have ha : IsLibraryName (String.ofList ['a']) := isLibraryName_word ⟨by simp, by simp⟩
    have hb : IsLibraryName (String.ofList ['b']) := isLibraryName_word ⟨by simp, by simp⟩
    by_cases heq : String.ofList ['a'] = name
    · exact ⟨_, hb, fun heq' => absurd (heq.trans heq'.symm) (by decide)⟩
    · exact ⟨_, ha, heq⟩
  have hhas : (twoLibraries root name requirement hne hroot hname).Has name := by
    simp [LibraryTree.Has, twoLibraries, packagedLibrary]
  have hfirst : Dict.get? root (twoLibraries root name requirement hne hroot hname).libraries =
      some ⟨[requirement], some [.package (importName root)]⟩ := by
    simp [twoLibraries, packagedLibrary, Dict.get?_cons]
  have hreaches := (h root name hne hroot hname).reaches_iff hhas
  rw [Search.Reaches, reflTransGen_two hne fun z hz => ?_, reflTransGen_two hne fun z hz => ?_,
    edge_namedByPip, DependsOn, hfirst] at hreaches
  · simpa [mem_chumicroDependencies, hhas] using hreaches
  · obtain ⟨library, hlibrary, hmem, -⟩ := hz
    rcases get?_twoLibraries hlibrary with ⟨hz, -⟩ | hnone
    · exact hz
    · rw [hnone, mem_chumicroDependencies] at hmem
      simp at hmem
  · obtain ⟨library, hlibrary, ⟨requirement', hmem, -⟩, -⟩ := edge_namedByPip.mp hz
    rcases get?_twoLibraries hlibrary with ⟨hz, -⟩ | hnone
    · exact hz
    · rw [hnone] at hmem
      cases hmem

/-- **The requirement strings on which the resolvers agree**: on every tree of libraries whose
requirement strings are of a set, and for every library, exactly if both readings read each string
of the set alike.

**Proof sketch.** `agree_of_readAlike`; and a string that is not read alike makes two libraries of
which only one reading finds the second (`readAlike_of_agree`). -/
theorem resolvers_agree_iff (requirements : Set String) :
    (∀ tree : LibraryTree, (∀ entry ∈ tree.libraries, ∀ requirement ∈ entry.2.requirements,
      requirement ∈ requirements) → ∀ root, Agree tree root) ↔
      ∀ requirement ∈ requirements, ReadAlike requirement := by
  constructor
  · intro h requirement hrequirement
    refine readAlike_of_agree fun root name hne hroot hname => h _ ?_ root
    intro entry hentry requirement' hrequirement'
    rcases List.mem_pair.mp hentry with rfl | rfl
    · rw [List.mem_singleton.mp hrequirement']
      exact hrequirement
    · cases hrequirement'
  · intro h tree hrequirements root
    exact agree_of_readAlike (fun entry hentry requirement hrequirement =>
      h requirement (hrequirements entry hentry requirement hrequirement)) root

/-- `runner` requires `chumicro-http-server`, and `http_server` is there. -/
def runnerAndHttpServer : LibraryTree :=
  twoLibraries "runner" "http_server" "chumicro-http-server" (by decide)
    ⟨["runner".toList], by decide, by decide, by decide⟩
    ⟨["http".toList, "server".toList], by decide, by decide, by decide⟩

/-- The depth-first resolvers look for a library `http-server`, which is not there, and leave
`http_server` off, which is in the closure. Nor do they find a library by a direct reference or by a
name with capitals. -/
theorem http_server_left_off :
    resolveLibrarySourceDirs runnerAndHttpServer.libraries 3 "runner" [] =
        some (["runner"], ["runner"]) ∧
      transitiveClosure runnerAndHttpServer.libraries 5 ["chumicro_runner"] =
        some ["chumicro_runner", "chumicro_http_server"] ∧
      ¬ Agree runnerAndHttpServer "runner" ∧
      ¬ ReadAlike "chumicro-timing @ https://example.org/timing.zip" ∧
      ¬ ReadAlike "ChuMicro-timing" := by
  have hdirs : resolveLibrarySourceDirs runnerAndHttpServer.libraries 3 "runner" [] =
      some (["runner"], ["runner"]) := by rfl
  have hnames : transitiveClosure runnerAndHttpServer.libraries 5 [importName "runner"] =
      some ["chumicro_runner", "chumicro_http_server"] := by rfl
  have htiming : IsLibraryName "timing" := ⟨["timing".toList], by decide, by decide, by decide⟩
  refine ⟨hdirs, hnames, fun h => ?_, fun h => ?_, fun h => ?_⟩
  · obtain ⟨bound, names, dirs, visited, _, _, hends, ⟨-, hmem⟩, -, -⟩ := h
    obtain ⟨hclosure, hresolve, -⟩ := hends (max bound 5) (by omega)
    cases hresolve.symm.trans (resolveLibrarySourceDirs_mono hdirs (by omega))
    cases hclosure.symm.trans (Search.breadthFirst_mono hnames (by omega))
    have hhas : runnerAndHttpServer.Has "http_server" := List.mem_cons_of_mem _ List.mem_cons_self
    exact absurd ((hmem "http_server").mpr ⟨hhas, by decide⟩) (by decide)
  · exact absurd ((h "timing" htiming).mpr (by rfl)) (by decide)
  · exact absurd ((h "timing" htiming).mpr (by rfl)) (by decide)

end ChuMicro.Workspace
