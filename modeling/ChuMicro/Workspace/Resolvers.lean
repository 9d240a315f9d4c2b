import ChuMicro.Lib.Dict
import ChuMicro.Lib.Search
import ChuMicro.Text
import Mathlib.Data.List.Sort

/-!
# The three resolvers of library dependencies

`resolve_library_source_dirs` and `_accumulate_project_source_dir` of `device_orchestration.py`,
which walk the dependencies of a library depth first, and `transitive_closure` over
`chumicro_dependencies` of `dep_resolver.py`, which walks them with a queue. Each reads the
requirement strings of a `pyproject.toml` itself.

The libraries of a workspace are the directories under `libraries/`, with the requirement strings of
their `[project].dependencies` (none where the file or the list is missing) and what is in their
`src`. A source directory is told by the library it is of. A requirement may name any text; a
directory of that name is there only if it is one of the libraries. The workspace has no
`library_sources:` overrides.

The recursions take fuel, and `none` is running out of it; that they do not is part of what is
proved of them.

## Main definitions

* `Workspace.libraryNameFromPipDependency` — how the depth-first resolvers read a requirement.
* `Workspace.importNameOfRequirement` — how `chumicro_dependencies` reads it.
* `Workspace.resolveLibrarySourceDirs`, `Workspace.accumulateProjectSourceDir`,
  `Workspace.transitiveClosure` — the resolvers.
-/

namespace ChuMicro.Workspace

/-! ## Requirement strings -/

/-- The characters of `_DEPENDENCY_VERSION_SPLITTER`. -/
def DEPENDENCY_VERSION_SPLITTER : List Char := ['>', '<', '=', '!', ';', '~', '[']

/-- `_strip_pip_dependency_version`. -/
def stripPipDependencyVersion (dependency : Str) : Str :=
  strip (dependency.takeWhile fun c => !DEPENDENCY_VERSION_SPLITTER.contains c)

/-- `"chumicro-"`. -/
def DISTRIBUTION_START : Str := ['c', 'h', 'u', 'm', 'i', 'c', 'r', 'o', '-']

/-- `_library_name_from_pip_dependency`. -/
def libraryNameFromPipDependency (dependency : String) : Option String :=
  let name := stripPipDependencyVersion dependency.toList
  if DISTRIBUTION_START.isPrefixOf name then
    some (String.ofList (name.drop DISTRIBUTION_START.length))
  else none

/-- A letter or digit of ASCII. -/
def isAsciiAlnum (c : Char) : Bool := c.isAlphanum

/-- A character inside a distribution name, `[A-Za-z0-9._-]`. -/
def isNameChar (c : Char) : Bool := isAsciiAlnum c || c == '.' || c == '_' || c == '-'

/-- The match of `_REQUIREMENT_NAME`: blanks, a letter or digit, and name characters as far as the
last letter or digit among them. -/
def requirementName (requirement : Str) : Option Str :=
  match requirement.dropWhile isSpace with
  | [] => none
  | c :: rest =>
    if isAsciiAlnum c then
      some (((c :: rest).takeWhile isNameChar).rdropWhile fun c => !isAsciiAlnum c)
    else none

/-- `_distribution_to_import_name`. -/
def distributionToImportName (distribution : Str) : Str :=
  (lowerAscii (strip distribution)).map fun c => if c = '-' then '_' else c

/-- One requirement in the loop of `chumicro_dependencies`. -/
def importNameOfRequirement (requirement : String) : Option String :=
  (requirementName requirement.toList).bind fun distribution =>
    if DISTRIBUTION_START.isPrefixOf (lowerAscii distribution) then
      some (String.ofList (distributionToImportName distribution))
    else none

/-- `chumicro_dependencies` of a file with these requirements. -/
def chumicroDependencies (requirements : List String) : List String :=
  (requirements.filterMap importNameOfRequirement).dedup.insertionSort (· ≤ ·)

/-! ## Libraries -/

/-- What is at the top of a `src` directory: a directory with an `__init__.py`, another directory,
or a file by its stem and its suffix. -/
inductive Child where
  | package (name : String)
  | directory (name : String)
  | file (stem suffix : String)

/-- `_importable_package_name`. -/
def importablePackageName : Child → Option String
  | .package name => some name
  | .directory _ => none
  | .file stem suffix => if suffix = ".py" then some stem else none

/-- A library: its requirement strings and what its `src` holds, where it has one. -/
structure Library where
  requirements : List String
  source : Option (List Child)

/-- The directories under `libraries/`, in order. -/
abbrev Libraries := List (String × Library)

/-- The import name of a library, `f"chumicro_{name}"`. -/
def importName (library : String) : String := "chumicro_" ++ library

/-! ## `resolve_library_source_dirs` -/

/-- The loop over `transitive_dir`: those that are not there yet are appended. -/
def mergeDirs (dependencyDirs transitive : List String) : List String :=
  transitive.foldl (fun dirs dir => if dir ∈ dirs then dirs else dirs ++ [dir]) dependencyDirs

/-- `resolve_library_source_dirs` without test files: the directories, and the visited names. -/
def resolveLibrarySourceDirs (libraries : Libraries) :
    ℕ → String → List String → Option (List String × List String)
  | 0, _, _ => none
  | fuel + 1, name, visited =>
    match Dict.get? name libraries with
    | none => some ([], visited)
    | some library =>
      if name ∈ visited then some ([], visited)
      else
        ((library.requirements.filterMap libraryNameFromPipDependency).foldlM
          (fun s dependency =>
            (resolveLibrarySourceDirs libraries fuel dependency s.2).map fun transitive =>
              (mergeDirs s.1 transitive.1, transitive.2))
          ([], name :: visited)).map fun s =>
            (if library.source.isSome ∧ name ∉ s.1 then s.1 ++ [name] else s.1, s.2)

/-! ## `resolve_project_source_dirs` -/

/-- `source_map.setdefault(import_name, source_directory)`. -/
def setDefault (sourceMap : List (String × String)) (entry : String × String) :
    List (String × String) :=
  match Dict.get? entry.1 sourceMap with
  | some _ => sourceMap
  | none => Dict.set entry.1 entry.2 sourceMap

/-- The entries that the scan of `libraries/` makes for one library. -/
def sourceEntries (entry : String × Library) : List (String × String) :=
  match entry.2.source with
  | none => []
  | some children => (children.filterMap importablePackageName).map fun name => (name, entry.1)

/-- `_project_library_source_map`. -/
def projectLibrarySourceMap (libraries : Libraries) : List (String × String) :=
  (libraries.flatMap sourceEntries).foldl setDefault []

/-- `_chumicro_dependency_import_names` of the `pyproject.toml` beside a source directory. -/
def chumicroDependencyImportNames (libraries : Libraries) (sourceDirectory : String) :
    List String :=
  match Dict.get? sourceDirectory libraries with
  | none => []
  | some library =>
    (library.requirements.filterMap libraryNameFromPipDependency).map importName

/-- `_accumulate_project_source_dir`: the resolved directories and the visited import names after
it. -/
def accumulateProjectSourceDir (libraries : Libraries) (sourceMap : List (String × String)) :
    ℕ → String → List String × List String → Option (List String × List String)
  | 0, _, _ => none
  | fuel + 1, name, (resolved, visited) =>
    if name ∈ visited then some (resolved, visited)
    else
      match Dict.get? name sourceMap with
      | none => some (resolved, name :: visited)
      | some sourceDirectory =>
        ((chumicroDependencyImportNames libraries sourceDirectory).foldlM
          (fun s dependency => accumulateProjectSourceDir libraries sourceMap fuel dependency s)
          (resolved, name :: visited)).map fun s =>
            (if sourceDirectory ∈ s.1 then s.1 else s.1 ++ [sourceDirectory], s.2)

/-! ## `transitive_closure` -/

/-- `chumicro_dependencies` of the `pyproject.toml` of the library with an import name. -/
def depsOf (libraries : Libraries) (name : String) : List String :=
  match libraries.find? fun entry => importName entry.1 = name with
  | none => []
  | some entry => chumicroDependencies entry.2.requirements

/-- `transitive_closure`. -/
def transitiveClosure (libraries : Libraries) (fuel : ℕ) (roots : List String) :
    Option (List String) :=
  Search.breadthFirst (depsOf libraries) fuel [] roots

end ChuMicro.Workspace
