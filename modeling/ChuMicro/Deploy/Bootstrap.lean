import ChuMicro.Deploy.SerialWrites
import ChuMicro.Lib.PyLiteral
import ChuMicro.Lib.Replace
import ChuMicro.Lib.Retry
import ChuMicro.Python

/-!
# Bootstrap scripts for RAM mode

The two builders of `chumicro_deploy/circuitpython_bootstrap.py`: a board without a file system gets
its modules as scripts for the raw REPL. `repr` is that of `Lib.PyLiteral`, for any Unicode
database. `_prepare_inline_source`, which parses and prints Python, is a parameter.

The template file is given by its two parts around the markers.

## Main definitions

* `Deploy.buildCircuitpythonBootstrapScripts`, `Deploy.buildCircuitpythonDeployScripts` — the
  builders.
* `Deploy.Command`, `Deploy.Executes` — what a script does.
* `Deploy.Faithful` — what is expected of the scripts.
-/

namespace ChuMicro.Deploy

/-! ## Sizes -/

/-- The errors of the builders, with the data their texts are made of. -/
inductive BootstrapExn where
  | valueError (message : String)
  | entrypointMissing (entrypoint : Str) (paths : List Str)
  | unicodeDecodeError (devicePath : Str)
  | tooLarge (scriptName : Str) (size : ℕ) (budget : ℤ)

/-- `len(text.encode("utf-8"))`. -/
def utf8Length (text : Str) : ℕ := (text.flatMap String.utf8EncodeChar).length

/-- `"\n".join(blocks)`. -/
def joinLines (blocks : List Str) : Str := ['\n'].intercalate blocks

/-- `_validate_script_size`. -/
def validateScriptSize (scriptName scriptText : Str) (budget : ℤ) : Except BootstrapExn Unit :=
  if (utf8Length scriptText : ℤ) ≤ budget then .ok ()
  else .error (.tooLarge scriptName (utf8Length scriptText) budget)

/-- The loop of `_chunk_script_blocks`, with the blocks of the script that is being filled. -/
def chunkLoop (budget : ℤ) : List (Str × Str) → List Str → Except BootstrapExn (List Str)
  | [], current => .ok (if current = [] then [] else [joinLines current])
  | block :: rest, current => do
    validateScriptSize block.1 block.2 budget
    let candidate := current ++ [block.2]
    if current ≠ [] ∧ budget < utf8Length (joinLines candidate) then
      let scripts ← chunkLoop budget rest [block.2]
      .ok (joinLines current :: scripts)
    else chunkLoop budget rest candidate

/-- `_chunk_script_blocks`. -/
def chunkScriptBlocks (blocks : List (Str × Str)) (budget : ℤ) : Except BootstrapExn (List Str) :=
  chunkLoop budget blocks []

/-! ## The texts -/

/-- The template up to the first marker, and the loop over the deferred modules. -/
def HELPER_SCRIPT : Str :=
  ("import sys\n" ++
  "def _register_stub(module_name):\n" ++
  "    parts=module_name.rsplit('.',1)\n" ++
  "    package=parts[0] if len(parts)>1 else module_name\n" ++
  "    class _Mod:pass\n" ++
  "    _Mod.__name__=module_name\n" ++
  "    _Mod.__package__=package\n" ++
  "    sys.modules[module_name]=_Mod\n" ++
  "    if len(parts)>1 and parts[0] in sys.modules:\n" ++
  "        setattr(sys.modules[parts[0]],parts[1],_Mod)\n" ++
  "_lazy_pending=[]\n" ++
  "def _populate_module(module_name, source_code):\n" ++
  "    parts=module_name.rsplit('.',1)\n" ++
  "    package=parts[0] if len(parts)>1 else module_name\n" ++
  "    namespace=\x7b'__name__':module_name,'__package__':package\x7d\n" ++
  "    exec(source_code,namespace)\n" ++
  "    module_obj=sys.modules[module_name]\n" ++
  "    for key, value in namespace.items():\n" ++
  "        if not key.startswith('__'):\n" ++
  "            setattr(module_obj,key,value)\n" ++
  "    lazy=namespace.get('__getattr__')\n" ++
  "    if lazy is not None:\n" ++
  "        # Class-as-module attribute misses never reach a module-level\n" ++
  "        # __getattr__, so PEP-562 lazy exports are resolved by\n" ++
  "        # _materialize_lazy_exports after every module is populated.\n" ++
  "        _lazy_pending.append((module_obj,lazy,namespace.get('__all__',()),tuple(namespace)))\n" ++
  "    if len(parts)>1 and parts[0] in sys.modules:\n" ++
  "        setattr(sys.modules[parts[0]],parts[1],module_obj)\n" ++
  "def _materialize_lazy_exports():\n" ++
  "    # Runs after population settles, so a resolution failure means the\n" ++
  "    # providing submodule is structurally absent from this deploy (the\n" ++
  "    # walker stages only what eager imports reach).  The name is left\n" ++
  "    # off, matching a flash deploy where the file is not on the board;\n" ++
  "    # a test importing it fails at its own import with the true message.\n" ++
  "    for module_obj, lazy, names, populated in _lazy_pending:\n" ++
  "        for key in names:\n" ++
  "            if key not in populated and not hasattr(module_obj,key):\n" ++
  "                try:\n" ++
  "                    setattr(module_obj,key,lazy(key))\n" ++
  "                except Exception:\n" ++
  "                    pass\n" ++
  "    _lazy_pending[:]=[]\n\n\n" ++
  "\ndef _retry_deferred():\n" ++
  "    while _deferred:\n" ++
  "        remaining=[]\n" ++
  "        progress_made=False\n" ++
  "        for module_name, source_code in _deferred:\n" ++
  "            try:\n" ++
  "                _populate_module(module_name, source_code)\n" ++
  "                progress_made=True\n" ++
  "            except ImportError:\n" ++
  "                remaining.append((module_name, source_code))\n" ++
  "        if not progress_made:\n" ++
  "            raise ImportError(\n" ++
  "                'Unresolved module dependencies: ' + ', '.join(\n" ++
  "                    module_name for module_name, _ in remaining\n" ++
  "                )\n" ++
  "            )\n" ++
  "        _deferred[:]=remaining\n" ++
  "\n_deferred = []\n").toList

/-- What both final scripts begin with. -/
def FINAL_PREFIX : Str := "_retry_deferred()\n_materialize_lazy_exports()\n".toList

/-- The places in the templates. -/
def TEST_SOURCE : Str := "$TEST_SOURCE".toList
@[inherit_doc TEST_SOURCE] def FILTER_REPR : Str := "$FILTER_REPR".toList
@[inherit_doc TEST_SOURCE] def ENTRYPOINT_SOURCE : Str := "$ENTRYPOINT_SOURCE".toList

/-- What stands before, between and after the places in the test template. -/
def TEST_FRONT : Str := "\n_test_namespace=\x7b\x7d\nexec(".toList
@[inherit_doc TEST_FRONT] def TEST_MIDDLE : Str :=
  (",_test_namespace)\n" ++
  "class _TestModule:pass\n" ++
  "for key, value in _test_namespace.items():\n" ++
  "    setattr(_TestModule,key,value)\n" ++
  "from chumicro_test_harness.runner import run_module\n" ++
  "run_module(_TestModule,name_filter=").toList
@[inherit_doc TEST_FRONT] def TEST_BACK : Str := ")\n".toList

/-- The template behind `_TEST_EXECUTION_MARKER`. -/
def testExecutionTemplate : Str :=
  TEST_FRONT ++ (TEST_SOURCE ++ (TEST_MIDDLE ++ (FILTER_REPR ++ TEST_BACK)))

/-- What stands before and after the place in the deploy template. -/
def DEPLOY_FRONT : Str := FINAL_PREFIX ++ "exec(".toList
@[inherit_doc DEPLOY_FRONT] def DEPLOY_BACK : Str := ", \x7b'__name__': '__main__'\x7d)".toList

/-- `_DEPLOY_EXECUTION_TEMPLATE`. -/
def deployExecutionTemplate : Str := DEPLOY_FRONT ++ (ENTRYPOINT_SOURCE ++ DEPLOY_BACK)

/-! ## The builders -/

section Builders

variable (printable : Char → Bool) (prepare : Str → Str)

/-- The statement that registers a stub. -/
def stubBlock (moduleName : Str) : Str :=
  "_register_stub(".toList ++ (PyLiteral.repr printable moduleName ++ ")".toList)

/-- `_build_population_block`. -/
def buildPopulationBlock (moduleName sourceText : Str) : Str :=
  "_m=".toList ++ (PyLiteral.repr printable moduleName ++ (";_s=".toList ++
    (PyLiteral.repr printable (prepare sourceText) ++
      "\ntry:_populate_module(_m,_s)\nexcept ImportError:_deferred.append((_m,_s))".toList)))

/-- `_build_shared_prelude`. -/
def buildSharedPrelude (stagedSources : List (Str × Str)) (budget : ℤ) :
    Except BootstrapExn (List Str) := do
  validateScriptSize "bootstrap helpers".toList HELPER_SCRIPT budget
  let stubScripts ← chunkScriptBlocks
    (stagedSources.map fun staged => (staged.1, stubBlock printable staged.1)) budget
  let populationScripts ← chunkScriptBlocks
    (stagedSources.map fun staged =>
      (staged.1, buildPopulationBlock printable prepare staged.1 staged.2)) budget
  .ok (HELPER_SCRIPT :: (stubScripts ++ populationScripts))

/-- `repr(name_filter) if name_filter else "None"`. -/
def filterRepr (nameFilter : Option Str) : Str :=
  match nameFilter with
  | some (c :: rest) => PyLiteral.repr printable (c :: rest)
  | _ => "None".toList

/-- `_build_test_execution_script`, with the text of the test file. -/
def buildTestExecutionScript (testSource : Str) (nameFilter : Option Str) : Str :=
  strip (FINAL_PREFIX ++
    Replace.replace FILTER_REPR (filterRepr printable nameFilter)
      (Replace.replace TEST_SOURCE (PyLiteral.repr printable testSource) testExecutionTemplate))

/-- `build_circuitpython_bootstrap_scripts`, with the name and the text of the test file. -/
def buildCircuitpythonBootstrapScripts (stagedSources : List (Str × Str))
    (testName testSource : Str) (nameFilter : Option Str) (budget : ℤ) :
    Except BootstrapExn (List Str) :=
  if budget ≤ 0 then .error (.valueError "max_chunk_size_bytes must be positive")
  else do
    let prelude ← buildSharedPrelude printable prepare stagedSources budget
    let finalScript := buildTestExecutionScript printable testSource nameFilter
    validateScriptSize ("test execution for ".toList ++ testName) finalScript budget
    .ok (prelude ++ [finalScript])

/-- `_derive_module_name`. -/
def deriveModuleName (devicePath : Str) : Option Str :=
  let stripped := devicePath.dropWhile (· == '/')
  let stripped := if "lib/".toList <+: stripped then stripped.drop 4 else stripped
  if ¬ ".py".toList <:+ stripped then none
  else
    let stripped :=
      if "/__init__.py".toList <:+ stripped then stripped.take (stripped.length - 12)
      else stripped.take (stripped.length - 3)
    if stripped = [] then none else some (stripped.map fun c => if c = '/' then '.' else c)

/-- `_decode_file_content`. -/
def decodeFileContent (devicePath : Str) (content : List UInt8) : Except BootstrapExn Str :=
  match String.fromUTF8? content.toByteArray with
  | some text => .ok text.toList
  | none => .error (.unicodeDecodeError devicePath)

/-- The files that are staged as modules, but for the entrypoint. -/
def stagedFiles (files : FileMap) (entrypoint : Str) :
    List Str → Except BootstrapExn (List (Str × Str))
  | [] => .ok []
  | devicePath :: rest =>
    if devicePath = entrypoint then stagedFiles files entrypoint rest
    else
      match deriveModuleName devicePath with
      | none => stagedFiles files entrypoint rest
      | some moduleName => do
        let sourceText ← decodeFileContent devicePath (files.content devicePath)
        let staged ← stagedFiles files entrypoint rest
        .ok ((moduleName, sourceText) :: staged)

/-- The last script of a deploy. -/
def deployExecutionScript (entrypointSource : Str) : Str :=
  Replace.replace ENTRYPOINT_SOURCE (PyLiteral.repr printable entrypointSource)
    deployExecutionTemplate

/-- `build_circuitpython_deploy_scripts`. -/
def buildCircuitpythonDeployScripts (files : FileMap) (entrypoint : Str) (budget : ℤ) :
    Except BootstrapExn (List Str) :=
  if budget ≤ 0 then .error (.valueError "max_chunk_size_bytes must be positive")
  else if entrypoint ∉ files.paths then .error (.entrypointMissing entrypoint (sortedPaths files))
  else do
    let entrypointSource ← decodeFileContent entrypoint (files.content entrypoint)
    let stagedSources ← stagedFiles files entrypoint (sortedPaths files)
    let prelude ← buildSharedPrelude printable prepare stagedSources budget
    let finalScript := deployExecutionScript printable entrypointSource
    validateScriptSize ("deploy execution for ".toList ++ entrypoint) finalScript budget
    .ok (prelude ++ [finalScript])

end Builders

/-- `_retry_deferred`, with what populating a module does to the interpreter and whether it works
out, which it does unless it raises an `ImportError`. The error comes with the names in its text. -/
def retryDeferred {σ : Type} (populate : σ → Str × Str → Bool × σ) (s : σ)
    (deferred : List (Str × Str)) : Except (List Str) Unit × σ :=
  let settled := Retry.settle populate s deferred
  (if settled.1 = [] then .ok () else .error (settled.1.map Prod.fst), settled.2)

/-! ## What the scripts do -/

/-- What the statements of the scripts do, once the helpers are defined. `populate` goes to the
deferred modules if an import fails; `runTests` comes with the tests that are run. -/
inductive Command where
  | registerStub (moduleName : Str)
  | populate (moduleName source : Str)
  | retryDeferred
  | materializeLazyExports
  | runTests (source : Str) (selected : Str → Bool)
  | runMain (source : Str)

/-- The text is a string literal, and this is its value. -/
def IsLiteral (literal value : Str) : Prop := PyLiteral.readLiteral literal = some (value, [])

/-- The text is `None` or a string literal. -/
inductive IsFilter : Str → Option Str → Prop
  | none : IsFilter "None".toList none
  | some {literal value : Str} (h : IsLiteral literal value) : IsFilter literal (some value)

/-- **A block of a script and what it does.** -/
inductive Does : Str → Command → Prop
  | registerStub {literal name : Str} (h : IsLiteral literal name) :
      Does ("_register_stub(".toList ++ (literal ++ ")".toList)) (.registerStub name)
  | populate {nameLiteral sourceLiteral name source : Str} (hname : IsLiteral nameLiteral name)
      (hsource : IsLiteral sourceLiteral source) :
      Does ("_m=".toList ++ (nameLiteral ++ (";_s=".toList ++ (sourceLiteral ++
        "\ntry:_populate_module(_m,_s)\nexcept ImportError:_deferred.append((_m,_s))".toList))))
        (.populate name source)
  | retryDeferred : Does "_retry_deferred()".toList .retryDeferred
  | materializeLazyExports : Does "_materialize_lazy_exports()".toList .materializeLazyExports
  | runTests {sourceLiteral filterLiteral source : Str} {nameFilter : Option Str}
      (hsource : IsLiteral sourceLiteral source) (hfilter : IsFilter filterLiteral nameFilter) :
      Does (TEST_FRONT ++ (sourceLiteral ++ (TEST_MIDDLE ++ (filterLiteral ++ ")".toList))))
        (.runTests source (selects nameFilter))
  | runMain {literal source : Str} (h : IsLiteral literal source) :
      Does ("exec(".toList ++ (literal ++ DEPLOY_BACK)) (.runMain source)

/-- A script of such blocks, and what it does. -/
def Executes (script : Str) (commands : List Command) : Prop :=
  ∃ blocks, script = joinLines blocks ∧ List.Forall₂ Does blocks commands

/-- Scripts one after another. -/
def ExecutesAll (scripts : List Str) (commands : List Command) : Prop :=
  ∃ parts, List.Forall₂ Executes scripts parts ∧ parts.flatten = commands

/-- **What is expected of the scripts**: none is larger than the budget; after the helpers, all
stubs are registered, then every module is populated once with its prepared source, in the order of
the list, and the last script settles what was deferred and does what the scripts are for. -/
def Faithful (prepare : Str → Str) (budget : ℤ) (stagedSources : List (Str × Str)) (last : Command)
    (scripts : List Str) : Prop :=
  (∀ script ∈ scripts, (utf8Length script : ℤ) ≤ budget) ∧
  ∃ stubs populations final, scripts = HELPER_SCRIPT :: (stubs ++ populations) ++ [final] ∧
    ExecutesAll stubs (stagedSources.map fun staged => .registerStub staged.1) ∧
    ExecutesAll populations
      (stagedSources.map fun staged => .populate staged.1 (prepare staged.2)) ∧
    Executes final [.retryDeferred, .materializeLazyExports, last]

/-- **What is expected of `_retry_deferred`**: each deferred module is populated once, but for those
that are left, which have all failed again since anything was populated, and which the error names.
If populating a module works out once those populated before it suffice, and more of them never
hurt, then the modules left are those that no order of populating the deferred ones can bring in. -/
def Settles {σ : Type} (populate : σ → Str × Str → Bool × σ) (s : σ) (deferred : List (Str × Str))
    (result : Except (List Str) Unit × σ) : Prop :=
  ∃ log left, result.1 = (if left = [] then .ok () else .error (left.map Prod.fst)) ∧
    Retry.Attempts populate s (log ++ left.map fun staged => (staged, false)) result.2 ∧
    (Retry.succeeded log ++ left).Perm deferred ∧
    ∀ (done : σ → Set (Str × Str)) (ready : Set (Str × Str) → Str × Str → Prop),
      Retry.ByReadiness populate done ready →
      (∀ earlier later staged, earlier ⊆ later → ready earlier staged → ready later staged) →
      ∀ staged, staged ∈ left ↔ staged ∈ deferred ∧
        ∀ reached, Retry.Attainable ready deferred (done s) reached → ¬ ready reached staged

end ChuMicro.Deploy
