import ChuMicro.Lib.Worklist

/-!
# The scan for a board reset at import

`source_calls_hard_reset_at_top_level` of `chumicro_workspace/boot_shim.py` looks for a call that
resets the board in the code that runs when a module is imported: a deploy that ships such a module
leaves a board that resets forever.

Syntax trees have a constructor of their own for the nodes that the scan tells apart, and `other`
for all the rest. Leaves that play no part, such as contexts, are left out. The parser is Python's
and a parameter.

## Main definitions

* `Workspace.Node` — syntax trees.
* `Workspace.hardResetLine` — the scan of a module.
* `Workspace.Evaluated` — the nodes that are evaluated at import.

## Main results

* `Workspace.boot_scan` — the scan tells the first reset at import exactly if no reset that comes
  before all others is hidden in a definition.
-/

namespace ChuMicro.Workspace

/-! ## Syntax trees -/

/-- A name of an `import` statement. -/
structure Alias where
  name : String
  asname : Option String

/-- A node of a syntax tree, with its children in order. Of the parts of a definition that are not
its arguments or its body, `outer` has the decorators, the annotation of what is returned, and type
parameters; the bases of a class are like arguments. -/
inductive Node where
  | functionDef (isAsync : Bool) (arguments body outer : List Node)
  | classDef (bases body outer : List Node)
  | lambda (arguments body : List Node)
  | call (lineno : ℕ) (func : Node) (arguments : List Node)
  | attr (value : Node) (name : String)
  | name (id : String)
  | importNames (names : List Alias)
  | importFrom (module : Option String) (names : List Alias)
  | other (children : List Node)

namespace Node

/-- `ast.iter_child_nodes`. -/
def children : Node → List Node
  | functionDef _ arguments body outer => arguments ++ body ++ outer
  | classDef bases body outer => bases ++ body ++ outer
  | lambda arguments body => arguments ++ body
  | call _ func arguments => func :: arguments
  | attr value _ => [value]
  | name _ => []
  | importNames _ => []
  | importFrom _ _ => []
  | other children => children

/-- The nodes that the scan prunes at. -/
def isDefinition : Node → Bool
  | functionDef .. => true
  | classDef .. => true
  | lambda .. => true
  | _ => false

/-- The children that are evaluated whenever the node is: all of them, but for the body of a
function or a lambda. -/
def evaluated : Node → List Node
  | functionDef _ arguments _ outer => arguments ++ outer
  | lambda arguments _ => arguments
  | node => node.children

mutual

/-- The number of nodes of a tree. -/
def size : Node → ℕ
  | functionDef _ arguments body outer => sizes arguments + sizes body + sizes outer + 1
  | classDef bases body outer => sizes bases + sizes body + sizes outer + 1
  | lambda arguments body => sizes arguments + sizes body + 1
  | call _ func arguments => func.size + sizes arguments + 1
  | attr value _ => value.size + 1
  | name _ => 1
  | importNames _ => 1
  | importFrom _ _ => 1
  | other children => sizes children + 1

/-- The number of nodes of several trees. -/
def sizes : List Node → ℕ
  | [] => 0
  | node :: rest => node.size + sizes rest

end

lemma sum_map_size (nodes : List Node) : (nodes.map size).sum = sizes nodes := by
  induction nodes with
  | nil => rfl
  | cons node rest ih => rw [List.map_cons, List.sum_cons, ih, sizes]

/-- The children of a node make it up. -/
lemma sum_children (node : Node) : (node.children.map size).sum + 1 = node.size := by
  cases node with
  | functionDef isAsync arguments body outer =>
    simp only [children, List.map_append, List.sum_append, sum_map_size, size]
  | classDef bases body outer =>
    simp only [children, List.map_append, List.sum_append, sum_map_size, size]
  | lambda arguments body =>
    simp only [children, List.map_append, List.sum_append, sum_map_size, size]
  | other children => simp only [Node.children, sum_map_size, size]
  | call lineno func arguments =>
    simp only [children, List.map_cons, List.sum_cons, sum_map_size, size]
  | attr value name => simp [children, size]
  | _ => simp [children, size]

end Node

/-! ## The names that reach a reset -/

/-- `_HARD_RESET_MODULES`. -/
def HARD_RESET_MODULES : List String := ["microcontroller", "machine"]

/-- `ast.walk`: a queue of nodes. -/
def astWalk : Worklist Node where
  next := Node.children
  insert new rest := rest ++ new
  size := Node.size
  smaller node := by
    have := node.sum_children
    omega
  perm _ _ := List.perm_append_comm

/-- What a node adds to `module_names`. -/
def moduleNames : Node → List String
  | .importNames names =>
    (names.filter fun entry => entry.name ∈ HARD_RESET_MODULES).map fun entry =>
      entry.asname.getD entry.name
  | _ => []

/-- What a node adds to `reset_names`. -/
def resetNames : Node → List String
  | .importFrom (some module) names =>
    if module ∈ HARD_RESET_MODULES then
      (names.filter fun entry => entry.name = "reset").map fun entry => entry.asname.getD "reset"
    else []
  | _ => []

/-- The two sets of names, as lists. -/
structure LocalNames where
  modules : List String
  resets : List String

/-- `_hard_reset_local_names`. -/
def hardResetLocalNames (body : List Node) : LocalNames :=
  let nodes := astWalk.visited body
  ⟨HARD_RESET_MODULES ++ nodes.flatMap moduleNames, nodes.flatMap resetNames⟩

/-! ## The scan -/

/-- The line of a call that resets the board. -/
def resetLine (names : LocalNames) : Node → Option ℕ
  | .call lineno func _ =>
    match func with
    | .attr (.name id) name => if name = "reset" ∧ id ∈ names.modules then some lineno else none
    | .name id => if id ∈ names.resets then some lineno else none
    | _ => none
  | _ => none

/-- The stack of the scan: definitions are taken off it and nothing is put in their place. -/
def scanStack : Worklist Node where
  next node := if node.isDefinition then [] else node.children
  insert new rest := new.reverse ++ rest
  size := Node.size
  smaller node := by
    have := node.sum_children
    split_ifs
    · rw [List.map_nil, List.sum_nil]
      omega
    · omega
  perm new _ := (List.reverse_perm new).append_right _

/-- What the scan finds in a module, given its statements. -/
def hardResetLine (body : List Node) : Option ℕ :=
  let names := hardResetLocalNames body
  (scanStack.visited body.reverse).foldl (Worklist.least (resetLine names)) none

/-- `source_calls_hard_reset_at_top_level`. Source that does not parse has no line. -/
def sourceCallsHardResetAtTopLevel (parse : String → Option (List Node)) (source : String) :
    Option ℕ :=
  (parse source).bind hardResetLine

/-! ## What runs at import -/

section Import

variable (body : List Node)

/-- The node stands somewhere in the module. -/
def Occurs (node : Node) : Prop :=
  ∃ n ∈ body, Relation.ReflTransGen (fun a b => b ∈ a.children) n node

/-- **The nodes that are evaluated at import**: all that stand outside the bodies of functions and
lambdas. -/
def Evaluated (node : Node) : Prop :=
  ∃ n ∈ body, Relation.ReflTransGen (fun a b => b ∈ a.evaluated) n node

/-- The nodes that stand inside no definition. -/
def AtTopLevel (node : Node) : Prop :=
  ∃ n ∈ body, Relation.ReflTransGen (fun a b => a.isDefinition = false ∧ b ∈ a.children) n node

/-- The nodes that stand inside a definition and are evaluated with it: in a decorator, a default,
an annotation or a base, or in the body of a class. -/
def Hidden (node : Node) : Prop :=
  ∃ definition, AtTopLevel body definition ∧ definition.isDefinition = true ∧
    ∃ n ∈ definition.evaluated, Relation.ReflTransGen (fun a b => b ∈ a.evaluated) n node

/-- `name.reset()` resets the board: the name of one of the modules, or an alias of one. -/
def IsModuleName (name : String) : Prop :=
  name ∈ HARD_RESET_MODULES ∨ ∃ names entry, Occurs body (.importNames names) ∧ entry ∈ names ∧
    entry.name ∈ HARD_RESET_MODULES ∧ name = entry.asname.getD entry.name

/-- `name()` resets the board: it is `reset` as imported from one of the modules. -/
def IsResetName (name : String) : Prop :=
  ∃ module names entry, Occurs body (.importFrom (some module) names) ∧
    module ∈ HARD_RESET_MODULES ∧ entry ∈ names ∧ entry.name = "reset" ∧
    name = entry.asname.getD "reset"

/-- A call, at this line, that resets the board. -/
inductive ResetCall (line : ℕ) : Node → Prop
  | module {name : String} {arguments : List Node} (h : IsModuleName body name) :
      ResetCall line (.call line (.attr (.name name) "reset") arguments)
  | imported {name : String} {arguments : List Node} (h : IsResetName body name) :
      ResetCall line (.call line (.name name) arguments)

/-- **The line of the first reset at import**, or that there is none. -/
structure TellsReset (result : Option ℕ) : Prop where
  some_iff : ∀ line, result = some line ↔
    IsLeast {l | ∃ node, Evaluated body node ∧ ResetCall body l node} line
  none_iff : result = none ↔ ∀ node line, Evaluated body node → ¬ ResetCall body line node

/-- Every reset that is hidden in a definition comes with or after one that is not. -/
def Exposed : Prop :=
  ∀ node line, Hidden body node → ResetCall body line node →
    ∃ node' line', AtTopLevel body node' ∧ ResetCall body line' node' ∧ line' ≤ line

end Import

/-! ## What the scan sees -/

section Scan

variable {body : List Node} {node : Node} {line : ℕ} {name : String}

lemma mem_astWalk : node ∈ astWalk.visited body ↔ Occurs body node := astWalk.mem_visited body

/-- The first set has the names of the modules. -/
lemma mem_modules : name ∈ (hardResetLocalNames body).modules ↔ IsModuleName body name := by
  simp only [hardResetLocalNames, List.mem_append, List.mem_flatMap, mem_astWalk, IsModuleName]
  refine or_congr_right ⟨?_, ?_⟩
  · rintro ⟨node, hoccurs, hname⟩
    cases node with
    | importNames names =>
      obtain ⟨entry, hentry, rfl⟩ := List.mem_map.mp hname
      obtain ⟨hmem, hmodule⟩ := List.mem_filter.mp hentry
      exact ⟨names, entry, hoccurs, hmem, of_decide_eq_true hmodule, rfl⟩
    | _ => cases hname
  · rintro ⟨names, entry, hoccurs, hmem, hmodule, rfl⟩
    exact ⟨_, hoccurs, List.mem_map.mpr
      ⟨entry, List.mem_filter.mpr ⟨hmem, decide_eq_true hmodule⟩, rfl⟩⟩

/-- The second set has the names of the function. -/
lemma mem_resets : name ∈ (hardResetLocalNames body).resets ↔ IsResetName body name := by
  simp only [hardResetLocalNames, List.mem_flatMap, mem_astWalk, IsResetName]
  constructor
  · rintro ⟨node, hoccurs, hname⟩
    cases node with
    | importFrom module names =>
      cases module with
      | none => cases hname
      | some module =>
        rw [resetNames] at hname
        split_ifs at hname with hmodule
        · obtain ⟨entry, hentry, rfl⟩ := List.mem_map.mp hname
          obtain ⟨hmem, hreset⟩ := List.mem_filter.mp hentry
          exact ⟨module, names, entry, hoccurs, hmodule, hmem, of_decide_eq_true hreset, rfl⟩
        · cases hname
    | _ => cases hname
  · rintro ⟨module, names, entry, hoccurs, hmodule, hmem, hreset, rfl⟩
    refine ⟨_, hoccurs, ?_⟩
    rw [resetNames, if_pos hmodule]
    exact List.mem_map.mpr ⟨entry, List.mem_filter.mpr ⟨hmem, decide_eq_true hreset⟩, rfl⟩

/-- **The scan knows a reset call** when it sees one. -/
lemma resetLine_eq_some_iff :
    resetLine (hardResetLocalNames body) node = some line ↔ ResetCall body line node := by
  constructor
  · intro h
    unfold resetLine at h
    split at h
    · split at h
      · split_ifs at h with hname
        obtain ⟨rfl, hmodule⟩ := hname
        cases h
        exact .module (mem_modules.mp hmodule)
      · split_ifs at h with hname
        cases h
        exact .imported (mem_resets.mp hname)
      · cases h
    · cases h
  · rintro (h | h)
    · exact if_pos ⟨rfl, mem_modules.mpr h⟩
    · exact if_pos (mem_resets.mpr h)

/-- The scan visits what stands inside no definition. -/
lemma mem_scanStack : node ∈ scanStack.visited body.reverse ↔ AtTopLevel body node := by
  have hstep : (fun a b => b ∈ scanStack.next a) =
      fun a b : Node => a.isDefinition = false ∧ b ∈ a.children := by
    funext a b
    cases hdefinition : a.isDefinition <;> simp [scanStack, hdefinition]
  simp only [scanStack.mem_visited, Worklist.Leads, hstep, List.mem_reverse, AtTopLevel]

/-- A node that is evaluated stands inside no definition, or is evaluated with one. -/
lemma evaluated_iff : Evaluated body node ↔ AtTopLevel body node ∨ Hidden body node := by
  have hplain : ∀ {a : Node}, a.isDefinition = false → a.evaluated = a.children := by
    intro a hdefinition
    cases a <;> first | rfl | cases hdefinition
  constructor
  · -- the first definition on the way, if there is one
    have hcases : ∀ {n : Node}, Relation.ReflTransGen (fun a b => b ∈ a.evaluated) n node →
        Relation.ReflTransGen (fun a b => a.isDefinition = false ∧ b ∈ a.children) n node ∨
        ∃ d, Relation.ReflTransGen (fun a b => a.isDefinition = false ∧ b ∈ a.children) n d ∧
          d.isDefinition = true ∧
          ∃ m ∈ d.evaluated, Relation.ReflTransGen (fun a b => b ∈ a.evaluated) m node := by
      intro n hchain
      induction hchain using Relation.ReflTransGen.head_induction_on with
      | refl => exact .inl .refl
      | @head a b hab hchain ih =>
        cases hdefinition : a.isDefinition with
        | true => exact .inr ⟨a, .refl, hdefinition, b, hab, hchain⟩
        | false =>
          have hstep : a.isDefinition = false ∧ b ∈ a.children :=
            ⟨hdefinition, hplain hdefinition ▸ hab⟩
          rcases ih with htop | ⟨d, hd, hrest⟩
          · exact .inl (.head hstep htop)
          · exact .inr ⟨d, .head hstep hd, hrest⟩
    rintro ⟨n, hn, hchain⟩
    rcases hcases hchain with htop | ⟨d, hd, hdefinition, hrest⟩
    · exact .inl ⟨n, hn, htop⟩
    · exact .inr ⟨d, ⟨n, hn, hd⟩, hdefinition, hrest⟩
  · have hmono : ∀ {n m : Node}, Relation.ReflTransGen
        (fun a b => a.isDefinition = false ∧ b ∈ a.children) n m →
        Relation.ReflTransGen (fun a b => b ∈ a.evaluated) n m :=
      fun h => h.lift id fun a b hab => show b ∈ a.evaluated from (hplain hab.1).symm ▸ hab.2
    rintro (⟨n, hn, hchain⟩ | ⟨d, ⟨n, hn, hchain⟩, -, m, hm, hrest⟩)
    · exact ⟨n, hn, hmono hchain⟩
    · exact ⟨n, hn, (hmono hchain).trans (.head hm hrest)⟩

/-- What the scan finds is the first reset that stands inside no definition. -/
lemma hardResetLine_spec (body : List Node) :
    (∀ line, hardResetLine body = some line ↔
      IsLeast {l | ∃ node, AtTopLevel body node ∧ ResetCall body l node} line) ∧
    (hardResetLine body = none ↔
      ∀ node line, AtTopLevel body node → ¬ ResetCall body line node) := by
  obtain ⟨hsome, hnone⟩ := @Worklist.least_foldl _ (resetLine (hardResetLocalNames body))
    (scanStack.visited body.reverse) none
  refine ⟨fun line => (hsome line).trans ?_, hnone.trans ?_⟩
  · simp only [reduceCtorEq, false_or, mem_scanStack, resetLine_eq_some_iff]
  · simp only [true_and, mem_scanStack, Option.eq_none_iff_forall_ne_some, ne_eq,
      resetLine_eq_some_iff]
    exact ⟨fun h node line htop => h node htop line, fun h node htop line => h node line htop⟩

/-- **The scan tells the first reset at import** exactly if none of those that it does not see comes
before all that it sees. -/
lemma tellsReset_iff (body : List Node) :
    TellsReset body (hardResetLine body) ↔ Exposed body := by
  obtain ⟨hsome, hnone⟩ := hardResetLine_spec body
  constructor
  · intro h node line hhidden hreset
    have hevaluated : Evaluated body node := evaluated_iff.mpr (.inr hhidden)
    cases hresult : hardResetLine body with
    | none => exact absurd hreset (h.none_iff.mp hresult node line hevaluated)
    | some first =>
      obtain ⟨node', htop, hreset'⟩ := ((hsome first).mp hresult).1
      exact ⟨node', first, htop, hreset',
        ((h.some_iff first).mp hresult).2 ⟨node, hevaluated, hreset⟩⟩
  · intro h
    refine ⟨fun line => (hsome line).trans ⟨?_, ?_⟩, hnone.trans ⟨?_, ?_⟩⟩
    · rintro ⟨⟨node, htop, hreset⟩, hle⟩
      refine ⟨⟨node, evaluated_iff.mpr (.inl htop), hreset⟩, ?_⟩
      rintro l ⟨node', hevaluated, hreset'⟩
      rcases evaluated_iff.mp hevaluated with htop' | hhidden
      · exact hle ⟨node', htop', hreset'⟩
      · obtain ⟨node'', l', htop'', hreset'', hle'⟩ := h node' l hhidden hreset'
        exact (hle ⟨node'', htop'', hreset''⟩).trans hle'
    · rintro ⟨⟨node, hevaluated, hreset⟩, hle⟩
      have hle' : ∀ l, (∃ node, AtTopLevel body node ∧ ResetCall body l node) → line ≤ l :=
        fun l ⟨node', htop', hreset'⟩ => hle ⟨node', evaluated_iff.mpr (.inl htop'), hreset'⟩
      refine ⟨?_, fun l hl => hle' l hl⟩
      rcases evaluated_iff.mp hevaluated with htop | hhidden
      · exact ⟨node, htop, hreset⟩
      · obtain ⟨node', l, htop', hreset', hl⟩ := h node line hhidden hreset
        have heq : l = line := hl.antisymm (hle' l ⟨node', htop', hreset'⟩)
        exact ⟨node', htop', heq ▸ hreset'⟩
    · intro hno node line hevaluated hreset
      rcases evaluated_iff.mp hevaluated with htop | hhidden
      · exact hno node line htop hreset
      · obtain ⟨node', l, htop', hreset', -⟩ := h node line hhidden hreset
        exact hno node' l htop' hreset'
    · exact fun hno node line htop => hno node line (evaluated_iff.mpr (.inl htop))

end Scan

/-- **The scan for a reset at import**, for every parser and every source: source that does not
parse has no line, and of a module the scan tells the line of the first reset that runs at import
exactly if every such reset inside a definition comes with or after one that is inside none. The
scan prunes at definitions as if nothing of them ran at import, though the decorators, defaults,
annotations and bases do, and the body of a class. -/
theorem boot_scan (parse : String → Option (List Node)) (source : String) :
    (parse source = none → sourceCallsHardResetAtTopLevel parse source = none) ∧
    ∀ body, parse source = some body →
      (TellsReset body (sourceCallsHardResetAtTopLevel parse source) ↔ Exposed body) := by
  refine ⟨fun h => ?_, fun body h => ?_⟩
  · rw [sourceCallsHardResetAtTopLevel, h]
    rfl
  · rw [sourceCallsHardResetAtTopLevel, h]
    exact tellsReset_iff body

/-- `def f(x=machine.reset()): pass`. -/
def resetInDefault : List Node :=
  [.functionDef false [.other [.other [], .call 1 (.attr (.name "machine") "reset") []]]
    [.other []] []]

/-- A reset in the default of an argument runs at import, and is not found. -/
theorem resetInDefault_missed :
    hardResetLine resetInDefault = none ∧
      ¬ TellsReset resetInDefault (hardResetLine resetInDefault) := by
  have hnone : hardResetLine resetInDefault = none := by
    refine (hardResetLine_spec _).2.mpr ?_
    rintro node line ⟨n, hn, hchain⟩ hreset
    rw [List.mem_singleton.mp hn] at hchain
    rcases hchain.cases_head with rfl | ⟨b, ⟨hb, -⟩, -⟩
    · cases hreset
    · cases hb
  have hevaluated : Evaluated resetInDefault (.call 1 (.attr (.name "machine") "reset") []) := by
    refine ⟨_, List.mem_cons_self, ?_⟩
    exact .head (List.mem_append_left _ List.mem_cons_self)
      (.single (List.mem_cons_of_mem _ List.mem_cons_self))
  exact ⟨hnone, fun h => h.none_iff.mp hnone _ 1 hevaluated (.module (.inl (by decide)))⟩

theorem boot_scan_resetInDefault :
    TellsReset resetInDefault (sourceCallsHardResetAtTopLevel (fun _ => some resetInDefault) "") ↔
      Exposed resetInDefault :=
  (boot_scan (fun _ => some resetInDefault) "").2 resetInDefault rfl

end ChuMicro.Workspace
