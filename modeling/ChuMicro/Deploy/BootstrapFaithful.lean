import ChuMicro.Deploy.Bootstrap

/-!
# RAM mode runs what it was given

Scripts that are joined blocks do what the blocks do, and `_chunk_script_blocks` keeps the blocks in
order. A source is embedded as a literal, so it arrives as it is, unless a later replacement changes
the literal: that of the filter does in a test that contains `$FILTER_REPR`.

## Main results

* `Deploy.chunkScriptBlocks_spec` — the scripts of some blocks.
* `Deploy.bootstrap_faithful_iff` — the scripts of both builders, and `_retry_deferred`.
-/

namespace ChuMicro.Deploy

/-! ## Packing -/

section Packing

variable {budget : ℤ} {blocks : List (Str × Str)} {current scripts : List Str}

lemma validateScriptSize_eq_ok {name text : Str} {found : Unit} :
    validateScriptSize name text budget = .ok found ↔ (utf8Length text : ℤ) ≤ budget := by
  rw [validateScriptSize]
  split_ifs with h
  · exact iff_of_true rfl h
  · exact iff_of_false (fun h' => by cases h') h

lemma validateScriptSize_of_le {name text : Str} (h : (utf8Length text : ℤ) ≤ budget) :
    validateScriptSize name text budget = .ok () :=
  if_pos h

/-- The loop groups what it has and what comes, and no group is too large.

**Proof sketch.** Induction on the blocks. A block that makes the group too large begins the next
one, where it fits by itself. -/
lemma chunkLoop_spec (h : chunkLoop budget blocks current = .ok scripts)
    (hcurrent : current ≠ [] → (utf8Length (joinLines current) : ℤ) ≤ budget) :
    ∃ groups : List (List Str), scripts = groups.map joinLines ∧
      groups.flatten = current ++ blocks.map Prod.snd ∧
      ∀ script ∈ scripts, (utf8Length script : ℤ) ≤ budget := by
  induction blocks generalizing current scripts with
  | nil =>
    rw [chunkLoop, Except.ok.injEq] at h
    subst h
    split_ifs with hempty
    · exact ⟨[], rfl, by rw [hempty]; rfl, fun _ h => by cases h⟩
    · exact ⟨[current], rfl, by simp, List.forall_mem_singleton.mpr (hcurrent hempty)⟩
  | cons block rest ih =>
    rw [chunkLoop, bind_eq_ok] at h
    obtain ⟨found, hvalid, h⟩ := h
    rw [validateScriptSize_eq_ok] at hvalid
    have halone : (utf8Length (joinLines [block.2]) : ℤ) ≤ budget := by
      rw [joinLines, List.intercalate_singleton]
      exact hvalid
    dsimp only at h
    split_ifs at h with hfull
    · rw [bind_eq_ok] at h
      obtain ⟨later, hlater, heq⟩ := h
      cases heq
      obtain ⟨groups, rfl, hflatten, hsizes⟩ := ih hlater fun _ => halone
      refine ⟨current :: groups, rfl, ?_, List.forall_mem_cons.mpr ⟨hcurrent hfull.1, hsizes⟩⟩
      rw [List.flatten_cons, hflatten, List.map_cons]
      rfl
    · obtain ⟨groups, hscripts, hflatten, hsizes⟩ := ih h fun _ => by
        rw [not_and_or, not_not, not_lt] at hfull
        rcases hfull with rfl | hfits
        · exact halone
        · exact hfits
      exact ⟨groups, hscripts, by rw [hflatten, List.append_assoc]; rfl, hsizes⟩

/-- **The scripts of some blocks**: the blocks in order, in scripts that are not too large. -/
theorem chunkScriptBlocks_spec (h : chunkScriptBlocks blocks budget = .ok scripts) :
    ∃ groups : List (List Str), scripts = groups.map joinLines ∧
      groups.flatten = blocks.map Prod.snd ∧
      ∀ script ∈ scripts, (utf8Length script : ℤ) ≤ budget :=
  chunkLoop_spec h fun h => absurd rfl h

/-- Grouped blocks do what the blocks do. -/
lemma executesAll_of_does {groups : List (List Str)} {commands : List Command}
    (h : List.Forall₂ Does groups.flatten commands) :
    ExecutesAll (groups.map joinLines) commands := by
  induction groups generalizing commands with
  | nil =>
    cases h
    exact ⟨[], .nil, rfl⟩
  | cons group groups ih =>
    rw [List.flatten_cons] at h
    have hfront := List.forall₂_take_append _ _ _ h.flip
    have hback := List.forall₂_drop_append _ _ _ h.flip
    obtain ⟨parts, hparts, hflatten⟩ := ih hback.flip
    refine ⟨commands.take group.length :: parts, .cons ⟨group, rfl, hfront.flip⟩ hparts, ?_⟩
    rw [List.flatten_cons, hflatten, List.take_append_drop]

end Packing

/-! ## The prelude -/

section Prelude

variable {printable : Char → Bool} {prepare : Str → Str} {stagedSources : List (Str × Str)}
  {budget : ℤ} {scripts : List Str}

lemma isLiteral_repr (printable : Char → Bool) (text : Str) :
    IsLiteral (PyLiteral.repr printable text) text := by
  have := PyLiteral.readLiteral_repr printable text []
  rwa [List.append_nil] at this

/-- Some blocks, one for each staged source, in scripts that do what the blocks do. -/
lemma chunkScriptBlocks_executes {block : Str × Str → Str} {command : Str × Str → Command}
    (hdoes : ∀ staged, Does (block staged) (command staged))
    (h : chunkScriptBlocks (stagedSources.map fun staged => (staged.1, block staged)) budget =
      .ok scripts) :
    ExecutesAll scripts (stagedSources.map command) ∧
      ∀ script ∈ scripts, (utf8Length script : ℤ) ≤ budget := by
  obtain ⟨groups, rfl, hflatten, hsizes⟩ := chunkScriptBlocks_spec h
  refine ⟨executesAll_of_does ?_, hsizes⟩
  rw [hflatten, List.map_map, List.forall₂_map_left_iff, List.forall₂_map_right_iff]
  exact List.forall₂_same.mpr fun staged _ => hdoes staged

/-- **The scripts before the last one**. -/
lemma buildSharedPrelude_spec
    (h : buildSharedPrelude printable prepare stagedSources budget = .ok scripts) :
    (∀ script ∈ scripts, (utf8Length script : ℤ) ≤ budget) ∧
      ∃ stubs populations, scripts = HELPER_SCRIPT :: (stubs ++ populations) ∧
        ExecutesAll stubs (stagedSources.map fun staged => .registerStub staged.1) ∧
        ExecutesAll populations
          (stagedSources.map fun staged => .populate staged.1 (prepare staged.2)) := by
  rw [buildSharedPrelude, bind_eq_ok] at h
  obtain ⟨found, hhelper, h⟩ := h
  rw [validateScriptSize_eq_ok] at hhelper
  obtain ⟨stubs, hstubs, h⟩ := bind_eq_ok.mp h
  obtain ⟨populations, hpopulations, heq⟩ := bind_eq_ok.mp h
  cases heq
  obtain ⟨hregister, hregistersize⟩ := chunkScriptBlocks_executes
    (fun staged => Does.registerStub (isLiteral_repr printable staged.1)) hstubs
  obtain ⟨hpopulate, hpopulatesize⟩ := chunkScriptBlocks_executes
    (fun staged => Does.populate (isLiteral_repr printable staged.1)
      (isLiteral_repr printable (prepare staged.2))) hpopulations
  refine ⟨?_, stubs, populations, rfl, hregister, hpopulate⟩
  exact List.forall_mem_cons.mpr
    ⟨hhelper, List.forall_mem_append.mpr ⟨hregistersize, hpopulatesize⟩⟩

/-- With the prelude in front, the last script is all that matters. -/
lemma faithful_append_iff {last : Command} {final : Str}
    (h : buildSharedPrelude printable prepare stagedSources budget = .ok scripts)
    (hfinal : (utf8Length final : ℤ) ≤ budget) :
    Faithful prepare budget stagedSources last (scripts ++ [final]) ↔
      Executes final [.retryDeferred, .materializeLazyExports, last] := by
  obtain ⟨hsizes, stubs, populations, rfl, hstubs, hpopulations⟩ := buildSharedPrelude_spec h
  constructor
  · rintro ⟨-, stubs', populations', final', heq, -, -, hexecutes⟩
    obtain ⟨-, hlast⟩ := List.append_inj' heq rfl
    rw [List.singleton_inj.mp hlast]
    exact hexecutes
  · intro hexecutes
    refine ⟨List.forall_mem_append.mpr ⟨hsizes, List.forall_mem_singleton.mpr hfinal⟩, ?_⟩
    exact ⟨stubs, populations, final, rfl, hstubs, hpopulations, hexecutes⟩

end Prelude

/-! ## Large budgets -/

section Budget

variable {budget : ℤ} {blocks : List (Str × Str)}

lemma exists_chunkLoop (h : ∀ block ∈ blocks, (utf8Length block.2 : ℤ) ≤ budget)
    (current : List Str) : ∃ scripts, chunkLoop budget blocks current = .ok scripts := by
  induction blocks generalizing current with
  | nil => exact ⟨_, rfl⟩
  | cons block rest ih =>
    obtain ⟨hblock, hrest⟩ := List.forall_mem_cons.mp h
    have hvalid : validateScriptSize block.1 block.2 budget = .ok () :=
      validateScriptSize_of_le hblock
    rw [chunkLoop, hvalid, ok_bind]
    dsimp only
    split_ifs
    · obtain ⟨scripts, hscripts⟩ := ih hrest [block.2]
      exact ⟨_, by rw [hscripts, ok_bind]⟩
    · exact ih hrest _

/-- Some blocks fit into a large budget. -/
lemma exists_le_budget (blocks : List (Str × Str)) :
    ∃ least : ℤ, ∀ budget, least ≤ budget →
      ∀ block ∈ blocks, (utf8Length block.2 : ℤ) ≤ budget := by
  induction blocks with
  | nil => exact ⟨0, fun _ _ _ h => by cases h⟩
  | cons block rest ih =>
    obtain ⟨least, h⟩ := ih
    refine ⟨max least (utf8Length block.2), fun budget hbudget => ?_⟩
    exact List.forall_mem_cons.mpr
      ⟨(le_max_right _ _).trans hbudget, h budget ((le_max_left _ _).trans hbudget)⟩

/-- With a large budget nothing is too large. -/
lemma exists_budget (printable : Char → Bool) (prepare : Str → Str)
    (stagedSources : List (Str × Str)) (final : Str) :
    ∃ least : ℤ, 0 < least ∧ ∀ budget, least ≤ budget → (utf8Length final : ℤ) ≤ budget ∧
      ∃ prelude, buildSharedPrelude printable prepare stagedSources budget = .ok prelude := by
  obtain ⟨least₁, hstubs⟩ := exists_le_budget
    (stagedSources.map fun staged => (staged.1, stubBlock printable staged.1))
  obtain ⟨least₂, hpopulations⟩ := exists_le_budget (stagedSources.map fun staged =>
    (staged.1, buildPopulationBlock printable prepare staged.1 staged.2))
  refine ⟨max (max least₁ least₂) (utf8Length HELPER_SCRIPT + utf8Length final + 1),
    lt_max_of_lt_right (by omega), fun budget hbudget => ?_⟩
  obtain ⟨hleft, hright⟩ := max_le_iff.mp hbudget
  obtain ⟨hleft₁, hleft₂⟩ := max_le_iff.mp hleft
  obtain ⟨stubs, hstubs⟩ := exists_chunkLoop (hstubs budget hleft₁) []
  obtain ⟨populations, hpopulations⟩ := exists_chunkLoop (hpopulations budget hleft₂) []
  have hhelper : validateScriptSize "bootstrap helpers".toList HELPER_SCRIPT budget = .ok () :=
    validateScriptSize_of_le (by omega)
  refine ⟨by omega, HELPER_SCRIPT :: (stubs ++ populations), ?_⟩
  rw [buildSharedPrelude, hhelper, ok_bind, chunkScriptBlocks, hstubs, ok_bind, chunkScriptBlocks,
    hpopulations, ok_bind]

end Budget

/-! ## The last script -/

section Final

variable {printable : Char → Bool} {nameFilter : Option Str} {source : Str} {quote : Char}

lemma joinLines_final (block : Str) :
    joinLines ["_retry_deferred()".toList, "_materialize_lazy_exports()".toList, block] =
      FINAL_PREFIX ++ block := by
  have hstart : FINAL_PREFIX = "_retry_deferred()".toList ++ (['\n'] ++
      ("_materialize_lazy_exports()".toList ++ ['\n'])) := by decide +kernel
  rw [hstart]
  simp [joinLines, List.intercalate]

/-- The last script and its last command. -/
lemma executes_final {block : Str} {command : Command} (h : Does block command) :
    Executes (FINAL_PREFIX ++ block) [.retryDeferred, .materializeLazyExports, command] :=
  ⟨["_retry_deferred()".toList, "_materialize_lazy_exports()".toList, block],
    (joinLines_final block).symm,
    .cons .retryDeferred (.cons .materializeLazyExports (.cons h .nil))⟩

lemma exists_of_executes_final {script : Str} {command : Command}
    (h : Executes script [.retryDeferred, .materializeLazyExports, command]) :
    ∃ block, script = FINAL_PREFIX ++ block ∧ Does block command := by
  obtain ⟨blocks, rfl, hblocks⟩ := h
  cases hblocks with
  | cons hretry hblocks =>
    cases hblocks with
    | cons hmaterialize hblocks =>
      cases hblocks with
      | cons hlast hnil =>
        cases hnil
        cases hretry
        cases hmaterialize
        exact ⟨_, joinLines_final _, hlast⟩

/-- The places begin with a dollar sign, and there is none anywhere else in the templates. -/
lemma places :
    TEST_SOURCE = '$' :: "TEST_SOURCE".toList ∧ FILTER_REPR = '$' :: "FILTER_REPR".toList ∧
      ENTRYPOINT_SOURCE = '$' :: "ENTRYPOINT_SOURCE".toList ∧
      (∀ text ∈ [TEST_FRONT, TEST_MIDDLE, TEST_BACK, DEPLOY_FRONT, DEPLOY_BACK,
        "FILTER_REPR".toList, "FILTER_REPR".toList ++ TEST_BACK], '$' ∉ text) ∧
      (∀ c ∈ FILTER_REPR, PyLiteral.IsPlain c) ∧ '$' ∉ PyLiteral.escapeLetters := by
  unfold TEST_MIDDLE
  simp only [-String.reduceToList, String.toList_append]
  decide +kernel

/-- **A deploy ends with the entrypoint.** -/
lemma deployExecutionScript_executes (printable : Char → Bool) (source : Str) :
    Executes (deployExecutionScript printable source)
      [.retryDeferred, .materializeLazyExports, .runMain source] := by
  obtain ⟨-, -, hplace, hnone, -⟩ := places
  rw [deployExecutionScript, deployExecutionTemplate, hplace,
    Replace.replace_append_of_notMem (hnone _ (by simp)),
    Replace.replace_word_append (List.cons_ne_nil _ _),
    Replace.replace_of_notMem (hnone _ (by simp)), DEPLOY_FRONT, List.append_assoc]
  exact executes_final (.runMain (isLiteral_repr printable source))

/-- The test in its place. -/
lemma replace_testSource (literal : Str) :
    Replace.replace TEST_SOURCE literal testExecutionTemplate =
      TEST_FRONT ++ (literal ++ (TEST_MIDDLE ++ (FILTER_REPR ++ TEST_BACK))) := by
  obtain ⟨hplace, hfilter, -, hnone, -⟩ := places
  have hdiffer : ¬ '$' :: "TEST_SOURCE".toList <+: '$' :: ("FILTER_REPR".toList ++ TEST_BACK) := by
    rw [List.cons_prefix_cons]
    rintro ⟨-, h⟩
    exact absurd (List.cons_prefix_cons.mp h).1 (by decide)
  rw [testExecutionTemplate, hplace, hfilter,
    Replace.replace_append_of_notMem (hnone _ (by simp)),
    Replace.replace_word_append (List.cons_ne_nil _ _),
    Replace.replace_append_of_notMem (hnone _ (by simp)), List.cons_append,
    Replace.replace_cons_of_not_isPrefix hdiffer, Replace.replace_of_notMem (hnone _ (by simp))]

lemma dropWhile_final (middle : Str) :
    (FINAL_PREFIX ++ middle).dropWhile isSpace = FINAL_PREFIX ++ middle := by
  have hfirst : ∃ tail, FINAL_PREFIX = '_' :: tail := ⟨FINAL_PREFIX.tail, by decide +kernel⟩
  obtain ⟨tail, htail⟩ := hfirst
  have hspace : isSpace '_' = false := by decide
  rw [htail, List.cons_append, List.dropWhile_cons, hspace]
  rfl

/-- All that `strip` takes is the newline of the template. -/
lemma strip_final (middle : Str) :
    strip (FINAL_PREFIX ++ (middle ++ TEST_BACK)) = FINAL_PREFIX ++ (middle ++ ")".toList) := by
  have hback : TEST_BACK = ")".toList ++ ['\n'] := by decide
  rw [strip, dropWhile_final, hback, ← List.append_assoc middle, ← List.append_assoc FINAL_PREFIX,
    List.rdropWhile_concat_pos _ _ _ (by decide)]
  have hlast : FINAL_PREFIX ++ (middle ++ ")".toList) = (FINAL_PREFIX ++ middle) ++ [')'] :=
    (List.append_assoc _ _ _).symm
  rw [hlast, List.rdropWhile_concat_neg _ _ _ (by decide)]

/-- What is passed for the filter selects the same tests. -/
lemma exists_isFilter (printable : Char → Bool) (nameFilter : Option Str) :
    ∃ passed, IsFilter (filterRepr printable nameFilter) passed ∧
      selects passed = selects nameFilter := by
  rcases nameFilter with _ | _ | ⟨c, rest⟩
  · exact ⟨none, .none, rfl⟩
  · exact ⟨none, .none, funext fun name => by simp [selects]⟩
  · exact ⟨some (c :: rest), .some (isLiteral_repr printable (c :: rest)), rfl⟩

/-- What is passed for the filter does not begin like a place. -/
lemma exists_filterRepr (printable : Char → Bool) (nameFilter : Option Str) :
    ∃ c tail, filterRepr printable nameFilter = c :: tail ∧ c ≠ PyLiteral.backslash ∧ c ≠ '$' := by
  rcases nameFilter with _ | _ | ⟨c, rest⟩
  · exact ⟨'N', "one".toList, rfl, by decide, by decide⟩
  · exact ⟨'N', "one".toList, rfl, by decide, by decide⟩
  · refine ⟨_, _, rfl, ?_⟩
    rcases PyLiteral.quoteOf_cases (c :: rest) with h | h
    · rw [h]
      exact ⟨by decide, by decide⟩
    · rw [h]
      exact ⟨by decide, by decide⟩

lemma filterPlace_plain (hquote : quote = PyLiteral.singleQuote ∨ quote = PyLiteral.doubleQuote) :
    ∀ e ∈ '$' :: "FILTER_REPR".toList, e ≠ PyLiteral.backslash ∧ e ≠ quote := by
  obtain ⟨-, hfilter, -, -, hplain, -⟩ := places
  intro e he
  obtain ⟨-, -, hsingle, hdouble, hbackslash⟩ := hplain e (hfilter ▸ he)
  refine ⟨hbackslash, ?_⟩
  rcases hquote with rfl | rfl
  · exact hsingle
  · exact hdouble

/-- **A test without the place of the filter is run as it is.** -/
lemma testExecutionScript_executes (printable : Char → Bool) (nameFilter : Option Str)
    (h : ¬ FILTER_REPR <:+: source) :
    Executes (buildTestExecutionScript printable source nameFilter)
      [.retryDeferred, .materializeLazyExports, .runTests source (selects nameFilter)] := by
  obtain ⟨-, hfilter, -, hnone, -, hescape⟩ := places
  have hquote := PyLiteral.quoteOf_cases source
  have hplain := filterPlace_plain hquote
  have hliteral : ∀ rest, Replace.replace FILTER_REPR (filterRepr printable nameFilter)
      (PyLiteral.repr printable source ++ rest) = PyLiteral.repr printable source ++
        Replace.replace FILTER_REPR (filterRepr printable nameFilter) rest := by
    intro rest
    rw [PyLiteral.repr, ← List.cons_append, hfilter]
    refine Replace.replace_append_of_not_isInfix (fun hmem => (hplain _ hmem).2 rfl) fun hinfix =>
      ?_
    exact h (hfilter ▸ PyLiteral.isInfix_of_isInfix_body hquote hescape hplain hinfix)
  obtain ⟨passed, hpassed, hselects⟩ := exists_isFilter printable nameFilter
  have hscript : buildTestExecutionScript printable source nameFilter =
      FINAL_PREFIX ++ (TEST_FRONT ++ (PyLiteral.repr printable source ++ (TEST_MIDDLE ++
        (filterRepr printable nameFilter ++ ")".toList)))) := by
    rw [buildTestExecutionScript, replace_testSource, hfilter,
      Replace.replace_append_of_notMem (hnone TEST_FRONT (by simp)), ← hfilter, hliteral, hfilter,
      Replace.replace_append_of_notMem (hnone TEST_MIDDLE (by simp)),
      Replace.replace_word_append (List.cons_ne_nil _ _),
      Replace.replace_of_notMem (hnone TEST_BACK (by simp))]
    have hmiddle := strip_final (TEST_FRONT ++ (PyLiteral.repr printable source ++ (TEST_MIDDLE ++
      filterRepr printable nameFilter)))
    simpa only [List.append_assoc] using hmiddle
  rw [hscript, ← hselects]
  exact executes_final (.runTests (isLiteral_repr printable source) hpassed)

/-- **A test with the place of the filter is not.**

**Proof sketch.** Read the literal of the script up to the first place: what stands there now does
not begin with a dollar sign. -/
lemma not_isInfix_of_executes {selected : Str → Bool}
    (h : Executes (buildTestExecutionScript printable source nameFilter)
      [.retryDeferred, .materializeLazyExports, .runTests source selected]) :
    ¬ FILTER_REPR <:+: source := by
  intro hinfix
  obtain ⟨-, hfilter, -, hnone, hallplain, hescape⟩ := places
  have hquote := PyLiteral.quoteOf_cases source
  obtain ⟨front, back, hsource, hnot⟩ :=
    Replace.exists_first (hfilter ▸ List.cons_ne_nil _ _) hinfix
  obtain ⟨block, hblock, hdoes⟩ := exists_of_executes_final h
  -- what the literal of the script begins with
  have hrest : ∃ rest, Replace.replace FILTER_REPR (filterRepr printable nameFilter)
      (PyLiteral.repr printable source ++ (TEST_MIDDLE ++ (FILTER_REPR ++ TEST_BACK))) =
        PyLiteral.quoteOf source :: (PyLiteral.body printable (PyLiteral.quoteOf source) front ++
          (filterRepr printable nameFilter ++ rest)) := by
    have hbody : ∀ {quote : Char}, quote = PyLiteral.singleQuote ∨ quote = PyLiteral.doubleQuote →
        PyLiteral.body printable quote source = PyLiteral.body printable quote front ++
          ('$' :: "FILTER_REPR".toList ++ PyLiteral.body printable quote back) := by
      intro quote hquote
      rw [hsource, PyLiteral.body_append, PyLiteral.body_append,
        PyLiteral.body_of_isPlain hquote hallplain, hfilter]
    have hfirst : ¬ '$' :: "FILTER_REPR".toList <:+:
        PyLiteral.quoteOf source :: PyLiteral.body printable (PyLiteral.quoteOf source) front := by
      intro hfound
      have hmore := List.prefix_append (PyLiteral.quoteOf source ::
        PyLiteral.body printable (PyLiteral.quoteOf source) front) [PyLiteral.quoteOf source]
      exact hnot (hfilter ▸ PyLiteral.isInfix_of_isInfix_body hquote hescape
        (filterPlace_plain hquote) (hfound.trans hmore.isInfix))
    have hreplaced : ∀ rest, Replace.replace ('$' :: "FILTER_REPR".toList)
        (filterRepr printable nameFilter) ((PyLiteral.quoteOf source :: PyLiteral.body printable
          (PyLiteral.quoteOf source) front) ++ ('$' :: "FILTER_REPR".toList ++ rest)) =
          (PyLiteral.quoteOf source :: PyLiteral.body printable (PyLiteral.quoteOf source) front) ++
            (filterRepr printable nameFilter ++ Replace.replace ('$' :: "FILTER_REPR".toList)
              (filterRepr printable nameFilter) rest) :=
      fun _ => Replace.replace_first (hnone "FILTER_REPR".toList (by simp)) hfirst
    have hrepr : ∀ rest, PyLiteral.repr printable source ++ rest =
        (PyLiteral.quoteOf source :: PyLiteral.body printable (PyLiteral.quoteOf source) front) ++
          ('$' :: "FILTER_REPR".toList ++ (PyLiteral.body printable (PyLiteral.quoteOf source)
            back ++ (PyLiteral.quoteOf source :: rest))) := by
      intro rest
      rw [PyLiteral.repr, hbody hquote]
      simp only [List.cons_append, List.append_assoc, List.nil_append]
    rw [hrepr, hfilter]
    exact ⟨_, hreplaced _⟩
  obtain ⟨rest, hrest⟩ := hrest
  -- what is read from it
  have hread : ∃ more, PyLiteral.readLiteral (Replace.replace FILTER_REPR
      (filterRepr printable nameFilter) (PyLiteral.repr printable source ++
        (TEST_MIDDLE ++ (FILTER_REPR ++ TEST_BACK)))) = some (source, more) := by
    cases hdoes with
    | @runTests sourceLiteral filterLiteral _ _ hliteral _ =>
      have hstart : buildTestExecutionScript printable source nameFilter <+: FINAL_PREFIX ++
          (TEST_FRONT ++ Replace.replace FILTER_REPR (filterRepr printable nameFilter)
            (PyLiteral.repr printable source ++ (TEST_MIDDLE ++ (FILTER_REPR ++ TEST_BACK)))) := by
        rw [buildTestExecutionScript, replace_testSource, strip, dropWhile_final, hfilter,
          Replace.replace_append_of_notMem (hnone TEST_FRONT (by simp))]
        exact List.rdropWhile_prefix _ _
      rw [hblock, List.prefix_append_right_inj, List.prefix_append_right_inj] at hstart
      obtain ⟨more, hmore⟩ := hstart
      rw [← hmore, List.append_assoc]
      exact ⟨_, PyLiteral.readLiteral_append hliteral _⟩
  obtain ⟨more, hread⟩ := hread
  rw [hrest, PyLiteral.readLiteral, if_pos hquote, PyLiteral.readBody_body hquote] at hread
  obtain ⟨⟨text, more'⟩, hread, heq⟩ := Option.map_eq_some_iff.mp hread
  have htext : front ++ text = front ++ ('$' :: ("FILTER_REPR".toList ++ back)) :=
    (Prod.mk.inj heq).1.trans (hsource.trans (by rw [hfilter]; rfl))
  rw [List.append_cancel_left htext] at hread
  obtain ⟨c, tail, hpassed, hbackslash, hdollar⟩ := exists_filterRepr printable nameFilter
  rw [hpassed, List.cons_append] at hread
  exact hdollar (PyLiteral.eq_of_readBody hbackslash hread)

end Final

/-! ## The builders and the retries -/

/-- The rounds of `_retry_deferred` end as they should. -/
lemma retryDeferred_settles {σ : Type} (populate : σ → Str × Str → Bool × σ) (s : σ)
    (deferred : List (Str × Str)) :
    Settles populate s deferred (retryDeferred populate s deferred) := by
  obtain ⟨log, hlog, hperm, -⟩ := @Retry.settle_spec _ _ populate s deferred
  refine ⟨log, (Retry.settle populate s deferred).1, rfl, hlog, hperm, ?_⟩
  intro done ready hready hmono staged
  exact Retry.mem_settle_iff hready (hmono _ _ _) s staged

/-- **The bootstrap scripts do what they were built for**, for a deploy always, and for a test
unless its source contains the place of the filter; the deferred modules always settle. -/
theorem bootstrap_faithful_iff (printable : Char → Bool) (prepare : Str → Str)
    (stagedSources : List (Str × Str)) (testName testSource : Str) (nameFilter : Option Str)
    (budget : ℤ) :
    (∀ scripts, buildCircuitpythonBootstrapScripts printable prepare stagedSources testName
        testSource nameFilter budget = .ok scripts →
      (Faithful prepare budget stagedSources (.runTests testSource (selects nameFilter)) scripts ↔
        ¬ FILTER_REPR <:+: testSource)) ∧
    (∀ files entrypoint scripts, buildCircuitpythonDeployScripts printable prepare files entrypoint
        budget = .ok scripts →
      ∃ staged source, stagedFiles files entrypoint (sortedPaths files) = .ok staged ∧
        decodeFileContent entrypoint (files.content entrypoint) = .ok source ∧
        Faithful prepare budget staged (.runMain source) scripts) ∧
    ∀ (σ : Type) (populate : σ → Str × Str → Bool × σ) (s : σ) (deferred : List (Str × Str)),
      Settles populate s deferred (retryDeferred populate s deferred) := by
  refine ⟨fun scripts h => ?_, fun files entrypoint scripts h => ?_,
    fun σ populate s deferred => retryDeferred_settles populate s deferred⟩
  · rw [buildCircuitpythonBootstrapScripts] at h
    split_ifs at h
    obtain ⟨prelude, hprelude, h⟩ := bind_eq_ok.mp h
    obtain ⟨found, hfinal, heq⟩ := bind_eq_ok.mp h
    cases heq
    rw [faithful_append_iff hprelude (validateScriptSize_eq_ok.mp hfinal)]
    exact ⟨not_isInfix_of_executes, testExecutionScript_executes printable nameFilter⟩
  · rw [buildCircuitpythonDeployScripts] at h
    split_ifs at h
    obtain ⟨source, hsource, h⟩ := bind_eq_ok.mp h
    obtain ⟨staged, hstaged, h⟩ := bind_eq_ok.mp h
    obtain ⟨prelude, hprelude, h⟩ := bind_eq_ok.mp h
    obtain ⟨found, hfinal, heq⟩ := bind_eq_ok.mp h
    cases heq
    refine ⟨staged, source, hstaged, hsource, ?_⟩
    rw [faithful_append_iff hprelude (validateScriptSize_eq_ok.mp hfinal)]
    exact deployExecutionScript_executes printable source

/-- With a large budget the builder for a test returns scripts. -/
lemma exists_bootstrapScripts (printable : Char → Bool) (prepare : Str → Str)
    (stagedSources : List (Str × Str)) (testName testSource : Str) (nameFilter : Option Str) :
    ∃ least : ℤ, ∀ budget, least ≤ budget →
      ∃ scripts, buildCircuitpythonBootstrapScripts printable prepare stagedSources testName
        testSource nameFilter budget = .ok scripts := by
  obtain ⟨least, hpos, h⟩ := exists_budget printable prepare stagedSources
    (buildTestExecutionScript printable testSource nameFilter)
  refine ⟨least, fun budget hbudget => ?_⟩
  obtain ⟨hfinal, prelude, hprelude⟩ := h budget hbudget
  refine ⟨prelude ++ [buildTestExecutionScript printable testSource nameFilter], ?_⟩
  rw [buildCircuitpythonBootstrapScripts, if_neg (not_le.mpr (hpos.trans_le hbudget)), hprelude,
    ok_bind]
  dsimp only
  rw [validateScriptSize_of_le hfinal, ok_bind]

lemma decodeFileContent_encodeUtf8 (devicePath : Str) (text : String) :
    decodeFileContent devicePath (encodeUtf8 text) = .ok text.toList := by
  have h : (encodeUtf8 text).toByteArray = text.toByteArray := String.utf8Encode_toList
  rw [decodeFileContent, h, String.fromUTF8?, dif_pos text.isValidUTF8]
  rfl

/-- With a large budget the builder for a deploy of one text file returns scripts. -/
lemma exists_deployScripts (printable : Char → Bool) (prepare : Str → Str) (entrypoint : Str)
    (text : String) :
    ∃ budget scripts, buildCircuitpythonDeployScripts printable prepare
      ⟨[(entrypoint, encodeUtf8 text)], List.nodup_singleton _⟩ entrypoint budget =
        .ok scripts := by
  obtain ⟨least, hpos, h⟩ := exists_budget printable prepare []
    (deployExecutionScript printable text.toList)
  obtain ⟨hfinal, prelude, hprelude⟩ := h least le_rfl
  have hcontent : (⟨[(entrypoint, encodeUtf8 text)], List.nodup_singleton _⟩ : FileMap).content
      entrypoint = encodeUtf8 text := by simp [FileMap.content, Dict.get?]
  have hpaths : sortedPaths ⟨[(entrypoint, encodeUtf8 text)], List.nodup_singleton _⟩ =
      [entrypoint] := List.mergeSort_singleton _
  refine ⟨least, prelude ++ [deployExecutionScript printable text.toList], ?_⟩
  rw [buildCircuitpythonDeployScripts, if_neg (not_le.mpr hpos), if_neg (by simp [FileMap.paths]),
    hcontent, decodeFileContent_encodeUtf8, ok_bind, hpaths, stagedFiles, if_pos rfl, stagedFiles,
    ok_bind, hprelude, ok_bind]
  dsimp only
  rw [validateScriptSize_of_le hfinal, ok_bind]

/-- A test of one module, and a deploy of one file. -/
theorem bootstrap_faithful_blink :
    (∃ budget scripts, buildCircuitpythonBootstrapScripts (fun _ => true) id
        [("led".toList, "on = 1".toList)] "test_led.py".toList "import led".toList
        (some "on".toList) budget = .ok scripts ∧
      (Faithful id budget [("led".toList, "on = 1".toList)]
        (.runTests "import led".toList (selects (some "on".toList))) scripts ↔
          ¬ FILTER_REPR <:+: "import led".toList)) ∧
    ∃ budget scripts, buildCircuitpythonDeployScripts (fun _ => true) id
        ⟨[("/code.py".toList, encodeUtf8 "print(1)")], List.nodup_singleton _⟩ "/code.py".toList
        budget = .ok scripts ∧
      ∃ staged source, Faithful id budget staged (.runMain source) scripts := by
  obtain ⟨least, htest⟩ := exists_bootstrapScripts (fun _ => true) id
    [("led".toList, "on = 1".toList)] "test_led.py".toList "import led".toList
    (some "on".toList)
  obtain ⟨scripts, hscripts⟩ := htest least le_rfl
  obtain ⟨budget, deployed, hdeployed⟩ :=
    exists_deployScripts (fun _ => true) id "/code.py".toList "print(1)"
  obtain ⟨staged, source, -, -, hfaithful⟩ := (bootstrap_faithful_iff (fun _ => true) id [] []
    [] none budget).2.1 _ _ deployed hdeployed
  exact ⟨⟨least, scripts, hscripts, (bootstrap_faithful_iff (fun _ => true) id _ _ _ _ least).1
    scripts hscripts⟩, budget, deployed, hdeployed, staged, source, hfaithful⟩

/-- A test that speaks of the place: the filter lands in it, whatever the budget. -/
theorem filter_in_test :
    ∃ least : ℤ, ∀ budget, least ≤ budget →
      ∃ scripts, buildCircuitpythonBootstrapScripts (fun _ => true) id [] "test_a.py".toList
        "a = '$FILTER_REPR'".toList none budget = .ok scripts ∧
      ¬ Faithful id budget [] (.runTests "a = '$FILTER_REPR'".toList (selects none)) scripts := by
  obtain ⟨least, htest⟩ := exists_bootstrapScripts (fun _ => true) id [] "test_a.py".toList
    "a = '$FILTER_REPR'".toList none
  refine ⟨least, fun budget hbudget => ?_⟩
  obtain ⟨scripts, hscripts⟩ := htest budget hbudget
  refine ⟨scripts, hscripts, fun hfaithful => ?_⟩
  rw [buildCircuitpythonBootstrapScripts] at hscripts
  split_ifs at hscripts
  obtain ⟨prelude, hprelude, h⟩ := bind_eq_ok.mp hscripts
  obtain ⟨found, hfinal, heq⟩ := bind_eq_ok.mp h
  cases heq
  rw [faithful_append_iff hprelude (validateScriptSize_eq_ok.mp hfinal)] at hfaithful
  exact not_isInfix_of_executes hfaithful (by decide +kernel)

end ChuMicro.Deploy

