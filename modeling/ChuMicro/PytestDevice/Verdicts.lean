import ChuMicro.PytestDevice.ResultParser
import Mathlib.Data.Finset.Card

/-!
# From the harness to the verdicts

`run_module` of `chumicro_test_harness/runner.py` prints what happens to the tests of a module on a
board, in between of what the tests print themselves; `parse_output` reads it back on the host, and
the guards of `chumicro_pytest_device/collection.py` make a verdict of it for every item.

The texts that the tests, their skips and their exceptions print are arbitrary. Durations are
printed as non-negative decimals and names have no blanks, as names in Python have none. What is
printed while the tests are looked for, by a candidate that is none or that the filter leaves out,
is not modelled.

## Main definitions

* `PytestDevice.ModuleRun` — a call of `run_module` that comes to its end.
* `PytestDevice.runCandidate`, `PytestDevice.ModuleRun.printed` — what it prints.
* `PytestDevice.requireBatchResult`, `PytestDevice.runtest` — the guards, and the verdict of an
  item.

## Main results

* `PytestDevice.failures_reported` — whatever is printed, the summary is that of the harness, and
  items of which none fails are the tests of a run without failures.
* `PytestDevice.verdicts_exact` — where no test prints a result itself, every item has the verdict
  of its test.
-/

namespace ChuMicro.PytestDevice

open LinePattern

/-! ## What happens on the board -/

/-- A run of ASCII digits. -/
def IsDigits (text : Str) : Prop := text ≠ [] ∧ ∀ c ∈ text, (asciiDigit? c).isSome = true

instance (text : Str) : Decidable (IsDigits text) := inferInstanceAs (Decidable (_ ∧ _))

/-- A duration that is not negative, as `:.3f` prints it. -/
structure Seconds where
  whole : Str
  fraction : Str
  whole_digits : IsDigits whole
  fraction_digits : IsDigits fraction

/-- The text that `float` is given. -/
def Seconds.text (s : Seconds) : Str := s.whole ++ ['.'] ++ s.fraction

lemma zero_digits : IsDigits ['0'] ∧ IsDigits ['0', '0', '0'] := by decide

/-- The duration of a candidate that was not run, `0.000`. -/
def Seconds.zero : Seconds := ⟨['0'], ['0', '0', '0'], zero_digits.1, zero_digits.2⟩

/-- The name of a test, or of a method behind its class. -/
structure TestName where
  text : Str
  word : text ≠ [] ∧ ∀ c ∈ text, isSpace c = false

/-- How the call of a test ends. An exception is printed up to a last line end; what is returned may
be a generator or coroutine. -/
inductive Outcome where
  | skipped (message : Str)
  | raised (shown : Str)
  | returned (unrun : Bool)

/-- What `_iter_test_functions` yields: a `_DiscoveryError`, or a test that prints some text while
it runs. -/
inductive Candidate where
  | discoveryError (name : TestName) (shown : Str)
  | test (name : TestName) (printed : Str) (outcome : Outcome) (duration : Seconds) (heapDelta : ℤ)

/-- The message of `_unrun_test_reason`. -/
def UNRUN_REASON : Str :=
  ("test body is a generator or coroutine, so it never ran: a 'yield' makes it a generator and " ++
    "'async def' makes it a coroutine. Write a plain function.").toList

/-- What `print` writes behind a line. -/
def println (line : Str) : Str := line ++ ['\n']

/-- `heap_suffix`. -/
def heapSuffix (gcTracking : Bool) (testDelta : ℤ) : Str :=
  if gcTracking then
    ", heap ".toList ++ ((if testDelta ≥ 0 then ['+'] else []) ++ formatInt testDelta)
  else []

/-- The line of a test that has passed or failed. -/
def finishedLine (status : Status) (name : TestName) (duration : Seconds) (suffix : Str) : Str :=
  resultLine status name.text duration.whole duration.fraction ++ (suffix ++ [')'])

/-- The line of a test that was skipped. -/
def skippedLine (name : TestName) (message : Str) : Str :=
  Status.skip.word ++ (' ' :: (name.text ++ (" (".toList ++ (message ++ [')']))))

/-- How far `run_module` has come. -/
structure Progress where
  total : ℕ
  failed : ℕ
  printed : Str

/-- One round of the loop over the candidates. -/
def runCandidate (gcTracking : Bool) (nameFilter : Option Str) (st : Progress) :
    Candidate → Progress
  | .discoveryError name shown =>
    if selects nameFilter name.text = false then st
    else
      ⟨st.total + 1, st.failed + 1,
        st.printed ++ (println (finishedLine .fail name Seconds.zero []) ++ println shown)⟩
  | .test name printed outcome duration heapDelta =>
    if selects nameFilter name.text = false then st
    else
      let total := st.total + 1
      let suffix := heapSuffix gcTracking heapDelta
      match outcome with
      | .skipped message =>
        ⟨total, st.failed, st.printed ++ (printed ++ println (skippedLine name message))⟩
      | .raised shown =>
        ⟨total, st.failed + 1, st.printed ++ (printed ++
          (println (finishedLine .fail name duration suffix) ++ println shown))⟩
      | .returned unrun =>
        if unrun then
          ⟨total, st.failed + 1, st.printed ++ (printed ++
            (println (finishedLine .fail name duration suffix) ++ println UNRUN_REASON))⟩
        else
          ⟨total, st.failed,
            st.printed ++ (printed ++ println (finishedLine .pass name duration suffix))⟩

/-- A call of `run_module`, with what it finds and measures. -/
structure ModuleRun where
  gcTracking : Bool
  nameFilter : Option Str
  candidates : List Candidate
  moduleHeapAfter : ℕ
  moduleDelta : ℤ
  totalDuration : Seconds

namespace ModuleRun

variable (run : ModuleRun)

/-- The loop. -/
def progress : Progress :=
  run.candidates.foldl (runCandidate run.gcTracking run.nameFilter) ⟨0, 0, []⟩

/-- The line of the module's heap. -/
def heapLine : Str :=
  "HEAP ".toList ++ formatInt run.moduleHeapAfter ++ " bytes free (delta ".toList ++
    ((if run.moduleDelta ≥ 0 then ['+'] else []) ++ formatInt run.moduleDelta) ++ " bytes)".toList

/-- What is printed between the tests and the summary. -/
def closing : Str :=
  (if run.gcTracking then println run.heapLine else []) ++
    (if run.progress.total = 0 then println "NO TESTS FOUND".toList else [])

/-- The last line. -/
def lastLine : Str :=
  summaryLine run.progress.total run.progress.failed run.totalDuration.whole
    run.totalDuration.fraction

/-- **All that is printed**, by the harness and by the tests. -/
def printed : Str := run.progress.printed ++ run.closing ++ println run.lastLine

/-- What `run_module` returns. -/
def exitCode : ℕ := if run.progress.failed ≠ 0 then 1 else 0

end ModuleRun

/-! ## The verdicts of the host -/

/-- Why `pytest.fail` is called. -/
inductive Failure where
  | notRun
  | noResults
  | noSummary
  | failDropped (reported parsed : ℕ)
  | lineInjected (parsed total : ℕ)
  | neverCollected (orphans : Finset Str)
  | otherTotal (total collected : ℕ)
  | ambiguous (lines : ℕ)
  | testFailed
  | notFound
  deriving DecidableEq

/-- How an item ends. -/
inductive Verdict where
  | passed
  | skipped (message : Str)
  | failed (why : Failure)
  deriving DecidableEq

/-- The item fails. -/
def Verdict.IsFailure (verdict : Verdict) : Prop := ∃ why, verdict = .failed why

/-- `_assert_summary_reconciles`. -/
def assertSummaryReconciles (result : RunResult) : Except Failure Unit :=
  match result.summary with
  | none => .error .noSummary
  | some summary =>
    let parsedFailed := result.tests.countP fun test => test.status = .fail
    if summary.failed ≠ parsedFailed then .error (.failDropped summary.failed parsedFailed)
    else if result.tests.length > summary.total then
      .error (.lineInjected result.tests.length summary.total)
    else .ok ()

/-- `_assert_collected_reconciles`. -/
def assertCollectedReconciles (result : RunResult) (collected : Finset Str) : Except Failure Unit :=
  let orphans := (result.tests.map TestResult.name).toFinset \ collected
  if orphans ≠ ∅ then .error (.neverCollected orphans)
  else
    match result.summary with
    | none => .ok ()
    | some summary =>
      if summary.total ≠ collected.card then .error (.otherTotal summary.total collected.card)
      else .ok ()

/-- `_require_batch_result`, of a batch that has a result unless it could not be executed. -/
def requireBatchResult (batch : Option RunResult) (collected : Finset Str) :
    Except Failure RunResult :=
  match batch with
  | none => .error .notRun
  | some result =>
    if result.tests = [] then .error .noResults
    else do
      assertSummaryReconciles result
      assertCollectedReconciles result collected
      return result

/-- The verdict that one result line gives. -/
def verdictOf (test : TestResult) : Verdict :=
  match test.status with
  | .fail => .failed .testFailed
  | .skip => .skipped (if test.message = [] then "Skipped on device".toList else test.message)
  | .pass => .passed

/-- `DeviceTestItem.runtest`. -/
def runtest (batch : Option RunResult) (collected : Finset Str) (functionName : Str) : Verdict :=
  match requireBatchResult batch collected with
  | .error why => .failed why
  | .ok result =>
    match result.tests.filter fun test => test.name = functionName with
    | [] => .failed .notFound
    | [test] => verdictOf test
    | first :: second :: rest => .failed (.ambiguous (first :: second :: rest).length)

/-! ## Lines -/

/-- A text whose last line has ended. -/
def Terminated (text : Str) : Prop := text = [] ∨ ∃ front, text = println front

/-- A text of one line. -/
def OneLine (text : Str) : Prop := ∀ c ∈ text, isLineEnd c = false

instance (text : Str) : Decidable (OneLine text) := inferInstanceAs (Decidable (∀ _ ∈ _, _))

lemma terminated_println (line : Str) : Terminated (println line) := .inr ⟨line, rfl⟩

lemma Terminated.append {first second : Str} (hfirst : Terminated first)
    (hsecond : Terminated second) : Terminated (first ++ second) := by
  obtain rfl | ⟨front, rfl⟩ := hsecond
  · rwa [List.append_nil]
  · exact .inr ⟨first ++ front, (List.append_assoc _ _ _).symm⟩

variable {text line : Str} {c : Char}

/-- **The lines of a terminated text do not depend on what follows.** -/
lemma splitlines_append (h : Terminated text) (more : Str) :
    splitlines (text ++ more) = splitlines text ++ splitlines more := by
  obtain rfl | ⟨front, rfl⟩ := h
  · rfl
  · have hlines := @TextLines.splitLines_append_lf _ _ LINE_ENDS front more
    rw [println, List.append_assoc, List.singleton_append]
    exact hlines

/-- One line that is printed. -/
lemma splitlines_println (h : OneLine line) : splitlines (println line) = [line] :=
  @TextLines.splitLines_line _ _ LINE_ENDS _ h

lemma OneLine.append {first second : Str} (hfirst : OneLine first) (hsecond : OneLine second) :
    OneLine (first ++ second) := by
  intro c hc
  exact (List.mem_append.mp hc).elim (hfirst c) (hsecond c)

lemma OneLine.cons (hc : isLineEnd c = false) (h : OneLine text) : OneLine (c :: text) := by
  intro d hd
  obtain rfl | hd := List.mem_cons.mp hd
  · exact hc
  · exact h d hd

/-- What ends a line is a blank. -/
lemma isLineEnd_of_isSpace (h : isSpace c = false) : isLineEnd c = false := by
  simp only [isSpace, isLineEnd, Bool.or_eq_false_iff, Bool.and_eq_false_iff,
    decide_eq_false_iff_not, beq_eq_false_iff_ne] at h ⊢
  omega

/-- A digit does not end a line. -/
lemma IsDigits.oneLine (h : IsDigits text) : OneLine text := by
  intro c hc
  refine isLineEnd_of_isSpace ?_
  by_contra hspace
  have hnone := asciiDigit?_of_isSpace c (by simpa using hspace)
  have hsome := h.2 c hc
  rw [hnone] at hsome
  exact Bool.false_ne_true hsome

/-- ASCII digits are decimal digits of every Unicode version. -/
lemma IsDigits.accepts (h : IsDigits text) (D : UnicodeDigits) :
    (Atom.many1 D.isDigit).Accepts text := by
  refine ⟨h.1, fun c hc => ?_⟩
  have hdigit := h.2 c hc
  unfold asciiDigit? at hdigit
  split_ifs at hdigit with hrange
  · rw [UnicodeDigits.isDigit, D.ascii c (by omega), if_pos hrange]
    exact hdigit
  · exact absurd hdigit Bool.false_ne_true

lemma TestName.oneLine (name : TestName) : OneLine name.text :=
  fun c hc => isLineEnd_of_isSpace (name.word.2 c hc)

lemma TestName.accepts (name : TestName) : (Atom.many1 notSpace).Accepts name.text :=
  ⟨name.word.1, fun c hc => by rw [notSpace, name.word.2 c hc]; rfl⟩

lemma oneLine_formatInt (n : ℤ) : OneLine (formatInt n) := by
  intro c hc
  obtain ⟨-, hgraphic⟩ := formatInt_chars n c hc
  have hchar : c.toNat ≠ 0x85 ∧ c.toNat ≠ 0x2028 ∧ c.toNat ≠ 0x2029 := by
    obtain ⟨hascii, -⟩ := formatInt_chars n c hc
    omega
  simp only [isLineEnd, Bool.or_eq_false_iff, Bool.and_eq_false_iff, decide_eq_false_iff_not,
    beq_eq_false_iff_ne]
  omega

/-- The words of the harness lie on one line. -/
lemma oneLine_words : (∀ status : Status, OneLine status.word) ∧ OneLine ", heap ".toList ∧
    OneLine " (".toList := by
  refine ⟨fun status => ?_, by decide, by decide⟩
  cases status <;> decide

lemma oneLine_heapSuffix (gcTracking : Bool) (testDelta : ℤ) :
    OneLine (heapSuffix gcTracking testDelta) := by
  unfold heapSuffix
  have hsign : OneLine (if testDelta ≥ 0 then ['+'] else []) := by split <;> decide
  split
  · exact oneLine_words.2.1.append (hsign.append (oneLine_formatInt _))
  · exact nofun

lemma oneLine_finishedLine (status : Status) (name : TestName) (duration : Seconds) {suffix : Str}
    (h : OneLine suffix) : OneLine (finishedLine status name duration suffix) := by
  have hparen : OneLine [')'] := by decide
  have hseconds : OneLine ['s'] := by decide
  exact ((oneLine_words.1 status).append (.cons (by decide) (name.oneLine.append (.cons (by decide)
    (.cons (by decide) (duration.whole_digits.oneLine.append (.cons (by decide)
      (duration.fraction_digits.oneLine.append hseconds)))))))).append (h.append hparen)

lemma oneLine_skippedLine (name : TestName) {message : Str} (h : OneLine message) :
    OneLine (skippedLine name message) :=
  (oneLine_words.1 .skip).append (.cons (by decide) (name.oneLine.append (oneLine_words.2.2.append
    (h.append (show OneLine [')'] by decide)))))

lemma oneLine_summaryLine (total failed : ℕ) {whole fraction : Str} (hwhole : OneLine whole)
    (hfraction : OneLine fraction) : OneLine (summaryLine total failed whole fraction) := by
  have hwords : OneLine "SUMMARY total=".toList ∧ OneLine " failed=".toList ∧
      OneLine " time=".toList ∧ OneLine ['s'] := by decide
  exact ((((hwords.1.append (oneLine_formatInt _)).append hwords.2.1).append
    (oneLine_formatInt _)).append hwords.2.2.1 |>.append hwhole).append
      (.cons (by decide) (hfraction.append hwords.2.2.2))

/-! ## What the harness says -/

/-- The heap delta that is printed. -/
def heapOf (gcTracking : Bool) (testDelta : ℤ) : Option ℤ :=
  if gcTracking then some testDelta else none

/-- The result of a candidate, as the harness counts and prints it. -/
def Candidate.result (gcTracking : Bool) : Candidate → TestResult
  | .discoveryError name _ => ⟨name.text, .fail, some Seconds.zero.text, none, []⟩
  | .test name _ (.skipped message) _ _ => ⟨name.text, .skip, none, none, message⟩
  | .test name _ (.raised _) duration heapDelta =>
    ⟨name.text, .fail, some duration.text, heapOf gcTracking heapDelta, []⟩
  | .test name _ (.returned unrun) duration heapDelta =>
    ⟨name.text, if unrun then .fail else .pass, some duration.text, heapOf gcTracking heapDelta, []⟩

/-- The name of a candidate. -/
def Candidate.name : Candidate → TestName
  | .discoveryError name _ => name
  | .test name _ _ _ _ => name

/-- **The results of a run**: those of the candidates that the filter leaves. -/
def ModuleRun.results (run : ModuleRun) : List TestResult :=
  (run.candidates.filter fun c => selects run.nameFilter c.name.text).map
    (Candidate.result run.gcTracking)

variable {D : UnicodeDigits}

/-- The sign and the digits of a delta. -/
lemma exists_signed (D : UnicodeDigits) (delta : ℤ) :
    ∃ sign digits, (if delta ≥ 0 then ['+'] else []) ++ formatInt delta = sign ++ digits ∧
      (Atom.opt isSign).Accepts sign ∧ (Atom.many1 D.isDigit).Accepts digits ∧
      D.signedInt sign digits = delta := by
  have hdigits : formatInt (delta.natAbs : ℤ) = Nat.toDigits 10 delta.natAbs := by
    rw [formatInt, if_neg (by omega), Int.natAbs_natCast]
  by_cases hneg : delta < 0
  · refine ⟨['-'], formatInt (delta.natAbs : ℤ), ?_, ⟨le_rfl, by decide⟩, accepts_formatInt _, ?_⟩
    · rw [if_neg (by omega), hdigits, formatInt, if_pos hneg]
      rfl
    · rw [UnicodeDigits.signedInt, if_pos rfl, int_formatInt]
      omega
  · refine ⟨['+'], formatInt (delta.natAbs : ℤ), ?_, ⟨le_rfl, by decide⟩, accepts_formatInt _, ?_⟩
    · rw [if_pos (by omega), hdigits, formatInt, if_neg hneg]
    · rw [UnicodeDigits.signedInt, if_neg (by decide), int_formatInt]
      omega

/-- **The line of a test that has passed or failed is read back**, with the heap or without. -/
lemma testOf_finishedLine {status : Status} (hstatus : status ≠ .skip) (name : TestName)
    (duration : Seconds) (gcTracking : Bool) (heapDelta : ℤ) :
    testOf D (finishedLine status name duration (heapSuffix gcTracking heapDelta)) =
      some ⟨name.text, status, some duration.text, heapOf gcTracking heapDelta, []⟩ := by
  have hwhole := duration.whole_digits.accepts D
  have hfraction := duration.fraction_digits.accepts D
  cases gcTracking with
  | false => exact testOf_resultLine hstatus name.accepts hwhole hfraction
  | true =>
    obtain ⟨sign, digits, htext, hsign, hdigits, hvalue⟩ := exists_signed D heapDelta
    have hline := testOf_resultLine_heap hstatus name.accepts hwhole hfraction hsign hdigits
    rw [hvalue, ← htext] at hline
    rw [finishedLine, heapSuffix, if_pos rfl]
    exact hline

/-- A candidate prints no result of its own: what a test prints ends with the line it is on, none of
the lines is a result, and neither is one of an exception; the reason of a skip lies on one line. -/
def Candidate.Quiet (D : UnicodeDigits) : Candidate → Prop
  | .discoveryError _ shown => ∀ line ∈ splitlines (println shown), testOf D line = none
  | .test _ printed outcome _ _ =>
    (Terminated printed ∧ ∀ line ∈ splitlines printed, testOf D line = none) ∧
      match outcome with
      | .skipped message => OneLine message
      | .raised shown => ∀ line ∈ splitlines (println shown), testOf D line = none
      | .returned _ => True

/-- The results that the lines of a text say. -/
def said (D : UnicodeDigits) (text : Str) : List TestResult :=
  (splitlines text).filterMap (testOf D)

lemma said_append (h : Terminated text) (more : Str) :
    said D (text ++ more) = said D text ++ said D more := by
  rw [said, splitlines_append h, List.filterMap_append, said, said]

lemma said_println (h : OneLine line) : said D (println line) = (testOf D line).toList := by
  rw [said, splitlines_println h]
  cases h : testOf D line <;> simp [h]

lemma said_eq_nil (h : ∀ line ∈ splitlines text, testOf D line = none) :
    said D text = [] := List.filterMap_eq_nil_iff.mpr h

/-- A line that begins with no letter of a status is no result. -/
lemma testOf_eq_none_of_head (hhead : line.head? = some c) (hc : isSpace c = false)
    (hword : ∀ status : Status, status.word.head? ≠ some c) : testOf D line = none := by
  refine testOf_eq_none fun status hprefix => hword status ?_
  obtain ⟨rest, rfl⟩ := List.head?_eq_some_iff.mp hhead
  have hdrop : (c :: rest).dropWhile isSpace = c :: rest :=
    List.dropWhile_cons_of_neg (by rw [hc]; exact Bool.false_ne_true)
  have hline : status.word <+: c :: rest := by
    rw [strip, hdrop] at hprefix
    exact hprefix.trans (List.rdropWhile_prefix _ _)
  obtain ⟨letter, word, hcons, -⟩ := word_cons status
  obtain ⟨more, hmore⟩ := hline
  rw [hcons, List.cons_append] at hmore
  rw [hcons, (List.cons.inj hmore).1]
  rfl

/-- The message of a test that was not run is no result. -/
lemma said_unrunReason : said D (println UNRUN_REASON) = [] := by
  obtain ⟨hhead, hline⟩ : UNRUN_REASON.head? = some 't' ∧ OneLine UNRUN_REASON := by decide +kernel
  have hnone := testOf_eq_none_of_head (D := D) hhead (by decide) fun s => by cases s <;> decide
  rw [said_println hline, hnone]
  rfl

/-! ## The loop -/

/-- What a round with a selected candidate does: it prints some terminated text, and counts the
result. -/
lemma runCandidate_spec (gcTracking : Bool) {nameFilter : Option Str} (st : Progress)
    {c : Candidate} (h : selects nameFilter c.name.text = true) :
    ∃ text, runCandidate gcTracking nameFilter st c =
        ⟨st.total + 1, st.failed + (if (c.result gcTracking).status = .fail then 1 else 0),
          st.printed ++ text⟩ ∧
      (∃ front, text = println front) ∧ (c.Quiet D → said D text = [c.result gcTracking]) := by
  have hselected : ¬ selects nameFilter c.name.text = false := by rw [h]; exact Bool.noConfusion
  have hfinished : ∀ (status : Status) (name : TestName) (duration : Seconds) (heapDelta : ℤ),
      status ≠ .skip →
        said D (println (finishedLine status name duration (heapSuffix gcTracking heapDelta))) =
          [⟨name.text, status, some duration.text, heapOf gcTracking heapDelta, []⟩] := by
    intro status name duration heapDelta hstatus
    rw [said_println (oneLine_finishedLine _ _ _ (oneLine_heapSuffix _ _)),
      testOf_finishedLine hstatus]
    rfl
  -- a text behind terminated text ends the line it is on
  have hbehind : ∀ first second : Str, ∃ front, first ++ println second = println front :=
    fun first second => ⟨first ++ second, (List.append_assoc _ _ _).symm⟩
  cases c with
  | discoveryError name shown =>
    refine ⟨println (finishedLine .fail name Seconds.zero []) ++ println shown, ?_, hbehind _ shown,
      fun hquiet => ?_⟩
    · exact if_neg hselected
    · have hline := @oneLine_finishedLine .fail name Seconds.zero [] nofun
      have htest := @testOf_resultLine D .fail _ _ _ nofun name.accepts (zero_digits.1.accepts D)
        (zero_digits.2.accepts D)
      rw [said_append (terminated_println _), said_println hline, said_eq_nil hquiet]
      exact congrArg (fun test => test.toList ++ []) htest
  | test name printed outcome duration heapDelta =>
    cases outcome with
    | skipped message =>
      refine ⟨printed ++ println (skippedLine name message), ?_, hbehind _ _, fun hquiet => ?_⟩
      · exact if_neg hselected
      · rw [said_append hquiet.1.1, said_eq_nil hquiet.1.2,
          said_println (oneLine_skippedLine name hquiet.2), skippedLine,
          testOf_skipLine name.accepts]
        rfl
    | raised shown =>
      refine ⟨printed ++ (println (finishedLine .fail name duration
        (heapSuffix gcTracking heapDelta)) ++ println shown), ?_, ?_, fun hquiet => ?_⟩
      · exact if_neg hselected
      · rw [← List.append_assoc]
        exact hbehind _ shown
      · rw [said_append hquiet.1.1, said_append (terminated_println _), said_eq_nil hquiet.1.2,
          said_eq_nil hquiet.2, hfinished .fail _ _ _ nofun]
        rfl
    | returned unrun =>
      cases unrun with
      | true =>
        refine ⟨printed ++ (println (finishedLine .fail name duration
          (heapSuffix gcTracking heapDelta)) ++ println UNRUN_REASON), ?_, ?_, fun hquiet => ?_⟩
        · exact if_neg hselected
        · rw [← List.append_assoc]
          exact hbehind _ UNRUN_REASON
        · rw [said_append hquiet.1.1, said_append (terminated_println _), said_eq_nil hquiet.1.2,
            said_unrunReason, hfinished .fail _ _ _ nofun]
          rfl
      | false =>
        refine ⟨printed ++ println (finishedLine .pass name duration
          (heapSuffix gcTracking heapDelta)), ?_, hbehind _ _, fun hquiet => ?_⟩
        · exact if_neg hselected
        · rw [said_append hquiet.1.1, said_eq_nil hquiet.1.2, hfinished .pass _ _ _ nofun]
          rfl

/-- A candidate that the filter leaves out changes nothing. -/
lemma runCandidate_of_not_selected (gcTracking : Bool) {nameFilter : Option Str} (st : Progress)
    {c : Candidate} (h : selects nameFilter c.name.text = false) :
    runCandidate gcTracking nameFilter st c = st := by
  cases c <;> exact if_pos h

/-- The counts are those of the results that are printed. -/
structure Recorded (D : UnicodeDigits) (quiet : Prop) (results : List TestResult) (st : Progress) :
    Prop where
  total : st.total = results.length
  failed : st.failed = results.countP fun test => test.status = .fail
  terminated : Terminated st.printed
  said : quiet → PytestDevice.said D st.printed = results

/-- **The loop records every candidate that is selected.**

**Proof sketch.** Induction on the candidates with `runCandidate_spec`, for any results so far. -/
lemma recorded_foldl (gcTracking : Bool) (nameFilter : Option Str) (quiet : Prop)
    (candidates : List Candidate) (hquiet : quiet → ∀ c ∈ candidates, c.Quiet D)
    {results : List TestResult} {st : Progress} (h : Recorded D quiet results st) :
    Recorded D quiet (results ++ (candidates.filter fun c => selects nameFilter c.name.text).map
      (Candidate.result gcTracking))
      (candidates.foldl (runCandidate gcTracking nameFilter) st) := by
  induction candidates generalizing results st with
  | nil => simpa using h
  | cons c rest ih =>
    have hrest : quiet → ∀ c ∈ rest, c.Quiet D :=
      fun hq d hd => hquiet hq d (List.mem_cons_of_mem _ hd)
    rw [List.foldl_cons]
    cases hselect : selects nameFilter c.name.text with
    | false =>
      rw [runCandidate_of_not_selected gcTracking st hselect,
        List.filter_cons_of_neg (by rw [hselect]; exact Bool.false_ne_true)]
      exact ih hrest h
    | true =>
      obtain ⟨text, hround, htext, hsaid⟩ := runCandidate_spec (D := D) gcTracking st hselect
      have hfilter := List.filter_cons_of_pos (p := fun d : Candidate => selects nameFilter d.name.text)
        (l := rest) hselect
      rw [hround, hfilter, List.map_cons, ← List.singleton_append, ← List.append_assoc]
      refine ih hrest ⟨?_, ?_, h.terminated.append (.inr htext), fun hq => ?_⟩
      · rw [List.length_append, h.total, List.length_singleton]
      · rw [List.countP_append, h.failed, List.countP_singleton]
        simp only [decide_eq_true_eq]
      · rw [said_append h.terminated, h.said hq, hsaid (hquiet hq c List.mem_cons_self)]

/-- The loop of a run. -/
lemma ModuleRun.recorded (run : ModuleRun) (quiet : Prop)
    (hquiet : quiet → ∀ c ∈ run.candidates, c.Quiet D) :
    Recorded D quiet run.results run.progress :=
  recorded_foldl run.gcTracking run.nameFilter quiet run.candidates hquiet
    (show Recorded D quiet [] ⟨0, 0, []⟩ from ⟨rfl, rfl, .inl rfl, fun _ => rfl⟩)

/-! ## The whole output -/

section Output

variable (run : ModuleRun)

/-- What is printed before the summary ends the line it is on. -/
lemma ModuleRun.terminated : Terminated (run.progress.printed ++ run.closing) := by
  refine (run.recorded (D := asciiDigits) False False.elim).terminated.append ?_
  unfold closing
  refine Terminated.append ?_ ?_
  · split
    · exact terminated_println _
    · exact .inl rfl
  · split
    · exact terminated_println _
    · exact .inl rfl

lemma ModuleRun.oneLine_lastLine : OneLine run.lastLine :=
  oneLine_summaryLine _ _ run.totalDuration.whole_digits.oneLine
    run.totalDuration.fraction_digits.oneLine

/-- The summary stands on the last line. -/
lemma ModuleRun.splitlines_printed :
    splitlines run.printed =
      splitlines (run.progress.printed ++ run.closing) ++ [run.lastLine] := by
  rw [printed, splitlines_append run.terminated, splitlines_println run.oneLine_lastLine]

lemma ModuleRun.summaryOf_lastLine : summaryOf D run.lastLine =
    some ⟨run.progress.total, run.progress.failed, run.totalDuration.text⟩ :=
  summaryOf_summaryLine (run.totalDuration.whole_digits.accepts D)
    (run.totalDuration.fraction_digits.accepts D) _ _

/-- **The summary that is parsed is the harness's own**, whatever the tests print. -/
lemma ModuleRun.parseOutput_printed : (parseOutput D run.printed).summary =
    some ⟨run.progress.total, run.progress.failed, run.totalDuration.text⟩ :=
  parseOutput_summary_of_last run.splitlines_printed run.summaryOf_lastLine

/-- No line behind the tests is a result. -/
lemma ModuleRun.said_closing : said D run.closing = [] := by
  obtain ⟨hheap, hfree, hbytes, hnoTests, hnoLine⟩ : OneLine "HEAP ".toList ∧
      OneLine " bytes free (delta ".toList ∧ OneLine " bytes)".toList ∧
      "NO TESTS FOUND".toList.head? = some 'N' ∧ OneLine "NO TESTS FOUND".toList := by
    decide +kernel
  have hsign : OneLine (if run.moduleDelta ≥ 0 then ['+'] else []) := by split <;> decide
  have hline : OneLine run.heapLine := (((hheap.append (oneLine_formatInt _)).append hfree).append
    (hsign.append (oneLine_formatInt _))).append hbytes
  have hhead : run.heapLine.head? = some 'H' := by
    unfold heapLine
    simp only [List.append_assoc]
    rfl
  have hnone : ∀ {line : Str} {c : Char}, OneLine line → line.head? = some c → c = 'H' ∨ c = 'N' →
      said D (println line) = [] := by
    intro line c hline hhead hc
    have hword : isSpace c = false ∧ ∀ status : Status, status.word.head? ≠ some c := by
      obtain rfl | rfl := hc
      · exact ⟨by decide, fun s => by cases s <;> decide⟩
      · exact ⟨by decide, fun s => by cases s <;> decide⟩
    rw [said_println hline, testOf_eq_none_of_head hhead hword.1 hword.2]
    rfl
  unfold closing
  by_cases hgc : run.gcTracking = true
  · rw [if_pos hgc, said_append (terminated_println _), hnone hline hhead (.inl rfl)]
    split
    · exact hnone hnoLine hnoTests (.inr rfl)
    · rfl
  · rw [if_neg hgc]
    split
    · exact hnone hnoLine hnoTests (.inr rfl)
    · rfl

/-- **Where no test prints a result itself, the results that are parsed are the harness's own.** -/
lemma ModuleRun.parseOutput_tests (hquiet : ∀ c ∈ run.candidates, c.Quiet D) :
    (parseOutput D run.printed).tests = run.results := by
  have hrecorded := run.recorded True fun _ => hquiet
  have hlast : testOf D run.lastLine = none := by
    have hsummary := run.summaryOf_lastLine (D := D)
    cases htest : testOf D run.lastLine with
    | none => rfl
    | some test =>
      rw [summaryOf, htest] at hsummary
      cases hsummary
  rw [PytestDevice.parseOutput_tests, run.splitlines_printed, List.filterMap_append]
  have htests : said D (run.progress.printed ++ run.closing) = run.results := by
    rw [said_append hrecorded.terminated, hrecorded.said trivial, run.said_closing, List.append_nil]
  rw [said] at htests
  rw [htests, List.filterMap_cons_none hlast, List.filterMap_nil, List.append_nil]

end Output

/-! ## The guards -/

section Guards

variable {result : RunResult} {collected : Finset Str}

lemma assertSummaryReconciles_iff : assertSummaryReconciles result = .ok () ↔
    ∃ summary, result.summary = some summary ∧
      (summary.failed = result.tests.countP fun test => test.status = .fail) ∧
      result.tests.length ≤ summary.total := by
  unfold assertSummaryReconciles
  cases result.summary with
  | none => simp
  | some summary =>
    dsimp only
    split_ifs with hfailed htotal
    · exact iff_of_false nofun fun ⟨_, hsome, h, _⟩ => hfailed (Option.some.inj hsome ▸ h)
    · exact iff_of_false nofun fun ⟨_, hsome, _, h⟩ => (Option.some.inj hsome ▸ h).not_gt htotal
    · exact iff_of_true rfl ⟨summary, rfl, not_not.mp hfailed, not_lt.mp htotal⟩

lemma assertCollectedReconciles_iff {summary : SummaryResult}
    (hsummary : result.summary = some summary) :
    assertCollectedReconciles result collected = .ok () ↔
      (∀ test ∈ result.tests, test.name ∈ collected) ∧ summary.total = collected.card := by
  have horphans : (result.tests.map TestResult.name).toFinset \ collected = ∅ ↔
      ∀ test ∈ result.tests, test.name ∈ collected := by
    rw [Finset.sdiff_eq_empty_iff_subset]
    constructor
    · exact fun h test htest => h (List.mem_toFinset.mpr (List.mem_map_of_mem htest))
    · intro h name hname
      obtain ⟨test, htest, rfl⟩ := List.mem_map.mp (List.mem_toFinset.mp hname)
      exact h test htest
  rw [← horphans]
  unfold assertCollectedReconciles
  rw [hsummary]
  dsimp only
  split_ifs with hsome htotal
  · exact iff_of_false nofun fun h => hsome h.1
  · exact iff_of_false nofun fun h => htotal h.2
  · exact iff_of_true rfl ⟨not_not.mp hsome, not_not.mp htotal⟩

/-- **What the guards let through**: some results, whose failures are as many as the summary says,
and which are results of the collected tests. -/
lemma requireBatchResult_iff {kept : RunResult} :
    requireBatchResult (some result) collected = .ok kept ↔
      result = kept ∧ result.tests ≠ [] ∧ ∃ summary, result.summary = some summary ∧
        (summary.failed = result.tests.countP fun test => test.status = .fail) ∧
        result.tests.length ≤ summary.total ∧
        (∀ test ∈ result.tests, test.name ∈ collected) ∧ summary.total = collected.card := by
  unfold requireBatchResult
  dsimp only
  split_ifs with hempty
  · simp [hempty]
  · rw [bind_eq_ok]
    constructor
    · rintro ⟨⟨⟩, hreconciles, h⟩
      obtain ⟨⟨⟩, hcollected, h⟩ := bind_eq_ok.mp h
      obtain ⟨summary, hsummary, hfailed, htotal⟩ := assertSummaryReconciles_iff.mp hreconciles
      exact ⟨Except.ok.inj h, hempty, summary, hsummary, hfailed, htotal,
        (assertCollectedReconciles_iff hsummary).mp hcollected⟩
    · rintro ⟨rfl, -, summary, hsummary, hfailed, htotal, hcollected⟩
      exact ⟨(), assertSummaryReconciles_iff.mpr ⟨summary, hsummary, hfailed, htotal⟩,
        bind_eq_ok.mpr ⟨(), (assertCollectedReconciles_iff hsummary).mpr hcollected, rfl⟩⟩

/-- An item that does not fail has one result, which is no failure. -/
lemma exists_of_not_isFailure {name : Str}
    (h : ¬ (runtest (some result) collected name).IsFailure) :
    requireBatchResult (some result) collected = .ok result ∧
      ∃ test, (result.tests.filter fun test => test.name = name) = [test] ∧
        test.status ≠ .fail := by
  unfold runtest at h
  cases hguards : requireBatchResult (some result) collected with
  | error why =>
    rw [hguards] at h
    exact absurd ⟨why, rfl⟩ h
  | ok kept =>
    obtain ⟨rfl, -⟩ := requireBatchResult_iff.mp hguards
    rw [hguards] at h
    dsimp only at h
    refine ⟨rfl, ?_⟩
    split at h
    · exact absurd ⟨_, rfl⟩ h
    · next test hone =>
      refine ⟨test, hone, fun hfail => h ⟨.testFailed, ?_⟩⟩
      rw [verdictOf, hfail]
    · exact absurd ⟨_, rfl⟩ h

/-- Among results with different names there is one of a name. -/
lemma filter_name_eq_singleton {tests : List TestResult}
    (hnodup : (tests.map TestResult.name).Nodup) {test : TestResult} (h : test ∈ tests) :
    (tests.filter fun other => other.name = test.name) = [test] := by
  obtain ⟨front, back, rfl⟩ := List.append_of_mem h
  have hother : ∀ other ∈ front ++ back, other.name ≠ test.name := by
    rw [List.map_append, List.map_cons, List.nodup_middle, List.nodup_cons,
      ← List.map_append] at hnodup
    exact fun other hmem heq => hnodup.1 (heq ▸ List.mem_map_of_mem hmem)
  have hnone : ∀ {part : List TestResult}, part ⊆ front ++ back →
      (part.filter fun other => other.name = test.name) = [] := by
    intro part hpart
    exact List.filter_eq_nil_iff.mpr fun other hmem => by simpa using hother other (hpart hmem)
  rw [List.filter_append, List.filter_cons_of_pos (by simp), hnone (List.subset_append_left _ _),
    hnone (List.subset_append_right _ _), List.nil_append]

end Guards

/-- **Failures are reported, whatever is printed**: for every run that comes to its end, with any
texts of its tests, skips and exceptions, the summary that is parsed is that of the harness; and if
no item of a file that has items fails, then the harness counted no failure and as many tests as
there are items, and every item has exactly one result.

**Proof sketch.** The summary is on the last line, which no text can reach. Where the guards let the
batch through, the failures that are parsed are as many as the harness counted; a failure that is
parsed belongs to an item, and that item fails. -/
theorem failures_reported (D : UnicodeDigits) (run : ModuleRun) :
    (parseOutput D run.printed).summary =
        some ⟨run.progress.total, run.progress.failed, run.totalDuration.text⟩ ∧
      ∀ collected : Finset Str, collected.Nonempty →
        (∀ name ∈ collected,
          ¬ (runtest (some (parseOutput D run.printed)) collected name).IsFailure) →
        run.exitCode = 0 ∧ run.progress.total = collected.card ∧
          ∀ name ∈ collected,
            ((parseOutput D run.printed).tests.countP fun test => test.name = name) = 1 := by
  have hsummary := run.parseOutput_printed (D := D)
  refine ⟨hsummary, fun collected ⟨item, hitem⟩ hgreen => ?_⟩
  generalize parseOutput D run.printed = result at hsummary hgreen
  obtain ⟨hguards, -⟩ := exists_of_not_isFailure (hgreen item hitem)
  obtain ⟨-, -, summary, hsome, hfailed, -, hnames, htotal⟩ := requireBatchResult_iff.mp hguards
  obtain rfl : summary = ⟨run.progress.total, run.progress.failed, run.totalDuration.text⟩ :=
    Option.some.inj (hsome.symm.trans hsummary)
  have hnone : (result.tests.countP fun test => test.status = .fail) = 0 := by
    rw [List.countP_eq_zero]
    intro test htest hfail
    obtain ⟨-, other, hone, hother⟩ := exists_of_not_isFailure (hgreen _ (hnames test htest))
    have hmem : test ∈ result.tests.filter fun other => other.name = test.name :=
      List.mem_filter.mpr ⟨htest, by simp⟩
    rw [hone, List.mem_singleton] at hmem
    exact hother (hmem ▸ by simpa using hfail)
  refine ⟨?_, htotal, fun name hname => ?_⟩
  · rw [ModuleRun.exitCode, if_neg (not_not.mpr (hfailed.trans hnone))]
  · obtain ⟨-, test, hone, -⟩ := exists_of_not_isFailure (hgreen name hname)
    rw [List.countP_eq_length_filter, hone, List.length_singleton]

/-- A module with one test, which prints and passes. -/
def greenRun : ModuleRun where
  gcTracking := true
  nameFilter := none
  candidates := [Candidate.test
    ⟨"test_on".toList, by decide⟩ "led on\n".toList (Outcome.returned false) Seconds.zero 16]
  moduleHeapAfter := 1024
  moduleDelta := 16
  totalDuration := Seconds.zero

/-- The one item passes, so the run has no failure. -/
theorem failures_reported_green :
    (¬ (runtest (some (parseOutput asciiDigits greenRun.printed)) {"test_on".toList}
        "test_on".toList).IsFailure) ∧
      greenRun.exitCode = 0 ∧ greenRun.progress.total = 1 := by
  have hverdict : runtest (some (parseOutput asciiDigits greenRun.printed)) {"test_on".toList}
      "test_on".toList = .passed := by decide +kernel
  have hpasses : ¬ (runtest (some (parseOutput asciiDigits greenRun.printed)) {"test_on".toList}
      "test_on".toList).IsFailure := by
    rw [hverdict]
    rintro ⟨why, hwhy⟩
    cases hwhy
  refine ⟨hpasses, ?_⟩
  have hgreen := (failures_reported asciiDigits greenRun).2 {"test_on".toList}
    (Finset.singleton_nonempty _) fun name hname => by
      rw [Finset.mem_singleton.mp hname]
      exact hpasses
  exact ⟨hgreen.1, hgreen.2.1.trans (Finset.card_singleton _)⟩

/-- **Every item has the verdict of its test**, where no test prints a result itself: the results
that are parsed are those of the harness, with durations, heap deltas and reasons, and where the
tests have different names and these are collected, each item passes, fails or is skipped as its
test was.

**Proof sketch.** Each candidate's text is terminated and says its own result, so the lines of the
whole output say those of all candidates; and what the harness counts is what it says. -/
theorem verdicts_exact (D : UnicodeDigits) (run : ModuleRun)
    (hquiet : ∀ c ∈ run.candidates, c.Quiet D) :
    (parseOutput D run.printed).tests = run.results ∧
      (run.results ≠ [] → (run.results.map TestResult.name).Nodup → ∀ test ∈ run.results,
        runtest (some (parseOutput D run.printed)) (run.results.map TestResult.name).toFinset
          test.name = verdictOf test) := by
  have htests := run.parseOutput_tests hquiet
  refine ⟨htests, fun hne hnodup test htest => ?_⟩
  have hrecorded := run.recorded True fun _ => hquiet
  have hguards : requireBatchResult (some (parseOutput D run.printed))
      (run.results.map TestResult.name).toFinset = .ok (parseOutput D run.printed) := by
    refine requireBatchResult_iff.mpr
      ⟨rfl, htests ▸ hne, _, run.parseOutput_printed, ?_, ?_, ?_, ?_⟩
    · rw [htests]
      exact hrecorded.failed
    · rw [htests]
      exact hrecorded.total.ge
    · rw [htests]
      exact fun other hother => List.mem_toFinset.mpr (List.mem_map_of_mem hother)
    · rw [List.toFinset_card_of_nodup hnodup, List.length_map]
      exact hrecorded.total
  rw [runtest, hguards]
  dsimp only
  rw [htests, filter_name_eq_singleton hnodup htest]

lemma sample_words :
    ("test_on".toList ≠ [] ∧ ∀ c ∈ "test_on".toList, isSpace c = false) ∧
      ("test_off".toList ≠ [] ∧ ∀ c ∈ "test_off".toList, isSpace c = false) ∧
      ("test_dim".toList ≠ [] ∧ ∀ c ∈ "test_dim".toList, isSpace c = false) := by decide

/-- A module with a test that prints and passes, one that fails and one that is skipped. -/
def sampleRun : ModuleRun where
  gcTracking := true
  nameFilter := none
  candidates := [
    Candidate.test ⟨_, sample_words.1⟩ "led on\n".toList (Outcome.returned false) Seconds.zero 16,
    Candidate.test ⟨_, sample_words.2.1⟩ [] (Outcome.raised "AssertionError: 1".toList)
      Seconds.zero (-32),
    Candidate.test ⟨_, sample_words.2.2⟩ [] (Outcome.skipped "no PWM (yet)".toList) Seconds.zero 0]
  moduleHeapAfter := 1024
  moduleDelta := -16
  totalDuration := Seconds.zero

lemma sampleRun_quiet : ∀ c ∈ sampleRun.candidates, c.Quiet asciiDigits := by
  have hlines : splitlines "led on\n".toList = ["led on".toList] ∧
      splitlines (println "AssertionError: 1".toList) = ["AssertionError: 1".toList] ∧
      splitlines [] = [] := by decide +kernel
  have hled : testOf asciiDigits "led on".toList = none :=
    testOf_eq_none_of_head (c := 'l') rfl (by decide) fun s => by cases s <;> decide
  have herror : testOf asciiDigits "AssertionError: 1".toList = none :=
    testOf_eq_none_of_head (c := 'A') rfl (by decide) fun s => by cases s <;> decide
  simp only [sampleRun, List.forall_mem_cons, List.not_mem_nil, false_implies, implies_true,
    and_true, Candidate.Quiet, hlines, hled, herror]
  exact ⟨.inr ⟨"led on".toList, rfl⟩, .inl rfl, .inl rfl, by decide⟩

/-- The three tests pass, fail and are skipped on the host. -/
theorem verdicts_exact_sample :
    (parseOutput asciiDigits sampleRun.printed).tests = sampleRun.results ∧
      ∀ test ∈ sampleRun.results,
        runtest (some (parseOutput asciiDigits sampleRun.printed))
          (sampleRun.results.map TestResult.name).toFinset test.name = verdictOf test :=
  have h := verdicts_exact asciiDigits sampleRun sampleRun_quiet
  ⟨h.1, h.2 (by decide) (by decide)⟩

end ChuMicro.PytestDevice
