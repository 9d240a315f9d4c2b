import ChuMicro.Lib.LinePattern
import ChuMicro.Lib.TextLines
import ChuMicro.Text

/-!
# The lines of a test run

`parse_output` of `chumicro_pytest_device/result_parser.py`: the output of a board is split into
lines, and a line that matches none of four patterns is ignored.

None of the patterns needs backtracking, so each is a row of literals and classes
(`Lib.LinePattern`); an optional group is two patterns, and of the message of a skipped
test, `\((.+)\)`, the last parenthesis is looked for. Which characters are decimal digits depends on
the Unicode version of the host and is a parameter. A duration is kept as the text that `float` is
given.

## Main definitions

* `PytestDevice.UnicodeDigits` — the characters `\d` matches, and their values.
* `PytestDevice.splitlines` — `str.splitlines`.
* `PytestDevice.parseOutput` — `parse_output`.
* `PytestDevice.testOf`, `PytestDevice.summaryOf` — what one line says.

## Main results

* `PytestDevice.parseOutput_tests`, `PytestDevice.parseOutput_summary` — the results are those of
  the lines, in order, and the summary is the last one.
* `PytestDevice.testOf_resultLine`, `PytestDevice.testOf_skipLine`,
  `PytestDevice.summaryOf_summaryLine` — the lines that the harness prints are read back.
-/

namespace ChuMicro.PytestDevice

open LinePattern

/-! ## Digits -/

/-- The decimal digits of a Unicode version: what `\d` matches and `int` reads. -/
structure UnicodeDigits where
  value : Char → Option ℕ
  ascii : ∀ c : Char, c.toNat < 128 →
    value c = if 48 ≤ c.toNat ∧ c.toNat ≤ 57 then some (c.toNat - 48) else none
  blank : ∀ c, isSpace c = true → value c = none

/-- The value of an ASCII digit. -/
def asciiDigit? (c : Char) : Option ℕ :=
  if 48 ≤ c.toNat ∧ c.toNat ≤ 57 then some (c.toNat - 48) else none

/-- A blank is no digit. -/
lemma asciiDigit?_of_isSpace (c : Char) (h : isSpace c = true) : asciiDigit? c = none := by
  rw [asciiDigit?, if_neg]
  rintro ⟨h1, h2⟩
  simp only [isSpace, Bool.or_eq_true, Bool.and_eq_true, decide_eq_true_eq, beq_iff_eq] at h
  omega

/-- The digits of ASCII alone. -/
def asciiDigits : UnicodeDigits where
  value := asciiDigit?
  ascii _ _ := rfl
  blank := asciiDigit?_of_isSpace

variable (D : UnicodeDigits)

/-- `\d`. -/
def UnicodeDigits.isDigit (c : Char) : Bool := (D.value c).isSome

/-- `\S`. -/
def notSpace (c : Char) : Bool := !isSpace c

/-- `int` of a run of decimal digits. -/
def UnicodeDigits.int (digits : Str) : ℕ := digits.foldl (fun n c => n * 10 + (D.value c).getD 0) 0

/-- `int` of a run of decimal digits behind a sign. -/
def UnicodeDigits.signedInt (sign digits : Str) : ℤ :=
  if sign = ['-'] then -(D.int digits : ℤ) else D.int digits

/-- `[+-]`. -/
def isSign (c : Char) : Bool := c == '+' || c == '-'

/-! ## Results -/

/-- The status of a test. -/
inductive Status where
  | pass
  | fail
  | skip
  deriving DecidableEq, Repr

/-- How the status is written. -/
def Status.word : Status → Str
  | .pass => "PASS".toList
  | .fail => "FAIL".toList
  | .skip => "SKIP".toList

/-- `TestResult`. -/
structure TestResult where
  name : Str
  status : Status
  duration : Option Str
  heap_delta : Option ℤ
  message : Str
  deriving DecidableEq

/-- `HeapResult`. -/
structure HeapResult where
  bytes_free : ℕ
  delta : ℤ
  deriving DecidableEq

/-- `SummaryResult`. -/
structure SummaryResult where
  total : ℕ
  failed : ℕ
  duration : Str
  deriving DecidableEq

/-- `RunResult`. -/
structure RunResult where
  tests : List TestResult
  heap : Option HeapResult
  summary : Option SummaryResult
  raw_output : Str
  deriving DecidableEq

/-! ## The patterns -/

/-- `\((\d+\.\d+)s`. -/
def durationPart : List (Atom Char) :=
  [.lit ['('], .many1 D.isDigit, .lit ['.'], .many1 D.isDigit, .lit ['s']]

/-- `,\s*heap\s*([+-]?\d+)`. -/
def heapPart : List (Atom Char) :=
  [.lit [','], .many isSpace, .lit "heap".toList, .many isSpace, .opt isSign, .many1 D.isDigit]

/-- `(PASS|FAIL)\s+(\S+)\s+` for one of the two. -/
def headPart (status : Status) : List (Atom Char) :=
  [.lit status.word, .many1 isSpace, .many1 notSpace, .many1 isSpace]

/-- `_PASS_FAIL_PATTERN` for one of the two, with and without the group of the heap. -/
def passFailPattern (status : Status) (heap : Bool) : List (Atom Char) :=
  headPart status ++ durationPart D ++ (if heap then heapPart D else []) ++ [Atom.lit [')']]

/-- `_SKIP_PATTERN` in front of the message. -/
def SKIP_PATTERN : List (Atom Char) :=
  [.lit "SKIP".toList, .many1 isSpace, .many1 notSpace]

/-- `_SUMMARY_PATTERN`. -/
def summaryPattern : List (Atom Char) :=
  [.lit "SUMMARY".toList, .many1 isSpace, .lit "total=".toList, .many1 D.isDigit,
    .many1 isSpace, .lit "failed=".toList, .many1 D.isDigit,
    .many1 isSpace, .lit "time=".toList, .many1 D.isDigit, .lit ['.'], .many1 D.isDigit, .lit ['s']]

/-- `_HEAP_PATTERN`. -/
def heapPattern : List (Atom Char) :=
  [.lit "HEAP".toList, .many1 isSpace, .many1 D.isDigit, .many1 isSpace, .lit "bytes".toList,
    .many1 isSpace, .lit "free".toList, .many1 isSpace, .lit "(delta".toList, .many1 isSpace,
    .opt isSign, .many1 D.isDigit, .many1 isSpace, .lit "bytes)".toList]

/-- The result in the groups of `_PASS_FAIL_PATTERN`. -/
def passFailResult (status : Status) : List Str → Option TestResult
  | [_, _, name, _, _, whole, dot, fraction, _, _] =>
    some ⟨name, status, some (whole ++ dot ++ fraction), none, []⟩
  | [_, _, name, _, _, whole, dot, fraction, _, _, _, _, _, sign, digits, _] =>
    some ⟨name, status, some (whole ++ dot ++ fraction), some (D.signedInt sign digits), []⟩
  | _ => none

/-- `_PASS_FAIL_PATTERN.match` for one of the two words. -/
def matchStatus (status : Status) (text : Str) : Option TestResult :=
  ((scan (passFailPattern D status false) text).or
    (scan (passFailPattern D status true) text)).bind fun found => passFailResult D status found.1

/-- `_PASS_FAIL_PATTERN.match`. -/
def matchPassFail (text : Str) : Option TestResult :=
  (matchStatus D .pass text).or (matchStatus D .fail text)

/-- What `(.+)\)` captures: all in front of the last parenthesis, if that is not nothing. -/
def upToLastParen (text : Str) : Option Str :=
  let closed := text.rdropWhile (· ≠ ')')
  if 2 ≤ closed.length then some closed.dropLast else none

/-- `(?:\s+\((.+)\))?`, or the empty text. -/
def skipMessage (text : Str) : Str :=
  ((scan [.many1 isSpace, .lit ['(']] text).bind fun found => upToLastParen found.2).getD []

/-- `_SKIP_PATTERN.match`. -/
def matchSkip (text : Str) : Option TestResult :=
  match scan SKIP_PATTERN text with
  | some ([_, _, name], rest) => some ⟨name, .skip, none, none, skipMessage rest⟩
  | _ => none

/-- `_SUMMARY_PATTERN.match`. -/
def matchSummary (text : Str) : Option SummaryResult :=
  match scan (summaryPattern D) text with
  | some ([_, _, _, total, _, _, failed, _, _, whole, dot, fraction, _], _) =>
    some ⟨D.int total, D.int failed, whole ++ dot ++ fraction⟩
  | _ => none

/-- `_HEAP_PATTERN.match`. -/
def matchHeap (text : Str) : Option HeapResult :=
  match scan (heapPattern D) text with
  | some ([_, _, free, _, _, _, _, _, _, _, sign, digits, _, _], _) =>
    some ⟨D.int free, D.signedInt sign digits⟩
  | _ => none

/-! ## Parsing -/

/-- The characters `str.splitlines` splits at. -/
def isLineEnd (c : Char) : Bool :=
  let n := c.toNat
  (10 ≤ n && n ≤ 13) || (28 ≤ n && n ≤ 30) || n == 0x85 || n == 0x2028 || n == 0x2029

/-- The line ends of `str.splitlines`. -/
def LINE_ENDS : TextLines.Ends Char where
  isEnd := isLineEnd
  cr := '\r'
  lf := '\n'
  isEnd_lf := by decide
  cr_ne_lf := by decide

/-- `text.splitlines()`. -/
def splitlines (text : Str) : List Str := TextLines.splitLines LINE_ENDS text

/-- One line of the output. -/
def parseLine (result : RunResult) (line : Str) : RunResult :=
  let stripped := strip line
  match matchPassFail D stripped with
  | some test => { result with tests := result.tests ++ [test] }
  | none =>
    match matchSkip stripped with
    | some test => { result with tests := result.tests ++ [test] }
    | none =>
      match matchSummary D stripped with
      | some summary => { result with summary := some summary }
      | none =>
        match matchHeap D stripped with
        | some heap => { result with heap := some heap }
        | none => result

/-- **`parse_output`.** -/
def parseOutput (raw_output : Str) : RunResult :=
  (splitlines raw_output).foldl (parseLine D) ⟨[], none, none, raw_output⟩

/-! ## What the lines say -/

/-- The test result of a line. -/
def testOf (line : Str) : Option TestResult :=
  (matchPassFail D (strip line)).or (matchSkip (strip line))

/-- The summary of a line. -/
def summaryOf (line : Str) : Option SummaryResult :=
  match testOf D line with
  | some _ => none
  | none => matchSummary D (strip line)

variable {D}

/-- What a line adds. -/
lemma parseLine_spec (result : RunResult) (line : Str) :
    (parseLine D result line).tests = result.tests ++ (testOf D line).toList ∧
      (parseLine D result line).summary = (summaryOf D line).or result.summary := by
  simp only [parseLine, summaryOf, testOf]
  cases hpass : matchPassFail D (strip line) with
  | some test => simp
  | none =>
    cases hskip : matchSkip (strip line) with
    | some test => simp
    | none =>
      cases hsummary : matchSummary D (strip line) with
      | some summary => simp
      | none => cases matchHeap D (strip line) <;> simp

/-- What lines add. -/
lemma foldl_parseLine (lines : List Str) (result : RunResult) :
    (lines.foldl (parseLine D) result).tests = result.tests ++ lines.filterMap (testOf D) ∧
      (lines.foldl (parseLine D) result).summary =
        lines.foldl (fun summary line => (summaryOf D line).or summary) result.summary := by
  induction lines generalizing result with
  | nil => simp
  | cons line lines ih =>
    obtain ⟨htests, hsummary⟩ := ih (parseLine D result line)
    obtain ⟨htest, hsum⟩ := parseLine_spec (D := D) result line
    rw [List.foldl_cons, List.foldl_cons, htests, hsummary, htest, hsum, List.append_assoc]
    refine ⟨?_, rfl⟩
    cases h : testOf D line <;> simp [h]

/-- **The results are those of the lines**, in order. -/
theorem parseOutput_tests (raw_output : Str) :
    (parseOutput D raw_output).tests = (splitlines raw_output).filterMap (testOf D) :=
  (foldl_parseLine _ _).1

/-- **The summary is the last one.** -/
theorem parseOutput_summary (raw_output : Str) :
    (parseOutput D raw_output).summary =
      (splitlines raw_output).foldl (fun summary line => (summaryOf D line).or summary) none :=
  (foldl_parseLine _ _).2

/-- A last line with a summary decides. -/
lemma parseOutput_summary_of_last {raw_output line : Str} {lines : List Str}
    {summary : SummaryResult} (hlines : splitlines raw_output = lines ++ [line])
    (h : summaryOf D line = some summary) : (parseOutput D raw_output).summary = some summary := by
  rw [parseOutput_summary, hlines, List.foldl_append]
  simp [h]

/-! ## The patterns have no choice -/

/-- No letter or sign is a digit. -/
lemma isDigit_eq_false {c : Char} (h : c.toNat < 128 ∧ (c.toNat < 48 ∨ 57 < c.toNat)) :
    D.isDigit c = false := by
  rw [UnicodeDigits.isDigit, D.ascii c h.1, if_neg (by omega), Option.isSome_none]

/-- No blank is a digit. -/
lemma isDigit_of_isSpace {c : Char} (h : isSpace c = true) : D.isDigit c = false := by
  rw [UnicodeDigits.isDigit, D.blank c h, Option.isSome_none]

/-- No digit is blank. -/
lemma isSpace_of_isDigit {c : Char} (h : D.isDigit c = true) : isSpace c = false := by
  by_contra hc
  rw [isDigit_of_isSpace (by simpa using hc)] at h
  exact Bool.false_ne_true h

lemma deterministic_summaryPattern : Deterministic (summaryPattern D) := by
  have hspace : isSpace 't' = false ∧ isSpace 'f' = false := by decide
  have hdigit : D.isDigit '.' = false ∧ D.isDigit 's' = false :=
    ⟨isDigit_eq_false (by decide), isDigit_eq_false (by decide)⟩
  simp only [summaryPattern, Deterministic, Begins, Solid]
  simpa [hspace, hdigit] using fun c => isDigit_of_isSpace

lemma deterministic_headPart (status : Status) :
    Deterministic (headPart status ++ durationPart D) := by
  have hspace : isSpace '(' = false := by decide
  have hdigit : D.isDigit '.' = false ∧ D.isDigit 's' = false :=
    ⟨isDigit_eq_false (by decide), isDigit_eq_false (by decide)⟩
  simp only [headPart, durationPart, List.cons_append, List.nil_append, Deterministic, Begins,
    Solid]
  simp [hspace, hdigit, notSpace]

lemma deterministic_passFailPattern (status : Status) (heap : Bool) :
    Deterministic (passFailPattern D status heap) := by
  have hspace : isSpace '(' = false ∧ isSpace 'h' = false ∧ isSpace '+' = false ∧
      isSpace '-' = false := by decide
  have hdigit : D.isDigit '.' = false ∧ D.isDigit 's' = false ∧ D.isDigit ')' = false ∧
      D.isDigit '+' = false ∧ D.isDigit '-' = false :=
    ⟨isDigit_eq_false (by decide), isDigit_eq_false (by decide), isDigit_eq_false (by decide),
      isDigit_eq_false (by decide), isDigit_eq_false (by decide)⟩
  have hsign : ∀ c, isSign c = true → isSpace c = false ∧ D.isDigit c = false := by
    intro c hc
    rcases (by simpa [isSign] using hc : c = '+' ∨ c = '-') with rfl | rfl
    · exact ⟨by decide, isDigit_eq_false (by decide)⟩
    · exact ⟨by decide, isDigit_eq_false (by decide)⟩
  cases heap
  · simp only [passFailPattern, headPart, durationPart, List.cons_append, List.nil_append,
      List.append_nil, Deterministic, Begins, Solid, Bool.false_eq_true, if_false]
    simp [hspace, hdigit, notSpace]
  · simp only [passFailPattern, headPart, durationPart, heapPart, List.cons_append,
      List.nil_append, Deterministic, Begins, Solid, if_true]
    simp only [notSpace]
    have hrest : (∀ c, isSign c = true ∨ D.isDigit c = true → isSpace c = false) ∧
        ∀ c, D.isDigit c = true → isSign c = false := by
      refine ⟨fun c hc => hc.elim (fun h => (hsign c h).1) isSpace_of_isDigit, fun c hc => ?_⟩
      by_contra h
      rw [(hsign c (by simpa using h)).2] at hc
      exact Bool.false_ne_true hc
    simpa [hspace, hdigit] using hrest

/-! ## The lines the harness prints -/

/-- The first letter of a status. -/
lemma word_cons (status : Status) :
    ∃ c rest, status.word = c :: rest ∧ isSpace c = false := by
  cases status
  · exact ⟨'P', "ASS".toList, rfl, by decide⟩
  · exact ⟨'F', "AIL".toList, rfl, by decide⟩
  · exact ⟨'S', "KIP".toList, rfl, by decide⟩

/-- A line that neither begins nor ends in a blank. -/
lemma strip_of_ends {c last : Char} {line : Str} (hc : line.head? = some c)
    (hlast : line.getLast? = some last) (hcs : isSpace c = false) (hls : isSpace last = false) :
    strip line = line := by
  have hdrop : line.dropWhile isSpace = line := by
    obtain ⟨rest, rfl⟩ := List.head?_eq_some_iff.mp hc
    rw [List.dropWhile_cons_of_neg (by simp [hcs])]
  rw [strip, hdrop, List.rdropWhile_eq_self_iff]
  intro hne
  rw [List.getLast?_eq_some_getLast hne, Option.some.injEq] at hlast
  simp [hlast, hls]

/-- A pattern does not match where its word is not. -/
lemma scan_eq_none {word text : Str} {pattern : List (Atom Char)}
    (h : ¬ word <+: text) : scan (.lit word :: pattern) text = none := by
  simp [scan, Atom.scan, h]

/-- No result of one of the two words where the word is not. -/
lemma matchStatus_eq_none {status : Status} {text : Str} (h : ¬ status.word <+: text) :
    matchStatus D status text = none := by
  have hscan : ∀ heap, scan (passFailPattern D status heap) text = none :=
    fun heap => @scan_eq_none status.word text (passFailPattern D status heap).tail h
  rw [matchStatus, hscan, hscan]
  rfl

/-- No status in front, no result. -/
lemma testOf_eq_none {line : Str} (h : ∀ status : Status, ¬ status.word <+: strip line) :
    testOf D line = none := by
  have hskip : scan SKIP_PATTERN (strip line) = none := scan_eq_none (h .skip)
  rw [testOf, matchPassFail, matchStatus_eq_none (h .pass), matchStatus_eq_none (h .fail),
    matchSkip, hskip]
  rfl

/-- What is captured in front of the last parenthesis, of a text that ends with it. -/
lemma upToLastParen_append (message : Str) :
    (upToLastParen (message ++ [')'])).getD [] = message := by
  rw [upToLastParen, List.rdropWhile_concat_neg _ _ _ (by simp)]
  cases message with
  | nil => rfl
  | cons c rest => rw [if_pos (by simp), Option.getD_some, List.dropLast_concat]

/-- **`int` reads what an f-string prints.** -/
lemma int_formatInt (n : ℕ) : D.int (formatInt n) = n := by
  have hdigits : formatInt n = Nat.toDigits 10 n := by
    rw [formatInt, if_neg (by omega), Int.natAbs_natCast]
  have hvalue : ∀ d < 10, D.value d.digitChar = some d := by
    intro d hd
    have hall : ∀ d < 10, d.digitChar.toNat = 48 + d := by decide
    rw [D.ascii _ (by rw [hall d hd]; omega), hall d hd, if_pos (by omega)]
    congr 1
    omega
  rw [hdigits, UnicodeDigits.int]
  -- the last digit is the residue, and the ones before it are those of the quotient
  induction n using Nat.strong_induction_on with
  | _ n ih =>
    rw [Nat.toDigits_eq_if (by omega)]
    split_ifs with hlt
    · simp [hvalue n hlt]
    · have hlast := hvalue (n % 10) (Nat.mod_lt n (by omega))
      rw [List.foldl_append, ih _ (Nat.div_lt_self (by omega) (by omega)) (by
        rw [formatInt, if_neg (by omega), Int.natAbs_natCast])]
      simp only [List.foldl_cons, List.foldl_nil, hlast, Option.getD_some]
      omega

/-- The digits that an f-string prints are digits. -/
lemma accepts_formatInt (n : ℕ) : (Atom.many1 D.isDigit).Accepts (formatInt n) := by
  rw [formatInt, if_neg (by omega)]
  refine ⟨Nat.toDigits_ne_nil, fun c hc => ?_⟩
  have hdigit := Nat.isDigit_of_mem_toDigits (by omega) (by omega) hc
  rw [Char.isDigit_iff_toNat] at hdigit
  obtain ⟨hlow, hhigh⟩ : 48 ≤ c.toNat ∧ c.toNat ≤ 57 := hdigit
  rw [UnicodeDigits.isDigit, D.ascii c (by omega), if_pos ⟨hlow, hhigh⟩, Option.isSome_some]

section ResultLine

variable {status : Status} {name whole fraction : Str}

/-- What a line says that begins with one of the two words. -/
lemma testOf_of_matchStatus {line : Str} {test : TestResult} (hstatus : status ≠ .skip)
    (hstrip : strip line = line) (hword : status.word <+: line)
    (h : matchStatus D status line = some test) : testOf D line = some test := by
  cases status with
  | pass => rw [testOf, hstrip, matchPassFail, h]; rfl
  | fail =>
    have hpass : ¬ Status.pass.word <+: line := by
      obtain ⟨rest, rfl⟩ := hword
      simp [Status.word]
    rw [testOf, hstrip, matchPassFail, matchStatus_eq_none hpass, h]
    rfl
  | skip => exact absurd rfl hstatus

/-- The result line of a test that has passed or failed, up to the heap. -/
def resultLine (status : Status) (name whole fraction : Str) : Str :=
  status.word ++ (' ' :: (name ++ (' ' :: '(' :: (whole ++ ('.' :: (fraction ++ ['s']))))))

variable (hstatus : status ≠ .skip) (hname : (Atom.many1 notSpace).Accepts name)
  (hwhole : (Atom.many1 D.isDigit).Accepts whole)
  (hfraction : (Atom.many1 D.isDigit).Accepts fraction)

include hname hwhole hfraction in
/-- The line in the parts of the pattern. -/
lemma accepts_resultLine :
    Accepts (headPart status ++ durationPart D)
      [status.word, [' '], name, [' '], ['('], whole, ['.'], fraction, ['s']] := by
  have hblank : (Atom.many1 isSpace).Accepts [' '] := ⟨by simp, by decide⟩
  exact .cons rfl (.cons hblank (.cons hname (.cons hblank (.cons rfl (.cons hwhole
    (.cons rfl (.cons hfraction (.cons rfl .nil))))))))

/-- A line with a result in front and a parenthesis at its end has no blanks to strip. -/
lemma strip_resultLine (more : Str) :
    strip (resultLine status name whole fraction ++ (more ++ [')'])) =
      resultLine status name whole fraction ++ (more ++ [')']) := by
  obtain ⟨c, word, hword, hc⟩ := word_cons status
  refine @strip_of_ends c ')' _ ?_ ?_ hc (by decide)
  · rw [resultLine, hword]
    rfl
  · rw [← List.append_assoc, List.getLast?_concat]

include hstatus hname hwhole hfraction in
/-- **The result of a test that has passed or failed is read back.** -/
theorem testOf_resultLine :
    testOf D (resultLine status name whole fraction ++ [')']) =
      some ⟨name, status, some (whole ++ ['.'] ++ fraction), none, []⟩ := by
  have haccepts : Accepts (passFailPattern D status false)
      ([status.word, [' '], name, [' '], ['('], whole, ['.'], fraction, ['s']] ++ [[')']]) := by
    have hlast : Accepts [.lit [')']] [[')']] := .cons rfl .nil
    simpa only [passFailPattern, Bool.false_eq_true, if_false, List.append_nil] using
      (@accepts_resultLine D status _ _ _ hname hwhole hfraction).append hlast
  have hscan := scan_flatten haccepts (deterministic_passFailPattern status false) []
  have hline : ([status.word, [' '], name, [' '], ['('], whole, ['.'], fraction, ['s']] ++
      [[')']]).flatten ++ [] = resultLine status name whole fraction ++ [')'] := by
    simp [resultLine]
  rw [hline] at hscan
  refine testOf_of_matchStatus hstatus (@strip_resultLine status _ _ _ []) ?_ ?_
  · rw [resultLine, List.append_assoc]
    exact List.prefix_append _ _
  · rw [matchStatus, hscan]
    rfl

include hstatus hname hwhole hfraction in
/-- **The same with the heap behind the duration.** -/
lemma testOf_resultLine_heap {sign digits : Str} (hsign : (Atom.opt isSign).Accepts sign)
    (hdigits : (Atom.many1 D.isDigit).Accepts digits) :
    testOf D (resultLine status name whole fraction ++ (", heap ".toList ++ (sign ++ digits) ++ [')'])) =
      some ⟨name, status, some (whole ++ ['.'] ++ fraction), some (D.signedInt sign digits), []⟩ := by
  have hblank : (Atom.many isSpace).Accepts [' '] := by
    intro c hc
    obtain rfl := List.mem_singleton.mp hc
    decide
  have hfront := @accepts_resultLine D status _ _ _ hname hwhole hfraction
  have hheap : Accepts (heapPart D ++ [Atom.lit [')']])
      [[','], [' '], "heap".toList, [' '], sign, digits, [')']] :=
    .cons rfl (.cons hblank (.cons rfl (.cons hblank (.cons hsign (.cons hdigits
      (.cons rfl .nil))))))
  have haccepts : Accepts (passFailPattern D status true)
      ([status.word, [' '], name, [' '], ['('], whole, ['.'], fraction, ['s']] ++
        [[','], [' '], "heap".toList, [' '], sign, digits, [')']]) := by
    simpa only [passFailPattern, if_true, List.append_assoc] using hfront.append hheap
  have hline : ([status.word, [' '], name, [' '], ['('], whole, ['.'], fraction, ['s']] ++
      [[','], [' '], "heap".toList, [' '], sign, digits, [')']]).flatten ++ [] =
        resultLine status name whole fraction ++ (", heap ".toList ++ (sign ++ digits) ++ [')']) := by
    simp [resultLine]
  have hscan := scan_flatten haccepts (deterministic_passFailPattern status true) []
  rw [hline] at hscan
  -- without the group the comma is in the way
  have hplain : scan (passFailPattern D status false)
      (resultLine status name whole fraction ++ (", heap ".toList ++ (sign ++ digits) ++ [')'])) =
        none := by
    have hhead := scan_flatten hfront (deterministic_headPart status)
      (", heap ".toList ++ (sign ++ digits) ++ [')'])
    have hflat : [status.word, [' '], name, [' '], ['('], whole, ['.'], fraction, ['s']].flatten =
        resultLine status name whole fraction := by
      simp [resultLine]
    rw [hflat] at hhead
    rw [passFailPattern, if_neg Bool.false_ne_true, List.append_nil, scan_append_pattern, hhead]
    simp [scan, Atom.scan]
  refine testOf_of_matchStatus hstatus ?_ ?_ ?_
  · exact strip_resultLine _
  · rw [resultLine, List.append_assoc]
    exact List.prefix_append _ _
  · rw [matchStatus, hplain, hscan]
    rfl

include hname in
/-- **A skipped test is read back with its reason.** -/
theorem testOf_skipLine (message : Str) :
    testOf D (Status.skip.word ++ (' ' :: (name ++ (" (".toList ++ (message ++ [')']))))) =
      some ⟨name, .skip, none, none, message⟩ := by
  have hstrip : strip (Status.skip.word ++ (' ' :: (name ++ (" (".toList ++ (message ++ [')']))))) =
      Status.skip.word ++ (' ' :: (name ++ (" (".toList ++ (message ++ [')'])))) := by
    refine @strip_of_ends 'S' ')' _ rfl ?_ (by decide) (by decide)
    simp only [← List.append_assoc, ← List.cons_append, List.getLast?_concat]
  have hnoword : ∀ status : Status, status ≠ .skip →
      ¬ status.word <+: Status.skip.word ++ (' ' :: (name ++ (" (".toList ++ (message ++ [')'])))) := by
    intro status hstatus
    cases status with
    | pass => simp [Status.word]
    | fail => simp [Status.word]
    | skip => exact absurd rfl hstatus
  have hblank : (Atom.many1 isSpace).Accepts [' '] := ⟨by simp, by decide⟩
  obtain ⟨first, rest, hcons⟩ := List.exists_cons_of_ne_nil hname.1
  have hfirst : isSpace first = false := by
    have := hname.2 first (by rw [hcons]; exact List.mem_cons_self)
    simpa [notSpace] using this
  have hhead : ∀ d, (name ++ (" (".toList ++ (message ++ [')']))).head? = some d →
      isSpace d = false := by
    intro d hd
    rw [hcons] at hd
    obtain rfl := Option.some.inj hd
    exact hfirst
  have hbehind : ∀ d, (" (".toList ++ (message ++ [')'])).head? = some d → notSpace d = false := by
    intro d hd
    obtain rfl := Option.some.inj hd
    decide
  have hscan : scan SKIP_PATTERN
      (Status.skip.word ++ (' ' :: (name ++ (" (".toList ++ (message ++ [')']))))) =
        some (["SKIP".toList, [' '], name], " (".toList ++ (message ++ [')'])) := by
    have hlit : ∀ text : Str, (Atom.lit "SKIP".toList).scan (Status.skip.word ++ text) =
        some ("SKIP".toList, text) := by
      intro text
      rw [Atom.scan, Status.word, if_pos (List.prefix_append _ _), List.drop_left]
    have hone := Atom.scan_many1 hblank hhead
    rw [List.singleton_append] at hone
    simp only [SKIP_PATTERN, scan, hlit, Option.bind_eq_bind, Option.bind_some, hone,
      Atom.scan_many1 hname hbehind, Option.pure_def]
  have hmessage : skipMessage (" (".toList ++ (message ++ [')'])) = message := by
    have haccepts : Accepts [.many1 isSpace, .lit ['(']] [[' '], ['(']] :=
      .cons hblank (.cons rfl .nil)
    have hdet : Deterministic [.many1 isSpace, .lit ['(']] := by
      have hparen : isSpace '(' = false := by decide
      simp [Deterministic, Begins, Solid, hparen]
    have hopen := scan_flatten haccepts hdet (message ++ [')'])
    have htext : [[' '], ['(']].flatten ++ (message ++ [')']) = " (".toList ++ (message ++ [')']) := rfl
    rw [htext] at hopen
    rw [skipMessage, hopen]
    exact upToLastParen_append message
  rw [testOf, hstrip, matchPassFail, matchStatus_eq_none (hnoword .pass (by decide)),
    matchStatus_eq_none (hnoword .fail (by decide)), matchSkip, hscan]
  change some (TestResult.mk name .skip none none (skipMessage _)) = _
  rw [hmessage]

/-- The line with which a run ends. -/
def summaryLine (total failed : ℕ) (whole fraction : Str) : Str :=
  "SUMMARY total=".toList ++ formatInt total ++ " failed=".toList ++ formatInt failed ++
    " time=".toList ++ whole ++ '.' :: (fraction ++ ['s'])

include hwhole hfraction in
/-- **The summary is read back.** -/
theorem summaryOf_summaryLine (total failed : ℕ) :
    summaryOf D (summaryLine total failed whole fraction) =
      some ⟨total, failed, whole ++ ['.'] ++ fraction⟩ := by
  have hblank : (Atom.many1 isSpace).Accepts [' '] := ⟨by simp, by decide⟩
  obtain ⟨rest, hrest⟩ : ∃ rest, summaryLine total failed whole fraction = 'S' :: 'U' :: rest := by
    unfold summaryLine
    simp only [String.reduceToList, List.cons_append, List.append_assoc]
    exact ⟨_, rfl⟩
  have hlit : ∀ word : Str, (Atom.lit word).Accepts word := fun _ => rfl
  have haccepts : Accepts (summaryPattern D)
      ["SUMMARY".toList, [' '], "total=".toList, formatInt total, [' '], "failed=".toList,
        formatInt failed, [' '], "time=".toList, whole, ['.'], fraction, ['s']] := by
    simp only [Accepts, summaryPattern, List.forall₂_cons, List.Forall₂.nil, and_true, hlit, hblank,
      accepts_formatInt, hwhole, hfraction]
  have hscan := scan_flatten haccepts deterministic_summaryPattern []
  have hline : ["SUMMARY".toList, [' '], "total=".toList, formatInt total, [' '], "failed=".toList,
      formatInt failed, [' '], "time=".toList, whole, ['.'], fraction, ['s']].flatten ++ [] =
        summaryLine total failed whole fraction := by
    unfold summaryLine
    simp only [String.reduceToList, List.flatten_cons, List.flatten_nil,
      List.append_assoc, List.append_nil, List.cons_append, List.nil_append]
  rw [hline] at hscan
  have hstrip : strip (summaryLine total failed whole fraction) =
      summaryLine total failed whole fraction := by
    refine @strip_of_ends 'S' 's' _ (by rw [hrest]; rfl) ?_ (by decide) (by decide)
    unfold summaryLine
    simp only [← List.append_assoc, ← List.cons_append, List.getLast?_concat]
  have hnone : testOf D (summaryLine total failed whole fraction) = none := by
    refine testOf_eq_none fun status => ?_
    rw [hstrip, hrest]
    cases status <;> simp [Status.word]
  rw [summaryOf, hnone, hstrip, matchSummary, hscan]
  simp only [int_formatInt, List.append_assoc]

end ResultLine

end ChuMicro.PytestDevice
