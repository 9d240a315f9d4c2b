import ChuMicro.Text
import ChuMicro.Lib.Regex
import Mathlib.Data.List.DropRight
import Mathlib.Data.List.Sort

/-!
# The pattern detectors of the serial monitor

`chumicro_repl/patterns.py`: four regular expressions that find tracebacks, safe-mode banners, hard
faults and soft reboots in the output of a board, and the detector that feeds them a stream through
a window of its last characters.

## Main definitions

* `Repl.TRACEBACK_PATTERN` and the other three patterns, `Repl.PATTERNS`.
* `Repl.detectPatterns` — `detect_patterns`.
* `Repl.StreamingPatternDetector` — the detector, with `feed`.
* `Repl.HasTraceback`, `Repl.HasSafeMode`, `Repl.HasHardFault` — what the patterns look for, said
  without them.

## Main results

* `Repl.finditer_traceback` and its siblings — a pattern finds something exactly in the texts with
  what it looks for.
* `Repl.StreamingPatternDetector.feed_spec` — what one call reports and keeps.
-/

namespace ChuMicro.Repl

open Regex

/-! ## The patterns -/

/-- `PatternKind`. -/
inductive PatternKind where
  | traceback
  | safeMode
  | hardFault
  | softReboot
  deriving DecidableEq, Repr

/-- `PatternMatch`. -/
structure PatternMatch where
  kind : PatternKind
  start : ℕ
  endIndex : ℕ
  text : Str
  deriving DecidableEq, Repr

/-- The header line of a traceback, with its line break. -/
def TRACEBACK_HEADER : Str := "Traceback (most recent call last):\n".toList

/-- How a safe-mode banner begins and ends. -/
def SAFE_MODE_START : Str := "You are in safe mode because:".toList
@[inherit_doc SAFE_MODE_START] def SAFE_MODE_END : Str := "Press reset to exit safe mode.".toList

/-- How a hard fault begins. -/
def HARD_FAULT_HEADER : Str := "Hard fault".toList

/-- The banner of a soft reboot. -/
def SOFT_REBOOT_BANNER : Str := "MPY: soft reboot".toList

/-- `\n` and `.` -/
def NEWLINE : Regex Char := lit ['\n']
@[inherit_doc NEWLINE] def DOT : Regex Char := char (· != '\n')

/-- One indented line. -/
def FRAME_LINE : Regex Char := seq (lit [' ', ' ']) (seq (star DOT) NEWLINE)

/-- `_TRACEBACK_PATTERN`. -/
def TRACEBACK_PATTERN : Regex Char :=
  seq (lit TRACEBACK_HEADER) (seq (plus FRAME_LINE)
    (seq (char fun c => !isSpace c) (seq (star DOT) (alt NEWLINE endOfText))))

/-- `_SAFE_MODE_PATTERN`. -/
def SAFE_MODE_PATTERN : Regex Char :=
  seq (lit SAFE_MODE_START) (seq (lazyStar any) (seq (lit SAFE_MODE_END) (opt NEWLINE)))

/-- `_HARD_FAULT_PATTERN`. -/
def HARD_FAULT_PATTERN : Regex Char :=
  seq (lit HARD_FAULT_HEADER) (seq (lazyStar any) (alt (lit ['\n', '\n']) endOfText))

/-- `_SOFT_REBOOT_PATTERN`. -/
def SOFT_REBOOT_PATTERN : Regex Char := seq (lit SOFT_REBOOT_BANNER) (opt NEWLINE)

/-- `_PATTERNS`. -/
def PATTERNS : List (PatternKind × Regex Char) :=
  [(.traceback, TRACEBACK_PATTERN), (.safeMode, SAFE_MODE_PATTERN),
    (.hardFault, HARD_FAULT_PATTERN), (.softReboot, SOFT_REBOOT_PATTERN)]

/-! ## Detection -/

/-- The record of a match of `kind` in `text`. -/
def patternMatch (kind : PatternKind) (text : Str) (found : Str × Str) : PatternMatch where
  kind := kind
  start := text.length - found.1.length
  endIndex := text.length - found.2.length
  text := found.1.take (found.1.length - found.2.length)

/-- The matches of one pattern. -/
def matchesOf (text : Str) (entry : PatternKind × Regex Char) : List PatternMatch :=
  (entry.2.finditer text).map (patternMatch entry.1 text)

/-- `detect_patterns`. The sort is stable. -/
def detectPatterns (text : Str) : List PatternMatch :=
  (PATTERNS.flatMap (matchesOf text)).insertionSort fun a b => a.start ≤ b.start

/-- A traceback, a soft reboot, a safe-mode banner and a hard fault with its blank line. -/
example : (detectPatterns ("Traceback (most recent call last):\n  File\nValueError: x\n" ++
    "MPY: soft reboot\nYou are in safe mode because: y\nPress reset to exit safe mode.\n" ++
    "Hard fault\nr0\n\n").toList).map (fun found => (found.kind, found.start, found.endIndex)) =
      [(.traceback, 0, 56), (.softReboot, 56, 73), (.safeMode, 73, 136),
        (.hardFault, 136, 151)] := by
  decide +kernel

/-! ## The streaming detector -/

/-- `StreamingPatternDetector`. -/
structure StreamingPatternDetector where
  buffer : Str
  offset : ℕ
  bufferLimit : ℕ
  totalFed : ℕ

namespace StreamingPatternDetector

/-- `StreamingPatternDetector()`. -/
def new : StreamingPatternDetector := ⟨[], 0, 8 * 1024, 0⟩

/-- `_trim_buffer`. -/
def trimBuffer (detector : StreamingPatternDetector) : StreamingPatternDetector :=
  if detector.buffer.length ≤ detector.bufferLimit then detector
  else
    let excess := detector.buffer.length - detector.bufferLimit
    { detector with offset := detector.offset + excess, buffer := detector.buffer.drop excess }

/-- `feed`. -/
def feed (detector : StreamingPatternDetector) (text : Str) :
    List PatternMatch × StreamingPatternDetector :=
  if text = [] then ([], detector)
  else
    let detector := { detector with
      totalFed := detector.totalFed + text.length
      buffer := detector.buffer ++ text }
    let rawMatches := detectPatterns detector.buffer
    match rawMatches.getLast? with
    | none => ([], detector.trimBuffer)
    | some lastMatch =>
      let absoluteMatches := rawMatches.map fun found => { found with
        start := found.start + detector.offset
        endIndex := found.endIndex + detector.offset }
      let lastLocalEnd := lastMatch.endIndex
      (absoluteMatches, ({ detector with
        offset := detector.offset + lastLocalEnd
        buffer := detector.buffer.drop lastLocalEnd }).trimBuffer)

end StreamingPatternDetector

/-! ## What the patterns look for -/

/-- An indented line. -/
def IsFrameLine (line : Str) : Prop := ∃ body, '\n' ∉ body ∧ line = [' ', ' '] ++ (body ++ ['\n'])

/-- **A traceback**: the header line, indented lines, and the beginning of a line that is not. -/
def HasTraceback (text : Str) : Prop :=
  ∃ before frames c rest, frames ≠ [] ∧ (∀ line ∈ frames, IsFrameLine line) ∧ isSpace c = false ∧
    text = before ++ (TRACEBACK_HEADER ++ (frames.flatten ++ c :: rest))

/-- A safe-mode banner. -/
def IsSafeModeBanner (text : Str) : Prop :=
  ∃ reason, text = SAFE_MODE_START ++ (reason ++ SAFE_MODE_END)

/-- **A safe-mode banner** with its end. -/
def HasSafeMode (text : Str) : Prop := ∃ banner, IsSafeModeBanner banner ∧ banner <:+: text

/-- **A hard fault**, whether its registers follow or not. -/
def HasHardFault (text : Str) : Prop := HARD_FAULT_HEADER <:+: text

/-- **A soft reboot.** -/
def HasSoftReboot (text : Str) : Prop := SOFT_REBOOT_BANNER <:+: text

lemma takesSome_traceback : TRACEBACK_PATTERN.TakesSome := takesSome_seq_lit (by decide) _

lemma takesSome_safeMode : SAFE_MODE_PATTERN.TakesSome := takesSome_seq_lit (by decide) _

lemma takesSome_hardFault : HARD_FAULT_PATTERN.TakesSome := takesSome_seq_lit (by decide) _

lemma takesSome_softReboot : SOFT_REBOOT_PATTERN.TakesSome := takesSome_seq_lit (by decide) _

variable {text : Str}

/-- `.` takes anything but a line break. -/
lemma matches_star_dot {rest : Str} :
    (star DOT).Matches text rest ↔ ∃ word, '\n' ∉ word ∧ text = word ++ rest := by
  rw [DOT, matches_star_char]
  refine exists_congr fun word => and_congr_left fun _ => ?_
  constructor
  · intro h hmem
    exact absurd (h _ hmem) (by decide)
  · rintro h c hc
    exact bne_iff_ne.mpr fun heq => h (heq ▸ hc)

/-- The pattern of a frame takes an indented line. -/
lemma matches_frameLine {rest : Str} :
    FRAME_LINE.Matches text rest ↔ ∃ line, IsFrameLine line ∧ text = line ++ rest := by
  constructor
  · rintro ⟨middle, hindent, more, hbody, hend⟩
    obtain ⟨body, hlf, rfl⟩ := matches_star_dot.mp hbody
    refine ⟨_, ⟨body, hlf, rfl⟩, ?_⟩
    rw [matches_lit.mp hindent, matches_lit.mp hend, List.append_assoc, List.append_assoc]
  · rintro ⟨-, ⟨body, hlf, rfl⟩, rfl⟩
    rw [List.append_assoc, List.append_assoc]
    exact ⟨_, matches_lit.mpr rfl, _, matches_star_dot.mpr ⟨body, hlf, rfl⟩, matches_lit.mpr rfl⟩

/-- The rest of a line can always be taken. -/
lemma exists_matches_endOfLine (text : Str) :
    ∃ rest, (seq (star DOT) (alt NEWLINE endOfText)).Matches text rest := by
  by_cases hlf : '\n' ∈ text
  · obtain ⟨line, rest, rfl, hline⟩ := List.eq_append_cons_of_mem hlf
    exact ⟨rest, _, matches_star_dot.mpr ⟨line, hline, rfl⟩, .inl (matches_lit.mpr rfl)⟩
  · exact ⟨[], [], matches_star_dot.mpr ⟨text, hlf, (List.append_nil text).symm⟩, .inr ⟨rfl, rfl⟩⟩

/-- **What the traceback pattern matches** at the front. -/
lemma exists_matches_traceback :
    (∃ rest, TRACEBACK_PATTERN.Matches text rest) ↔
      ∃ frames c rest, frames ≠ [] ∧ (∀ line ∈ frames, IsFrameLine line) ∧ isSpace c = false ∧
        text = TRACEBACK_HEADER ++ (frames.flatten ++ c :: rest) := by
  have hne : ¬ IsFrameLine [] := by
    rintro ⟨body, -, h⟩
    cases h
  constructor
  · rintro ⟨-, middle, hheader, afterFrames, ⟨second, hfirst, hmore⟩, rest, ⟨c, hc, hafter⟩, -⟩
    obtain ⟨line, hline, hmiddle⟩ := matches_frameLine.mp hfirst
    obtain ⟨lines, hlines, hsecond⟩ := (matches_star hne fun _ _ => matches_frameLine).mp hmore
    refine ⟨line :: lines, c, rest, List.cons_ne_nil _ _,
      List.forall_mem_cons.mpr ⟨hline, hlines⟩, by simpa using hc, ?_⟩
    rw [matches_lit.mp hheader, hmiddle, hsecond, hafter, List.flatten_cons, List.append_assoc]
  · rintro ⟨frames, c, rest, hframes, hlines, hc, rfl⟩
    obtain ⟨line, lines, rfl⟩ := List.exists_cons_of_ne_nil hframes
    obtain ⟨hline, hlines⟩ := List.forall_mem_cons.mp hlines
    obtain ⟨after, hafter⟩ := exists_matches_endOfLine rest
    refine ⟨after, _, matches_lit.mpr rfl, c :: rest, ⟨lines.flatten ++ c :: rest, ?_, ?_⟩,
      rest, ⟨c, by simpa using hc, rfl⟩, hafter⟩
    · exact matches_frameLine.mpr ⟨line, hline, by rw [List.flatten_cons, List.append_assoc]⟩
    · exact (matches_star hne fun _ _ => matches_frameLine).mpr ⟨lines, hlines, rfl⟩

/-- **Tracebacks** are found in the texts that have one. -/
theorem finditer_traceback : TRACEBACK_PATTERN.finditer text ≠ [] ↔ HasTraceback text := by
  rw [finditer_ne_nil_iff takesSome_traceback]
  constructor
  · rintro ⟨before, suffix, rest, rfl, hmatches⟩
    obtain ⟨frames, c, more, hne, hlines, hc, rfl⟩ := exists_matches_traceback.mp ⟨rest, hmatches⟩
    exact ⟨before, frames, c, more, hne, hlines, hc, rfl⟩
  · rintro ⟨before, frames, c, more, hne, hlines, hc, rfl⟩
    obtain ⟨rest, hmatches⟩ :=
      exists_matches_traceback.mpr ⟨frames, c, more, hne, hlines, hc, rfl⟩
    exact ⟨before, _, rest, rfl, hmatches⟩

/-- **Safe-mode banners** are found in the texts that have one. -/
lemma finditer_safeMode : SAFE_MODE_PATTERN.finditer text ≠ [] ↔ HasSafeMode text := by
  rw [finditer_ne_nil_iff takesSome_safeMode]
  constructor
  · rintro ⟨before, suffix, rest, rfl, middle, hstart, ending, hreason, more, hend, -⟩
    obtain ⟨reason, rfl⟩ := matches_lazyStar_any.mp hreason
    rw [matches_lit.mp hstart, matches_lit.mp hend]
    exact ⟨_, ⟨reason, rfl⟩, before, more, by simp only [List.append_assoc]⟩
  · rintro ⟨-, ⟨reason, rfl⟩, before, more, rfl⟩
    refine ⟨before, SAFE_MODE_START ++ (reason ++ (SAFE_MODE_END ++ more)), more,
      by simp only [List.append_assoc], _, matches_lit.mpr rfl, _,
      matches_lazyStar_any.mpr (List.suffix_append reason _), _, matches_lit.mpr rfl, .inr rfl⟩

/-- **Hard faults** are found in the texts that have one. -/
lemma finditer_hardFault : HARD_FAULT_PATTERN.finditer text ≠ [] ↔ HasHardFault text := by
  rw [finditer_ne_nil_iff takesSome_hardFault]
  constructor
  · rintro ⟨before, suffix, rest, rfl, middle, hheader, -⟩
    rw [matches_lit.mp hheader]
    exact ⟨before, middle, List.append_assoc _ _ _⟩
  · rintro ⟨before, more, rfl⟩
    exact ⟨before, HARD_FAULT_HEADER ++ more, [], List.append_assoc _ _ _, more,
      matches_lit.mpr rfl, [], matches_lazyStar_any.mpr List.nil_suffix, .inr ⟨rfl, rfl⟩⟩

/-- **Soft reboots** are found in the texts that have one. -/
lemma finditer_softReboot : SOFT_REBOOT_PATTERN.finditer text ≠ [] ↔ HasSoftReboot text := by
  rw [finditer_ne_nil_iff takesSome_softReboot]
  constructor
  · rintro ⟨before, suffix, rest, rfl, middle, hbanner, -⟩
    rw [matches_lit.mp hbanner]
    exact ⟨before, middle, List.append_assoc _ _ _⟩
  · rintro ⟨before, more, rfl⟩
    exact ⟨before, SOFT_REBOOT_BANNER ++ more, more, List.append_assoc _ _ _, more,
      matches_lit.mpr rfl, .inr rfl⟩

/-! ## What is detected -/

/-- A pattern is given by its kind. -/
lemma eq_of_mem_patterns {entry entry' : PatternKind × Regex Char} (h : entry ∈ PATTERNS)
    (h' : entry' ∈ PATTERNS) (hkind : entry.1 = entry'.1) : entry = entry' := by
  simp only [PATTERNS, List.mem_cons, List.not_mem_nil, or_false] at h h'
  rcases h with rfl | rfl | rfl | rfl <;> rcases h' with rfl | rfl | rfl | rfl <;> cases hkind <;>
    rfl

/-- **A kind is detected** where its pattern finds something. -/
lemma exists_kind_iff {entry : PatternKind × Regex Char} (h : entry ∈ PATTERNS) :
    (∃ found ∈ detectPatterns text, found.kind = entry.1) ↔ entry.2.finditer text ≠ [] := by
  simp only [detectPatterns, List.mem_insertionSort, List.mem_flatMap]
  constructor
  · rintro ⟨found, ⟨entry', hentry', hfound⟩, hkind⟩ hnil
    obtain ⟨span, hspan, rfl⟩ := List.mem_map.mp hfound
    rw [eq_of_mem_patterns h hentry' hkind.symm] at hnil
    rw [hnil] at hspan
    cases hspan
  · intro hne
    obtain ⟨span, spans, hspans⟩ := List.exists_cons_of_ne_nil hne
    exact ⟨_, ⟨entry, h, List.mem_map.mpr ⟨span, hspans ▸ List.mem_cons_self, rfl⟩⟩, rfl⟩

/-- `\n?` -/
def dropNewline (text : Str) : Str := if ['\n'] <+: text then text.tail else text

/-- What is left after a soft reboot. -/
lemma matchFront_softReboot (rest : Str) :
    SOFT_REBOOT_PATTERN.matchFront (SOFT_REBOOT_BANNER ++ rest) = some (dropNewline rest) := by
  rw [SOFT_REBOOT_PATTERN, matchFront_seq_lit, dropNewline]
  split_ifs with h
  · obtain ⟨more, rfl⟩ := h
    exact matchFront_opt_lit ['\n'] more
  · exact matchFront_opt_lit_of_not h

/-- **What came since the last soft reboot**: the whole text without one, else what follows the last
banner. -/
def SinceReboot (text kept : Str) : Prop :=
  (¬ HasSoftReboot text ∧ kept = text) ∨
    ∃ before rest, text = before ++ (SOFT_REBOOT_BANNER ++ rest) ∧ ¬ HasSoftReboot rest ∧
      kept = dropNewline rest

/-- A line break does not matter for a banner. -/
lemma hasSoftReboot_dropNewline : HasSoftReboot (dropNewline text) ↔ HasSoftReboot text := by
  rw [dropNewline]
  split_ifs with h
  · obtain ⟨rest, rfl⟩ := h
    rw [HasSoftReboot, HasSoftReboot, List.singleton_append, List.tail_cons, List.infix_cons_iff]
    refine ⟨.inr, fun h => h.resolve_left fun hfront => ?_⟩
    obtain ⟨more, hmore⟩ := hfront
    exact absurd (List.cons.inj hmore).1 (by decide)
  · exact Iff.rfl

/-- What was kept has no soft reboot. -/
lemma SinceReboot.notMem {kept : Str} (h : SinceReboot text kept) : ¬ HasSoftReboot kept := by
  obtain ⟨hnot, rfl⟩ | ⟨before, rest, -, hnot, rfl⟩ := h
  · exact hnot
  · rwa [hasSoftReboot_dropNewline]

/-- What is left after the last match is what came since the last soft reboot. -/
lemma sinceReboot_of_getLast? {found : Str × Str}
    (h : (SOFT_REBOOT_PATTERN.finditer text).getLast? = some found) : SinceReboot text found.2 := by
  obtain ⟨⟨before, hbefore⟩, hfront⟩ := of_mem_finditer 0 (List.mem_of_getLast? h)
  obtain ⟨-, hnil⟩ := finditer_of_getLast? takesSome_softReboot h
  obtain ⟨rest, hbanner, -⟩ := matches_of_matchFront hfront
  rw [matches_lit.mp hbanner] at hfront hbefore
  rw [matchFront_softReboot, Option.some.injEq] at hfront
  refine .inr ⟨before, rest, hbefore.symm, ?_, hfront.symm⟩
  rw [← hasSoftReboot_dropNewline, hfront]
  exact fun hreboot => finditer_softReboot.mpr hreboot hnil

/-- Where nothing else is found, the matches are those of the soft reboots, in their order. -/
lemma detectPatterns_of_softReboot (htraceback : ¬ HasTraceback text) (hsafe : ¬ HasSafeMode text)
    (hhard : ¬ HasHardFault text) :
    detectPatterns text = matchesOf text (.softReboot, SOFT_REBOOT_PATTERN) := by
  have hlist : PATTERNS.flatMap (matchesOf text) =
      matchesOf text (.softReboot, SOFT_REBOOT_PATTERN) := by
    rw [← finditer_traceback, not_not] at htraceback
    rw [← finditer_safeMode, not_not] at hsafe
    rw [← finditer_hardFault, not_not] at hhard
    simp only [PATTERNS, List.flatMap_cons, List.flatMap_nil, matchesOf, htraceback, hsafe, hhard,
      List.map_nil, List.nil_append, List.append_nil]
  rw [detectPatterns, hlist]
  refine List.Pairwise.insertionSort_eq ?_
  rw [matchesOf, List.pairwise_map]
  refine (pairwise_finditer takesSome_softReboot text).imp fun {a b} hlt => ?_
  show text.length - a.1.length ≤ text.length - b.1.length
  omega

/-! ## One call of the detector -/

namespace StreamingPatternDetector

variable {detector : StreamingPatternDetector} {text : Str}

/-- Trimming keeps the end of the buffer. -/
lemma trimBuffer_buffer (detector : StreamingPatternDetector) :
    detector.trimBuffer.buffer = detector.buffer.rtake detector.bufferLimit := by
  rw [trimBuffer, List.rtake]
  split_ifs with h
  · rw [Nat.sub_eq_zero_of_le h, List.drop_zero]
  · rfl

/-- Trimming keeps the limit. -/
lemma trimBuffer_bufferLimit (detector : StreamingPatternDetector) :
    detector.trimBuffer.bufferLimit = detector.bufferLimit := by
  rw [trimBuffer]
  split_ifs <;> rfl

/-- **What one call reports**: the kinds found in the buffer and the new text. -/
lemma exists_kind_feed_iff {entry : PatternKind × Regex Char} (h : entry ∈ PATTERNS)
    (htext : text ≠ []) :
    (∃ found ∈ (detector.feed text).1, found.kind = entry.1) ↔
      entry.2.finditer (detector.buffer ++ text) ≠ [] := by
  rw [← exists_kind_iff h, feed, if_neg htext]
  dsimp only
  cases hlast : (detectPatterns (detector.buffer ++ text)).getLast? with
  | none => rw [List.getLast?_eq_none_iff.mp hlast]
  | some last =>
    dsimp only
    constructor
    · rintro ⟨found, hfound, hkind⟩
      obtain ⟨raw, hraw, rfl⟩ := List.mem_map.mp hfound
      exact ⟨raw, hraw, hkind⟩
    · rintro ⟨raw, hraw, hkind⟩
      exact ⟨_, List.mem_map.mpr ⟨raw, hraw, rfl⟩, hkind⟩

/-- **What one call keeps** where it finds nothing but soft reboots: the end of what came since the
last of them. -/
theorem feed_spec (detector : StreamingPatternDetector) {text : Str} (htext : text ≠ [])
    (htraceback : ¬ HasTraceback (detector.buffer ++ text))
    (hsafe : ¬ HasSafeMode (detector.buffer ++ text))
    (hhard : ¬ HasHardFault (detector.buffer ++ text)) :
    ∃ kept, SinceReboot (detector.buffer ++ text) kept ∧
      (detector.feed text).2.buffer = kept.rtake detector.bufferLimit ∧
      (detector.feed text).2.bufferLimit = detector.bufferLimit := by
  have hdetect := detectPatterns_of_softReboot htraceback hsafe hhard
  rw [feed, if_neg htext]
  dsimp only
  rw [hdetect, matchesOf, List.getLast?_map]
  cases hlast : (SOFT_REBOOT_PATTERN.finditer (detector.buffer ++ text)).getLast? with
  | none =>
    refine ⟨detector.buffer ++ text, .inl ⟨?_, rfl⟩, trimBuffer_buffer _, trimBuffer_bufferLimit _⟩
    rw [← finditer_softReboot, not_not]
    exact List.getLast?_eq_none_iff.mp hlast
  | some last =>
    refine ⟨last.2, sinceReboot_of_getLast? hlast, ?_, trimBuffer_bufferLimit _⟩
    have hsuffix := (finditer_of_getLast? takesSome_softReboot hlast).1
    rw [Option.map_some]
    dsimp only
    rw [trimBuffer_buffer]
    congr 1
    exact (List.suffix_iff_eq_drop.mp hsuffix).symm

end StreamingPatternDetector

end ChuMicro.Repl
