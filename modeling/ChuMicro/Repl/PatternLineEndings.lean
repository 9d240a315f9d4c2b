import ChuMicro.Repl.LineEndings
import ChuMicro.Repl.Patterns

/-!
# What is detected in a text with CR LF

Two of the four patterns do not ask for a line break where they must find one, and match the same in
a text with LF and in the text with CR LF that a board sends. The other two do: the header line of a
traceback ends in `:` and LF, so that no traceback is found in a text with CR LF, and a hard fault
ends with a blank line of two LF, so that there it ends with the text.

## Main definitions

* `Repl.kindsAt` — the kinds that are detected in a text, and where they start.
* `Repl.SameDetected` — the same kinds at the corresponding places.
* `Repl.TwoHardFaults` — a second hard fault after the blank line that ends the first.

## Main results

* `Repl.Corresponds.finditer` — the matches of a pattern that corresponds.
* `Repl.sameDetected_iff` — the same is detected exactly in texts without a traceback and without a
  second hard fault.
-/

namespace ChuMicro.Repl

open Regex

/-! ## Patterns that correspond -/

/-- What is left in the text with CR LF: the same, or also the line break before it. -/
def LeavesSame (rest rest' : Str) : Prop := rest' = crlf rest ∨ rest' = crlf ('\n' :: rest)

/-- A matcher that corresponds: it matches in front of both texts or of neither, and never at the LF
of a CR LF. -/
structure Corresponds (matcher : Str → Option Str) : Prop where
  front : ∀ text, Option.Rel LeavesSame (matcher text) (matcher (crlf text))
  lf : ∀ text, matcher ('\n' :: text) = none

section

variable {matcher : Str → Option Str} {text rest : Str}

/-- Nothing in one text, nothing in the other. -/
lemma Corresponds.crlf_eq_none (h : Corresponds matcher) (hnone : matcher text = none) :
    matcher (crlf text) = none := by
  have hfront := h.front text
  rw [hnone] at hfront
  cases hcr : matcher (crlf text) with
  | none => rfl
  | some rest =>
    rw [hcr] at hfront
    cases hfront

/-- A match in one text, a match in the other. -/
lemma Corresponds.exists_crlf_eq_some (h : Corresponds matcher)
    (hsome : matcher text = some rest) :
    ∃ rest', matcher (crlf text) = some rest' ∧ LeavesSame rest rest' := by
  have hfront := h.front text
  rw [hsome] at hfront
  cases hcr : matcher (crlf text) with
  | none =>
    rw [hcr] at hfront
    cases hfront
  | some rest' =>
    rw [hcr] at hfront
    cases hfront with
    | some hleaves => exact ⟨rest', rfl, hleaves⟩

end

/-- No text with CR LF begins with LF. -/
lemma not_lf_isPrefix_crlf (text : Str) : ¬ ['\n'] <+: crlf text := by
  rintro ⟨rest, h⟩
  have hinfix : ['x', '\n'] <:+: crlf ('x' :: text) := by
    rw [crlf_cons (by decide), ← h]
    exact List.IsPrefix.isInfix ⟨rest, rfl⟩
  exact not_lf_isInfix_crlf (by decide) _ hinfix

/-- What is left after an optional line break. -/
lemma leavesSame_dropNewline (rest : Str) : LeavesSame (dropNewline rest) (crlf rest) := by
  rw [dropNewline]
  split_ifs with h
  · obtain ⟨more, rfl⟩ := h
    exact .inr rfl
  · exact .inl rfl

/-- In a text with CR LF an optional LF is not taken. -/
lemma dropNewline_crlf (rest : Str) : dropNewline (crlf rest) = crlf rest :=
  if_neg (not_lf_isPrefix_crlf rest)

/-- **A word and an optional line break** correspond. -/
lemma corresponds_word {word : Str} (hword : Plain word) :
    Corresponds (seq (lit word) (opt NEWLINE)).matchFront where
  front text := by
    have hfront : ∀ rest : Str, (seq (lit word) (opt NEWLINE)).matchFront (word ++ rest) =
        some (dropNewline rest) := by
      intro rest
      rw [matchFront_seq_lit, dropNewline]
      split_ifs with h
      · obtain ⟨more, rfl⟩ := h
        exact matchFront_opt_lit ['\n'] more
      · exact matchFront_opt_lit_of_not h
    by_cases h : word <+: text
    · obtain ⟨rest, rfl⟩ := h
      rw [crlf_append, crlf_of_notMem hword.lf, hfront, hfront, dropNewline_crlf]
      exact .some (leavesSame_dropNewline rest)
    · rw [matchFront_seq_lit_eq_none _ h,
        matchFront_seq_lit_eq_none _ fun h' => h ((isPrefix_crlf_iff hword).mp h')]
      exact .none
  lf text := by
    refine matchFront_seq_lit_eq_none _ fun h => ?_
    obtain ⟨c, more, rfl⟩ := List.exists_cons_of_ne_nil hword.ne_nil
    exact hword.lf (List.mem_cons.mpr (.inl (List.cons_prefix_cons.mp h).1.symm))

/-- The first place where a matcher that corresponds works.

**Proof sketch.** Induction on the text. At a line break the text with CR LF has one place more,
where nothing matches. -/
lemma Corresponds.findSome_tails {matcher : Str → Option Str} (h : Corresponds matcher)
    (text : Str) : Option.Rel LeavesSame (text.tails.findSome? matcher)
      ((crlf text).tails.findSome? matcher) := by
  induction text with
  | nil =>
    simp only [crlf_nil, List.tails, List.findSome?_cons, List.findSome?_nil]
    cases hnil : matcher [] with
    | none => exact .none
    | some rest =>
      obtain ⟨rest', hcr, hleaves⟩ := h.exists_crlf_eq_some hnil
      rw [crlf_nil, hnil] at hcr
      cases hcr
      exact .some hleaves
  | cons c text ih =>
    rw [List.tails, List.findSome?_cons]
    cases hlf : matcher (c :: text) with
    | none =>
      have hcr := h.crlf_eq_none hlf
      by_cases hc : c = '\n'
      · subst hc
        rw [crlf_cons_lf] at hcr ⊢
        rw [List.tails, List.findSome?_cons, List.tails, List.findSome?_cons, hcr, h.lf]
        exact ih
      · rw [crlf_cons hc] at hcr ⊢
        rw [List.tails, List.findSome?_cons, hcr]
        exact ih
    | some rest =>
      obtain ⟨rest', hcr, hleaves⟩ := h.exists_crlf_eq_some hlf
      have hc : c ≠ '\n' := by
        rintro rfl
        rw [h.lf] at hlf
        cases hlf
      rw [crlf_cons hc] at hcr ⊢
      rw [List.tails, List.findSome?_cons, hcr]
      exact .some hleaves

lemma plain_safeModeStart : Plain SAFE_MODE_START := by decide

lemma plain_safeModeEnd : Plain SAFE_MODE_END := by decide

lemma plain_hardFault : Plain HARD_FAULT_HEADER := by decide

lemma plain_softReboot : Plain SOFT_REBOOT_BANNER := by decide

/-- **The soft-reboot pattern** corresponds. -/
lemma corresponds_softReboot : Corresponds SOFT_REBOOT_PATTERN.matchFront :=
  corresponds_word plain_softReboot

/-- **The safe-mode pattern** corresponds. -/
lemma corresponds_safeMode : Corresponds SAFE_MODE_PATTERN.matchFront where
  front text := by
    by_cases h : SAFE_MODE_START <+: text
    · obtain ⟨rest, rfl⟩ := h
      rw [crlf_append, crlf_of_notMem plain_safeModeStart.lf, SAFE_MODE_PATTERN, matchFront_seq_lit,
        matchFront_seq_lit, matchFront_seq_lazyStar, matchFront_seq_lazyStar]
      exact (corresponds_word plain_safeModeEnd).findSome_tails rest
    · rw [SAFE_MODE_PATTERN, matchFront_seq_lit_eq_none _ h, matchFront_seq_lit_eq_none _ fun h' =>
        h ((isPrefix_crlf_iff plain_safeModeStart).mp h')]
      exact .none
  lf text := matchFront_seq_lit_eq_none _ fun h =>
    absurd (List.cons_prefix_cons.mp h).1 (by decide)

/-- At a line break nothing is found in either text. -/
lemma Corresponds.finditer_lf {pattern : Regex Char} (h : Corresponds pattern.matchFront)
    (text : Str) : pattern.finditer (crlf ('\n' :: text)) = pattern.finditer (crlf text) := by
  have hcr := h.crlf_eq_none (h.lf text)
  rw [crlf_cons_lf] at hcr ⊢
  rw [finditer_cons hcr, finditer_cons (h.lf _)]

/-- **The matches of a pattern that corresponds** start at corresponding places. -/
theorem Corresponds.finditer {pattern : Regex Char} (h : Corresponds pattern.matchFront)
    (htakes : pattern.TakesSome) (text : Str) :
    (pattern.finditer (crlf text)).map Prod.fst =
      (pattern.finditer text).map fun found => crlf found.1 := by
  induction text using finditer_induction htakes with
  | nil => rfl
  | pass c text hnone ih =>
    have hcr := h.crlf_eq_none hnone
    rw [finditer_cons hnone, ← ih]
    by_cases hc : c = '\n'
    · subst hc
      rw [h.finditer_lf]
    · rw [crlf_cons hc] at hcr ⊢
      rw [finditer_cons hcr]
  | found text rest hsome hsuffix ih =>
    obtain ⟨rest', hcr, hleaves⟩ := h.exists_crlf_eq_some hsome
    have hmore : pattern.finditer rest' = pattern.finditer (crlf rest) := by
      rcases hleaves with rfl | rfl
      · rfl
      · exact h.finditer_lf rest
    rw [finditer_of_matchFront htakes hsome, finditer_of_matchFront htakes hcr, List.map_cons,
      List.map_cons, hmore, ih]

/-! ## Tracebacks -/

/-- **No traceback is found** in a text with CR LF: its header line would have to end in LF alone.
-/
lemma not_hasTraceback_crlf (text : Str) : ¬ HasTraceback (crlf text) := by
  rintro ⟨before, frames, c, rest, -, -, -, htext⟩
  have hheader : [':', '\n'] <:+: TRACEBACK_HEADER := by decide
  have hinfix : TRACEBACK_HEADER <:+: crlf text :=
    ⟨before, frames.flatten ++ c :: rest, by rw [htext, List.append_assoc]⟩
  exact not_lf_isInfix_crlf (by decide) text (hheader.trans hinfix)

/-! ## Hard faults -/

/-- **A second hard fault** after a blank line that ends the first. -/
def TwoHardFaults (text : Str) : Prop :=
  ∃ before registers between rest, text = before ++ (HARD_FAULT_HEADER ++ (registers ++
    (['\n', '\n'] ++ (between ++ (HARD_FAULT_HEADER ++ rest)))))

/-- A hard fault in front ends with its blank line, or with the text. -/
lemma matches_hardFault {text rest : Str} (h : HARD_FAULT_PATTERN.Matches text rest) :
    ∃ more, text = HARD_FAULT_HEADER ++ more ∧
      ((∃ registers, more = registers ++ (['\n', '\n'] ++ rest)) ∨ rest = []) := by
  obtain ⟨more, hheader, ending, hregisters, hend⟩ := h
  refine ⟨more, matches_lit.mp hheader, ?_⟩
  obtain ⟨registers, rfl⟩ := matches_lazyStar_any.mp hregisters
  rcases hend with hblank | ⟨-, hrest⟩
  · exact .inl ⟨registers, by rw [matches_lit.mp hblank]⟩
  · exact .inr hrest

/-- A hard fault in front leaves all that follows some blank line. -/
lemma isSuffix_of_matchFront_hardFault {registers more rest : Str}
    (h : HARD_FAULT_PATTERN.matchFront
      (HARD_FAULT_HEADER ++ (registers ++ (['\n', '\n'] ++ more))) = some rest) :
    more <:+ rest := by
  rw [HARD_FAULT_PATTERN, matchFront_seq_lit, matchFront_seq_lazyStar] at h
  induction registers with
  | nil =>
    rw [List.nil_append, List.cons_append, List.tails, List.findSome?_cons, matchFront_alt] at h
    have hblank : (lit ['\n', '\n']).matchFront ('\n' :: (['\n'] ++ more)) = some more := by
      rw [matchFront, show '\n' :: (['\n'] ++ more) = ['\n', '\n'] ++ more from rfl, run_lit]
      rfl
    rw [hblank] at h
    cases h
    exact List.suffix_rfl
  | cons c registers ih =>
    rw [List.cons_append, List.tails, List.findSome?_cons] at h
    cases hfront : (alt (lit ['\n', '\n']) endOfText).matchFront
        (c :: (registers ++ (['\n', '\n'] ++ more))) with
    | none =>
      rw [hfront] at h
      exact ih h
    | some rest' =>
      rw [hfront] at h
      cases h
      rcases matches_of_matchFront hfront with hblank | ⟨hnil, -⟩
      · -- the blank line begins here, so that what it leaves reaches back beyond `more`
        have heq : registers ++ (['\n', '\n'] ++ more) = ['\n'] ++ rest :=
          (List.cons.inj (matches_lit.mp hblank)).2
        have hrest : rest <:+ registers ++ (['\n', '\n'] ++ more) :=
          heq ▸ List.suffix_append ['\n'] rest
        have hmore : more <:+ registers ++ (['\n', '\n'] ++ more) :=
          (List.suffix_append ['\n', '\n'] more).trans (List.suffix_append registers _)
        refine List.suffix_of_suffix_length_le hmore hrest ?_
        have hlen := congrArg List.length heq
        simp only [List.length_append, List.length_cons, List.length_nil] at hlen
        omega
      · cases hnil

/-- No hard fault begins at a line break. -/
lemma matchFront_hardFault_lf (text : Str) :
    HARD_FAULT_PATTERN.matchFront ('\n' :: text) = none :=
  matchFront_seq_lit_eq_none _ fun h => absurd (List.cons_prefix_cons.mp h).1 (by decide)

/-- A hard fault in front is found, and only there. -/
lemma matchFront_hardFault_eq_none_iff {text : Str} :
    HARD_FAULT_PATTERN.matchFront text = none ↔ ¬ HARD_FAULT_HEADER <+: text := by
  refine ⟨fun h hfront => ?_, fun h => matchFront_seq_lit_eq_none _ h⟩
  obtain ⟨more, rfl⟩ := hfront
  exact matchFront_eq_none_iff.mp h [] ⟨more, matches_lit.mpr rfl, [],
    matches_lazyStar_any.mpr List.nil_suffix, .inr ⟨rfl, rfl⟩⟩

/-- **In a text with CR LF** only the first hard fault is found, to the end of the text. -/
lemma finditer_hardFault_crlf (text : Str) :
    HARD_FAULT_PATTERN.finditer (crlf text) =
      ((HARD_FAULT_PATTERN.finditer text).head?.map fun found => (crlf found.1, [])).toList := by
  induction text using finditer_induction takesSome_hardFault with
  | nil => rfl
  | pass c text hnone ih =>
    have hcr : HARD_FAULT_PATTERN.matchFront (crlf (c :: text)) = none := by
      rw [matchFront_hardFault_eq_none_iff] at hnone ⊢
      rwa [isPrefix_crlf_iff plain_hardFault]
    rw [finditer_cons hnone, ← ih]
    by_cases hc : c = '\n'
    · subst hc
      rw [crlf_cons_lf] at hcr ⊢
      rw [finditer_cons hcr, finditer_cons (matchFront_hardFault_lf _)]
    · rw [crlf_cons hc] at hcr ⊢
      rw [finditer_cons hcr]
  | found text rest hsome hsuffix ih =>
    rw [finditer_of_matchFront takesSome_hardFault hsome]
    have hne : HARD_FAULT_PATTERN.matchFront (crlf text) ≠ none := by
      rw [Ne, matchFront_hardFault_eq_none_iff, not_not, isPrefix_crlf_iff plain_hardFault]
      by_contra hnot
      rw [matchFront_hardFault_eq_none_iff.mpr hnot] at hsome
      cases hsome
    obtain ⟨rest', hcr⟩ := Option.ne_none_iff_exists'.mp hne
    have hnil : rest' = [] := by
      obtain ⟨more, htext, ⟨registers, rfl⟩ | hnil⟩ :=
        matches_hardFault (matches_of_matchFront hcr)
      · refine absurd ?_ (not_lf_isInfix_crlf (c := '\n') (by decide) text)
        exact ⟨HARD_FAULT_HEADER ++ registers, rest', by rw [htext]; simp only [List.append_assoc]⟩
      · exact hnil
    rw [finditer_of_matchFront takesSome_hardFault hcr, hnil]
    rfl

/-- **Two matches** are found exactly where there are two hard faults. -/
lemma two_le_length_finditer_hardFault {text : Str} :
    2 ≤ (HARD_FAULT_PATTERN.finditer text).length ↔ TwoHardFaults text := by
  induction text using finditer_induction takesSome_hardFault with
  | nil =>
    refine ⟨fun h => absurd h (by decide), ?_⟩
    rintro ⟨before, registers, between, rest, h⟩
    obtain ⟨-, hempty⟩ := List.append_eq_nil_iff.mp h.symm
    exact absurd (List.append_eq_nil_iff.mp hempty).1 plain_hardFault.ne_nil
  | pass c text hnone ih =>
    rw [finditer_cons hnone, ih]
    constructor
    · rintro ⟨before, registers, between, rest, rfl⟩
      exact ⟨c :: before, registers, between, rest, rfl⟩
    · rintro ⟨before, registers, between, rest, h⟩
      cases before with
      | nil =>
        rw [matchFront_hardFault_eq_none_iff, h] at hnone
        exact absurd (List.prefix_append _ _) hnone
      | cons d before => exact ⟨before, registers, between, rest, (List.cons.inj h).2⟩
  | found text rest hsome hsuffix _ =>
    have hmore : 2 ≤ (HARD_FAULT_PATTERN.finditer text).length ↔ HasHardFault rest := by
      rw [finditer_of_matchFront takesSome_hardFault hsome, List.length_cons, ← finditer_hardFault,
        ← List.length_pos_iff]
      omega
    rw [hmore]
    obtain ⟨more, rfl, hend⟩ := matches_hardFault (matches_of_matchFront hsome)
    constructor
    · rintro ⟨between, after, rfl⟩
      rcases hend with ⟨registers, rfl⟩ | hnil
      · exact ⟨[], registers, between, after, by simp only [List.append_assoc, List.nil_append]⟩
      · obtain ⟨hempty, -⟩ := List.append_eq_nil_iff.mp hnil
        exact absurd (List.append_eq_nil_iff.mp hempty).2 plain_hardFault.ne_nil
    · rintro ⟨before, registers, between, after, h⟩
      -- the blank line lies behind the header of the first match
      have hlater : registers ++ (['\n', '\n'] ++ (between ++ (HARD_FAULT_HEADER ++ after))) <:+
          more := by
        have hwhole : registers ++ (['\n', '\n'] ++ (between ++ (HARD_FAULT_HEADER ++ after))) <:+
            HARD_FAULT_HEADER ++ more := by
          rw [h]
          exact (List.suffix_append _ _).trans (List.suffix_append _ _)
        refine List.suffix_of_suffix_length_le hwhole (List.suffix_append _ _) ?_
        have hlen := congrArg List.length h
        simp only [List.length_append] at hlen ⊢
        omega
      obtain ⟨first, rfl⟩ := hlater
      rw [← List.append_assoc first] at hsome
      obtain ⟨left, hleft⟩ := isSuffix_of_matchFront_hardFault hsome
      exact ⟨left ++ between, after, by rw [← hleft]; simp only [List.append_assoc]⟩

/-! ## All patterns -/

/-- The place in the text with CR LF that corresponds to a place in the text. -/
def place (text : Str) (index : ℕ) : ℕ := (crlf (text.take index)).length

/-- The kinds that `detect_patterns` finds, and where they start. -/
def kindsAt (text : Str) : List (PatternKind × ℕ) :=
  (detectPatterns text).map fun found => (found.kind, found.start)

/-- **The same is detected** in the text with CR LF: the same kinds in the same order, at the
corresponding places. -/
def SameDetected (text : Str) : Prop :=
  kindsAt (crlf text) = (kindsAt text).map fun found => (found.1, place text found.2)

/-- Corresponding places are in the same order. -/
lemma place_le_place {text : Str} {i j : ℕ} (hi : i ≤ text.length) (hj : j ≤ text.length) :
    place text i ≤ place text j ↔ i ≤ j := by
  have hmono : ∀ {i j : ℕ}, i < j → j ≤ text.length → place text i < place text j := by
    intro i j hlt hle
    have htake : text.take i = (text.take j).take i := by rw [List.take_take, min_eq_left hlt.le]
    obtain ⟨more, hmore⟩ : text.take i <+: text.take j := htake ▸ List.take_prefix i _
    have hpos : 0 < more.length := by
      have hlen := congrArg List.length hmore
      rw [List.length_append, List.length_take, List.length_take] at hlen
      omega
    have hcrlf := length_le_length_crlf more
    rw [place, place, ← hmore, crlf_append, List.length_append]
    omega
  constructor
  · intro h
    by_contra hlt
    have := hmono (not_le.mp hlt) hi
    omega
  · intro h
    rcases h.eq_or_lt with rfl | hlt
    · exact le_rfl
    · exact (hmono hlt hj).le

/-- Where an end of the text starts. -/
lemma place_of_isSuffix {text suffix : Str} (h : suffix <:+ text) :
    place text (text.length - suffix.length) = (crlf text).length - (crlf suffix).length := by
  obtain ⟨before, rfl⟩ := h
  rw [place, List.length_append, Nat.add_sub_cancel, List.take_left, crlf_append,
    List.length_append, Nat.add_sub_cancel]

/-- The kind of a match and where it starts. -/
def kindAt (found : PatternMatch) : PatternKind × ℕ := (found.kind, found.start)

/-- **Corresponding matches of one pattern.** -/
lemma map_matchesOf_crlf {text : Str} {entry : PatternKind × Regex Char}
    (h : (entry.2.finditer (crlf text)).map Prod.fst =
      (entry.2.finditer text).map fun found => crlf found.1) :
    (matchesOf (crlf text) entry).map kindAt =
      (matchesOf text entry).map fun found => (found.kind, place text found.start) := by
  have hkinds : (matchesOf (crlf text) entry).map kindAt =
      ((entry.2.finditer (crlf text)).map Prod.fst).map fun suffix =>
        (entry.1, (crlf text).length - suffix.length) := by
    rw [matchesOf, List.map_map, List.map_map]
    rfl
  rw [hkinds, h, matchesOf, List.map_map, List.map_map]
  refine List.map_congr_left fun found hfound => ?_
  exact Prod.ext rfl (place_of_isSuffix (of_mem_finditer 0 hfound).1).symm

/-- How often a kind is detected. -/
lemma count_kind {entry : PatternKind × Regex Char} (h : entry ∈ PATTERNS) (text : Str) :
    ((kindsAt text).map Prod.fst).count entry.1 = (entry.2.finditer text).length := by
  have hmatches : ∀ entry : PatternKind × Regex Char, (matchesOf text entry).map PatternMatch.kind =
      List.replicate (entry.2.finditer text).length entry.1 := by
    intro entry
    rw [matchesOf, List.map_map, ← List.map_const']
    rfl
  have hcount : ((kindsAt text).map Prod.fst).count entry.1 =
      ((PATTERNS.flatMap (matchesOf text)).map PatternMatch.kind).count entry.1 := by
    rw [kindsAt, List.map_map]
    exact ((List.perm_insertionSort _ _).map _).count_eq _
  rw [hcount]
  simp only [PATTERNS, List.mem_cons, List.not_mem_nil, or_false] at h
  rcases h with rfl | rfl | rfl | rfl <;>
    simp [PATTERNS, hmatches, List.count_replicate]

/-- **When the same is detected.** The kinds and places that `detect_patterns` finds in a text with
every LF as CR LF are those of the text exactly where the text has no traceback and no second hard
fault.

**Proof sketch.** Two of the patterns correspond. Of the others one finds nothing in the text with
CR LF, the other at most one match, and so they do in the text itself; counting a kind shows the
other direction. -/
theorem sameDetected_iff (text : Str) :
    SameDetected text ↔ ¬ HasTraceback text ∧ ¬ TwoHardFaults text := by
  have hcrlf : TRACEBACK_PATTERN.finditer (crlf text) = [] := by
    have h := not_hasTraceback_crlf text
    rwa [← finditer_traceback, not_not] at h
  constructor
  · intro hsame
    have hcount : ∀ entry ∈ PATTERNS, (entry.2.finditer (crlf text)).length =
        (entry.2.finditer text).length := by
      intro entry hentry
      rw [← count_kind hentry, ← count_kind hentry, hsame, List.map_map]
      rfl
    constructor
    · intro htraceback
      have hlen := hcount (.traceback, TRACEBACK_PATTERN) (by simp [PATTERNS])
      rw [hcrlf] at hlen
      exact finditer_traceback.mpr htraceback (List.length_eq_zero_iff.mp hlen.symm)
    · intro htwo
      have hlen := hcount (.hardFault, HARD_FAULT_PATTERN) (by simp [PATTERNS])
      have hge := two_le_length_finditer_hardFault.mpr htwo
      dsimp only at hlen
      rw [← hlen, finditer_hardFault_crlf] at hge
      cases hhead : (HARD_FAULT_PATTERN.finditer text).head? <;>
        simp [hhead] at hge
  · rintro ⟨htraceback, htwo⟩
    have hpatterns : ∀ entry ∈ PATTERNS, (entry.2.finditer (crlf text)).map Prod.fst =
        (entry.2.finditer text).map fun found => crlf found.1 := by
      intro entry hentry
      simp only [PATTERNS, List.mem_cons, List.not_mem_nil, or_false] at hentry
      rcases hentry with rfl | rfl | rfl | rfl
      · rw [← finditer_traceback, not_not] at htraceback
        rw [hcrlf, htraceback]
        rfl
      · exact corresponds_safeMode.finditer takesSome_safeMode text
      · dsimp only
        rw [← two_le_length_finditer_hardFault, not_le] at htwo
        rw [finditer_hardFault_crlf]
        match hmatches : HARD_FAULT_PATTERN.finditer text with
        | [] => rfl
        | [found] => rfl
        | _ :: _ :: _ =>
          rw [hmatches, List.length_cons, List.length_cons] at htwo
          omega
      · exact corresponds_softReboot.finditer takesSome_softReboot text
    have hlist : (PATTERNS.flatMap (matchesOf (crlf text))).map kindAt =
        (PATTERNS.flatMap (matchesOf text)).map fun found =>
          (found.kind, place text found.start) := by
      rw [List.map_flatMap, List.map_flatMap]
      exact List.flatMap_congr fun entry hentry => map_matchesOf_crlf (hpatterns entry hentry)
    have hstart : ∀ found ∈ PATTERNS.flatMap (matchesOf text), found.start ≤ text.length := by
      intro found hfound
      obtain ⟨entry, -, hmem⟩ := List.mem_flatMap.mp hfound
      obtain ⟨span, -, rfl⟩ := List.mem_map.mp hmem
      exact Nat.sub_le _ _
    -- both sorts compare the places
    have hsort := List.map_insertionSort (r := fun a b : PatternMatch => a.start ≤ b.start)
      (s := fun a b : PatternKind × ℕ => a.2 ≤ b.2)
    rw [SameDetected, kindsAt, kindsAt, List.map_map, detectPatterns, detectPatterns]
    refine (hsort kindAt _ fun a _ b _ => Iff.rfl).trans ?_
    rw [hlist]
    exact (hsort _ _ fun a ha b hb => (place_le_place (hstart a ha) (hstart b hb)).symm).symm

end ChuMicro.Repl
