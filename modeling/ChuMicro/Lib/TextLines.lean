import Mathlib.Data.List.Induction

/-!
# The lines of a text

A text is split at every symbol that ends a line; two symbols, `cr` and `lf`, end a line also
together, as one end. What stands behind the last end is a line too unless it is empty.

A text that has not ended yet consists of its *completed* lines and an *open* one. More text
completes the open line and then brings lines of its own.

## Main definitions

* `TextLines.Ends` — the symbols that end a line, and the two that may do so together.
* `TextLines.splitLines` — the lines of a text.
* `TextLines.completed`, `TextLines.openLine` — the lines that have ended, and the last one.

## Main results

* `TextLines.splitLines_append` — where more text goes.
* `TextLines.splitLines_append_lf` — a text that is terminated has the lines it has, whatever
  follows.
-/

namespace TextLines

universe u

/-- The symbols that end a line. -/
structure Ends (α : Type u) where
  isEnd : α → Bool
  cr : α
  lf : α
  isEnd_lf : isEnd lf = true
  cr_ne_lf : cr ≠ lf

/-- How far a text has been split: the lines that have ended, the open one, and whether the last
symbol was `cr`, so that an `lf` ends no other line. -/
structure Cursor (α : Type u) where
  done : List (List α)
  line : List α
  afterCr : Bool

variable {α : Type u} [DecidableEq α] (E : Ends α)

/-- One symbol more. -/
def step (s : Cursor α) (c : α) : Cursor α :=
  if s.afterCr = true ∧ c = E.lf then ⟨s.done, [], false⟩
  else if E.isEnd c = true then ⟨s.done ++ [s.line], [], decide (c = E.cr)⟩
  else ⟨s.done, s.line ++ [c], false⟩

/-- A whole text. -/
def scan (s : Cursor α) (text : List α) : Cursor α := text.foldl (step E) s

/-- Before any text. -/
def start : Cursor α := ⟨[], [], false⟩

/-- The lines that have ended. -/
def completed (text : List α) : List (List α) := (scan E start text).done

/-- The line that has not ended yet. -/
def openLine (text : List α) : List α := (scan E start text).line

/-- Whether the text ends in `cr`. -/
def afterCr (text : List α) : Bool := (scan E start text).afterCr

/-- An open line counts unless it is empty. -/
def lastLine (line : List α) : List (List α) := if line = [] then [] else [line]

/-- **The lines of a text.** -/
def splitLines (text : List α) : List (List α) := completed E text ++ lastLine (openLine E text)

variable {E}

/-! ## More text -/

/-- The lines that have ended stay in front. -/
lemma scan_done (done lines : List (List α)) (line : List α) (after : Bool) (text : List α) :
    scan E ⟨done ++ lines, line, after⟩ text =
      ⟨done ++ (scan E ⟨lines, line, after⟩ text).done, (scan E ⟨lines, line, after⟩ text).line,
        (scan E ⟨lines, line, after⟩ text).afterCr⟩ := by
  induction text generalizing lines line after with
  | nil => rfl
  | cons c text ih =>
    have hstep : step E ⟨done ++ lines, line, after⟩ c =
        ⟨done ++ (step E ⟨lines, line, after⟩ c).done, (step E ⟨lines, line, after⟩ c).line,
          (step E ⟨lines, line, after⟩ c).afterCr⟩ := by
      unfold step
      split_ifs
      · rfl
      · simp only [List.append_assoc]
      · rfl
    simp only [scan, List.foldl_cons, hstep] at ih ⊢
    exact ih _ _ _

/-- Text behind an open line: its first line goes on with the open one.

**Proof sketch.** Induction on the text. As long as no symbol ends the line, both cursors collect
the same symbols; the first that does leaves them with the same empty line. -/
lemma scan_line (line line' : List α) (text : List α) :
    (scan E ⟨[], line ++ line', false⟩ text).done ++
        [(scan E ⟨[], line ++ line', false⟩ text).line] =
      ((scan E ⟨[], line', false⟩ text).done ++ [(scan E ⟨[], line', false⟩ text).line]).modifyHead
        (line ++ ·) := by
  induction text generalizing line' with
  | nil => rfl
  | cons c text ih =>
    by_cases hend : E.isEnd c = true
    · have hstep : ∀ l : List α, step E ⟨[], l, false⟩ c = ⟨[l] ++ [], [], decide (c = E.cr)⟩ := by
        intro l
        simp [step, hend]
      have hdone := @scan_done α _ E [line ++ line'] [] [] (decide (c = E.cr)) text
      have hdone' := @scan_done α _ E [line'] [] [] (decide (c = E.cr)) text
      simp only [scan, List.foldl_cons, hstep] at hdone hdone' ⊢
      rw [hdone, hdone']
      rfl
    · have hstep : ∀ l : List α, step E ⟨[], l, false⟩ c = ⟨[], l ++ [c], false⟩ := by
        intro l
        simp [step, hend]
      simp only [scan, List.foldl_cons, hstep, List.append_assoc]
      exact ih (line' ++ [c])

omit [DecidableEq α] in
/-- `scan_line` as lines: all of them, the open one too. -/
lemma modifyHead_append_lastLine {line : List α} {lines : List (List α)} {last : List α}
    {lines' : List (List α)} {last' : List α}
    (h : lines ++ [last] = (lines' ++ [last']).modifyHead (line ++ ·))
    (hne : lines' ++ lastLine last' ≠ []) :
    lines ++ lastLine last = (lines' ++ lastLine last').modifyHead (line ++ ·) := by
  cases lines' with
  | nil =>
    have hlast : last' ≠ [] := by
      rintro rfl
      exact hne rfl
    obtain ⟨rfl, rfl⟩ : lines = [] ∧ last = line ++ last' := by
      simpa [List.append_eq_singleton_iff, eq_comm] using h
    simp [lastLine, hlast]
  | cons first lines' =>
    rw [List.cons_append, List.modifyHead_cons, ← List.cons_append] at h
    obtain ⟨rfl, hlast⟩ := List.append_inj' h rfl
    obtain rfl := List.singleton_inj.mp hlast
    rfl

/-- There is a line wherever there is text. -/
lemma splitLines_ne_nil {text : List α} (h : text ≠ []) : splitLines E text ≠ [] := by
  cases text with
  | nil => exact absurd rfl h
  | cons c text =>
    rw [splitLines, completed, openLine, scan, List.foldl_cons]
    by_cases hend : E.isEnd c = true
    · have hstep : step E start c = ⟨[[]] ++ [], [], decide (c = E.cr)⟩ := by
        simp [step, start, hend]
      rw [hstep, ← scan, scan_done]
      simp
    · have hstep : step E start c = ⟨[], [c] ++ [], false⟩ := by
        simp [step, start, hend]
      have hline := scan_line (E := E) [c] [] text
      rw [hstep, ← scan]
      intro hnil
      obtain ⟨hdone, hlast⟩ := List.append_eq_nil_iff.mp hnil
      have hopen : (scan E ⟨[], [c] ++ [], false⟩ text).line = [] := by
        by_contra hne
        rw [lastLine, if_neg hne] at hlast
        exact List.cons_ne_nil _ _ hlast
      rw [hdone, hopen] at hline
      cases hlines : (scan E ⟨[], [], false⟩ text).done with
      | nil => simp [hlines] at hline
      | cons first rest => simp [hlines] at hline

/-- **More text completes the open line and brings lines of its own**, unless it only completes an
end that has begun. -/
theorem splitLines_append {text more : List α} (hmore : more ≠ [])
    (hpair : afterCr E text = true → more.head? ≠ some E.lf) :
    splitLines E (text ++ more) =
      completed E text ++ (splitLines E more).modifyHead (openLine E text ++ ·) := by
  have hscan : scan E start (text ++ more) =
      scan E ⟨completed E text ++ [], openLine E text, afterCr E text⟩ more := by
    rw [List.append_nil]
    simp only [scan, List.foldl_append, completed, openLine, afterCr]
  have hafter : scan E ⟨[], openLine E text, afterCr E text⟩ more =
      scan E ⟨[], openLine E text, false⟩ more := by
    cases more with
    | nil => exact absurd rfl hmore
    | cons c more =>
      have hc : ¬ (afterCr E text = true ∧ c = E.lf) := fun ⟨hcr, hlf⟩ =>
        hpair hcr (by rw [hlf]; rfl)
      have hstep : step E ⟨[], openLine E text, afterCr E text⟩ c =
          step E ⟨[], openLine E text, false⟩ c := by
        unfold step
        rw [if_neg hc, if_neg (show ¬ (false = true ∧ c = E.lf) by simp)]
      simp only [scan, List.foldl_cons, hstep]
  have hline := scan_line (E := E) (openLine E text) [] more
  rw [List.append_nil] at hline
  rw [splitLines, completed, openLine, hscan, scan_done, hafter]
  simp only [List.append_assoc]
  congr 1
  exact modifyHead_append_lastLine hline (splitLines_ne_nil hmore)

/-! ## Terminated text -/

/-- An `lf` ends whatever line there is. -/
lemma scan_lf (text : List α) :
    openLine E (text ++ [E.lf]) = [] ∧ afterCr E (text ++ [E.lf]) = false := by
  simp only [openLine, afterCr, scan, List.foldl_append, List.foldl_cons, List.foldl_nil, step]
  split_ifs
  · exact ⟨rfl, rfl⟩
  · exact ⟨rfl, by simp [E.cr_ne_lf.symm]⟩
  · exact absurd E.isEnd_lf ‹_›

/-- **The lines of a terminated text are its own, whatever follows.** -/
theorem splitLines_append_lf (text more : List α) :
    splitLines E (text ++ E.lf :: more) = splitLines E (text ++ [E.lf]) ++ splitLines E more := by
  obtain ⟨hopen, hafter⟩ := scan_lf (E := E) text
  have hcompleted : splitLines E (text ++ [E.lf]) = completed E (text ++ [E.lf]) := by
    rw [splitLines, hopen, lastLine, if_pos rfl, List.append_nil]
  cases more with
  | nil => simp [splitLines, completed, openLine, scan, start, lastLine]
  | cons c more =>
    have happend := @splitLines_append α _ E (text ++ [E.lf]) (c :: more)
      (List.cons_ne_nil c more) (by simp [hafter])
    rw [List.append_assoc, List.singleton_append] at happend
    rw [happend, hopen, hcompleted]
    have hid : ∀ lines : List (List α), lines.modifyHead ([] ++ ·) = lines := by
      intro lines
      cases lines <;> rfl
    rw [hid]

/-- Text without line ends is one open line. -/
lemma openLine_eq_self {text : List α} (h : ∀ c ∈ text, E.isEnd c = false) :
    completed E text = [] ∧ openLine E text = text ∧ afterCr E text = false := by
  induction text using List.reverseRecOn with
  | nil => exact ⟨rfl, rfl, rfl⟩
  | append_singleton text c ih =>
    obtain ⟨hdone, hline, hafter⟩ := ih fun d hd => h d (List.mem_append_left _ hd)
    have hc : E.isEnd c = false := h c (by simp)
    simp only [completed, openLine, afterCr, scan] at hdone hline hafter ⊢
    simp [List.foldl_append, step, hafter, hc, hdone, hline]

/-- A line that is terminated. -/
lemma splitLines_line {line : List α} (h : ∀ c ∈ line, E.isEnd c = false) :
    splitLines E (line ++ [E.lf]) = [line] := by
  obtain ⟨hdone, hline, hafter⟩ := openLine_eq_self h
  simp only [completed, openLine, afterCr, scan] at hdone hline hafter
  simp [splitLines, completed, openLine, scan, List.foldl_append, step, hdone, hline, hafter,
    E.isEnd_lf, lastLine]

end TextLines
