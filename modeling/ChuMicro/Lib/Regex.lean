import Mathlib.Data.List.Infix
import Mathlib.Logic.Relation

/-!
# Regular expressions by backtracking

A matcher that tries the alternatives of a pattern in their order and takes the first way that
works, as the engines of scripting languages do: what a pattern takes depends on that order, whether
it can match at all does not. A way to match at the front of a text is told by what it leaves of the
text.

## Main definitions

* `Regex` — patterns, with greedy and lazy repetition and the end of the text.
* `Regex.run` — all ways to match at the front, in the order in which they are tried.
* `Regex.matchFront`, `Regex.finditer` — the first of them, and the matches in a text from left to
  right.
* `Regex.Matches` — the ways to match, as a relation without an order.

## Main results

* `Regex.mem_run` — the matcher finds exactly the ways there are.
* `Regex.finditer_eq_nil_iff` — nothing is found exactly where no part of the text can match.
* `Regex.matchFront_seq_lit`, `Regex.matchFront_seq_lazyStar` — after a literal, and after `.*?`.
* `Regex.matches_star` — a repetition takes a row of pieces.
-/

universe u

/-- A pattern over symbols of `α`. -/
inductive Regex (α : Type u) where
  /-- nothing -/
  | eps
  /-- `\Z` -/
  | endOfText
  /-- one symbol of a class -/
  | char (p : α → Bool)
  | seq (first second : Regex α)
  /-- the first where it works, else the second -/
  | alt (first second : Regex α)
  /-- `*` -/
  | star (body : Regex α)
  /-- `*?` -/
  | lazyStar (body : Regex α)

namespace Regex

variable {α : Type u}

/-! ## The matcher -/

/-- As often as it works, then less often. A round takes at least one symbol. -/
def greedy (step : List α → List (List α)) : ℕ → List α → List (List α)
  | 0, text => [text]
  | fuel + 1, text =>
    ((step text).filter fun rest => rest.length < text.length).flatMap (greedy step fuel) ++ [text]

/-- Not at all, then more often. -/
def reluctant (step : List α → List (List α)) : ℕ → List α → List (List α)
  | 0, text => [text]
  | fuel + 1, text =>
    text ::
      ((step text).filter fun rest => rest.length < text.length).flatMap (reluctant step fuel)

/-- One symbol of a class. -/
def takeOne (p : α → Bool) : List α → List (List α)
  | [] => []
  | c :: rest => if p c then [rest] else []

/-- **All ways to match at the front of a text**, in the order in which they are tried, each told by
what it leaves. -/
def run : Regex α → List α → List (List α)
  | eps, text => [text]
  | endOfText, text => if text.isEmpty then [text] else []
  | char p, text => takeOne p text
  | seq first second, text => (run first text).flatMap (run second)
  | alt first second, text => run first text ++ run second text
  | star body, text => greedy (run body) text.length text
  | lazyStar body, text => reluctant (run body) text.length text

section Run

variable (first second body : Regex α) (text : List α)

lemma run_endOfText : (endOfText : Regex α).run text = if text.isEmpty then [text] else [] := rfl

lemma run_char (p : α → Bool) : (char p).run text = takeOne p text := rfl

lemma run_seq : (seq first second).run text = (first.run text).flatMap second.run := rfl

lemma run_alt : (alt first second).run text = first.run text ++ second.run text := rfl

lemma run_star : (star body).run text = greedy body.run text.length text := rfl

lemma run_lazyStar : (lazyStar body).run text = reluctant body.run text.length text := rfl

end Run

/-- What the match at the front of a text leaves, if there is one. -/
def matchFront (pattern : Regex α) (text : List α) : Option (List α) := (pattern.run text).head?

/-- The matches from left to right, each told by what is left of the text at its start and at its
end; the first `skip` symbols belong to the match before. Meant for patterns that take at least one
symbol. -/
def scanFrom (pattern : Regex α) : ℕ → List α → List (List α × List α)
  | _, [] => []
  | skip + 1, _ :: text => scanFrom pattern skip text
  | 0, c :: text =>
    match pattern.matchFront (c :: text) with
    | none => scanFrom pattern 0 text
    | some rest => (c :: text, rest) :: scanFrom pattern (text.length - rest.length) text

/-- `finditer`. -/
def finditer (pattern : Regex α) (text : List α) : List (List α × List α) := pattern.scanFrom 0 text

/-! ## Derived patterns -/

/-- Any one symbol. -/
def any : Regex α := char fun _ => true

/-- A word. -/
def lit [BEq α] (word : List α) : Regex α := word.foldr (fun c rest => seq (char (· == c)) rest) eps

/-- `?` -/
def opt (body : Regex α) : Regex α := alt body eps

/-- `+` -/
def plus (body : Regex α) : Regex α := seq body (star body)

/-! ## The relation -/

/-- **A way to match** at the front of the first text, which leaves the second. -/
def Matches : Regex α → List α → List α → Prop
  | eps, text, rest => rest = text
  | endOfText, text, rest => text = [] ∧ rest = []
  | char p, text, rest => ∃ c, p c = true ∧ text = c :: rest
  | seq first second, text, rest => ∃ middle, Matches first text middle ∧ Matches second middle rest
  | alt first second, text, rest => Matches first text rest ∨ Matches second text rest
  | star body, text, rest | lazyStar body, text, rest =>
    Relation.ReflTransGen (fun a b => Matches body a b ∧ b.length < a.length) text rest

section Matches

variable {text rest : List α}

/-- One symbol. -/
lemma matches_char {p : α → Bool} :
    (char p).Matches text rest ↔ ∃ c, p c = true ∧ text = c :: rest := Iff.rfl

/-- One pattern after the other. -/
lemma matches_seq {first second : Regex α} :
    (seq first second).Matches text rest ↔
      ∃ middle, first.Matches text middle ∧ second.Matches middle rest := Iff.rfl

/-- Either pattern. -/
lemma matches_alt {first second : Regex α} :
    (alt first second).Matches text rest ↔ first.Matches text rest ∨ second.Matches text rest :=
  Iff.rfl

/-- The end of the text. -/
lemma matches_endOfText : endOfText.Matches text rest ↔ text = [] ∧ rest = [] := Iff.rfl

variable {body : Regex α}

/-- A repetition is rounds that take at least one symbol each. -/
lemma matches_star_iff :
    (star body).Matches text rest ↔
      Relation.ReflTransGen (fun a b => body.Matches a b ∧ b.length < a.length) text rest := Iff.rfl

lemma matches_lazyStar_iff :
    (lazyStar body).Matches text rest ↔
      Relation.ReflTransGen (fun a b => body.Matches a b ∧ b.length < a.length) text rest := Iff.rfl

/-- A pattern or nothing. -/
lemma matches_opt :
    (opt body).Matches text rest ↔ body.Matches text rest ∨ rest = text := Iff.rfl

end Matches

section Repetition

variable {step : List α → List (List α)} {text rest : List α}

/-- One round of a repetition. -/
def Round (step : List α → List (List α)) (a b : List α) : Prop :=
  b ∈ step a ∧ b.length < a.length

/-- A repetition leaves what rounds lead to, given fuel for every symbol. -/
lemma mem_greedy {fuel : ℕ} (hfuel : text.length ≤ fuel) :
    rest ∈ greedy step fuel text ↔ Relation.ReflTransGen (Round step) text rest := by
  induction fuel generalizing text with
  | zero =>
    have hnil : text = [] := List.length_eq_zero_iff.mp (by omega)
    subst hnil
    rw [greedy, List.mem_singleton, Relation.ReflTransGen.cases_head_iff]
    constructor
    · rintro rfl
      exact .inl rfl
    · rintro (rfl | ⟨middle, ⟨-, hlt⟩, -⟩)
      · rfl
      · exact absurd hlt (by simp)
  | succ fuel ih =>
    rw [greedy, List.mem_append, List.mem_flatMap, List.mem_singleton,
      Relation.ReflTransGen.cases_head_iff, or_comm, eq_comm]
    refine or_congr_right (exists_congr fun middle => ?_)
    rw [List.mem_filter, decide_eq_true_eq]
    refine and_congr_right fun hround => ih ?_
    have hlt := hround.2
    omega

/-- The order of the rounds does not matter for what is left. -/
lemma mem_reluctant (fuel : ℕ) (text : List α) :
    rest ∈ reluctant step fuel text ↔ rest ∈ greedy step fuel text := by
  induction fuel generalizing text with
  | zero => exact Iff.rfl
  | succ fuel ih =>
    rw [reluctant, greedy, List.mem_cons, List.mem_append, List.mem_flatMap, List.mem_flatMap,
      List.mem_singleton, or_comm]
    exact or_congr_left (exists_congr fun middle => and_congr_right fun _ => ih middle)

end Repetition

variable {text rest : List α}

/-- **The matcher finds exactly the ways there are.** -/
theorem mem_run (pattern : Regex α) : rest ∈ pattern.run text ↔ pattern.Matches text rest := by
  induction pattern generalizing text rest with
  | eps => exact List.mem_singleton
  | endOfText =>
    rw [run_endOfText, matches_endOfText]
    cases text with
    | nil => simp
    | cons c text => simp
  | char p =>
    rw [matches_char]
    cases text with
    | nil => simp [run_char, takeOne]
    | cons c text =>
      change rest ∈ (if p c then [text] else []) ↔ _
      by_cases hc : p c = true
      · rw [if_pos hc, List.mem_singleton]
        refine ⟨fun h => ⟨c, hc, h ▸ rfl⟩, ?_⟩
        rintro ⟨d, -, heq⟩
        exact (List.cons.inj heq).2.symm
      · simp only [if_neg hc, List.not_mem_nil, false_iff]
        rintro ⟨d, hd, heq⟩
        exact hc ((List.cons.inj heq).1 ▸ hd)
  | seq first second ihfirst ihsecond =>
    rw [run_seq, matches_seq, List.mem_flatMap]
    exact exists_congr fun middle => and_congr ihfirst ihsecond
  | alt first second ihfirst ihsecond =>
    rw [run_alt, matches_alt, List.mem_append]
    exact or_congr ihfirst ihsecond
  | star body ih =>
    rw [run_star, matches_star_iff, mem_greedy le_rfl]
    have hround : Round (run body) = fun a b => Matches body a b ∧ b.length < a.length := by
      funext a b
      exact propext (and_congr_left fun _ => ih)
    rw [hround]
  | lazyStar body ih =>
    rw [run_lazyStar, matches_lazyStar_iff, mem_reluctant, mem_greedy le_rfl]
    have hround : Round (run body) = fun a b => Matches body a b ∧ b.length < a.length := by
      funext a b
      exact propext (and_congr_left fun _ => ih)
    rw [hround]

/-- What a match leaves is the end of the text. -/
lemma Matches.isSuffix {pattern : Regex α} (h : pattern.Matches text rest) : rest <:+ text := by
  induction pattern generalizing text rest with
  | eps => exact h ▸ List.suffix_rfl
  | endOfText => exact h.2 ▸ List.nil_suffix
  | char p =>
    obtain ⟨c, -, rfl⟩ := h
    exact List.suffix_cons c rest
  | seq first second ihfirst ihsecond =>
    obtain ⟨middle, hfirst, hsecond⟩ := h
    exact (ihsecond hsecond).trans (ihfirst hfirst)
  | alt first second ihfirst ihsecond => exact h.elim ihfirst ihsecond
  | star body ih | lazyStar body ih =>
    induction h with
    | refl => exact List.suffix_rfl
    | tail _ hround ihrounds => exact (ih hround.1).trans ihrounds

/-! ## The first match at the front -/

section Front

variable {pattern : Regex α} {text rest : List α}

/-- Nothing is matched where there is no way to. -/
lemma matchFront_eq_none_iff :
    pattern.matchFront text = none ↔ ∀ rest, ¬ pattern.Matches text rest := by
  simp only [matchFront, List.head?_eq_none_iff, List.eq_nil_iff_forall_not_mem, mem_run]

/-- What is matched is a way to match. -/
lemma matches_of_matchFront (h : pattern.matchFront text = some rest) :
    pattern.Matches text rest :=
  (mem_run pattern).mp (List.mem_of_mem_head? h)

/-- The first pattern decides where it works. -/
lemma matchFront_alt (first second : Regex α) (text : List α) :
    (alt first second).matchFront text = (first.matchFront text).or (second.matchFront text) := by
  rw [matchFront, run_alt, List.head?_append]
  rfl

/-- One pattern after another: the first way through both. -/
lemma matchFront_seq (first second : Regex α) (text : List α) :
    (seq first second).matchFront text = (first.run text).findSome? second.matchFront := by
  rw [matchFront, run_seq, List.head?_flatMap]
  rfl

end Front

/-! ## Literals -/

section Literal

variable [BEq α] [LawfulBEq α]

variable {word text : List α}

/-- A word matches where the text begins with it. -/
lemma matches_lit {rest : List α} : (lit word).Matches text rest ↔ text = word ++ rest := by
  induction word generalizing text with
  | nil => exact eq_comm
  | cons c word ih =>
    rw [lit, List.foldr_cons, ← lit, matches_seq]
    constructor
    · rintro ⟨middle, ⟨d, hd, rfl⟩, hword⟩
      rw [eq_of_beq hd, ih.mp hword, List.cons_append]
    · rintro rfl
      exact ⟨word ++ rest, ⟨c, beq_self_eq_true c, rfl⟩, ih.mpr rfl⟩

/-- There is one way to match a word. -/
lemma run_lit (word text : List α) : (lit word).run (word ++ text) = [text] := by
  induction word with
  | nil => rfl
  | cons c word ih =>
    rw [lit, List.foldr_cons, ← lit, run_seq, List.cons_append, run_char, takeOne,
      if_pos (beq_self_eq_true c), List.flatMap_singleton, ih]

/-- A word or nothing is the word where the text begins with it. -/
lemma matchFront_opt_lit (word text : List α) :
    (opt (lit word)).matchFront (word ++ text) = some text := by
  rw [opt, matchFront_alt, matchFront, run_lit]
  rfl

/-- A word or nothing is nothing where the text does not begin with it. -/
lemma matchFront_opt_lit_of_not (h : ¬ word <+: text) :
    (opt (lit word)).matchFront text = some text := by
  have hnone : (lit word).matchFront text = none :=
    matchFront_eq_none_iff.mpr fun rest hrest => h ⟨rest, (matches_lit.mp hrest).symm⟩
  rw [opt, matchFront_alt, hnone]
  rfl

/-- A pattern that begins with a word. -/
theorem matchFront_seq_lit (word : List α) (pattern : Regex α) (text : List α) :
    (seq (lit word) pattern).matchFront (word ++ text) = pattern.matchFront text := by
  rw [matchFront_seq, run_lit]
  simp

/-- A pattern that begins with a word does not match where the text does not. -/
lemma matchFront_seq_lit_eq_none (pattern : Regex α) (h : ¬ word <+: text) :
    (seq (lit word) pattern).matchFront text = none := by
  rw [matchFront_eq_none_iff]
  rintro rest ⟨middle, hword, -⟩
  exact h ⟨middle, (matches_lit.mp hword).symm⟩

end Literal

/-! ## Anything, as little as possible -/

/-- `.*?` can leave every end of the text, the longest first. -/
lemma run_lazyStar_any (text : List α) : (lazyStar any).run text = text.tails := by
  rw [run_lazyStar]
  induction text with
  | nil => rfl
  | cons c text ih =>
    rw [List.length_cons, reluctant, List.tails, ← ih]
    simp [any, run_char, takeOne]

/-- `.*?` can leave every end of the text. -/
lemma matches_lazyStar_any : (lazyStar any).Matches text rest ↔ rest <:+ text := by
  rw [← mem_run, run_lazyStar_any, List.mem_tails]

/-- **After `.*?`** a pattern matches where it first can. -/
theorem matchFront_seq_lazyStar (pattern : Regex α) (text : List α) :
    (seq (lazyStar any) pattern).matchFront text = text.tails.findSome? pattern.matchFront := by
  rw [matchFront_seq, run_lazyStar_any]

/-! ## Repetition of pieces -/

/-- **A repetition takes a row of pieces**, where one round takes one piece. -/
theorem matches_star {body : Regex α} {piece : List α → Prop} (hne : ¬ piece [])
    (hbody : ∀ a b, body.Matches a b ↔ ∃ first, piece first ∧ a = first ++ b) :
    (star body).Matches text rest ↔
      ∃ pieces : List (List α), (∀ one ∈ pieces, piece one) ∧ text = pieces.flatten ++ rest := by
  constructor
  · intro h
    refine Relation.ReflTransGen.head_induction_on h ⟨[], List.forall_mem_nil _, rfl⟩ ?_
    rintro a b ⟨hround, -⟩ - ⟨pieces, hpieces, rfl⟩
    obtain ⟨first, hfirst, rfl⟩ := (hbody a _).mp hround
    refine ⟨first :: pieces, List.forall_mem_cons.mpr ⟨hfirst, hpieces⟩, ?_⟩
    rw [List.flatten_cons, List.append_assoc]
  · rintro ⟨pieces, hpieces, rfl⟩
    induction pieces with
    | nil => exact .refl
    | cons first pieces ih =>
      obtain ⟨hfirst, hpieces⟩ := List.forall_mem_cons.mp hpieces
      have hpos : 0 < first.length := List.length_pos_of_ne_nil fun h => hne (h ▸ hfirst)
      rw [List.flatten_cons, List.append_assoc]
      refine Relation.ReflTransGen.head ⟨(hbody _ _).mpr ⟨first, hfirst, rfl⟩, ?_⟩ (ih hpieces)
      simp only [List.length_append]
      omega

/-- A repeated class takes symbols of the class. -/
lemma matches_star_char {p : α → Bool} :
    (star (char p)).Matches text rest ↔ ∃ word, (∀ c ∈ word, p c = true) ∧ text = word ++ rest := by
  have hbody : ∀ a b, (char p).Matches a b ↔
      ∃ first, (∃ c, p c = true ∧ first = [c]) ∧ a = first ++ b := by
    intro a b
    constructor
    · rintro ⟨c, hc, rfl⟩
      exact ⟨[c], ⟨c, hc, rfl⟩, rfl⟩
    · rintro ⟨-, ⟨c, hc, rfl⟩, rfl⟩
      exact ⟨c, hc, rfl⟩
  rw [matches_star (by simp) hbody]
  constructor
  · rintro ⟨pieces, hpieces, rfl⟩
    refine ⟨pieces.flatten, fun c hc => ?_, rfl⟩
    obtain ⟨piece, hpiece, hmem⟩ := List.mem_flatten.mp hc
    obtain ⟨d, hd, rfl⟩ := hpieces piece hpiece
    rwa [List.mem_singleton.mp hmem]
  · rintro ⟨word, hword, rfl⟩
    refine ⟨word.map fun c => [c], ?_, ?_⟩
    · intro piece hpiece
      obtain ⟨c, hc, rfl⟩ := List.mem_map.mp hpiece
      exact ⟨c, hword c hc, rfl⟩
    · rw [← List.flatMap_def, List.flatMap_singleton']

/-! ## All matches -/

/-- A pattern that takes at least one symbol. -/
def TakesSome (pattern : Regex α) : Prop :=
  ∀ text rest, pattern.Matches text rest → rest.length < text.length

/-- A pattern that begins with a word takes at least that. -/
lemma takesSome_seq_lit [BEq α] [LawfulBEq α] {word : List α} (hword : word ≠ [])
    (pattern : Regex α) : (seq (lit word) pattern).TakesSome := by
  rintro text rest ⟨middle, hlit, hmore⟩
  have hpos := List.length_pos_of_ne_nil hword
  have hle := (Matches.isSuffix hmore).length_le
  rw [matches_lit.mp hlit, List.length_append]
  omega

section All

variable {pattern : Regex α}

/-- The symbols of the match before are passed over. -/
lemma scanFrom_length (before text : List α) :
    pattern.scanFrom before.length (before ++ text) = pattern.finditer text := by
  induction before with
  | nil => rfl
  | cons c before ih => exact ih

variable {text : List α}

/-- Where nothing matches at the front, one symbol is passed over. -/
lemma finditer_cons {c : α} (h : pattern.matchFront (c :: text) = none) :
    pattern.finditer (c :: text) = pattern.finditer text := by
  rw [finditer, scanFrom, h]
  rfl

/-- **A match at the front**, and the matches in what it leaves. -/
lemma finditer_of_matchFront (htakes : pattern.TakesSome) {rest : List α}
    (h : pattern.matchFront text = some rest) :
    pattern.finditer text = (text, rest) :: pattern.finditer rest := by
  have hmatches := matches_of_matchFront h
  have hlt := htakes text rest hmatches
  obtain ⟨before, rfl⟩ := hmatches.isSuffix
  cases before with
  | nil => exact absurd hlt (by simp)
  | cons c before =>
    rw [List.cons_append] at h
    rw [List.cons_append, finditer, scanFrom, h]
    dsimp only
    rw [List.length_append, Nat.add_sub_cancel, scanFrom_length]

/-- Every match is one at the front of an end of the text. -/
lemma of_mem_finditer {found : List α × List α} (skip : ℕ)
    (h : found ∈ pattern.scanFrom skip text) :
    found.1 <:+ text ∧ pattern.matchFront found.1 = some found.2 := by
  induction text generalizing skip with
  | nil => cases skip <;> cases h
  | cons c text ih =>
    cases skip with
    | succ skip =>
      obtain ⟨hsuffix, hfront⟩ := ih skip h
      exact ⟨hsuffix.trans (List.suffix_cons c text), hfront⟩
    | zero =>
      rw [scanFrom] at h
      cases hfront : pattern.matchFront (c :: text) with
      | none =>
        rw [hfront] at h
        obtain ⟨hsuffix, hfound⟩ := ih 0 h
        exact ⟨hsuffix.trans (List.suffix_cons c text), hfound⟩
      | some rest =>
        rw [hfront] at h
        rcases List.mem_cons.mp h with rfl | h
        · exact ⟨List.suffix_rfl, hfront⟩
        · obtain ⟨hsuffix, hfound⟩ := ih _ h
          exact ⟨hsuffix.trans (List.suffix_cons c text), hfound⟩

/-- **Nothing is found** exactly where no end of the text can be matched at its front. -/
theorem finditer_eq_nil_iff (htakes : pattern.TakesSome) :
    pattern.finditer text = [] ↔ ∀ suffix, suffix <:+ text → pattern.matchFront suffix = none := by
  have hnil : pattern.matchFront [] = none :=
    matchFront_eq_none_iff.mpr fun rest hrest => absurd (htakes [] rest hrest) (by simp)
  induction text with
  | nil =>
    refine ⟨fun _ suffix hsuffix => ?_, fun _ => rfl⟩
    rw [List.suffix_nil.mp hsuffix, hnil]
  | cons c text ih =>
    cases hfront : pattern.matchFront (c :: text) with
    | none =>
      rw [finditer_cons hfront]
      constructor
      · intro h suffix hsuffix
        rcases List.suffix_cons_iff.mp hsuffix with rfl | hsuffix
        · exact hfront
        · exact ih.mp h suffix hsuffix
      · exact fun h => ih.mpr fun suffix hsuffix =>
          h suffix (hsuffix.trans (List.suffix_cons c text))
    | some rest =>
      rw [finditer_of_matchFront htakes hfront]
      refine ⟨fun h => absurd h (List.cons_ne_nil _ _), fun h => ?_⟩
      rw [h _ List.suffix_rfl] at hfront
      cases hfront

/-- **Something is found** exactly where some end of the text can be matched at its front. -/
lemma finditer_ne_nil_iff (htakes : pattern.TakesSome) :
    pattern.finditer text ≠ [] ↔ ∃ before suffix rest, text = before ++ suffix ∧
      pattern.Matches suffix rest := by
  rw [Ne, finditer_eq_nil_iff htakes]
  constructor
  · intro h
    by_contra hno
    refine h fun suffix hsuffix => matchFront_eq_none_iff.mpr fun rest hrest => ?_
    obtain ⟨before, rfl⟩ := hsuffix
    exact hno ⟨before, suffix, rest, rfl, hrest⟩
  · rintro ⟨before, suffix, rest, rfl, hrest⟩ h
    exact matchFront_eq_none_iff.mp (h suffix (List.suffix_append before suffix)) rest hrest

/-- The induction a search for all matches goes by: over what the front of the text does. -/
lemma finditer_induction (htakes : pattern.TakesSome) {motive : List α → Prop}
    (nil : motive [])
    (pass : ∀ c text, pattern.matchFront (c :: text) = none → motive text → motive (c :: text))
    (found : ∀ text rest, pattern.matchFront text = some rest → rest <:+ text → motive rest →
      motive text) (text : List α) : motive text := by
  induction hlen : text.length using Nat.strong_induction_on generalizing text with
  | _ n ih =>
    cases hfront : pattern.matchFront text with
    | some rest =>
      have hmatches := matches_of_matchFront hfront
      exact found text rest hfront hmatches.isSuffix
        (ih rest.length (hlen ▸ htakes text rest hmatches) rest rfl)
    | none =>
      cases text with
      | nil => exact nil
      | cons c text => exact pass c text hfront (ih text.length (by rw [← hlen]; simp) text rfl)

/-- The matches come in the order of their starts. -/
lemma pairwise_finditer (htakes : pattern.TakesSome) (text : List α) :
    (pattern.finditer text).Pairwise fun a b => b.1.length < a.1.length := by
  induction text using finditer_induction htakes with
  | nil => exact List.Pairwise.nil
  | pass c text hfront ih => rwa [finditer_cons hfront]
  | found text rest hfront hsuffix ih =>
    rw [finditer_of_matchFront htakes hfront]
    refine List.pairwise_cons.mpr ⟨fun found hfound => ?_, ih⟩
    have hle := (of_mem_finditer 0 hfound).1.length_le
    have hlt := htakes text rest (matches_of_matchFront hfront)
    exact lt_of_le_of_lt hle hlt

/-- Nothing is found after the last match. -/
lemma finditer_of_getLast? (htakes : pattern.TakesSome) {found : List α × List α}
    (h : (pattern.finditer text).getLast? = some found) :
    found.2 <:+ text ∧ pattern.finditer found.2 = [] := by
  induction text using finditer_induction htakes with
  | nil => cases h
  | pass c text hfront ih =>
    rw [finditer_cons hfront] at h
    obtain ⟨hsuffix, hnil⟩ := ih h
    exact ⟨hsuffix.trans (List.suffix_cons c text), hnil⟩
  | found text rest hfront hsuffix ih =>
    rw [finditer_of_matchFront htakes hfront, List.getLast?_cons] at h
    cases hlast : (pattern.finditer rest).getLast? with
    | none =>
      rw [hlast] at h
      cases h
      exact ⟨hsuffix, List.getLast?_eq_none_iff.mp hlast⟩
    | some last =>
      rw [hlast] at h
      cases h
      obtain ⟨hrest, hnil⟩ := ih hlast
      exact ⟨hrest.trans hsuffix, hnil⟩

end All

end Regex
