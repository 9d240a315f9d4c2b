import Mathlib.Data.List.Infix

/-!
# Replacing a word in a text

Python's `str.replace` for a word that is not empty: from left to right, and what was put in is not
looked at again.

## Main definitions

* `Replace.replace` — every occurrence of a word replaced.

## Main results

* `Replace.replace_append_of_forall` — a part in which the word does not begin stays.
* `Replace.replace_word_append` — the word at the front is replaced.
* `Replace.replace_first` — a word is replaced where it is found first.
-/

namespace Replace

variable {α : Type} [DecidableEq α]

/-- The loop; the first `skip` symbols belong to an occurrence. -/
def replaceFrom (old new : List α) : ℕ → List α → List α
  | _, [] => []
  | skip + 1, _ :: rest => replaceFrom old new skip rest
  | 0, c :: rest =>
    if old <+: c :: rest then new ++ replaceFrom old new (old.length - 1) rest
    else c :: replaceFrom old new 0 rest

/-- `text.replace(old, new)`. -/
def replace (old new text : List α) : List α := replaceFrom old new 0 text

variable {old new front rest text : List α}

lemma replaceFrom_of_length (word : List α) :
    replaceFrom old new word.length (word ++ rest) = replaceFrom old new 0 rest := by
  induction word with
  | nil => rfl
  | cons c word ih => exact ih

/-- **The word at the front is replaced.** -/
theorem replace_word_append (hne : old ≠ []) :
    replace old new (old ++ rest) = new ++ replace old new rest := by
  cases old with
  | nil => exact absurd rfl hne
  | cons c word =>
    have hword : c :: word <+: c :: (word ++ rest) := List.prefix_append (c :: word) rest
    rw [replace, List.cons_append, replaceFrom, if_pos hword, List.length_cons, Nat.add_sub_cancel,
      replaceFrom_of_length, replace]

/-- **A part in which the word does not begin stays.** -/
theorem replace_append_of_forall
    (h : ∀ s, s ≠ [] → s <:+ front → ¬ old <+: s ++ rest) :
    replace old new (front ++ rest) = front ++ replace old new rest := by
  induction front with
  | nil => rfl
  | cons c front ih =>
    have hnot : ¬ old <+: c :: (front ++ rest) :=
      h (c :: front) (List.cons_ne_nil c front) List.suffix_rfl
    have hrest := ih fun s hs hsuffix => h s hs (hsuffix.trans (List.suffix_cons c front))
    rw [replace] at hrest
    rw [replace, List.cons_append, replaceFrom, if_neg hnot, hrest, List.cons_append]

/-- A part that lacks the first symbol of the word stays. -/
lemma replace_append_of_notMem {first : α} {word : List α} (h : first ∉ front) :
    replace (first :: word) new (front ++ rest) = front ++ replace (first :: word) new rest := by
  refine replace_append_of_forall fun s hs hsuffix hword => ?_
  cases s with
  | nil => exact hs rfl
  | cons c s =>
    obtain ⟨rfl, -⟩ := List.cons_prefix_cons.mp hword
    exact h (hsuffix.subset List.mem_cons_self)

/-- A text that lacks the first symbol of the word stays. -/
lemma replace_of_notMem {first : α} {word : List α} (h : first ∉ text) :
    replace (first :: word) new text = text := by
  have := @replace_append_of_notMem α _ new text [] first word h
  rwa [List.append_nil, replace, replace, replaceFrom, List.append_nil] at this

lemma replace_cons_of_not_isPrefix {c : α} (h : ¬ old <+: c :: rest) :
    replace old new (c :: rest) = c :: replace old new rest := by
  rw [replace, replaceFrom, if_neg h, replace]

/-- **A part that ends with a symbol which is not in the word** stays if the word is not in it. -/
lemma replace_append_of_not_isInfix {last : α} (hlast : last ∉ old)
    (h : ¬ old <:+: front ++ [last]) :
    replace old new ((front ++ [last]) ++ rest) = (front ++ [last]) ++ replace old new rest := by
  refine replace_append_of_forall fun s hs hsuffix hword => ?_
  have hmem : last ∈ s := by
    rcases List.suffix_concat_iff.mp hsuffix with rfl | ⟨t, rfl, -⟩
    · exact absurd rfl hs
    · exact List.mem_append_right t List.mem_cons_self
  rcases Nat.le_total old.length s.length with hle | hle
  · exact h ((List.prefix_of_prefix_length_le hword (List.prefix_append s rest) hle).isInfix.trans
      hsuffix.isInfix)
  · exact hlast
      ((List.prefix_of_prefix_length_le (List.prefix_append s rest) hword hle).subset hmem)

/-- **The first occurrence is replaced**, of a word whose first symbol is not found again in it. -/
theorem replace_first {first : α} {word : List α} (hword : first ∉ word)
    (h : ¬ first :: word <:+: front) :
    replace (first :: word) new (front ++ (first :: word ++ rest)) =
      front ++ (new ++ replace (first :: word) new rest) := by
  rw [replace_append_of_forall, replace_word_append (List.cons_ne_nil first word)]
  intro s hs hsuffix hfound
  rcases Nat.lt_or_ge s.length (first :: word).length with hlt | hle
  · -- the word begins again inside itself
    obtain ⟨more, hmore⟩ :=
      List.prefix_of_prefix_length_le (List.prefix_append s _) hfound hlt.le
    have hagain : more <+: first :: word ++ rest :=
      (List.prefix_append_right_inj s).mp (by rw [hmore]; exact hfound)
    cases more with
    | nil =>
      rw [← hmore, List.append_nil] at hlt
      exact lt_irrefl _ hlt
    | cons c more =>
      obtain ⟨rfl, -⟩ := List.cons_prefix_cons.mp hagain
      cases s with
      | nil => exact hs rfl
      | cons d s =>
        obtain ⟨-, rfl⟩ := List.cons.inj hmore
        exact hword (List.mem_append_right s List.mem_cons_self)
  · exact h ((List.prefix_of_prefix_length_le hfound (List.prefix_append s _) hle).isInfix.trans
      hsuffix.isInfix)

/-- A word that is found is found for a first time. -/
lemma exists_first (hne : old ≠ []) (h : old <:+: text) :
    ∃ front rest, text = front ++ (old ++ rest) ∧ ¬ old <:+: front := by
  obtain ⟨front, rest, rfl⟩ := h
  induction hlength : front.length using Nat.strong_induction_on generalizing front rest with
  | _ n ih =>
    by_cases hfront : old <:+: front
    · obtain ⟨front', rest', rfl⟩ := hfront
      have hshorter : front'.length < n := by
        have := List.length_pos_of_ne_nil hne
        simp only [List.length_append] at hlength
        omega
      obtain ⟨first, later, htext, hnot⟩ := ih _ hshorter front' (rest' ++ (old ++ rest)) rfl
      exact ⟨first, later, by simpa using htext, hnot⟩
    · exact ⟨front, rest, List.append_assoc front old rest, hfront⟩

end Replace
