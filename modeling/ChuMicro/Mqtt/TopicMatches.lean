import ChuMicro.Text

/-!
# Topics and filters

`topic_matches` of `libraries/mqtt/src/chumicro_mqtt/_wire.py`: a loop over the levels of a filter
with an index into the levels of the topic. It agrees with the definition by recursion on the
levels: `+` stands for one level, a `#` at the end for all levels that are left, and every other
level for itself.

## Main definitions

* `Mqtt.topicMatches` — `topic_matches`.
* `Mqtt.Matches` — what a filter matches, by recursion on its levels.

## Main results

* `Mqtt.topicMatches_iff` — the two agree for every topic and every filter.
-/

namespace ChuMicro.Mqtt

/-! ## The loop -/

/-- `text.split("/")`. -/
def levels (text : String) : List Str := text.toList.splitOn '/'

/-- The loop of `topic_matches` from `index` on, over the levels of the filter that are left. -/
def matchLoop (topicLevels : List Str) (patternCount : ℕ) : ℕ → List Str → Bool
  | _, [] => patternCount = topicLevels.length
  | index, patternLevel :: rest =>
    if patternLevel = ['#'] then index = patternCount - 1
    else if patternLevel = ['+'] then
      if index ≥ topicLevels.length then false else matchLoop topicLevels patternCount (index + 1) rest
    else if index ≥ topicLevels.length ∨ topicLevels[index]? ≠ some patternLevel then false
    else matchLoop topicLevels patternCount (index + 1) rest

/-- `topic_matches`. -/
def topicMatches (topic pattern : String) : Bool :=
  matchLoop (levels topic) (levels pattern).length 0 (levels pattern)

/-! ## The definition by recursion -/

/-- **What a filter matches**, level by level: `+` any one level, an empty one too; `#` at the end
any number of levels, none too; any other level itself. A `#` that is followed by a level matches
nothing, and neither side may have levels left over. -/
def Matches : List Str → List Str → Prop
  | [], [] => True
  | [], _ :: _ => False
  | patternLevel :: rest, topicLevels =>
    if patternLevel = ['#'] then rest = []
    else
      match topicLevels with
      | [] => False
      | topicLevel :: topicRest =>
        (patternLevel = ['+'] ∨ patternLevel = topicLevel) ∧ Matches rest topicRest

/-- A `#` matches as the last level only, and then all that is left. -/
@[simp] lemma matches_hash {rest topicLevels : List Str} :
    Matches (['#'] :: rest) topicLevels ↔ rest = [] := by
  simp [Matches]

/-- A filter with a level that is no `#` needs a level of the topic for it. -/
lemma not_matches_nil {patternLevel : Str} {rest : List Str} (h : patternLevel ≠ ['#']) :
    ¬ Matches (patternLevel :: rest) [] := by
  simp [Matches, h]

/-- One level of the filter against one level of the topic. -/
lemma matches_cons {patternLevel topicLevel : Str} {rest topicRest : List Str}
    (h : patternLevel ≠ ['#']) :
    Matches (patternLevel :: rest) (topicLevel :: topicRest) ↔
      (patternLevel = ['+'] ∨ patternLevel = topicLevel) ∧ Matches rest topicRest := by
  simp [Matches, h]

/-! ## The two agree -/

/-- **The loop from an index on**: as far as the topic has levels up to the index, the loop decides
whether the rest of the filter matches the rest of the topic.

**Proof sketch.** Induction on the rest of the filter. The loop only goes on while there is a level
of the topic at the index, so the index never passes the end of the topic, and a `#` at the end
finds any number of levels, possibly none. -/
lemma matchLoop_iff {topicLevels rest : List Str} {index : ℕ} (hindex : index ≤ topicLevels.length) :
    matchLoop topicLevels (index + rest.length) index rest = true ↔
      Matches rest (topicLevels.drop index) := by
  induction rest generalizing index with
  | nil =>
    obtain hend | hbefore := hindex.eq_or_lt
    · simp [matchLoop, Matches, hend]
    · rw [List.drop_eq_getElem_cons hbefore]
      simp [matchLoop, Matches, hbefore.ne]
  | cons patternLevel rest ih =>
    by_cases hhash : patternLevel = ['#']
    · subst hhash
      rw [matches_hash]
      simp only [matchLoop, if_true, decide_eq_true_eq, List.length_cons]
      rw [← List.length_eq_zero_iff]
      omega
    obtain hend | hbefore := hindex.eq_or_lt
    · -- the topic has no level left
      have hdrop : topicLevels.drop index = [] := by rw [hend, List.drop_length]
      rw [hdrop]
      have hloop : matchLoop topicLevels (index + (patternLevel :: rest).length) index
          (patternLevel :: rest) = false := by
        simp [matchLoop, hhash, hend]
      rw [hloop]
      exact ⟨(fun h => nomatch h), fun h => absurd h (not_matches_nil hhash)⟩
    · have hcount : index + (patternLevel :: rest).length = index + 1 + rest.length := by
        rw [List.length_cons]
        omega
      rw [List.drop_eq_getElem_cons hbefore, matches_cons hhash, ← ih hbefore, hcount]
      have hlevel : topicLevels[index]? = some topicLevels[index] := List.getElem?_eq_getElem hbefore
      by_cases hplus : patternLevel = ['+']
      · simp [matchLoop, hplus, hbefore]
      · simp only [matchLoop, if_neg hhash, if_neg hplus, hlevel]
        by_cases hsame : patternLevel = topicLevels[index]
        · simp [hplus, hbefore, ← hsame]
        · simp [hplus, hsame, Ne.symm hsame]

/-- **Topic matching agrees with the definition by recursion**, for every topic and every filter. -/
theorem topicMatches_iff (topic pattern : String) :
    topicMatches topic pattern = true ↔ Matches (levels pattern) (levels topic) := by
  have hloop := @matchLoop_iff (levels topic) (levels pattern) 0 (Nat.zero_le _)
  rw [Nat.zero_add, List.drop_zero] at hloop
  exact hloop

-- the parent itself, an empty level, and a `#` before the end
example : topicMatches "sport" "sport/#" = true ∧ topicMatches "/finance" "+/finance" = true ∧
    topicMatches "sport/tennis" "#/tennis" = false := by decide

end ChuMicro.Mqtt
