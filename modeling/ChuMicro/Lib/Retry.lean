import Mathlib.Data.Set.Insert
import Mathlib.Data.List.Perm.Basic

/-!
# Retrying until nothing moves

Things that depend on one another are attempted in rounds, those that fail again in the next round,
until all have succeeded or a round has no success.

## Main definitions

* `Retry.settle` — the rounds.
* `Retry.Attempts` — attempts one after another.
* `Retry.ByReadiness` — attempts whose success depends on what has succeeded before.

## Main results

* `Retry.settle_spec` — everything succeeds once, but for what fails in a last round of failures.
* `Retry.mem_settle_iff` — if more successes never hurt, what is left is what no order of attempts
  can bring to succeed.
-/

namespace Retry

variable {α σ : Type} (attempt : σ → α → Bool × σ)

/-- A round: whether there was a success, what failed, and the state. -/
def round : σ → List α → Bool × List α × σ
  | s, [] => (false, [], s)
  | s, a :: rest =>
    let tried := attempt s a
    let later := round tried.2 rest
    (tried.1 || later.1, if tried.1 then later.2.1 else a :: later.2.1, later.2.2)

/-- A round with a success leaves less than there was. -/
lemma length_round (s : σ) (pending : List α) :
    (round attempt s pending).2.1.length ≤ pending.length ∧
      ((round attempt s pending).1 = true →
        (round attempt s pending).2.1.length < pending.length) := by
  induction pending generalizing s with
  | nil => exact ⟨le_rfl, fun h => by cases h⟩
  | cons a rest ih =>
    obtain ⟨hle, hlt⟩ := ih (attempt s a).2
    rw [round, List.length_cons]
    cases htried : (attempt s a).1 with
    | true =>
      simp only [Bool.true_or, if_true]
      exact ⟨by omega, fun _ => by omega⟩
    | false =>
      simp only [Bool.false_or, Bool.false_eq_true, if_false, List.length_cons]
      exact ⟨by omega, fun h => by have := hlt h; omega⟩

/-- **The rounds**: what is left, and the state. -/
def settle (s : σ) (pending : List α) : List α × σ :=
  if pending = [] then ([], s)
  else if (round attempt s pending).1 = true then
    settle (round attempt s pending).2.2 (round attempt s pending).2.1
  else (round attempt s pending).2
termination_by pending.length
decreasing_by exact (length_round attempt s pending).2 ‹_›

/-! ## The attempts that were made -/

/-- Attempts one after another, with their outcomes. -/
inductive Attempts : σ → List (α × Bool) → σ → Prop
  | nil (s : σ) : Attempts s [] s
  | cons {s t : σ} {a : α} {log : List (α × Bool)} (h : Attempts (attempt s a).2 log t) :
      Attempts s ((a, (attempt s a).1) :: log) t

variable {attempt}

lemma Attempts.append {s t u : σ} {front back : List (α × Bool)} (h : Attempts attempt s front t)
    (h' : Attempts attempt t back u) : Attempts attempt s (front ++ back) u := by
  induction h with
  | nil s => exact h'
  | cons _ ih => exact .cons (ih h')

/-- What succeeded, and what did not. -/
def succeeded (log : List (α × Bool)) : List α := (log.filter fun entry => entry.2).map Prod.fst
@[inherit_doc succeeded] def failed (log : List (α × Bool)) : List α :=
  (log.filter fun entry => !entry.2).map Prod.fst

lemma succeeded_append (front back : List (α × Bool)) :
    succeeded (front ++ back) = succeeded front ++ succeeded back := by
  simp [succeeded]

lemma mem_succeeded {log : List (α × Bool)} {a : α} : a ∈ succeeded log ↔ (a, true) ∈ log := by
  simp [succeeded]

/-- What is attempted either succeeds or fails. -/
lemma perm_succeeded_failed (log : List (α × Bool)) :
    (succeeded log ++ failed log).Perm (log.map Prod.fst) := by
  rw [succeeded, failed, ← List.map_append]
  exact (List.filter_append_perm _ log).map _

/-- What a round does. -/
lemma round_spec (s : σ) (pending : List α) :
    ∃ log, Attempts attempt s log (round attempt s pending).2.2 ∧
      log.map Prod.fst = pending ∧ (round attempt s pending).2.1 = failed log ∧
      ((round attempt s pending).1 = true ↔ ∃ entry ∈ log, entry.2 = true) := by
  induction pending generalizing s with
  | nil => exact ⟨[], .nil s, rfl, rfl, by simp [round]⟩
  | cons a rest ih =>
    obtain ⟨log, hlog, hfst, hleft, hany⟩ := ih (attempt s a).2
    refine ⟨(a, (attempt s a).1) :: log, .cons hlog, by rw [List.map_cons, hfst], ?_, ?_⟩
    · rw [round, hleft]
      cases htried : (attempt s a).1 <;> simp [failed]
    · rw [round, Bool.or_eq_true, hany]
      simp

/-- **What the rounds do**: everything succeeds once, but for what is left, which failed in a last
round without success.

**Proof sketch.** Induction on the rounds. What a round leaves is what failed in it. -/
theorem settle_spec (s : σ) (pending : List α) :
    ∃ log, Attempts attempt s (log ++ (settle attempt s pending).1.map fun a => (a, false))
        (settle attempt s pending).2 ∧
      (succeeded log ++ (settle attempt s pending).1).Perm pending ∧
      ∀ entry ∈ log, entry.1 ∈ pending := by
  induction s, pending using settle.induct attempt with
  | case1 s =>
    rw [settle, if_pos rfl]
    exact ⟨[], .nil s, .refl _, fun _ h => by cases h⟩
  | case2 s pending hne hprogress ih =>
    rw [settle, if_neg hne, if_pos hprogress]
    obtain ⟨first, hfirst, hfst, hleft, -⟩ := @round_spec α σ attempt s pending
    obtain ⟨log, hlog, hperm, hmem⟩ := ih
    refine ⟨first ++ log, List.append_assoc first log _ ▸ hfirst.append hlog, ?_, ?_⟩
    · rw [succeeded_append, List.append_assoc]
      refine (hperm.append_left _).trans ?_
      rw [hleft]
      exact hfst ▸ perm_succeeded_failed first
    · refine List.forall_mem_append.mpr ⟨fun entry h => hfst ▸ List.mem_map_of_mem h, ?_⟩
      intro entry h
      have hentry := hmem entry h
      rw [hleft] at hentry
      exact (hfst ▸ perm_succeeded_failed first).subset (List.mem_append_right _ hentry)
  | case3 s pending hne hprogress =>
    rw [settle, if_neg hne, if_neg hprogress]
    obtain ⟨log, hlog, hfst, hleft, hany⟩ := @round_spec α σ attempt s pending
    have hall : ∀ entry ∈ log, entry.2 = false := fun entry h =>
      Bool.eq_false_iff.mpr fun htrue => hprogress (hany.mpr ⟨entry, h, htrue⟩)
    have hfailed : failed log = pending := by
      rw [failed, List.filter_eq_self.mpr fun entry h => by rw [hall entry h]; rfl, hfst]
    have hentries : log.map ((fun a => (a, false)) ∘ Prod.fst) = log.map id :=
      List.map_congr_left fun entry h => Prod.ext rfl (hall entry h).symm
    have hback : (round attempt s pending).2.1.map (fun a => (a, false)) = log := by
      rw [hleft, hfailed, ← hfst, List.map_map, hentries, List.map_id]
    refine ⟨[], ?_, ?_, fun _ h => by cases h⟩
    · rw [List.nil_append, hback]
      exact hlog
    · rw [hleft, hfailed]
      exact .refl _

/-! ## Readiness -/

section Readiness

variable {ready : Set α → α → Prop} {done : σ → Set α} {pending : List α}

/-- An attempt succeeds if its thing is ready for what has succeeded before; a failure changes
nothing of that. -/
structure ByReadiness (attempt : σ → α → Bool × σ) (done : σ → Set α)
    (ready : Set α → α → Prop) : Prop where
  succeeds_iff : ∀ s a, (attempt s a).1 = true ↔ ready (done s) a
  done_of_success : ∀ s a, (attempt s a).1 = true → done (attempt s a).2 = insert a (done s)
  done_of_failure : ∀ s a, (attempt s a).1 = false → done (attempt s a).2 = done s

/-- What can have succeeded after some attempts at things of the list, in whatever order. -/
inductive Attainable (ready : Set α → α → Prop) (pending : List α) (start : Set α) : Set α → Prop
  | start : Attainable ready pending start start
  | insert {reached : Set α} {a : α} (h : Attainable ready pending start reached)
      (hmem : a ∈ pending) (hready : ready reached a) :
      Attainable ready pending start (insert a reached)

/-- What has succeeded after some attempts is attainable, with all that has succeeded before, and
each success was that of a thing which was ready for something attainable. -/
lemma Attempts.attainable (hattempt : ByReadiness attempt done ready) {s t : σ}
    {log : List (α × Bool)} (h : Attempts attempt s log t) {start : Set α}
    (hstart : Attainable ready pending start (done s)) (hmem : ∀ entry ∈ log, entry.1 ∈ pending) :
    Attainable ready pending start (done t) ∧ done s ⊆ done t ∧
      ∀ a, (a, true) ∈ log → a ∈ done t ∧
        ∃ reached, Attainable ready pending start reached ∧ ready reached a := by
  induction h with
  | nil s => exact ⟨hstart, subset_rfl, fun _ h => by cases h⟩
  | @cons s t a log h ih =>
    obtain ⟨ha, hmem⟩ := List.forall_mem_cons.mp hmem
    cases htried : (attempt s a).1 with
    | true =>
      have hready := (hattempt.succeeds_iff s a).mp htried
      have hdone := hattempt.done_of_success s a htried
      obtain ⟨hreached, hsub, hall⟩ := ih (hdone ▸ hstart.insert ha hready) hmem
      rw [hdone] at hsub
      refine ⟨hreached, (Set.subset_insert a _).trans hsub, fun b hb => ?_⟩
      rcases List.mem_cons.mp hb with heq | hb
      · rw [(Prod.mk.inj heq).1]
        exact ⟨hsub (Set.mem_insert a _), done s, hstart, hready⟩
      · exact hall b hb
    | false =>
      have hdone := hattempt.done_of_failure s a htried
      obtain ⟨hreached, hsub, hall⟩ := ih (hdone ▸ hstart) hmem
      refine ⟨hreached, hdone ▸ hsub, fun b hb => ?_⟩
      rcases List.mem_cons.mp hb with heq | hb
      · exact absurd (Prod.mk.inj heq).2 (by decide)
      · exact hall b hb

/-- After failures alone nothing more has succeeded, and nothing that failed was ready. -/
lemma Attempts.done_of_failures (hattempt : ByReadiness attempt done ready) {s t : σ}
    {things : List α} (h : Attempts attempt s (things.map fun a => (a, false)) t) :
    done t = done s ∧ ∀ a ∈ things, ¬ ready (done s) a := by
  induction things generalizing s with
  | nil =>
    cases h
    exact ⟨rfl, fun _ h => by cases h⟩
  | cons a things ih =>
    generalize hlog : (a :: things).map (fun b => (b, false)) = log at h
    cases h with
    | nil => cases hlog
    | @cons _ _ b log h =>
      obtain ⟨heq, rfl⟩ := List.cons.inj hlog
      obtain ⟨rfl, hfails⟩ := Prod.mk.inj heq
      have hdone := hattempt.done_of_failure s a hfails.symm
      obtain ⟨hsame, hnot⟩ := ih h
      rw [hdone] at hsame hnot
      refine ⟨hsame, List.forall_mem_cons.mpr ⟨fun hready => ?_, hnot⟩⟩
      rw [(hattempt.succeeds_iff s a).mpr hready] at hfails
      cases hfails

/-- **What is left is what cannot succeed**: if more successes never make a thing less ready, no
order of attempts at the pending things reaches a state in which one of those left is ready.

**Proof sketch.** Nothing left is ready in the state of the last round. All that is attainable has
succeeded there: by induction, the next thing is ready there too, so it is not left. -/
theorem mem_settle_iff (hattempt : ByReadiness attempt done ready)
    (hmono : ∀ {earlier later : Set α} {a : α}, earlier ⊆ later → ready earlier a → ready later a)
    (s : σ) (a : α) :
    a ∈ (settle attempt s pending).1 ↔
      a ∈ pending ∧ ∀ reached, Attainable ready pending (done s) reached → ¬ ready reached a := by
  obtain ⟨log, hlog, hperm, hmem⟩ := @settle_spec α σ attempt s pending
  generalize (settle attempt s pending).1 = left at hlog hperm ⊢
  generalize (settle attempt s pending).2 = t at hlog
  have hsplit : ∃ u, Attempts attempt s log u ∧
      Attempts attempt u (left.map fun a => (a, false)) t := by
    clear hperm hmem
    induction log generalizing s with
    | nil => exact ⟨s, .nil s, hlog⟩
    | cons entry log ih =>
      cases hlog with
      | cons h =>
        obtain ⟨u, hfront, hback⟩ := ih _ h
        exact ⟨u, .cons hfront, hback⟩
  obtain ⟨u, hfront, hback⟩ := hsplit
  obtain ⟨-, hnot⟩ := hback.done_of_failures hattempt
  obtain ⟨-, hsub, hsucceeded⟩ := hfront.attainable hattempt .start hmem
  have hcases : ∀ {b}, b ∈ pending → b ∉ left → (b, true) ∈ log := by
    intro b hb hleft
    rcases List.mem_append.mp (hperm.mem_iff.mpr hb) with h | h
    · exact mem_succeeded.mp h
    · exact absurd h hleft
  have hattainable : ∀ reached, Attainable ready pending (done s) reached → reached ⊆ done u := by
    intro reached h
    induction h with
    | start => exact hsub
    | @insert reached b h hb hready ih =>
      have hleft : b ∉ left := fun hleft => hnot b hleft (hmono ih hready)
      exact Set.insert_subset (hsucceeded b (hcases hb hleft)).1 ih
  constructor
  · intro ha
    refine ⟨hperm.mem_iff.mp (List.mem_append_right _ ha), fun reached h hready => ?_⟩
    exact hnot a ha (hmono (hattainable reached h) hready)
  · rintro ⟨ha, hnever⟩
    by_contra hleft
    obtain ⟨-, reached, h, hready⟩ := hsucceeded a (hcases ha hleft)
    exact hnever reached h hready

end Readiness

end Retry
