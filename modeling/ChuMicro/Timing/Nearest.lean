import ChuMicro.Timing.Deadlines
import Mathlib.Algebra.Order.Group.Int
import Mathlib.Data.Finset.Image
import Mathlib.Data.Int.ModEq

/-!
# Which moments the tick ring can order

A tick says a moment only up to whole turns of the ring, and `ticks_diff` compares two ticks. Among
moments that are pairwise less than half the ring apart the comparison is the order of time, so that
any scan finds the earliest of them, in whatever order it meets them. That all of them lie within
half the ring of one moment, some before it and some after it, is not enough: the comparison can
then go round in a circle.

## Main definitions

* `Before` — a tick that `ticks_diff` puts before another one.
* `Together` — moments that are pairwise less than half the ring apart.
* `computeTimeout` — `Runner._compute_timeout`.

## Main results

* `ordered_of_together` — the comparison of ticks is the order of time.
* `earliest_ticksMs` — a scan finds the earliest moment.
* `tick_arithmetic` — all of it, with the exact window.
-/

namespace ChuMicro

/-! ## Moments and ticks -/

/-- `ticks_diff(a, b) < 0`. -/
def Before (a b : ℤ) : Prop := ticksDiff a b < 0

instance (a b : ℤ) : Decidable (Before a b) := inferInstanceAs (Decidable (_ < _))

/-- Moments that are pairwise less than half the ring apart. -/
def Together (moments : Finset ℤ) : Prop :=
  ∀ a ∈ moments, ∀ b ∈ moments, a - b < TICKS_HALFPERIOD

instance (moments : Finset ℤ) : Decidable (Together moments) :=
  inferInstanceAs (Decidable (∀ a ∈ moments, ∀ b ∈ moments, _))

/-- Moments that lie within half the ring of a common one, before it or after it. -/
def Around (center : ℤ) (moments : Finset ℤ) : Prop := ∀ a ∈ moments, |a - center| < TICKS_HALFPERIOD

instance (center : ℤ) (moments : Finset ℤ) : Decidable (Around center moments) :=
  inferInstanceAs (Decidable (∀ a ∈ moments, _))

/-- The comparison of ticks is the order of time. -/
def Ordered (moments : Finset ℤ) : Prop :=
  ∀ a ∈ moments, ∀ b ∈ moments, Before (ticksMs a) (ticksMs b) ↔ a < b

section Ring

variable {a b d t : ℤ} {moments : Finset ℤ}

/-- The difference of two ticks is that of the moments, up to whole turns of the ring. -/
lemma ticksDiff_modEq (a b : ℤ) : ticksDiff a b ≡ a - b [ZMOD TICKS_PERIOD] := by
  unfold ticksDiff Int.ModEq TICKS_PERIOD TICKS_HALFPERIOD
  omega

/-- What `ticks_add` returns is as far away as it was asked. -/
lemma exists_ticksAdd (t : ℤ) (hd : |d| < TICKS_HALFPERIOD) :
    ∃ s, ticksAdd t d = .ok s ∧ ticksDiff s t = d := by
  have hok : TicksOk d := abs_lt.mp hd
  refine ⟨_, ticksAdd_of_ok hok, ticksDiff_eq_of_emod ?_ hok.1.le hok.2⟩
  unfold TICKS_PERIOD
  omega

/-- Of two moments less than half the ring apart the earlier one comes before. -/
lemma before_ticksMs_iff (hab : a - b < TICKS_HALFPERIOD) (hba : b - a < TICKS_HALFPERIOD) :
    Before (ticksMs a) (ticksMs b) ↔ a < b := by
  unfold Before
  rw [ticksDiff_ticksMs (by omega) hab]
  exact sub_neg

/-- Of two moments half the ring or more apart, but not a whole turn, it is not so. -/
lemma not_before_ticksMs_iff (hfar : TICKS_HALFPERIOD ≤ a - b) (hturn : a - b < TICKS_PERIOD) :
    ¬ (Before (ticksMs a) (ticksMs b) ↔ a < b) := by
  unfold Before ticksDiff ticksMs TICKS_PERIOD TICKS_HALFPERIOD at *
  omega

/-- **Among moments less than half the ring apart the comparison of ticks is the order of time.** -/
theorem ordered_of_together (h : Together moments) : Ordered moments :=
  fun a ha b hb => before_ticksMs_iff (h a ha b hb) (h b hb a ha)

/-- Around one moment it is so only among those. -/
lemma ordered_iff_together {center : ℤ} (h : Around center moments) :
    Ordered moments ↔ Together moments := by
  refine ⟨fun hordered a ha b hb => ?_, ordered_of_together⟩
  by_contra hfar
  have hca := abs_lt.mp (h a ha)
  have hcb := abs_lt.mp (h b hb)
  refine not_before_ticksMs_iff (not_lt.mp hfar) ?_ (hordered a ha b hb)
  unfold TICKS_HALFPERIOD TICKS_PERIOD at *
  omega

/-- Different moments have different ticks. -/
lemma ticksMs_inj (h : Together moments) (ha : a ∈ moments) (hb : b ∈ moments)
    (heq : ticksMs a = ticksMs b) : a = b := by
  have hself : ¬ Before (ticksMs a) (ticksMs b) := by
    rw [heq, before_ticksMs_iff (by simp [TICKS_HALFPERIOD]) (by simp [TICKS_HALFPERIOD])]
    exact lt_irrefl b
  have hself' : ¬ Before (ticksMs b) (ticksMs a) := by
    rw [heq, before_ticksMs_iff (by simp [TICKS_HALFPERIOD]) (by simp [TICKS_HALFPERIOD])]
    exact lt_irrefl b
  rw [ordered_of_together h a ha b hb] at hself
  rw [ordered_of_together h b hb a ha] at hself'
  omega

/-- **On the ticks of such moments the comparison is a strict total order.** -/
lemma isStrictTotalOrder_before (h : Together moments) :
    IsStrictTotalOrder {t // t ∈ moments.image ticksMs} (fun s t => Before s.1 t.1) where
  trichotomous := by
    rintro ⟨s, hs⟩ ⟨t, ht⟩ hst hts
    obtain ⟨a, ha, rfl⟩ := Finset.mem_image.mp hs
    obtain ⟨b, hb, rfl⟩ := Finset.mem_image.mp ht
    rw [ordered_of_together h a ha b hb] at hst
    rw [ordered_of_together h b hb a ha] at hts
    have hab : a = b := by omega
    exact Subtype.ext (congrArg ticksMs hab)
  irrefl := by
    rintro ⟨s, hs⟩
    obtain ⟨a, ha, rfl⟩ := Finset.mem_image.mp hs
    rw [ordered_of_together h a ha a ha]
    exact lt_irrefl a
  trans := by
    rintro ⟨s, hs⟩ ⟨t, ht⟩ ⟨u, hu⟩ hst htu
    obtain ⟨a, ha, rfl⟩ := Finset.mem_image.mp hs
    obtain ⟨b, hb, rfl⟩ := Finset.mem_image.mp ht
    obtain ⟨c, hc, rfl⟩ := Finset.mem_image.mp hu
    rw [ordered_of_together h a ha b hb] at hst
    rw [ordered_of_together h b hb c hc] at htu
    exact (ordered_of_together h a ha c hc).mpr (hst.trans htu)

end Ring

/-! ## Scans for the earliest -/

section Scans

variable {a b : ℤ} {moments : Finset ℤ}

/-- One comparison of a scan, by the moments. -/
lemma earlier_ticksMs (h : Together moments) (ha : a ∈ moments) (hb : b ∈ moments) :
    earlier (some (ticksMs a)) (some (ticksMs b)) = some (ticksMs (min a b)) := by
  have hcompare : ticksDiff (ticksMs b) (ticksMs a) < 0 ↔ b < a := ordered_of_together h b hb a ha
  simp only [earlier]
  by_cases hlt : b < a
  · rw [if_pos (hcompare.mpr hlt), min_eq_right hlt.le]
  · rw [if_neg fun hbefore => hlt (hcompare.mp hbefore), min_eq_left (not_lt.mp hlt)]

lemma earliest_some_ticksMs (h : Together moments) (ha : a ∈ moments) {l : List ℤ}
    (hl : ∀ m ∈ l, m ∈ moments) :
    earliest (some (ticksMs a)) (l.map ticksMs) = some (ticksMs (l.foldl min a)) := by
  induction l generalizing a with
  | nil => rfl
  | cons b l ih =>
    have hb : b ∈ moments := hl b List.mem_cons_self
    have hmin : min a b ∈ moments := by
      rcases min_choice a b with hab | hab <;> rw [hab] <;> assumption
    calc earliest (some (ticksMs a)) ((b :: l).map ticksMs)
      _ = earliest (earlier (some (ticksMs a)) (some (ticksMs b))) (l.map ticksMs) := rfl
      _ = earliest (some (ticksMs (min a b))) (l.map ticksMs) := by rw [earlier_ticksMs h ha hb]
      _ = some (ticksMs (l.foldl min (min a b))) := ih hmin fun m hm => hl m (List.mem_cons_of_mem _ hm)

/-- **A scan of ticks finds that of the earliest moment.** -/
theorem earliest_ticksMs (h : Together moments) {l : List ℤ} (hl : ∀ m ∈ l, m ∈ moments) :
    earliest none (l.map ticksMs) = l.min?.map ticksMs := by
  cases l with
  | nil => rfl
  | cons a l =>
    rw [List.min?_cons']
    exact earliest_some_ticksMs h (hl a List.mem_cons_self) fun m hm => hl m (List.mem_cons_of_mem _ hm)

/-- The least of several numbers does not depend on their order. -/
lemma min?_perm {l l' : List ℤ} (h : l.Perm l') : l.min? = l'.min? := by
  cases hmin : l'.min? with
  | none =>
    rw [List.min?_eq_none_iff] at hmin
    subst hmin
    rw [h.eq_nil]
    rfl
  | some m =>
    rw [List.min?_eq_some_iff] at hmin ⊢
    exact ⟨h.mem_iff.mpr hmin.1, fun n hn => hmin.2 n (h.mem_iff.mp hn)⟩

/-- Ticks of moments, with the moments. -/
lemma exists_moments {ticks : List ℤ} (h : ∀ t ∈ ticks, t ∈ moments.image ticksMs) :
    ∃ l : List ℤ, ticks = l.map ticksMs ∧ ∀ m ∈ l, m ∈ moments := by
  induction ticks with
  | nil => exact ⟨[], rfl, by simp⟩
  | cons t ticks ih =>
    obtain ⟨l, rfl, hl⟩ := ih fun u hu => h u (List.mem_cons_of_mem _ hu)
    obtain ⟨m, hm, rfl⟩ := Finset.mem_image.mp (h t List.mem_cons_self)
    refine ⟨m :: l, rfl, fun n hn => ?_⟩
    rcases List.mem_cons.mp hn with rfl | hn
    · exact hm
    · exact hl n hn

/-- **What a scan finds does not depend on the order in which it meets the ticks.** -/
lemma earliest_perm (h : Together moments) {ticks ticks' : List ℤ}
    (hticks : ∀ t ∈ ticks, t ∈ moments.image ticksMs) (hperm : ticks.Perm ticks') :
    earliest none ticks = earliest none ticks' := by
  obtain ⟨l, rfl, hl⟩ := exists_moments hticks
  obtain ⟨l', rfl, hl'⟩ := exists_moments fun t ht => hticks t (hperm.mem_iff.mpr ht)
  have hmem : ∀ m, m ∈ l ↔ m ∈ l' := by
    have hback : ∀ {u v : List ℤ}, (∀ m ∈ u, m ∈ moments) → (∀ m ∈ v, m ∈ moments) →
        (u.map ticksMs).Perm (v.map ticksMs) → ∀ m ∈ u, m ∈ v := by
      intro u v hu hv huv m hm
      obtain ⟨n, hn, heq⟩ := List.mem_map.mp (huv.mem_iff.mp (List.mem_map_of_mem hm))
      exact ticksMs_inj h (hv n hn) (hu m hm) heq ▸ hn
    exact fun m => ⟨hback hl hl' hperm m, hback hl' hl hperm.symm m⟩
  rw [earliest_ticksMs h hl, earliest_ticksMs h hl']
  congr 1
  cases hmin : l'.min? with
  | none =>
    rw [List.min?_eq_none_iff] at hmin ⊢
    exact List.eq_nil_iff_forall_not_mem.mpr fun m hm => by simp [hmin, hmem] at hm
  | some m =>
    rw [List.min?_eq_some_iff] at hmin ⊢
    exact ⟨(hmem m).mpr hmin.1, fun n hn => hmin.2 n ((hmem n).mp hn)⟩

end Scans

/-! ## The runner's timeout -/

/-- What `_compute_timeout` reads of an entry: the tick it is due at, and its `next_deadline`. -/
structure Entry where
  nextDueMs : Option ℤ
  nextDeadline : Option (ℤ → Option ℤ)

/-- `if nearest is None or delta < nearest: nearest = delta`. -/
def nearer (nearest : Option ℤ) (delta : ℤ) : Option ℤ :=
  match nearest with
  | none => some delta
  | some n => if delta < n then some delta else some n

/-- One round of the loop of `_compute_timeout`. -/
def Entry.shorten (nowMs : ℤ) (nearest : Option ℤ) (entry : Entry) : Option ℤ :=
  let nearest :=
    match entry.nextDueMs with
    | none => nearest
    | some due => nearer nearest (ticksDiff due nowMs)
  match entry.nextDeadline with
  | none => nearest
  | some deadlineFn =>
    match deadlineFn nowMs with
    | none => nearest
    | some deadline => nearer nearest (ticksDiff deadline nowMs)

/-- `Runner._compute_timeout`. -/
def computeTimeout (entries : List Entry) (nowMs : ℤ) : Option ℤ :=
  entries.foldl (Entry.shorten nowMs) none

/-- The ticks that an entry waits for. -/
def Entry.ticks (nowMs : ℤ) (entry : Entry) : List ℤ :=
  entry.nextDueMs.toList ++ (entry.nextDeadline.bind fun deadlineFn => deadlineFn nowMs).toList

section Timeout

variable {nowMs : ℤ}

lemma Entry.shorten_eq (nearest : Option ℤ) (entry : Entry) :
    entry.shorten nowMs nearest =
      ((entry.ticks nowMs).map (ticksDiff · nowMs)).foldl nearer nearest := by
  obtain ⟨due, deadline⟩ := entry
  cases due with
  | none =>
    rcases deadline with _ | deadline
    · rfl
    · cases h : deadline nowMs <;> simp [shorten, ticks, h]
  | some due =>
    rcases deadline with _ | deadline
    · rfl
    · cases h : deadline nowMs <;> simp [shorten, ticks, h]

lemma foldl_nearer (delta : ℤ) (l : List ℤ) :
    l.foldl nearer (some delta) = some (l.foldl min delta) := by
  induction l generalizing delta with
  | nil => rfl
  | cons d l ih =>
    have hone : nearer (some delta) d = some (min delta d) := by
      simp only [nearer]
      split_ifs with hlt
      · rw [min_eq_right hlt.le]
      · rw [min_eq_left (not_lt.mp hlt)]
    rw [List.foldl_cons, List.foldl_cons, hone, ih]

/-- **The timeout is the least distance to a tick that some entry waits for.** -/
lemma computeTimeout_eq (entries : List Entry) :
    computeTimeout entries nowMs =
      ((entries.flatMap (Entry.ticks nowMs)).map (ticksDiff · nowMs)).min? := by
  have hfold : ∀ nearest, entries.foldl (Entry.shorten nowMs) nearest =
      ((entries.flatMap (Entry.ticks nowMs)).map (ticksDiff · nowMs)).foldl nearer nearest := by
    induction entries with
    | nil => exact fun _ => rfl
    | cons entry entries ih =>
      intro nearest
      rw [List.foldl_cons, ih, Entry.shorten_eq, List.flatMap_cons, List.map_append,
        List.foldl_append]
  unfold computeTimeout
  rw [hfold none]
  cases (entries.flatMap (Entry.ticks nowMs)).map (ticksDiff · nowMs) with
  | nil => rfl
  | cons delta l => exact foldl_nearer delta l

/-- **The timeout does not depend on the order of the entries.** -/
lemma computeTimeout_perm {entries entries' : List Entry} (h : entries.Perm entries') :
    computeTimeout entries nowMs = computeTimeout entries' nowMs := by
  rw [computeTimeout_eq, computeTimeout_eq]
  exact min?_perm ((h.flatMap_right _).map _)

end Timeout

/-! ## Tick arithmetic -/

/-- **Tick arithmetic.** What `ticks_add` returns is as far away as it was asked; `ticks_diff` is
the difference up to whole turns of the ring, in the half-open half ring around zero; on the ticks
of moments less than half the ring apart it gives a strict total order, that of time, and a scan
finds the same tick in whatever order it meets them. Around one moment this is all: the comparison
is the order of time only where any two moments are less than half the ring apart. The timeout of
the runner is the same in whatever order it goes through its entries. -/
theorem tick_arithmetic :
    (∀ t d : ℤ, 0 ≤ t → t < TICKS_PERIOD → |d| < TICKS_HALFPERIOD →
      ∃ s, ticksAdd t d = .ok s ∧ ticksDiff s t = d) ∧
    (∀ a b : ℤ, ticksDiff a b ≡ a - b [ZMOD TICKS_PERIOD] ∧
      -(TICKS_HALFPERIOD : ℤ) ≤ ticksDiff a b ∧ ticksDiff a b < TICKS_HALFPERIOD) ∧
    (∀ moments : Finset ℤ, Together moments →
      IsStrictTotalOrder {t // t ∈ moments.image ticksMs} (fun s t => Before s.1 t.1) ∧
      Ordered moments ∧
      ∀ ticks ticks' : List ℤ, (∀ t ∈ ticks, t ∈ moments.image ticksMs) → ticks.Perm ticks' →
        earliest none ticks = earliest none ticks') ∧
    (∀ (center : ℤ) (moments : Finset ℤ), Around center moments →
      (Ordered moments ↔ Together moments)) ∧
    ∀ (entries entries' : List Entry) (nowMs : ℤ), entries.Perm entries' →
      computeTimeout entries nowMs = computeTimeout entries' nowMs := by
  refine ⟨fun t d _ _ => exists_ticksAdd t, fun a b => ⟨ticksDiff_modEq a b, ticksDiff_bounds a b⟩,
    fun moments h => ⟨isStrictTotalOrder_before h, ordered_of_together h, ?_⟩,
    fun center moments => ordered_iff_together, fun entries entries' nowMs => computeTimeout_perm⟩
  exact fun ticks ticks' => earliest_perm h

/-- Half the ring on either side of a moment is too much: of the first and the last tick and the one
in the middle each comes before the next, in a circle, and what a scan finds depends on the order in
which it meets them. -/
theorem before_goes_round :
    Around 0 {-(2 ^ 28 - 1), 0, 2 ^ 28 - 1} ∧
      Before (ticksMs (-(2 ^ 28 - 1))) (ticksMs 0) ∧ Before (ticksMs 0) (ticksMs (2 ^ 28 - 1)) ∧
      Before (ticksMs (2 ^ 28 - 1)) (ticksMs (-(2 ^ 28 - 1))) ∧
      ¬ Ordered {-(2 ^ 28 - 1), 0, 2 ^ 28 - 1} ∧
      ¬ IsStrictTotalOrder
        {t // t ∈ (({-(2 ^ 28 - 1), 0, 2 ^ 28 - 1} : Finset ℤ)).image ticksMs}
        (fun s t => Before s.1 t.1) ∧
      earliest none [ticksMs (2 ^ 28 - 1), ticksMs (-(2 ^ 28 - 1)), ticksMs 0] ≠
        earliest none [ticksMs (-(2 ^ 28 - 1)), ticksMs 0, ticksMs (2 ^ 28 - 1)] := by
  have hfirst : Before (ticksMs (-(2 ^ 28 - 1))) (ticksMs 0) := by decide
  have hmiddle : Before (ticksMs 0) (ticksMs (2 ^ 28 - 1)) := by decide
  have hlast : Before (ticksMs (2 ^ 28 - 1)) (ticksMs (-(2 ^ 28 - 1))) := by decide
  refine ⟨by decide, hfirst, hmiddle, hlast, fun h => ?_, fun h => ?_, by decide⟩
  · exact absurd ((h _ (by simp) _ (by simp)).mp hlast) (by decide)
  · have hround := h.trans ⟨ticksMs (-(2 ^ 28 - 1)), by decide⟩ ⟨ticksMs 0, by decide⟩
      ⟨ticksMs (2 ^ 28 - 1), by decide⟩ hfirst hmiddle
    exact h.irrefl _ (h.trans _ _ _ hround hlast)

end ChuMicro
