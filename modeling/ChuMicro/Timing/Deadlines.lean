import ChuMicro.Timing

/-!
# Deadlines on the tick ring

What the timers of the libraries rely on: a deadline that was set with `ticks_add` less than half a
period ahead can be compared with `ticks_diff`, and the earliest of several deadlines can be found
by comparing them with each other, as long as all of them are ahead of one moment.

## Main definitions

* `Ahead` — a deadline that is later than a tick.
* `earlier`, `earliest` — one comparison of a scan for the earliest deadline, and several.

## Main results

* `ticksDiff_of_ticksAdd` — a deadline is as far from a tick as it was set.
* `ticksDiff_later` — how far a deadline is once some time has passed.
* `ahead_earlier`, `before_earlier` — what the earliest of two deadlines is ahead of, and what is
  ahead of both.
* `earliest_spec` — a scan finds the earliest of several deadlines.
* `Nearest.earlier` — a scan of several groups finds the earliest of all.
-/

namespace ChuMicro

/-- The deadline is later than the tick. -/
def Ahead (deadline now : ℤ) : Prop := 0 < ticksDiff deadline now

instance (deadline now : ℤ) : Decidable (Ahead deadline now) := inferInstanceAs (Decidable (_ < _))

/-- One comparison of a scan for the earliest deadline: the candidate, if it is earlier. -/
def earlier (nearest candidate : Option ℤ) : Option ℤ :=
  match nearest, candidate with
  | nearest, none => nearest
  | none, some c => some c
  | some n, some c => if ticksDiff c n < 0 then some c else some n

/-- A comparison with each of several candidates. -/
def earliest (nearest : Option ℤ) (candidates : List ℤ) : Option ℤ :=
  candidates.foldl (fun nearest candidate => earlier nearest (some candidate)) nearest

section Ring

variable {now t c d e delta : ℤ}

/-- A signed difference is less than half a period. -/
lemma ticksDiff_bounds (stop start : ℤ) :
    -(TICKS_HALFPERIOD : ℤ) ≤ ticksDiff stop start ∧ ticksDiff stop start < TICKS_HALFPERIOD := by
  unfold ticksDiff TICKS_PERIOD TICKS_HALFPERIOD
  omega

/-- A difference that is small enough is the signed difference. -/
lemma ticksDiff_eq_of_emod (h : (d - now) % TICKS_PERIOD = delta % TICKS_PERIOD)
    (hlow : -(TICKS_HALFPERIOD : ℤ) ≤ delta) (hhigh : delta < TICKS_HALFPERIOD) :
    ticksDiff d now = delta := by
  unfold ticksDiff
  rw [h]
  unfold TICKS_PERIOD TICKS_HALFPERIOD at *
  omega

/-- Going from one tick to another and on to a third. -/
lemma ticksDiff_add (hlow : -(TICKS_HALFPERIOD : ℤ) ≤ ticksDiff d c + ticksDiff c now)
    (hhigh : ticksDiff d c + ticksDiff c now < TICKS_HALFPERIOD) :
    ticksDiff d now = ticksDiff d c + ticksDiff c now := by
  refine ticksDiff_eq_of_emod ?_ hlow hhigh
  unfold ticksDiff TICKS_PERIOD TICKS_HALFPERIOD
  omega

/-- **A deadline is as far from a tick as it was set**, if that is less than half a period. -/
theorem ticksDiff_of_ticksAdd (h : ticksAdd c delta = .ok d)
    (hlow : -(TICKS_HALFPERIOD : ℤ) ≤ ticksDiff c now + delta)
    (hhigh : ticksDiff c now + delta < TICKS_HALFPERIOD) :
    ticksDiff d now = ticksDiff c now + delta := by
  have hd : d = (c + delta) % TICKS_PERIOD := by
    by_cases hok : TicksOk delta
    · rw [ticksAdd_of_ok hok] at h
      exact (Except.ok.inj h).symm
    · rw [ticksAdd_of_not hok] at h
      cases h
  refine ticksDiff_eq_of_emod ?_ hlow hhigh
  rw [hd]
  unfold ticksDiff TICKS_PERIOD TICKS_HALFPERIOD
  omega

/-- A deadline that is set ahead of a tick is ahead of it. -/
lemma ahead_of_ticksAdd (h : ticksAdd now delta = .ok d) (hpos : 0 < delta) : Ahead d now := by
  have hok : TicksOk delta := by
    by_contra hbad
    rw [ticksAdd_of_not hbad] at h
    cases h
  have hzero : ticksDiff now now = 0 := by
    unfold ticksDiff TICKS_PERIOD TICKS_HALFPERIOD
    omega
  have hbelow := hok.2
  have hd := ticksDiff_of_ticksAdd h (by rw [hzero]; unfold TICKS_HALFPERIOD; omega)
    (by rw [hzero]; omega)
  unfold Ahead
  omega

/-- **How far a deadline is once some time has passed**, up to the deadline. -/
theorem ticksDiff_later (ht : 0 ≤ ticksDiff t now) (hd : ticksDiff t now ≤ ticksDiff d now) :
    ticksDiff d t = ticksDiff d now - ticksDiff t now := by
  have hbound := ticksDiff_bounds d now
  refine ticksDiff_eq_of_emod ?_ (by unfold TICKS_HALFPERIOD; omega) (by omega)
  unfold ticksDiff TICKS_PERIOD TICKS_HALFPERIOD
  omega

/-- The difference the other way, but where it is half a period. -/
lemma ticksDiff_comm (h : -(TICKS_HALFPERIOD : ℤ) < ticksDiff d now) :
    ticksDiff now d = -ticksDiff d now := by
  unfold ticksDiff TICKS_PERIOD TICKS_HALFPERIOD at *
  omega

/-- Two deadlines that are ahead of one tick are compared as they lie. -/
lemma ticksDiff_neg_iff (hd : Ahead d now) (he : Ahead e now) :
    ticksDiff e d < 0 ↔ ticksDiff e now < ticksDiff d now := by
  unfold Ahead ticksDiff TICKS_PERIOD TICKS_HALFPERIOD at *
  omega

/-- Of two deadlines that are ahead of one tick, the later one is ahead of the earlier one. -/
lemma Ahead.of_lt (hd : Ahead d now) (ht : Ahead t now) (hlt : ticksDiff t now < ticksDiff d now) :
    Ahead d t := by
  unfold Ahead ticksDiff TICKS_PERIOD TICKS_HALFPERIOD at *
  omega

/-- What is behind a tick and comes before a deadline comes before every earlier deadline. -/
lemma ticksDiff_neg_of_le (hd : Ahead d now) (he : Ahead e now) (hc : ¬ Ahead c now)
    (hle : ticksDiff e now ≤ ticksDiff d now) (hneg : ticksDiff c d < 0) : ticksDiff c e < 0 := by
  unfold Ahead ticksDiff TICKS_PERIOD TICKS_HALFPERIOD at *
  omega

end Ring

/-! ## The earliest of several deadlines -/

section Earliest

variable {now : ℤ} {a b : Option ℤ}

@[simp] lemma earlier_eq_none : earlier a b = none ↔ a = none ∧ b = none := by
  unfold earlier
  split
  · simp
  · simp
  · split <;> simp

/-- The earliest is one of the two. -/
lemma earlier_eq_some {d : ℤ} (h : earlier a b = some d) : a = some d ∨ b = some d := by
  unfold earlier at h
  split at h
  · exact .inl h
  · exact .inr h
  · split_ifs at h
    · exact .inr h
    · exact .inl h

/-- The earliest of two deadlines is ahead of a tick that both are ahead of. -/
theorem ahead_earlier (ha : ∀ d, a = some d → Ahead d now) (hb : ∀ d, b = some d → Ahead d now) :
    ∀ d, earlier a b = some d → Ahead d now := by
  intro d hd
  obtain h | h := earlier_eq_some hd
  · exact ha d h
  · exact hb d h

/-- Among deadlines that are ahead of a tick, the earliest is the nearest to it. -/
theorem before_earlier (ha : ∀ d, a = some d → Ahead d now) (hb : ∀ d, b = some d → Ahead d now)
    {n : ℤ} (hn : earlier a b = some n) :
    (∀ d, a = some d → ticksDiff n now ≤ ticksDiff d now) ∧
      ∀ d, b = some d → ticksDiff n now ≤ ticksDiff d now := by
  unfold earlier at hn
  split at hn
  · refine ⟨fun d hd => ?_, fun d hd => nomatch hd⟩
    obtain rfl : n = d := Option.some.inj (hn.symm.trans hd)
    exact le_refl _
  · cases hn
    refine ⟨(fun d hd => nomatch hd), fun d hd => ?_⟩
    cases hd
    exact le_refl _
  · next x y =>
    have hcompare := ticksDiff_neg_iff (ha x rfl) (hb y rfl)
    split_ifs at hn with hlt
    · cases hn
      refine ⟨fun d hd => ?_, fun d hd => ?_⟩
      · cases hd
        exact (hcompare.mp hlt).le
      · cases hd
        exact le_refl _
    · cases hn
      refine ⟨fun d hd => ?_, fun d hd => ?_⟩
      · cases hd
        exact le_refl _
      · cases hd
        exact not_lt.mp fun hlt' => hlt (hcompare.mpr hlt')

/-- **The scan finds the earliest deadline**: it is ahead of a tick that all are ahead of, none is
nearer to it, and it finds none only where there is none.

**Proof sketch.** Induction on the candidates; what was found before is one more deadline. -/
theorem earliest_spec {nearest : Option ℤ} {candidates : List ℤ}
    (hnearest : ∀ d, nearest = some d → Ahead d now) (hall : ∀ d ∈ candidates, Ahead d now) :
    (∀ n, earliest nearest candidates = some n → Ahead n now ∧
      (∀ d, nearest = some d → ticksDiff n now ≤ ticksDiff d now) ∧
      ∀ d ∈ candidates, ticksDiff n now ≤ ticksDiff d now) ∧
    (earliest nearest candidates = none → nearest = none ∧ candidates = []) := by
  induction candidates generalizing nearest with
  | nil =>
    refine ⟨fun n hn => ⟨hnearest n hn, fun d hd => ?_, nofun⟩, fun h => ⟨h, rfl⟩⟩
    obtain rfl : n = d := Option.some.inj (hn.symm.trans hd)
    exact le_refl _
  | cons c rest ih =>
    have hc : ∀ d, some c = some d → Ahead d now := fun d hd =>
      Option.some.inj hd ▸ hall c List.mem_cons_self
    obtain ⟨hsome, hnone⟩ := ih (ahead_earlier hnearest hc) fun d hd =>
      hall d (List.mem_cons_of_mem _ hd)
    refine ⟨fun n hn => ?_, fun h => ?_⟩
    · obtain ⟨hahead, hfirst, hrest⟩ := hsome n hn
      obtain ⟨m, hm⟩ : ∃ m, earlier nearest (some c) = some m :=
        Option.ne_none_iff_exists'.mp fun h => by simp at h
      obtain ⟨hle, hle'⟩ := before_earlier hnearest hc hm
      have hnm := hfirst m hm
      refine ⟨hahead, fun d hd => hnm.trans (hle d hd), fun d hd => ?_⟩
      rcases List.mem_cons.mp hd with rfl | hd
      · exact hnm.trans (hle' d rfl)
      · exact hrest d hd
    · exact absurd (hnone h).1 (by simp)

/-- **The nearest of several deadlines** to a tick that all of them are ahead of, if there is any.
-/
structure Nearest (now : ℤ) (deadlines : List ℤ) (nearest : Option ℤ) : Prop where
  ahead : ∀ n, nearest = some n → Ahead n now
  le : ∀ n, nearest = some n → ∀ d ∈ deadlines, ticksDiff n now ≤ ticksDiff d now
  eq_nil : nearest = none → deadlines = []

lemma nearest_nil (now : ℤ) : Nearest now [] none := ⟨nofun, nofun, fun _ => rfl⟩

lemma nearest_singleton {d : ℤ} (h : Ahead d now) : Nearest now [d] (some d) where
  ahead
    | _, rfl => h
  le
    | _, rfl, _, hmem => (congrArg (ticksDiff · now) (List.mem_singleton.mp hmem)).ge
  eq_nil := nofun

/-- One comparison of the nearest deadlines of two groups. -/
theorem Nearest.earlier {l l' : List ℤ} (ha : Nearest now l a) (hb : Nearest now l' b) :
    Nearest now (l ++ l') (earlier a b) where
  ahead := ahead_earlier ha.ahead hb.ahead
  eq_nil hnone := by
    obtain ⟨hleft, hright⟩ := earlier_eq_none.mp hnone
    rw [ha.eq_nil hleft, hb.eq_nil hright, List.append_nil]
  le n hn d hmem := by
    obtain ⟨hleft, hright⟩ := before_earlier ha.ahead hb.ahead hn
    obtain hmem | hmem := List.mem_append.mp hmem
    · obtain ⟨m, hm⟩ := Option.ne_none_iff_exists'.mp fun hnone =>
        List.ne_nil_of_mem hmem (ha.eq_nil hnone)
      exact (hleft m hm).trans (ha.le m hm d hmem)
    · obtain ⟨m, hm⟩ := Option.ne_none_iff_exists'.mp fun hnone =>
        List.ne_nil_of_mem hmem (hb.eq_nil hnone)
      exact (hright m hm).trans (hb.le m hm d hmem)

/-- A tick that is not before another one and comes before the deadline, if there is one. -/
def ComesBefore (now : ℤ) (deadline : Option ℤ) (t : ℤ) : Prop :=
  ∀ d, deadline = some d → 0 ≤ ticksDiff t now ∧ ticksDiff t now < ticksDiff d now

/-- What comes before the nearest deadline comes before all. -/
lemma Nearest.comesBefore {l : List ℤ} {t : ℤ} (h : Nearest now l a) (ht : ComesBefore now a t) :
    ∀ d ∈ l, 0 ≤ ticksDiff t now ∧ ticksDiff t now < ticksDiff d now := by
  intro d hmem
  obtain ⟨n, hn⟩ := Option.ne_none_iff_exists'.mp fun hnone => List.ne_nil_of_mem hmem (h.eq_nil hnone)
  obtain ⟨hle, hlt⟩ := ht n hn
  exact ⟨hle, hlt.trans_le (h.le n hn d hmem)⟩

end Earliest

end ChuMicro
