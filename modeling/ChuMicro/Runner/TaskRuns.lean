import ChuMicro.Runner.Tasks
import Mathlib.Data.List.Nodup

/-!
# The life of a task

What the handlers of a runner see over whole runs. The events of a run are looked at in two
projections: the tasks that were fired and the tasks that were removed by a call, each in order. A
task is registered until it is removed or has been fired as often as its run count says, and a tick
fires what it has collected, each task once.

A tick does not look again at a task it has collected. A task that a handler removes while it waits
for its turn in the same tick is fired all the same; and a handler whose exception leaves the tick
takes the turns of the tasks that wait, and is not counted against its own run count. A run is tame
where neither happens.

## Main definitions

* `Tasks.firedIn`, `Tasks.removedIn` — the two projections of a log.
* `Tasks.Tame` — no call removes a task that waits for its turn, and no exception takes a turn or a
  count.
* `Tasks.dueNow` — the tasks a tick is to fire.
* `Tasks.Inv` — the invariant of the registry, between and within ticks.

## Main results

* `Tasks.keeps_perform` — what a call on the runner leaves as it is.
* `Tasks.wp_collect`, `Tasks.wp_fire` — the two halves of a tick.
* `Tasks.task_lifecycle` — counted runs, removal for good and one firing a tick, in every tame run.
-/

namespace ChuMicro.Tasks

/-! ## Events -/

/-- The task an event fires. -/
def Event.fired? : Event → Option ℕ
  | .fired task _ _ _ => some task
  | _ => none

/-- The task whose removal by a call has returned. -/
def Event.removed? : Event → Option ℕ
  | .removed task _ => some task
  | _ => none

/-- Whether an outcome leaves the tick, `ReentrantTickError` being passed on or not. -/
def Escapes (reentrant : Bool) : Except Exn Unit → Prop
  | .error .reentrantTick => reentrant
  | .error (.baseException _) => True
  | _ => False

/-- A removal of a task that does not wait for its turn; an exception that leaves the tick only
where no task waits and no run is counted. -/
def Event.Orderly : Event → Prop
  | .added _ => True
  | .removed task waiting => task ∉ waiting
  | .fired _ limited waiting outcome => Escapes true outcome → limited = false ∧ waiting = []
  | .reported _ limited waiting outcome => Escapes false outcome → limited = false ∧ waiting = []

instance (reentrant : Bool) (outcome : Except Exn Unit) : Decidable (Escapes reentrant outcome) :=
  match outcome with
  | .error .reentrantTick => inferInstanceAs (Decidable (reentrant = true))
  | .error (.baseException _) => inferInstanceAs (Decidable True)
  | .error (.exception _) => inferInstanceAs (Decidable False)
  | .ok _ => inferInstanceAs (Decidable False)

instance (e : Event) : Decidable e.Orderly :=
  match e with
  | .added _ => inferInstanceAs (Decidable True)
  | .removed task waiting => inferInstanceAs (Decidable (task ∉ waiting))
  | .fired _ limited waiting outcome =>
    inferInstanceAs (Decidable (Escapes true outcome → limited = false ∧ waiting = []))
  | .reported _ limited waiting outcome =>
    inferInstanceAs (Decidable (Escapes false outcome → limited = false ∧ waiting = []))

/-- Every event is orderly. -/
def Tame (log : List Event) : Prop := ∀ event ∈ log, event.Orderly

/-- The tasks that were fired, in order. -/
def firedIn (log : List Event) : List ℕ := log.filterMap Event.fired?

/-- The tasks that were removed by a call, in order. -/
def removedIn (log : List Event) : List ℕ := log.filterMap Event.removed?

/-- How often a task was fired. -/
def fires (log : List Event) (task : ℕ) : ℕ := (firedIn log).count task

/-- After an event that removes a task no event fires it. -/
def Silent (e e' : Event) : Prop := ∀ task, e.removed? = some task → e'.fired? ≠ some task

lemma Tame.of_prefix {log log' : List Event} (h : Tame log') (hlog : log <+: log') : Tame log :=
  fun e he => h e (hlog.subset he)

@[simp] lemma firedIn_noted (r : Runner) (e : Event) :
    firedIn (r.noted e).log = firedIn r.log ++ e.fired?.toList := by
  cases h : e.fired? <;> simp [Runner.noted, firedIn, h]

@[simp] lemma removedIn_noted (r : Runner) (e : Event) :
    removedIn (r.noted e).log = removedIn r.log ++ e.removed?.toList := by
  cases h : e.removed? <;> simp [Runner.noted, removedIn, h]

/-! ## What a tick is to fire -/

/-- Whether a task is due and its check, if it has one, answers yes. -/
def goes (env : Env) (tick : ℕ) (nowMs : ℤ) (r : Runner) (task : ℕ) : Bool :=
  match r.tasks[task]? with
  | none => false
  | some h => h.isDue nowMs && (h.asked env tick task).toOption.getD false

/-- Whether a task that is due can be rescheduled and has a check that answers. -/
def Answers (env : Env) (tick : ℕ) (nowMs : ℤ) (r : Runner) (task : ℕ) : Prop :=
  ∀ h, r.tasks[task]? = some h → h.isDue nowMs →
    (∃ due, h.rescheduled nowMs = .ok due) ∧ ∃ go, h.asked env tick task = .ok go

/-- The registered tasks that are due and whose checks answer yes. -/
def dueNow (env : Env) (r : Runner) : List ℕ :=
  r.entries.filter (goes env r.reads (env.ticksMs r.reads) r)

/-- Every registered task that is due can be rescheduled and has a check that answers. -/
def Collects (env : Env) (r : Runner) : Prop :=
  ∀ task ∈ r.entries, Answers env r.reads (env.ticksMs r.reads) r task

/-! ## The invariant -/

/-- The run count a task was added with and what is left of it. -/
def Runner.counter (r : Runner) (task : ℕ) : Option (Option ℤ × Option ℤ) :=
  r.tasks[task]?.map fun h => (h.limit, h.runCount)

/-- The firings of a task that have been counted: all, but for the one that is in progress. -/
def counted (log : List Event) (current : Option ℕ) (task : ℕ) : ℤ :=
  fires log task - if current = some task then 1 else 0

/-- The run count of a task allows one more run after `runs` of them. -/
def Open (limit : Option ℤ) (runs : ℤ) : Prop := ∀ n, limit = some n → runs < n

/-- The registry while the handler of `current`, if any, runs. -/
structure Inv (current : Option ℕ) (r : Runner) : Prop where
  /-- No task is registered twice. -/
  nodup : r.entries.Nodup
  /-- Events are about tasks that were added. -/
  known : ∀ task, task ∈ r.entries ∨ task ∈ firedIn r.log ∨ task ∈ removedIn r.log →
    task < r.tasks.length
  /-- What is left of a run count are the runs not counted yet. -/
  counts : ∀ task limit runCount, r.counter task = some (limit, runCount) →
    runCount = limit.map (· - counted r.log current task)
  /-- No task is fired more often than its run count says. -/
  bounded : ∀ task n runCount, r.counter task = some (some n, runCount) → fires r.log task ≤ n
  /-- A task is registered until it is removed or its run count is used up. -/
  registered : ∀ task limit runCount, r.counter task = some (limit, runCount) →
    (task ∈ r.entries ↔ task ∉ removedIn r.log ∧ Open limit (counted r.log current task))
  /-- The task whose handler runs has been fired. -/
  firing : ∀ task, current = some task → task ∈ firedIn r.log
  /-- Tasks that wait are registered, each waits once, and none of them is running. -/
  waits : r.waiting.Nodup ∧ ∀ task ∈ r.waiting, task ∈ r.entries ∧ current ≠ some task
  /-- No task is fired after its removal. -/
  silent : r.log.Pairwise Silent

variable {current : Option ℕ} {r r' : Runner} {task : ℕ} {waiting : List ℕ} {s : Runner} {count : ℕ}
  {env : Env}

/-- The invariant is about the registry, the tasks that wait and the log. -/
lemma Inv.of_eq (h : Inv current r) (hl : r'.tasks.length = r.tasks.length)
    (hc : r'.counter = r.counter) (he : r'.entries = r.entries) (hw : r'.waiting = r.waiting)
    (hlog : r'.log = r.log) :
    Inv current r' where
  nodup := he ▸ h.nodup
  known := by rw [he, hlog, hl]; exact h.known
  counts := by rw [hc, hlog]; exact h.counts
  bounded := by rw [hc, hlog]; exact h.bounded
  registered := by rw [hc, hlog, he]; exact h.registered
  firing := by rw [hlog]; exact h.firing
  waits := by rw [hw, he]; exact h.waits
  silent := hlog ▸ h.silent

/-- A change of a handle that is not about its run count. -/
lemma counter_withTask (r : Runner) (task : ℕ) {f : TaskHandle → TaskHandle}
    (hf : ∀ h, (f h).limit = h.limit ∧ (f h).runCount = h.runCount) :
    (r.withTask task f).counter = r.counter := by
  funext j
  simp only [Runner.counter, Runner.withTask, List.getElem?_modify]
  cases r.tasks[j]? with
  | none => rfl
  | some h => by_cases hj : task = j <;> simp [hj, hf h]

/-- An event that neither fires nor removes a task. -/
lemma Inv.noted (h : Inv current r) {e : Event} (hf : e.fired? = none) (hr : e.removed? = none) :
    Inv current (r.noted e) := by
  have hfired : firedIn (r.noted e).log = firedIn r.log := by simp [hf]
  have hremoved : removedIn (r.noted e).log = removedIn r.log := by simp [hr]
  have hcounted : counted (r.noted e).log = counted r.log := by
    funext c i
    simp only [counted, fires, hfired]
  exact
    { nodup := h.nodup
      known := by rw [hfired, hremoved]; exact h.known
      counts := by rw [hcounted]; exact h.counts
      bounded := by simp only [fires, hfired]; exact h.bounded
      registered := by rw [hcounted, hremoved]; exact h.registered
      firing := by rw [hfired]; exact h.firing
      waits := h.waits
      silent := by
        refine List.pairwise_append.mpr ⟨h.silent, by simp, ?_⟩
        intro a _ b hb task _
        cases List.mem_singleton.mp hb
        simp [hf] }

/-- A new task. -/
lemma Inv.registered_new (h : Inv current r) {t : TaskHandle} (hcount : t.runCount = t.limit)
    (hpos : ∀ n, t.limit = some n → 0 < n) : Inv current (r.registered t) := by
  have hfresh : r.tasks.length ∉ firedIn r.log ∧ r.tasks.length ∉ removedIn r.log ∧
      r.tasks.length ∉ r.entries := by
    refine ⟨fun hm => ?_, fun hm => ?_, fun hm => ?_⟩
    · exact absurd (h.known _ (.inr (.inl hm))) (lt_irrefl _)
    · exact absurd (h.known _ (.inr (.inr hm))) (lt_irrefl _)
    · exact absurd (h.known _ (.inl hm)) (lt_irrefl _)
  have hfired : firedIn (r.registered t).log = firedIn r.log := by
    simp [Runner.registered, Event.fired?, Runner.noted, firedIn]
  have hremoved : removedIn (r.registered t).log = removedIn r.log := by
    simp [Runner.registered, Event.removed?, Runner.noted, removedIn]
  have hcounted : counted (r.registered t).log = counted r.log := by
    funext c i
    simp only [counted, fires, hfired]
  -- the new task has not been fired
  have hzero : counted r.log current r.tasks.length = 0 := by
    have hne : current ≠ some r.tasks.length := fun hc => hfresh.1 (h.firing _ hc)
    simp [counted, fires, List.count_eq_zero_of_not_mem hfresh.1, hne]
  have hcounter : ∀ {task limit runCount},
      (r.registered t).counter task = some (limit, runCount) →
      r.counter task = some (limit, runCount) ∨
        task = r.tasks.length ∧ limit = t.limit ∧ runCount = t.limit := by
    intro task limit runCount hc
    simp only [Runner.counter, Runner.registered, Runner.noted, List.getElem?_append] at hc
    split at hc
    · exact .inl hc
    · rename_i hlt
      obtain ⟨h', hh', heq⟩ := Option.map_eq_some_iff.mp hc
      obtain ⟨hk, rfl⟩ := List.getElem?_eq_some_iff.mp hh'
      simp only [List.length_singleton, Nat.lt_one_iff] at hk
      simp only [List.getElem_singleton, Prod.mk.injEq] at heq
      exact .inr ⟨by omega, heq.1.symm, by rw [← heq.2, hcount]⟩
  refine
    { nodup := ?_
      known := ?_
      counts := ?_
      bounded := ?_
      registered := ?_
      firing := by rw [hfired]; exact h.firing
      waits := ⟨h.waits.1, fun task hm => ⟨List.mem_append_left _ (h.waits.2 task hm).1,
        (h.waits.2 task hm).2⟩⟩
      silent := ?_ }
  · show (r.entries ++ [r.tasks.length]).Nodup
    exact List.nodup_append.mpr ⟨h.nodup, by simp, fun a ha b hb hab => by
      cases List.mem_singleton.mp hb
      exact hfresh.2.2 (hab ▸ ha)⟩
  · intro task hm
    rw [hfired, hremoved] at hm
    show task < (r.tasks ++ [t]).length
    rw [List.length_append, List.length_singleton]
    rcases hm with hm | hm
    · rcases List.mem_append.mp hm with hm | hm
      · exact Nat.lt_succ_of_lt (h.known _ (.inl hm))
      · cases List.mem_singleton.mp hm
        exact Nat.lt_succ_self _
    · exact Nat.lt_succ_of_lt (h.known _ (.inr hm))
  · intro task limit runCount hc
    rw [hcounted]
    rcases hcounter hc with hc | ⟨rfl, rfl, rfl⟩
    · exact h.counts _ _ _ hc
    · rw [hzero]
      cases t.limit <;> simp
  · intro task n runCount hc
    rw [fires, hfired]
    rcases hcounter hc with hc | ⟨rfl, hl, -⟩
    · exact h.bounded _ _ _ hc
    · rw [List.count_eq_zero_of_not_mem hfresh.1]
      exact_mod_cast (hpos n hl.symm).le
  · intro task limit runCount hc
    rw [hcounted, hremoved]
    show task ∈ r.entries ++ [r.tasks.length] ↔ _
    rcases hcounter hc with hc | ⟨rfl, rfl, -⟩
    · have hlt : task < r.tasks.length := by
        obtain ⟨h', hh', -⟩ := Option.map_eq_some_iff.mp hc
        exact (List.getElem?_eq_some_iff.mp hh').1
      rw [← h.registered _ _ _ hc]
      simp [hlt.ne]
    · rw [hzero]
      simp only [List.mem_append, List.mem_singleton, or_true, true_iff]
      exact ⟨hfresh.2.1, fun n hn => hpos n hn⟩
  · refine List.pairwise_append.mpr ⟨h.silent, by simp, ?_⟩
    intro a _ b hb task _
    cases List.mem_singleton.mp hb
    simp [Event.fired?]

/-- A task that was added has a counter. -/
lemma exists_counter (h : task < r.tasks.length) :
    ∃ limit runCount, r.counter task = some (limit, runCount) :=
  ⟨_, _, by rw [Runner.counter, List.getElem?_eq_getElem h]; rfl⟩

/-- A registered task has not been removed, and its run count is not used up. -/
lemma Inv.of_mem (h : Inv current r) (hm : task ∈ r.entries) :
    ∃ limit runCount, r.counter task = some (limit, runCount) ∧
      task ∉ removedIn r.log ∧ Open limit (counted r.log current task) := by
  obtain ⟨limit, runCount, hc⟩ := exists_counter (h.known _ (.inl hm))
  exact ⟨limit, runCount, hc, (h.registered _ _ _ hc).mp hm⟩

/-- `remove()` of a task that does not wait for its turn. -/
lemma Inv.removed_call (h : Inv current r) (hk : task < r.tasks.length) (hw : task ∉ r.waiting)
    (waiting : List ℕ) : Inv current ((r.removed task).noted (.removed task waiting)) := by
  set r' := (r.removed task).noted (.removed task waiting)
  have hcounter : r'.counter = r.counter := counter_withTask r task fun _ => ⟨rfl, rfl⟩
  have hlength : r'.tasks.length = r.tasks.length := by
    simp [r', Runner.noted, Runner.removed, Runner.withTask]
  have hfired : firedIn r'.log = firedIn r.log := (firedIn_noted _ _).trans (List.append_nil _)
  have hremoved : removedIn r'.log = removedIn r.log ++ [task] := removedIn_noted _ _
  have hcounted : counted r'.log = counted r.log := by
    funext c i
    simp only [counted, fires, hfired]
  have hentries : ∀ i, i ∈ r'.entries ↔ i ≠ task ∧ i ∈ r.entries := fun i =>
    h.nodup.mem_erase_iff
  refine
    { nodup := h.nodup.erase _
      known := ?_
      counts := by rw [hcounter, hcounted]; exact h.counts
      bounded := by simp only [hcounter, fires, hfired]; exact h.bounded
      registered := ?_
      firing := by rw [hfired]; exact h.firing
      waits := ⟨h.waits.1, ?_⟩
      silent := ?_ }
  · intro i hi
    rw [hlength]
    rw [hentries, hfired, hremoved, List.mem_append, List.mem_singleton] at hi
    rcases hi with hi | hi | hi | rfl
    · exact h.known _ (.inl hi.2)
    · exact h.known _ (.inr (.inl hi))
    · exact h.known _ (.inr (.inr hi))
    · exact hk
  · intro i limit runCount hc
    rw [hentries, h.registered i limit runCount (hcounter ▸ hc), hcounted, hremoved]
    simp only [List.mem_append, List.mem_singleton, not_or]
    tauto
  · intro i hi
    obtain ⟨hmem, hne⟩ := h.waits.2 i hi
    exact ⟨(hentries i).mpr ⟨fun he => hw (he ▸ hi), hmem⟩, hne⟩
  · refine List.pairwise_append.mpr ⟨h.silent, by simp, ?_⟩
    intro a _ b hb i _
    cases List.mem_singleton.mp hb
    simp [Event.fired?]

/-- The turn of a task: its handler begins. -/
lemma Inv.fired (h : Inv none r) (hw : r.waiting = task :: waiting) (limited : Bool)
    (outcome : Except Exn Unit) :
    Inv (some task) ({ r with waiting := waiting }.noted
      (.fired task limited waiting outcome)) := by
  set r' := { r with waiting := waiting }.noted (.fired task limited waiting outcome)
  have hmem : task ∈ r.entries := (h.waits.2 task (hw ▸ List.mem_cons_self)).1
  obtain ⟨hnotin, hnodup⟩ := List.nodup_cons.mp (hw ▸ h.waits.1)
  obtain ⟨limit, runCount, hc, hnr, hopen⟩ := h.of_mem hmem
  have hfired : firedIn r'.log = firedIn r.log ++ [task] := firedIn_noted _ _
  have hremoved : removedIn r'.log = removedIn r.log :=
    (removedIn_noted _ _).trans (List.append_nil _)
  -- the firing in progress is not counted
  have hcounted : ∀ i, counted r'.log (some task) i = counted r.log none i := by
    intro i
    by_cases hi : task = i
    · subst hi
      simp [counted, fires, hfired]
    · simp [counted, fires, hfired, hi]
  refine
    { nodup := h.nodup
      known := ?_
      counts := fun i l c hi => by rw [hcounted]; exact h.counts i l c hi
      bounded := ?_
      registered := fun i l c hi => by rw [hcounted, hremoved]; exact h.registered i l c hi
      firing := ?_
      waits := ⟨hnodup, ?_⟩
      silent := ?_ }
  · intro i hi
    rw [hfired, hremoved, List.mem_append, List.mem_singleton] at hi
    rcases hi with hi | (hi | rfl) | hi
    · exact h.known _ (.inl hi)
    · exact h.known _ (.inr (.inl hi))
    · exact h.known _ (.inl hmem)
    · exact h.known _ (.inr (.inr hi))
  · intro i n c hi
    have hold := h.bounded i n c hi
    by_cases he : i = task
    · subst he
      have hlt := hopen n (congrArg Prod.fst (Option.some.inj (hc.symm.trans hi)))
      simp only [counted, reduceCtorEq, if_false, sub_zero] at hlt
      simp only [fires, hfired, List.count_append, List.count_singleton_self] at hlt ⊢
      push_cast
      omega
    · simpa [fires, hfired, Ne.symm he] using hold
  · intro i hi
    cases hi
    simp [hfired]
  · intro i hi
    refine ⟨(h.waits.2 i (hw ▸ List.mem_cons_of_mem _ hi)).1, fun he => ?_⟩
    cases he
    exact hnotin hi
  · refine List.pairwise_append.mpr ⟨h.silent, by simp, ?_⟩
    intro a ha b hb i hai hbi
    cases List.mem_singleton.mp hb
    cases hbi
    exact hnr (List.mem_filterMap.mpr ⟨a, ha, hai⟩)

/-- The end of a handler whose task has no run count. -/
lemma Inv.settled (h : Inv (some task) r)
    (hl : ∀ limit runCount, r.counter task = some (limit, runCount) → limit = none) :
    Inv none r := by
  have hcounted : ∀ {i n c}, r.counter i = some (some n, c) →
      counted r.log (some task) i = counted r.log none i := by
    intro i n c hi
    have hne : task ≠ i := fun he => by
      subst he
      exact absurd (hl _ _ hi) (by simp)
    simp [counted, hne]
  refine
    { nodup := h.nodup
      known := h.known
      counts := ?_
      bounded := h.bounded
      registered := ?_
      firing := by simp
      waits := ⟨h.waits.1, fun i hi => ⟨(h.waits.2 i hi).1, by simp⟩⟩
      silent := h.silent }
  · intro i limit c hi
    cases limit with
    | none => exact h.counts _ _ _ hi
    | some n => rw [h.counts _ _ _ hi, hcounted hi]
  · intro i limit c hi
    cases limit with
    | none =>
      rw [h.registered _ _ _ hi]
      simp [Open]
    | some n => rw [h.registered _ _ _ hi, hcounted hi]

/-- The handle of a task whose run count is written. -/
lemma counter_withRunCount (r : Runner) (task : ℕ) (runCount : Option ℤ) {i : ℕ}
    {limit c : Option ℤ}
    (h : (r.withTask task fun h => { h with runCount := runCount }).counter i = some (limit, c)) :
    i ≠ task ∧ r.counter i = some (limit, c) ∨
      i = task ∧ c = runCount ∧ ∃ c', r.counter i = some (limit, c') := by
  simp only [Runner.counter, Runner.withTask, List.getElem?_modify] at h ⊢
  by_cases hi : task = i
  · subst hi
    obtain ⟨h', hh', heq⟩ := Option.map_eq_some_iff.mp h
    obtain ⟨t, ht, rfl⟩ := Option.map_eq_some_iff.mp hh'
    simp only [if_true, Prod.mk.injEq] at heq
    exact .inr ⟨rfl, heq.2.symm, t.runCount, by rw [ht, ← heq.1]; rfl⟩
  · simp only [hi, if_false, id_map'] at h
    exact .inl ⟨Ne.symm hi, h⟩

/-- The end of a handler whose task has a run count: the run is counted, and the last one removes
the task. -/
lemma Inv.run_counted (h : Inv (some task) r) {runCount : ℤ}
    (hold : ∃ limit, r.counter task = some (limit, some runCount))
    (hlength : r'.tasks.length = r.tasks.length)
    (hcounter : r'.counter =
      (r.withTask task fun h => { h with runCount := some (runCount - 1) }).counter)
    (hnodup : r'.entries.Nodup)
    (hentries : ∀ i, i ∈ r'.entries ↔ i ∈ r.entries ∧ (i = task → 0 < runCount - 1))
    (hlog : r'.log = r.log) (hwaiting : r'.waiting = r.waiting) : Inv none r' := by
  obtain ⟨limit, hlimit⟩ := hold
  obtain ⟨n, hn, hleft⟩ := Option.map_eq_some_iff.mp (h.counts _ _ _ hlimit).symm
  subst hn
  have hrun : counted r.log (some task) task = fires r.log task - 1 := by simp [counted]
  have hother : ∀ {i}, i ≠ task → counted r.log (some task) i = counted r.log none i := by
    intro i hi
    simp [counted, Ne.symm hi]
  have hall : ∀ i, counted r.log none i = fires r.log i := fun i => by simp [counted]
  have hcases : ∀ {i l c}, r'.counter i = some (l, c) → i ≠ task ∧ r.counter i = some (l, c) ∨
      i = task ∧ l = some n ∧ c = some (runCount - 1) := by
    intro i l c hi
    rcases counter_withRunCount r task _ (hcounter ▸ hi) with hne | ⟨rfl, hc, c', hc'⟩
    · exact .inl hne
    · exact .inr ⟨rfl, congrArg Prod.fst (Option.some.inj (hc'.symm.trans hlimit)), hc⟩
  refine
    { nodup := hnodup
      known := ?_
      counts := ?_
      bounded := ?_
      registered := ?_
      firing := by simp
      waits := ⟨hwaiting ▸ h.waits.1, ?_⟩
      silent := hlog ▸ h.silent }
  · intro i hi
    rw [hlength]
    rw [hentries, hlog] at hi
    exact h.known i (hi.imp_left And.left)
  · intro i l c hi
    rw [hlog]
    rcases hcases hi with ⟨hne, hi⟩ | ⟨rfl, rfl, rfl⟩
    · rw [h.counts _ _ _ hi, hother hne]
    · rw [hall, Option.map_some, ← hleft, hrun]
      exact congrArg some (by omega)
  · intro i m c hi
    rw [hlog]
    rcases hcases hi with ⟨-, hi⟩ | ⟨rfl, hm, -⟩
    · exact h.bounded _ _ _ hi
    · cases hm
      exact h.bounded _ _ _ hlimit
  · intro i l c hi
    rw [hentries, hlog]
    rcases hcases hi with ⟨hne, hi⟩ | ⟨rfl, rfl, -⟩
    · rw [h.registered _ _ _ hi, hother hne]
      simp [hne]
    · rw [h.registered _ _ _ hlimit]
      simp only [Open, Option.some.injEq, forall_eq', hrun, hall, true_imp_iff]
      constructor
      · rintro ⟨⟨hnr, -⟩, hpos⟩
        exact ⟨hnr, by omega⟩
      · rintro ⟨hnr, hlt⟩
        exact ⟨⟨hnr, by omega⟩, by omega⟩
  · intro i hi
    rw [hwaiting] at hi
    obtain ⟨hm, hne⟩ := h.waits.2 i hi
    exact ⟨(hentries i).mpr ⟨hm, fun he => absurd (congrArg some he.symm) hne⟩, by simp⟩

/-! ## Calls on the runner -/

/-- What user code on the runner leaves as it is while the handler of `current` runs. -/
structure Keeps (r r' : Runner) : Prop where
  pending : r'.pending = r.pending
  waiting : r'.waiting = r.waiting
  ticking : r'.ticking = r.ticking
  fired : firedIn r'.log = firedIn r.log
  grown : r.log <+: r'.log
  /-- The tasks that exist stay, and keep the run count they were added with. -/
  limits : ∀ i limit c, r.counter i = some (limit, c) → r'.counter i = some (limit, c)
  inv : ∀ current, Tame r'.log → Inv current r → Inv current r'

instance : Std.Refl Keeps where
  refl _ := ⟨rfl, rfl, rfl, rfl, List.prefix_rfl, fun _ _ _ h => h, fun _ _ h => h⟩

instance : IsTrans Runner Keeps where
  trans _ _ _ h h' :=
    { pending := h'.pending.trans h.pending
      waiting := h'.waiting.trans h.waiting
      ticking := h'.ticking.trans h.ticking
      fired := h'.fired.trans h.fired
      grown := h.grown.trans h'.grown
      limits := fun i l c hc => h'.limits i l c (h.limits i l c hc)
      inv := fun current ht hi =>
        h'.inv current ht (h.inv current (ht.of_prefix h'.grown) hi) }

/-- A change of what the invariant does not look at. -/
lemma Keeps.of_eq (hp : r'.pending = r.pending) (ht : r'.ticking = r.ticking)
    (hl : r'.tasks.length = r.tasks.length) (hc : r'.counter = r.counter)
    (he : r'.entries = r.entries) (hw : r'.waiting = r.waiting) (hlog : r'.log = r.log) :
    Keeps r r' where
  pending := hp
  waiting := hw
  ticking := ht
  fired := by rw [hlog]
  grown := hlog ▸ List.prefix_rfl
  limits := fun i l c h => hc ▸ h
  inv := fun _ _ h => h.of_eq hl hc he hw hlog

open Prog

lemma keeps_readTicks (env : Env) : Prog.Within Keeps (readTicks env) :=
  within_get fun _ => within_bind
    (within_modify fun _ => Keeps.of_eq rfl rfl rfl rfl rfl rfl rfl)
    fun _ => within_pure _

lemma keeps_withTask {f : TaskHandle → TaskHandle}
    (hf : ∀ h, (f h).limit = h.limit ∧ (f h).runCount = h.runCount) :
    Prog.Within Keeps (modify fun r => r.withTask task f : M Unit) :=
  within_modify fun r => Keeps.of_eq rfl rfl (by simp [Runner.withTask])
    (counter_withTask r task hf) rfl rfl rfl

lemma keeps_initialNextDueMs (env : Env) (startAfterMs periodMs : Option ℤ) :
    Prog.Within Keeps (initialNextDueMs env startAfterMs periodMs) := by
  unfold initialNextDueMs
  split
  · exact within_pure _
  · exact within_bind (keeps_readTicks env) fun _ =>
      within_bind (within_lift _) fun _ => within_pure _

/-- `add` raises before it registers the task, whose run count is positive. -/
lemma keeps_add (env : Env) (a : Registration) : Prog.Within Keeps (add env a) := by
  intro r
  apply wp_state (P := Keeps r)
  have hrefl : Keeps r r := Std.Refl.refl r
  simp only [add, raiseValueError, wp_bind, wp_when, wp_throw]
  refine ⟨fun _ => hrefl, fun _ => ⟨fun _ => hrefl, fun _ => ⟨fun _ => hrefl, fun _ =>
    ⟨fun _ => hrefl, fun hcount => ⟨fun _ => hrefl, fun _ => ?_⟩⟩⟩⟩⟩
  refine wp_mono ((keeps_initialNextDueMs env _ _).wp r) (fun due s hs => ?_) fun _ _ hs => hs
  simp only [wp_modify]
  refine IsTrans.trans _ _ _ hs ?_
  have hpos : ∀ n, (a.handle due).limit = some n → 0 < n := by
    intro n hn
    simp only [Registration.handle] at hn
    simpa [hn] using hcount
  exact
    { pending := rfl
      waiting := rfl
      ticking := rfl
      fired := (firedIn_noted _ _).trans (List.append_nil _)
      grown := List.prefix_append _ _
      limits := fun i l c hc => by
        obtain ⟨h, hh, heq⟩ := Option.map_eq_some_iff.mp hc
        have hlt := (List.getElem?_eq_some_iff.mp hh).1
        simp only [Runner.counter, Runner.registered, Runner.noted]
        rw [List.getElem?_append_left hlt, hh]
        exact congrArg some heq
      inv := fun _ _ h => h.registered_new rfl hpos }

lemma keeps_setPeriod (env : Env) (task : ℕ) (periodMs nowMs : Option ℤ) :
    Prog.Within Keeps (setPeriod env task periodMs nowMs) := by
  unfold setPeriod
  refine within_bind (within_when (within_throw _)) fun _ =>
    within_bind (keeps_withTask fun _ => ⟨rfl, rfl⟩) fun _ => ?_
  split
  · exact keeps_withTask fun _ => ⟨rfl, rfl⟩
  · refine within_bind ?_ fun _ => within_bind (within_lift _) fun due =>
      keeps_withTask (f := fun h => { h with nextDueMs := some due }) fun _ => ⟨rfl, rfl⟩
    unfold anchorMs
    split
    · exact within_pure _
    · exact keeps_readTicks env

/-- `remove` of a handle that `add` has returned. -/
lemma keeps_removeHandle (hk : task < r.tasks.length) :
    Keeps r (removeHandle task r).2 where
  pending := rfl
  waiting := rfl
  ticking := rfl
  fired := (firedIn_noted _ _).trans (List.append_nil _)
  grown := List.prefix_append _ _
  limits := fun i _ _ hc =>
    (congrFun (counter_withTask r task (f := fun h => { h with active := false })
      fun _ => ⟨rfl, rfl⟩) i).trans hc
  inv := fun _ ht h => h.removed_call hk
    (ht (.removed task r.waiting) (List.mem_append_right _ List.mem_cons_self)) _

/-- **A call on the runner fires nothing and keeps the invariant.** -/
theorem keeps_perform (env : Env) (call : Call) : Prog.Within Keeps (perform env call) := by
  cases call with
  | add a => exact keeps_add env a
  | addPeriodic a =>
    exact within_bind (within_when (within_throw _)) fun _ => keeps_add env _
  | setPeriod task periodMs nowMs =>
    exact within_get fun _ => within_when (keeps_setPeriod env task periodMs nowMs)
  | remove task =>
    intro r
    show Keeps r (when (task < r.tasks.length) (removeHandle task) r).2
    by_cases hk : task < r.tasks.length
    · rw [when, if_pos hk]
      exact keeps_removeHandle hk
    · rw [when, if_neg hk]
      exact Std.Refl.refl r

/-- User code raises what it raises at its end; the exceptions of its calls are caught. -/
lemma wp_runScript (env : Env) (script : Script) (r : Runner) :
    wp (runScript env script) (fun _ => Keeps r)
      (fun e r' => Keeps r r' ∧ script.outcome = .error e) r := by
  have hall : ∀ (calls : List Call) (s : Runner), Keeps r s →
      wp (performAll env calls) (fun _ => Keeps r) (fun _ _ => False) s := by
    intro calls
    induction calls with
    | nil => exact fun s hs => hs
    | cons call calls ih =>
      intro s hs
      simp only [performAll, wp_bind, wp_tryCatch, wp_pure]
      refine wp_mono ((keeps_perform env call).wp s) ?_ ?_
      · exact fun _ t ht => ih t (IsTrans.trans _ _ _ hs ht)
      · exact fun _ t ht => ih t (IsTrans.trans _ _ _ hs ht)
  rw [runScript, wp_bind]
  refine wp_mono (hall script.calls r (Std.Refl.refl r)) (fun _ t ht => ?_)
    fun _ _ h => h.elim
  cases hout : script.outcome with
  | ok a => exact ht
  | error e => exact ⟨ht, rfl⟩

/-! ## A handler -/

/-- An event that neither fires nor removes a task. -/
lemma keeps_noted (r : Runner) {e : Event} (hf : e.fired? = none) (hr : e.removed? = none) :
    Keeps r (r.noted e) where
  pending := rfl
  waiting := rfl
  ticking := rfl
  fired := by rw [firedIn_noted, hf, Option.toList_none, List.append_nil]
  grown := List.prefix_append _ _
  limits := fun _ _ _ h => h
  inv := fun _ _ h => h.noted hf hr

/-- `_record_handler_fault` passes on only what the callback raises and is no `Exception`. -/
lemma wp_recordHandlerFault (env : Env) (tick task : ℕ) (limited : Bool) (error : PyExn)
    (r : Runner) :
    wp (recordHandlerFault env tick task limited error) (fun _ => Keeps r)
      (fun _ r' => Keeps r r' ∧ (Tame r'.log → limited = false ∧ r.waiting = [])) r := by
  unfold recordHandlerFault
  simp only [wp_bind, wp_modify]
  have hfault : ∀ (s : Runner) (e : Exn), Keeps s
      { s with handlerErrors := s.handlerErrors + 1, lastHandlerError := some e } :=
    fun s e => Keeps.of_eq rfl rfl rfl rfl rfl rfl rfl
  have hstart := hfault r (.exception error)
  split
  · exact hstart
  · rename_i onError _
    simp only [wp_bind, wp_modify, wp_tryCatch]
    have hnoted := IsTrans.trans _ _ _ hstart (keeps_noted _
      (e := .reported task limited r.waiting (onError tick task).outcome) rfl rfl)
    refine wp_mono (wp_runScript env (onError tick task) _)
      (fun _ s hs => IsTrans.trans _ _ _ hnoted hs) ?_
    rintro e s ⟨hs, hout⟩
    have hkeeps := IsTrans.trans _ _ _ hnoted hs
    have hevent : Event.reported task limited r.waiting (onError tick task).outcome ∈ s.log :=
      hs.grown.subset (List.mem_append_right _ List.mem_cons_self)
    cases e with
    | exception e => exact IsTrans.trans _ _ _ hkeeps (hfault s _)
    | reentrantTick => exact IsTrans.trans _ _ _ hkeeps (hfault s _)
    | baseException tag =>
      refine ⟨hkeeps, fun ht => ht _ hevent ?_⟩
      rw [hout]
      trivial

/-- The run count after a handler. -/
lemma wp_countRun (task : ℕ) (r : Runner) :
    wp (countRun task)
      (fun _ r' => r'.log = r.log ∧ r'.pending = r.pending ∧ r'.waiting = r.waiting ∧
        r'.ticking = r.ticking ∧ (Inv (some task) r → Inv none r'))
      (fun _ _ => False) r := by
  rw [countRun, wp_bind, wp_get]
  cases hcount : r.tasks[task]?.bind TaskHandle.runCount with
  | none =>
    refine ⟨rfl, rfl, rfl, rfl, fun h => h.settled fun limit runCount hc => ?_⟩
    obtain ⟨t, ht, heq⟩ := Option.map_eq_some_iff.mp hc
    have hnone : t.runCount = none := by simpa [ht] using hcount
    have hmap := h.counts _ _ _ hc
    have hrun : runCount = none := (congrArg Prod.snd heq).symm.trans hnone
    exact Option.map_eq_none_iff.mp (hmap.symm.trans hrun)
  | some runCount =>
    obtain ⟨t, ht, hrun⟩ := Option.bind_eq_some_iff.mp hcount
    have hold : ∃ limit, r.counter task = some (limit, some runCount) :=
      ⟨t.limit, by rw [Runner.counter, ht, ← hrun]; rfl⟩
    simp only [wp_bind, wp_modify, wp_when]
    constructor
    · intro hlast
      refine ⟨rfl, rfl, rfl, rfl, fun h => h.run_counted hold (by simp [Runner.removed,
        Runner.withTask]) (counter_withTask _ task fun _ => ⟨rfl, rfl⟩) (h.nodup.erase _) ?_ rfl rfl⟩
      intro i
      show i ∈ r.entries.erase task ↔ _
      rw [h.nodup.mem_erase_iff]
      constructor
      · exact fun hi => ⟨hi.2, fun he => absurd he hi.1⟩
      · exact fun hi => ⟨fun he => absurd (hi.2 he) (by omega), hi.1⟩
    · intro hmore
      refine ⟨rfl, rfl, rfl, rfl, fun h => h.run_counted hold (by simp [Runner.withTask]) rfl
        h.nodup ?_ rfl rfl⟩
      exact fun i => ⟨fun hi => ⟨hi, fun _ => by omega⟩, And.left⟩

/-- What the turn of a task does. -/
structure Fired (task : ℕ) (waiting : List ℕ) (r r' : Runner) : Prop where
  pending : r'.pending = r.pending
  waiting : r'.waiting = waiting
  ticking : r'.ticking = r.ticking
  fired : firedIn r'.log = firedIn r.log ++ [task]
  grown : r.log <+: r'.log
  inv : Tame r'.log → Inv none r → Inv none r'

/-- An exception leaves the tick where no run is counted. -/
lemma Inv.escaped {limited : Bool} {outcome : Except Exn Unit} (h : Inv none r)
    (hw : r.waiting = task :: waiting)
    (hlimited : limited = (r.tasks[task]?.bind TaskHandle.runCount).isSome)
    (hfalse : limited = false)
    (hs : Keeps ({ r with waiting := waiting }.noted (.fired task limited waiting outcome)) s)
    (ht : Tame s.log) : Inv none s := by
  have hmem : task ∈ r.entries := (h.waits.2 task (hw ▸ List.mem_cons_self)).1
  obtain ⟨limit, runCount, hc, -⟩ := h.of_mem hmem
  have hrun : runCount = none := by
    obtain ⟨t, ht, heq⟩ := Option.map_eq_some_iff.mp hc
    rw [hfalse, ht] at hlimited
    have hnone : t.runCount = none := by simpa using hlimited.symm
    exact (congrArg Prod.snd heq : t.runCount = runCount).symm.trans hnone
  have hlimit : limit = none := Option.map_eq_none_iff.mp ((h.counts _ _ _ hc).symm.trans hrun)
  refine (hs.inv _ ht (h.fired hw limited outcome)).settled fun l c hl => ?_
  have hsame := hs.limits task limit runCount hc
  rw [hl] at hsame
  exact (congrArg Prod.fst (Option.some.inj hsame)).trans hlimit

/-- **The turn of a task fires it once and keeps the invariant.** An exception leaves a tame tick
only when no task waits any more. -/
theorem wp_fire (env : Env) (tick task : ℕ) (hw : r.waiting = task :: waiting) :
    wp (fire env tick task) (fun _ => Fired task waiting r)
      (fun _ r' => Fired task waiting r r' ∧ (Tame r'.log → Inv none r → waiting = [])) r := by
  simp only [fire, wp_bind, wp_get, wp_modify, wp_tryCatch, hw,
    List.tail_cons]
  set limited := (r.tasks[task]?.bind TaskHandle.runCount).isSome with hlimited
  set script := env.handler tick task
  set r₁ := { r with waiting := waiting }.noted (.fired task limited waiting script.outcome)
    with hr₁
  have hfired₁ : firedIn r₁.log = firedIn r.log ++ [task] := firedIn_noted _ _
  have hevent : ∀ {s : Runner}, Keeps r₁ s →
      Event.fired task limited waiting script.outcome ∈ s.log :=
    fun hs => hs.grown.subset (List.mem_append_right _ List.mem_cons_self)
  have hcount : ∀ s, Keeps r₁ s → wp (countRun task) (fun _ => Fired task waiting r)
      (fun _ r' => Fired task waiting r r' ∧ (Tame r'.log → Inv none r → waiting = [])) s := by
    intro s hs
    refine wp_mono (wp_countRun task s) ?_ fun _ _ h => h.elim
    rintro _ t ⟨hlog, hp, hwt, htick, hinv⟩
    exact
      { pending := hp.trans hs.pending
        waiting := hwt.trans hs.waiting
        ticking := htick.trans hs.ticking
        fired := by rw [hlog, hs.fired, hfired₁]
        grown := hlog ▸ (List.prefix_append _ _).trans hs.grown
        inv := fun ht h => hinv (hs.inv _ (hlog ▸ ht) (h.fired hw limited _)) }
  have hescape : ∀ s, Keeps r₁ s → (Tame s.log → limited = false) → Fired task waiting r s :=
    fun s hs hl =>
      { pending := hs.pending
        waiting := hs.waiting
        ticking := hs.ticking
        fired := hs.fired.trans hfired₁
        grown := (List.prefix_append _ _).trans hs.grown
        inv := fun ht h => h.escaped hw hlimited (hl ht) hs ht }
  refine wp_mono (wp_runScript env script r₁) (fun _ s hs => hcount s hs) ?_
  rintro e s ⟨hs, hout⟩
  cases e with
  | exception e =>
    refine wp_mono (wp_recordHandlerFault env tick task limited e s)
      (fun _ t ht => hcount t (IsTrans.trans _ _ _ hs ht)) ?_
    rintro _ t ⟨ht, hesc⟩
    have hkeeps := IsTrans.trans _ _ _ hs ht
    exact ⟨hescape t hkeeps fun htame => (hesc htame).1,
      fun htame _ => hs.waiting.symm.trans (hesc htame).2⟩
  | reentrantTick =>
    have hesc : Tame s.log → limited = false ∧ waiting = [] := fun htame =>
      htame _ (hevent hs) (by rw [hout]; trivial)
    exact ⟨hescape s hs fun htame => (hesc htame).1, fun htame _ => (hesc htame).2⟩
  | baseException tag =>
    have hesc : Tame s.log → limited = false ∧ waiting = [] := fun htame =>
      htame _ (hevent hs) (by rw [hout]; trivial)
    exact ⟨hescape s hs fun htame => (hesc htame).1, fun htame _ => (hesc htame).2⟩

/-! ## The two loops of a tick -/

/-- What the first loop leaves as it is. -/
structure Collecting (r r' : Runner) : Prop where
  entries : r'.entries = r.entries
  waiting : r'.waiting = r.waiting
  ticking : r'.ticking = r.ticking
  length : r'.tasks.length = r.tasks.length
  counter : r'.counter = r.counter
  log : r'.log = r.log

lemma Collecting.trans {t : Runner} (h : Collecting r s) (h' : Collecting s t) : Collecting r t :=
  ⟨h'.entries.trans h.entries, h'.waiting.trans h.waiting, h'.ticking.trans h.ticking,
    h'.length.trans h.length, h'.counter.trans h.counter, h'.log.trans h.log⟩

/-- The slots in use after one more is written. -/
lemma take_slotted (hc : count ≤ r.pending.length) (task : ℕ) :
    (r.slotted count task).pending.take (count + 1) = r.pending.take count ++ [some task] ∧
      count + 1 ≤ (r.slotted count task).pending.length := by
  unfold Runner.slotted
  by_cases hlt : count < r.pending.length
  · simp only [hlt, if_true, List.length_set]
    refine ⟨?_, hlt⟩
    rw [List.take_add_one, List.getElem?_set_self hlt, List.take_set_of_le (le_refl count)]
    rfl
  · have heq : count = r.pending.length := by omega
    simp only [hlt, if_false, List.length_append, List.length_singleton]
    refine ⟨?_, by omega⟩
    rw [List.take_of_length_le (by simp [heq]), List.take_of_length_le (by omega)]

/-- One round of the first loop: a task that goes gets a slot, and no other handle is touched. -/
lemma wp_collectEntry (env : Env) (tick : ℕ) (nowMs : ℤ) (hc : count ≤ r.pending.length)
    (hk : task < r.tasks.length) :
    wp (collectEntry env tick nowMs count task)
      (fun count' r' => Collecting r r' ∧ count' ≤ r'.pending.length ∧
        (∀ i, i ≠ task → r'.tasks[i]? = r.tasks[i]?) ∧
        r'.pending.take count' = r.pending.take count ++
          (if goes env tick nowMs r task then [some task] else []))
      (fun _ r' => Collecting r r' ∧ ¬ Answers env tick nowMs r task) r := by
  have hrefl : Collecting r r := ⟨rfl, rfl, rfl, rfl, rfl, rfl⟩
  obtain ⟨h, hh⟩ : ∃ h, r.tasks[task]? = some h := ⟨_, List.getElem?_eq_getElem hk⟩
  simp only [collectEntry, wp_bind, wp_get, hh]
  by_cases hdue : h.isDue nowMs = true
  · simp only [hdue, if_true, wp_bind]
    cases hres : h.rescheduled nowMs with
    | error e =>
      refine ⟨hrefl, fun hans => ?_⟩
      obtain ⟨⟨due, hok⟩, -⟩ := hans h hh hdue
      rw [hres] at hok
      cases hok
    | ok due =>
      have hstep : Collecting r (r.withTask task fun h => { h with nextDueMs := due }) :=
        ⟨rfl, rfl, rfl, by simp [Runner.withTask],
          counter_withTask r task fun _ => ⟨rfl, rfl⟩, rfl⟩
      have hother : ∀ i, i ≠ task →
          (r.withTask task fun h => { h with nextDueMs := due }).tasks[i]? = r.tasks[i]? :=
        fun i hi => List.getElem?_modify_ne _ _ (Ne.symm hi)
      simp only [Except.mapError, wp_lift_ok, wp_modify]
      cases hask : h.asked env tick task with
      | error e =>
        refine ⟨hstep, fun hans => ?_⟩
        obtain ⟨-, go, hok⟩ := hans h hh hdue
        rw [hask] at hok
        cases hok
      | ok go =>
        have hgoes : goes env tick nowMs r task = go := by
          simp [goes, hh, hdue, hask, Except.toOption]
        simp only [wp_lift_ok, hgoes]
        cases go with
        | true =>
          obtain ⟨htake, hlen⟩ := take_slotted
            (r := r.withTask task fun h => { h with nextDueMs := due }) hc task
          exact ⟨⟨rfl, rfl, rfl, hstep.length, hstep.counter, rfl⟩, hlen, hother, htake⟩
        | false => exact ⟨hstep, hc, hother, (List.append_nil _).symm⟩
  · have hgoes : goes env tick nowMs r task = false := by simp [goes, hh, hdue]
    simp only [hdue, if_false, wp_pure, hgoes, Bool.false_eq_true, List.append_nil]
    exact ⟨hrefl, hc, fun _ _ => trivial, trivial⟩

/-- **The first loop of a tick collects the tasks that go, in the order they are registered.** It
raises only where a check raises or a period does not fit. -/
theorem wp_collect (env : Env) (tick : ℕ) (nowMs : ℤ) (tasks : List ℕ)
    (hc : count ≤ r.pending.length) (hk : ∀ i ∈ tasks, i < r.tasks.length) (hn : tasks.Nodup) :
    wp (collect env tick nowMs tasks count)
      (fun count' r' => Collecting r r' ∧ count' ≤ r'.pending.length ∧
        r'.pending.take count' = r.pending.take count ++
          (tasks.filter (goes env tick nowMs r)).map some)
      (fun _ r' => Collecting r r' ∧ ¬ ∀ i ∈ tasks, Answers env tick nowMs r i) r := by
  induction tasks generalizing count r with
  | nil => exact ⟨⟨rfl, rfl, rfl, rfl, rfl, rfl⟩, hc, (List.append_nil _).symm⟩
  | cons task tasks ih =>
    obtain ⟨hnotin, hn⟩ := List.nodup_cons.mp hn
    rw [collect, wp_bind]
    refine wp_mono (wp_collectEntry env tick nowMs hc (hk task List.mem_cons_self)) ?_ ?_
    · rintro count₁ s ⟨hstep, hc₁, hother, htake⟩
      -- the tasks still to be asked are as they were
      have hsame : ∀ i ∈ tasks, s.tasks[i]? = r.tasks[i]? := fun i hi =>
        hother i fun he => hnotin (he ▸ hi)
      have hfilter : tasks.filter (goes env tick nowMs s) =
          tasks.filter (goes env tick nowMs r) := by
        refine List.filter_congr fun i hi => ?_
        rw [goes, goes, hsame i hi]
      have hk' : ∀ i ∈ tasks, i < s.tasks.length := fun i hi =>
        hstep.length ▸ hk i (List.mem_cons_of_mem _ hi)
      refine wp_mono (ih hc₁ hk' hn) ?_ ?_
      · rintro count₂ t ⟨hrest, hc₂, htake₂⟩
        refine ⟨hstep.trans hrest, hc₂, ?_⟩
        rw [htake₂, htake, hfilter, List.append_assoc]
        congr 1
        cases hg : goes env tick nowMs r task <;> simp [hg]
      · rintro _ t ⟨hrest, hans⟩
        refine ⟨hstep.trans hrest, fun hall => hans fun i hi => ?_⟩
        have hi' := hall i (List.mem_cons_of_mem _ hi)
        rw [Answers, hsame i hi]
        exact hi'
    · rintro _ t ⟨hrest, hans⟩
      exact ⟨hrest, fun hall => hans (hall task List.mem_cons_self)⟩

/-- **The second loop of a tick fires what was collected, each task once.** In a tame tick nothing
is left to be fired when it ends, however it ends. -/
lemma wp_fireSlots (env : Env) (tick count : ℕ)
    (hw : (List.range count).map (r.pending[·]?) = r.waiting.map fun i => some (some i)) :
    wp (forEach (fireSlot env tick) (List.range count))
      (fun _ r' => r'.ticking = r.ticking ∧ r.log <+: r'.log ∧
        (Tame r'.log → Inv none r → Inv none r' ∧
          firedIn r'.log = firedIn r.log ++ r.waiting))
      (fun _ r' => r'.ticking = r.ticking ∧ r.log <+: r'.log ∧
        (Tame r'.log → Inv none r → Inv none r' ∧
          firedIn r'.log = firedIn r.log ++ r.waiting)) r := by
  refine wp_forEach (fun (indices : List ℕ) (s : Runner) =>
      indices.map (s.pending[·]?) = s.waiting.map (fun i => some (some i)) ∧
        s.ticking = r.ticking ∧ r.log <+: s.log ∧
        (Tame s.log → Inv none r → Inv none s) ∧
        firedIn s.log ++ s.waiting = firedIn r.log ++ r.waiting) _ ?_ ?_
    ⟨hw, rfl, List.prefix_rfl, fun _ h => h, rfl⟩
  · rintro index rest s ⟨hs, hticking, hlog, hinv, hfired⟩
    obtain ⟨task, waiting, hwait⟩ : ∃ task waiting, s.waiting = task :: waiting := by
      cases h : s.waiting with
      | nil => simp [h] at hs
      | cons task waiting => exact ⟨task, waiting, rfl⟩
    rw [hwait, List.map_cons, List.map_cons, List.cons.injEq] at hs
    simp only [fireSlot, wp_bind, wp_get, hs.1, wp_pure]
    rw [hwait] at hfired
    refine wp_mono (wp_fire env tick task hwait) ?_ ?_
    · intro _ t ht
      refine ⟨?_, ht.ticking.trans hticking, hlog.trans ht.grown,
        fun htame h => ht.inv htame (hinv (htame.of_prefix ht.grown) h), ?_⟩
      · rw [ht.pending, ht.waiting]
        exact hs.2
      · rw [ht.fired, ht.waiting, List.append_assoc]
        exact hfired
    · rintro _ t ⟨ht, hesc⟩
      refine ⟨ht.ticking.trans hticking, hlog.trans ht.grown, fun htame h => ?_⟩
      have hs := hinv (htame.of_prefix ht.grown) h
      refine ⟨ht.inv htame hs, ?_⟩
      rw [← hfired, ht.fired, hesc htame hs]
  · rintro s ⟨hs, hticking, hlog, hinv, hfired⟩
    refine ⟨hticking, hlog, fun htame h => ⟨hinv htame h, ?_⟩⟩
    have hdone : s.waiting = [] := by simpa using hs.symm
    rw [hdone, List.append_nil] at hfired
    exact hfired

/-! ## Ticks and runs -/

/-- A runner between two ticks. -/
structure Rest (r : Runner) : Prop where
  ticking : r.ticking = false
  waiting : r.waiting = []

/-- What a tick does, whether it returns or raises. -/
structure Ticked (env : Env) (r r' : Runner) : Prop where
  rest : Rest r'
  grown : r.log <+: r'.log
  inv : Tame r'.log → Inv none r → Inv none r'
  served : Collects env r → Tame r'.log → Inv none r →
    firedIn r'.log = firedIn r.log ++ dueNow env r

/-- What `finally` does: the slots are blanked and the tick is over. -/
lemma ticked_finally (hgrown : r.log <+: s.log)
    (hinv : Tame s.log → Inv none r → Inv none s)
    (hserved : Collects env r → Tame s.log → Inv none r →
      firedIn s.log = firedIn r.log ++ dueNow env r) :
    Ticked env r
      { s with pending := s.pending.map fun _ => none, ticking := false, waiting := [] } where
  rest := ⟨rfl, rfl⟩
  grown := hgrown
  inv := fun ht h =>
    let hs := hinv ht h
    { nodup := hs.nodup
      known := hs.known
      counts := hs.counts
      bounded := hs.bounded
      registered := hs.registered
      firing := hs.firing
      waits := ⟨List.nodup_nil, by simp⟩
      silent := hs.silent }
  served := hserved

/-- **A tick keeps the invariant and serves every task that goes, once.** -/
lemma wp_tick (env : Env) (hrest : Rest r) (hn : r.entries.Nodup)
    (hk : ∀ i ∈ r.entries, i < r.tasks.length) :
    wp (tick env) (fun _ => Ticked env r) (fun _ => Ticked env r) r := by
  simp only [tick, wp_bind, wp_get, hrest.ticking, Bool.false_eq_true, if_false,
    wp_modify, wp_tryFinally, readTicks, wp_pure]
  set r₀ : Runner := { r with ticking := true, reads := r.reads + 1 } with hr₀
  have hstart : Inv none r → Inv none r₀ := fun h => h.of_eq rfl rfl rfl rfl rfl
  have hcollect := wp_collect env r.reads (env.ticksMs r.reads) r.entries (r := r₀)
    (Nat.zero_le _) hk hn
  refine wp_mono hcollect ?_ ?_
  · rintro count s ⟨hs, hcount, htake⟩
    have hdue : s.pending.take count = (dueNow env r).map some := by
      rw [htake, List.take_zero, List.nil_append]
      rfl
    have hcollected : s.collected count = dueNow env r := by
      rw [Runner.collected, hdue, List.filterMap_map]
      exact List.filterMap_some
    have hslots : (List.range count).map (s.pending[·]?) =
        (s.collected count).map fun i => some (some i) := by
      rw [hcollected]
      have hall : ∀ i ∈ List.range count, s.pending[i]? = (s.pending.take count)[i]? := by
        intro i hi
        rw [List.getElem?_take_of_lt (List.mem_range.mp hi)]
      rw [List.map_congr_left hall, hdue]
      have hlen : count = (dueNow env r).length := by
        rw [← List.length_map (f := some), ← hdue, List.length_take, Nat.min_eq_left hcount]
      rw [hlen]
      refine List.ext_getElem? fun i => ?_
      by_cases hi : i < (dueNow env r).length
      · simp [hi]
      · simp [hi]
    -- the registry at the start of the second loop
    have hinv₀ : Inv none r → Inv none { s with waiting := s.collected count } := by
      intro h
      have hs' : Inv none s :=
        (hstart h).of_eq hs.length hs.counter hs.entries hs.waiting hs.log
      refine
        { nodup := hs'.nodup
          known := hs'.known
          counts := hs'.counts
          bounded := hs'.bounded
          registered := hs'.registered
          firing := hs'.firing
          waits := ⟨?_, fun i hi => ⟨?_, by simp⟩⟩
          silent := hs'.silent }
      · rw [hcollected]
        exact hn.filter _
      · rw [hcollected] at hi
        exact hs.entries ▸ List.mem_of_mem_filter hi
    have hlog : r.log = s.log := hs.log.symm
    have hlift : ∀ t : Runner,
        (t.ticking = s.ticking ∧ s.log <+: t.log ∧
          (Tame t.log → Inv none { s with waiting := s.collected count } → Inv none t ∧
            firedIn t.log = firedIn s.log ++ s.collected count)) →
        Ticked env r
          { t with pending := t.pending.map fun _ => none, ticking := false, waiting := [] } := by
      rintro t ⟨-, hgrown, hboth⟩
      refine ticked_finally (hlog ▸ hgrown) (fun htame h => (hboth htame (hinv₀ h)).1) ?_
      intro _ htame h
      rw [(hboth htame (hinv₀ h)).2, hcollected, hlog]
    exact wp_mono (wp_fireSlots env r.reads count (r := { s with waiting := s.collected count })
      hslots) (fun _ t ht => hlift t ht) fun _ t ht => hlift t ht
  · rintro _ s ⟨hs, hans⟩
    refine ticked_finally (hs.log ▸ List.prefix_rfl) ?_ fun hcollects => absurd hcollects hans
    exact fun _ h => (hstart h).of_eq hs.length hs.counter hs.entries hs.waiting hs.log

/-- The log of a runner only grows. -/
def Grows (r r' : Runner) : Prop := r.log <+: r'.log

instance : Std.Refl Grows := ⟨fun _ => List.prefix_rfl⟩

instance : IsTrans Runner Grows := ⟨fun _ _ _ => List.IsPrefix.trans⟩

lemma grows_of_eq (h : r'.log = r.log) : Grows r r' := by
  unfold Grows
  exact h ▸ List.prefix_rfl

lemma grows_of_keeps {α : Type} {m : M α} (h : Prog.Within Keeps m) : Prog.Within Grows m :=
  h.mono fun _ _ hk => hk.grown

/-- A change that leaves the log as it is. -/
lemma grows_modify {f : Runner → Runner} (h : ∀ r, (f r).log = r.log) :
    Prog.Within Grows (modify f : M Unit) :=
  within_modify fun r => grows_of_eq (h r)

lemma grows_runScript (env : Env) (script : Script) :
    Prog.Within Grows (runScript env script) := fun r =>
  wp_state (P := Grows r) (wp_mono (wp_runScript env script r)
    (fun _ _ h => h.grown) fun _ _ h => h.1.grown)

lemma grows_fire (env : Env) (tick task : ℕ) : Prog.Within Grows (fire env tick task) := by
  refine within_get fun r => within_bind
    (within_modify fun _ => List.prefix_append _ _) fun _ => within_bind
      (within_tryCatch (grows_runScript env _) fun e => ?_) fun _ => fun s =>
        wp_state (P := Grows s) (wp_mono (wp_countRun task s)
          (fun _ _ h => grows_of_eq h.1) fun _ _ h => h.elim)
  cases e with
  | exception e =>
    exact fun s => wp_state (P := Grows s) (wp_mono
      (wp_recordHandlerFault env tick task _ e s) (fun _ _ h => h.grown) fun _ _ h => h.1.grown)
  | reentrantTick => exact within_throw _
  | baseException tag => exact within_throw _

lemma grows_collect (env : Env) (tick : ℕ) (nowMs : ℤ) (tasks : List ℕ) (count : ℕ) :
    Prog.Within Grows (collect env tick nowMs tasks count) := by
  induction tasks generalizing count with
  | nil => exact within_pure _
  | cons task tasks ih =>
    refine within_bind (within_get fun r => ?_) fun count => ih count
    split
    · exact within_throw _
    · refine within_ite (within_bind (within_lift _) fun _ => within_bind
        (grows_modify fun _ => rfl) fun _ => within_bind (within_lift _) fun _ => ?_)
        (within_pure _)
      exact within_ite (within_bind (grows_modify fun _ => rfl) fun _ =>
        within_pure _) (within_pure _)

lemma grows_tick (env : Env) : Prog.Within Grows (tick env) := by
  refine within_get fun r => within_ite (within_throw _) ?_
  refine within_bind (grows_modify fun _ => rfl) fun _ => within_tryFinally ?_
    (grows_modify fun _ => rfl)
  refine within_bind (grows_of_keeps (keeps_readTicks env)) fun now => within_bind
    (grows_collect env _ _ _ _) fun count => within_bind (grows_modify fun _ => rfl)
      fun _ => within_bind (within_forEach (fun index => ?_) _) fun _ =>
        within_pure _
  refine within_get fun s => ?_
  split
  · exact within_bind (grows_fire env _ _) fun _ => within_pure _
  · exact within_throw _

/-- Between two ticks a runner is at rest. -/
lemma Reaches.rest (h : Reaches env r) : Rest r := by
  induction h with
  | new => exact ⟨rfl, rfl⟩
  | @step r action _ ih =>
    cases action with
    | call call =>
      have hk := keeps_perform env call r
      exact ⟨hk.ticking.trans ih.ticking, hk.waiting.trans ih.waiting⟩
    | tick =>
      refine wp_state (P := Rest) (m := tick env) ?_
      rw [tick, wp_bind, wp_get, if_neg (by simp [ih.ticking]), wp_bind,
        wp_modify, wp_tryFinally]
      exact wp_of_forall (fun _ _ => ⟨rfl, rfl⟩) fun _ _ => ⟨rfl, rfl⟩

/-- The registry of a new runner. -/
lemma inv_new : Inv none Runner.new where
  nodup := List.nodup_nil
  known := by simp [Runner.new, firedIn, removedIn]
  counts := by simp [Runner.new, Runner.counter]
  bounded := by simp [Runner.new, Runner.counter]
  registered := by simp [Runner.new, Runner.counter]
  firing := by simp
  waits := ⟨List.nodup_nil, by simp [Runner.new]⟩
  silent := List.Pairwise.nil

/-- What a tick does in a tame run. -/
lemma Reaches.ticked (h : Reaches env r) (hi : Inv none r) : Ticked env r (tick env r).2 :=
  wp_state (wp_tick env h.rest hi.nodup fun i hm => hi.known i (.inl hm))

/-- The invariant holds between the ticks of a tame run. -/
lemma Reaches.inv (h : Reaches env r) (ht : Tame r.log) : Inv none r := by
  induction h with
  | new => exact inv_new
  | @step r action h ih =>
    cases action with
    | call call =>
      have hk := keeps_perform env call r
      exact hk.inv none ht (ih (ht.of_prefix hk.grown))
    | tick =>
      have hi := ih (ht.of_prefix (grows_tick env _))
      exact (h.ticked hi).inv ht hi

/-- **The life of a task.** In every tame run a task with a run count is fired at most that often,
and it is registered until it has been fired that often or is removed; a task without one is
registered until it is removed; no task is fired after a call has removed it; and a tick whose
checks all answer and whose periods all fit fires exactly the registered tasks that are due and
whose checks answer yes, each once and in their order. -/
theorem task_lifecycle {env : Env} {r : Runner} (h : Reaches env r) (ht : Tame r.log) :
    (∀ task t, r.tasks[task]? = some t →
      (∀ n, t.limit = some n → (fires r.log task : ℤ) ≤ n ∧
        (task ∈ r.entries ↔ task ∉ removedIn r.log ∧ (fires r.log task : ℤ) ≠ n)) ∧
      (t.limit = none → (task ∈ r.entries ↔ task ∉ removedIn r.log))) ∧
    r.log.Pairwise Silent ∧
    (Collects env r → Tame (act env .tick r).log →
      (dueNow env r).Nodup ∧
        firedIn (act env .tick r).log = firedIn r.log ++ dueNow env r) := by
  have hi := h.inv ht
  refine ⟨fun task t htask => ?_, hi.silent, fun hc ht' => ⟨hi.nodup.filter _,
    (h.ticked hi).served hc ht' hi⟩⟩
  have hcounter : r.counter task = some (t.limit, t.runCount) := by
    rw [Runner.counter, htask]
    rfl
  have hcounted : counted r.log none task = fires r.log task := by simp [counted]
  refine ⟨fun n hn => ?_, fun hn => ?_⟩
  · rw [hn] at hcounter
    have hle := hi.bounded _ _ _ hcounter
    refine ⟨hle, ?_⟩
    rw [hi.registered _ _ _ hcounter, hcounted]
    simp only [Open, Option.some.injEq, forall_eq']
    exact and_congr_right fun _ => ⟨fun hlt => hlt.ne, fun hne => lt_of_le_of_ne hle hne⟩
  · rw [hn] at hcounter
    rw [hi.registered _ _ _ hcounter]
    simp [Open]

/-- User code in which every check answers yes, the handler of the first task makes the given calls
and raises, and every other handler returns. -/
def envOf (calls : List Call) : Env where
  ticksMs n := 10 * n
  check _ _ := .ok true
  handler _ task :=
    if task = 0 then ⟨calls, .error (.exception (.user 0))⟩ else ⟨[], .ok ()⟩
  onHandlerError := none

/-- What a sequence of actions leads a new runner to. -/
def runOf (env : Env) (actions : List Action) : Runner :=
  actions.foldl (fun r action => act env action r) .new

lemma reaches_runOf (env : Env) (actions : List Action) : Reaches env (runOf env actions) := by
  have hfold : ∀ (r : Runner), Reaches env r →
      Reaches env (actions.foldl (fun r action => act env action r) r) := by
    induction actions with
    | nil => exact fun r h => h
    | cons action actions ih => exact fun r h => ih _ (h.step action)
  exact hfold _ .new

/-- A handler that runs once, a handler without a run count, and a tick. -/
def onceAndEver : List Action :=
  [.call (.add { task := false, handler := true, runCount := some 1 }),
    .call (.add { task := false, handler := true }), .tick]

/-- User code whose first handler adds a task, removes itself and raises. -/
def addingEnv : Env := envOf [.add { task := true, handler := false }, .remove 0]

/-- The state after the first tick with it. -/
@[irreducible] def afterAdding : Runner := runOf addingEnv onceAndEver

lemma reaches_afterAdding : Reaches addingEnv afterAdding := by
  rw [afterAdding]
  exact reaches_runOf _ _

/-- The first handler is fired once, and the next tick fires the other two tasks. -/
theorem task_lifecycle_adding :
    fires afterAdding.log 0 ≤ 1 ∧ 0 ∉ afterAdding.entries ∧ afterAdding.log.Pairwise Silent ∧
      firedIn (act addingEnv .tick afterAdding).log = firedIn afterAdding.log ++ [1, 2] := by
  have htame : Tame (act addingEnv .tick afterAdding).log := by
    unfold Tame
    decide +kernel
  obtain ⟨hlife, hsilent, htick⟩ := task_lifecycle reaches_afterAdding
    (htame.of_prefix (grows_tick addingEnv afterAdding))
  obtain ⟨t, ht, hlimit⟩ : ∃ t, afterAdding.tasks[0]? = some t ∧ t.limit = some 1 :=
    Option.map_eq_some_iff.mp
      (by decide +kernel : afterAdding.tasks[0]?.map TaskHandle.limit = some (some 1))
  obtain ⟨hle, hmem⟩ := (hlife 0 t ht).1 1 hlimit
  have hgone : (fires afterAdding.log 0 : ℤ) = 1 := by decide +kernel
  have hdue : dueNow addingEnv afterAdding = [1, 2] := by decide +kernel
  have hcollects : Collects addingEnv afterAdding := by
    intro task _ h hh _
    have hall : ∀ t ∈ afterAdding.tasks, t.nextDueMs = none := by decide +kernel
    have hnone := hall h (List.mem_of_getElem? hh)
    refine ⟨⟨none, by rw [TaskHandle.rescheduled, hnone]⟩, true, ?_⟩
    simp [TaskHandle.asked, addingEnv, envOf]
  refine ⟨by exact_mod_cast hle, fun h => (hmem.mp h).2 hgone, hsilent, ?_⟩
  rw [(htick hcollects htame).2, hdue]

/-- The first handler removes the second task, which waits for its turn in the same tick: the second
handler is fired after its removal. -/
theorem fired_after_removal : ¬ ∀ (env : Env) (r : Runner), Reaches env r →
    r.log.Pairwise Silent := by
  intro h
  have hall := List.pairwise_iff_getElem.mp (h (envOf [.remove 1]) _ (reaches_runOf _ onceAndEver))
  exact hall 3 4 (by decide +kernel) (by decide +kernel) (by decide) 1 (by decide +kernel)
    (by decide +kernel)

end ChuMicro.Tasks
