import ChuMicro.Runner.Generators
import Mathlib.Data.List.Nodup

/-!
# Runs of generator tasks

What a run of generators keeps: the runner holds an entry for a generator exactly while it is not
done, and `error` is set exactly if the body has raised. A step never takes `done` back, and never
resumes the body of a generator that is done.

Three things break this. A body that answers its cancellation by raising something else than the
`GeneratorExit` is done with no error. One that answers it with another `yield`, or cancels itself
and then yields, is done and still alive: the handler resumes it if the tick under way has already
queued it, and else Python does when it finalizes the generator. And a tick or a wait that is called
by a running body may reach the same body, and records the `ValueError` that Python raises then,
although the body has raised nothing.

## Main definitions

* `Generators.Allowed` — the steps that break nothing.
* `Generators.Sound` — what holds of one generator.
* `Generators.Inv` — the invariant.

## Main results

* `Generators.inv_step` — an allowed step keeps the invariant, never takes `done` back and never
  resumes a generator that is done.
* `Generators.generator_lifecycle` — the same of every run of allowed steps.
-/

namespace ChuMicro.Generators

/-! ## Allowed steps -/

/-- A body that is being closed, or that is done already, does not yield; one that is being closed
raises nothing but a `GeneratorExit`; and no tick or wait reaches a body that is running. -/
def Allowed (r : Runner) : Action → Prop
  | .yields => ∀ i via stack, r.stack = .body i via :: stack →
      via ≠ .close ∧ (r.gens i).done = false
  | .raises error => ∀ i stack, r.stack = .body i .close :: stack → error = .generatorExit
  | .next => ∀ i batch stack, r.stack = .tick (.gen i :: batch) :: stack →
      (r.gens i).body ≠ .running
  | .ioError i => (r.gens i).body ≠ .running
  | _ => True

/-! ## The invariant -/

/-- The generator of a call. -/
def Frame.body? : Frame → Option ℕ
  | .body i _ => some i
  | _ => none

/-- The generators whose bodies are under way. -/
def Runner.bodies (r : Runner) : List ℕ := r.stack.filterMap Frame.body?

/-- What holds of one generator. -/
structure Sound (r : Runner) (i : ℕ) : Prop where
  entry : .gen i ∈ r.entries ↔ (r.gens i).done = false
  handle : (r.gens i).taskHandle = !(r.gens i).done
  error : ∀ e, (r.gens i).error = some e ↔ (r.gens i).body = .ended (.raised e)
  ended : ∀ how, (r.gens i).body = .ended how → (r.gens i).done = true
  idle : (r.gens i).done = true → (r.gens i).body ≠ .suspended
  running : i ∈ r.bodies → (r.gens i).body = .running

/-- What every run of allowed steps keeps. -/
structure Inv (r : Runner) : Prop where
  sound : ∀ i, Sound r i
  nodup : r.entries.Nodup
  bodies : r.bodies.Nodup
  known : ∀ i, .gen i ∈ r.queued → i < r.count
  absent : ∀ i, r.count ≤ i → r.gens i = .absent

/-- What a step does to each generator: `done` stays, and a body that is resumed is not done. -/
structure Progress (r r' : Runner) : Prop where
  count : r.count ≤ r'.count
  done : ∀ i < r.count, (r.gens i).done = true → (r'.gens i).done = true
  resumed : ∀ i < r.count, (r.gens i).body ≠ .running → (r'.gens i).body = .running →
    (r.gens i).done = false

section Steps

variable {r r' : Runner} {i : ℕ}

@[simp] lemma gens_update_self (r : Runner) (i : ℕ) (f : Generator → Generator) :
    (r.update i f).gens i = f (r.gens i) := by
  simp [Runner.update]

variable {j : ℕ} {stack : List Frame} {f : Generator → Generator} {action : Action} {via : Via}

@[simp] lemma gens_update_ne (r : Runner) {i : ℕ} (f : Generator → Generator) (h : j ≠ i) :
    (r.update i f).gens j = r.gens j := by
  simp [Runner.update, h]

@[simp] lemma gens_markDone_self (r : Runner) (i : ℕ) :
    (markDone i r).gens i =
      { r.gens i with waiting := false, done := true, taskHandle := false } := by
  simp [markDone]

@[simp] lemma gens_markDone_ne (r : Runner) {i : ℕ} (h : j ≠ i) :
    (markDone i r).gens j = r.gens j := by
  simp [markDone, h]

lemma Progress.refl (r : Runner) : Progress r r :=
  ⟨le_refl _, fun _ _ h => h, fun _ _ hne h => absurd h hne⟩

lemma Progress.trans {r'' : Runner} (h : Progress r r') (h' : Progress r' r'') :
    Progress r r'' where
  count := h.count.trans h'.count
  done i hi hdone := h'.done i (hi.trans_le h.count) (h.done i hi hdone)
  resumed i hi hne hrun := by
    by_cases hmid : (r'.gens i).body = .running
    · exact h.resumed i hi hne hmid
    · have hlater := h'.resumed i (hi.trans_le h.count) hmid hrun
      rw [← Bool.not_eq_true] at hlater ⊢
      exact fun hdone => hlater (h.done i hi hdone)

/-- A step that changes one generator. -/
lemma progress_of_one (hcount : r.count ≤ r'.count)
    (hsame : ∀ j, j ≠ i → r'.gens j = r.gens j)
    (hdone : (r.gens i).done = true → (r'.gens i).done = true)
    (hresumed : (r.gens i).body ≠ .running → (r'.gens i).body = .running →
      (r.gens i).done = false) : Progress r r' where
  count := hcount
  done j _ h := by
    by_cases hj : j = i
    · subst hj
      exact hdone h
    · rwa [hsame j hj]
  resumed j _ hne h := by
    by_cases hj : j = i
    · subst hj
      exact hresumed hne h
    · rw [hsame j hj] at h
      exact absurd h hne

/-- The invariant depends on the fields of a generator that its records name. -/
lemma Sound.of_eq (h : Sound r j) (hgen : r'.gens j = r.gens j)
    (hentry : .gen j ∈ r'.entries ↔ .gen j ∈ r.entries) (hbodies : j ∈ r'.bodies → j ∈ r.bodies) :
    Sound r' j where
  entry := by rw [hentry, hgen, h.entry]
  handle := by rw [hgen, h.handle]
  error := by
    rw [hgen]
    exact h.error
  ended := by
    rw [hgen]
    exact h.ended
  idle := by
    rw [hgen]
    exact h.idle
  running hb := by
    rw [hgen]
    exact h.running (hbodies hb)

/-- A stack that holds no other bodies and no other entries to fire. -/
lemma Inv.restack (h : Inv r)
    (hqueued : ∀ j, .gen j ∈ ({ r with stack } : Runner).queued → .gen j ∈ r.queued)
    (hbodies : ({ r with stack } : Runner).bodies.Sublist r.bodies) : Inv { r with stack } where
  sound j := (h.sound j).of_eq rfl Iff.rfl fun hb => hbodies.subset hb
  nodup := h.nodup
  bodies := h.bodies.sublist hbodies
  known j hq := h.known j (hqueued j hq)
  absent := h.absent

/-- A generator is known if it has an entry, or is queued and not done, or is under way. -/
lemma Inv.lt_count (h : Inv r) (hi : (r.gens i).done = false ∨ (r.gens i).body = .running) :
    i < r.count := by
  by_contra hge
  rw [h.absent i (Nat.le_of_not_lt hge)] at hi
  simp [Generator.absent] at hi

/-- **The end of a generator.** `f` changes the body and the error together, and leaves no body
suspended. -/
lemma Inv.markDone (h : Inv r) (hi : i < r.count)
    (hhandle : (f (r.gens i)).taskHandle = (r.gens i).taskHandle)
    (herror : ∀ e, (f (r.gens i)).error = some e ↔ (f (r.gens i)).body = .ended (.raised e))
    (hidle : (f (r.gens i)).body ≠ .suspended)
    (hrunning : i ∈ r.bodies → (f (r.gens i)).body = .running) :
    Inv (markDone i (r.update i f)) := by
  have hs := h.sound i
  have hentries : (Generators.markDone i (r.update i f)).entries =
      if (r.gens i).taskHandle then r.entries.erase (.gen i) else r.entries := by
    simp only [Generators.markDone, gens_update_self, hhandle]
    rfl
  refine ⟨fun j => ?_, ?_, h.bodies, h.known, fun j hj => ?_⟩
  · by_cases hj : j = i
    · subst hj
      refine ⟨?_, by simp, fun e => by simpa using herror e, fun _ _ => by simp,
        fun _ => by simpa using hidle, fun hb => by simpa using hrunning hb⟩
      rw [hentries, hs.handle]
      cases hdone : (r.gens j).done with
      | true =>
        have hnot : Task.gen j ∉ r.entries := fun hmem => by simp [hs.entry.mp hmem] at hdone
        simpa using hnot
      | false => simp [h.nodup.mem_erase_iff]
    · have hne : Task.gen j ≠ Task.gen i := fun heq => hj (Task.gen.inj heq)
      refine (h.sound j).of_eq (by simp [hj]) ?_ fun hb => hb
      rw [hentries]
      split
      · exact List.mem_erase_of_ne hne
      · exact Iff.rfl
  · rw [hentries]
    split
    · exact h.nodup.erase _
    · exact h.nodup
  · have hji : j ≠ i := by
      have hcount : r.count ≤ j := hj
      omega
    rw [gens_markDone_ne _ hji, gens_update_ne _ _ hji]
    exact h.absent j hj

/-- The end of a generator is progress if it does not resume the body. -/
lemma progress_markDone (hbody : (f (r.gens i)).body = .running → (r.gens i).body = .running) :
    Progress r (markDone i (r.update i f)) :=
  progress_of_one (le_refl _) (fun j hj => by rw [gens_markDone_ne _ hj, gens_update_ne _ _ hj])
    (fun _ => by simp) fun hne hrun => absurd (hbody (by simpa using hrun)) hne

/-- A body that goes on: it waited at a `yield`, and its generator is not done. -/
lemma Inv.resume (h : Inv r) (hbody : (r.gens i).body = .suspended)
    (hdone : (r.gens i).done = false) (via : Via) : Inv (resume i via r) := by
  have hs := h.sound i
  have hidle : i ∉ r.bodies := fun hmem => by simpa [hbody] using hs.running hmem
  have hgen : (Generators.resume i via r).gens i = { r.gens i with body := .running } := by
    simp [Generators.resume, Runner.update]
  have hother {j : ℕ} (hj : j ≠ i) : (Generators.resume i via r).gens j = r.gens j := by
    simp [Generators.resume, Runner.update, hj]
  have hbodies : (Generators.resume i via r).bodies = i :: r.bodies := rfl
  refine ⟨fun j => ?_, h.nodup, ?_, h.known, fun j hj => ?_⟩
  · by_cases hj : j = i
    · subst hj
      refine ⟨by rw [hgen]; exact hs.entry, by rw [hgen]; exact hs.handle, fun e => ?_,
        fun how hend => by simp [hgen] at hend, fun _ => by simp [hgen], fun _ => by simp [hgen]⟩
      have hnone := hs.error e
      rw [hbody] at hnone
      simpa [hgen] using hnone
    · refine (h.sound j).of_eq (hother hj) Iff.rfl fun hb => ?_
      rw [hbodies] at hb
      exact (List.mem_cons.mp hb).resolve_left hj
  · rw [hbodies]
    exact List.nodup_cons.mpr ⟨hidle, h.bodies⟩
  · have hlt := h.lt_count (.inl hdone)
    have hji : j ≠ i := by
      have hcount : r.count ≤ j := hj
      omega
    rw [hother hji]
    exact h.absent j hj

/-- Only a generator that is not done is resumed. -/
lemma progress_resume (hdone : (r.gens i).done = false) (via : Via) :
    Progress r (resume i via r) :=
  @progress_of_one r _ i (le_refl _) (fun j hj => by simp [resume, Runner.update, hj])
    (fun h => by simp [hdone] at h) fun _ _ => hdone

/-- A change of one generator that leaves its handle as it is. -/
lemma Inv.update (h : Inv r) (hi : i < r.count) (hdone : (f (r.gens i)).done = (r.gens i).done)
    (hhandle : (f (r.gens i)).taskHandle = (r.gens i).taskHandle)
    (herror : ∀ e, (f (r.gens i)).error = some e ↔ (f (r.gens i)).body = .ended (.raised e))
    (hended : ∀ how, (f (r.gens i)).body = .ended how → (r.gens i).done = true)
    (hidle : (r.gens i).done = true → (f (r.gens i)).body ≠ .suspended)
    (hrunning : i ∈ r.bodies → (f (r.gens i)).body = .running) : Inv (r.update i f) := by
  have hs := h.sound i
  refine ⟨fun j => ?_, h.nodup, h.bodies, h.known, fun j hj => ?_⟩
  · by_cases hj : j = i
    · subst hj
      refine ⟨?_, ?_, fun e => ?_, fun how hend => ?_, fun hd => ?_, fun hb => ?_⟩
      · rw [gens_update_self, hdone]
        exact hs.entry
      · rw [gens_update_self, hdone, hhandle]
        exact hs.handle
      · rw [gens_update_self]
        exact herror e
      · rw [gens_update_self] at hend ⊢
        rw [hdone]
        exact hended how hend
      · rw [gens_update_self] at hd ⊢
        exact hidle (hdone ▸ hd)
      · rw [gens_update_self]
        exact hrunning hb
    · exact (h.sound j).of_eq (gens_update_ne r f hj) Iff.rfl fun hb => hb
  · have hji : j ≠ i := by
      have hcount : r.count ≤ j := hj
      omega
    rw [gens_update_ne _ _ hji]
    exact h.absent j hj

/-- Where no generator changes there is nothing to show. -/
lemma progress_of_gens (hcount : r'.count = r.count) (hgens : r'.gens = r.gens) :
    Progress r r' where
  count := hcount.ge
  done j _ h := by rwa [hgens]
  resumed j _ hne h := by
    rw [hgens] at h
    exact absurd h hne

/-- Two changes of one generator. -/
lemma update_update (r : Runner) (i : ℕ) (f g : Generator → Generator) :
    (r.update i f).update i g = r.update i fun x => g (f x) := by
  simp [Runner.update]

/-! ## What a method does -/

/-- The invariant afterwards, and progress. -/
structure Steps (r r' : Runner) : Prop where
  inv : Inv r'
  progress : Progress r r'

/-- A frame without a body or a batch is pushed. -/
lemma Inv.callback (h : Inv r) (inTick : Bool) :
    Inv { r with stack := .callback inTick :: r.stack } :=
  h.restack (fun _ hq => hq) (List.Sublist.refl _)

/-- The last call of the stack is given up. -/
lemma Inv.pop (h : Inv r) : Inv { r with stack := r.stack.tail } := by
  refine h.restack (fun j hq => ?_) ?_
  · obtain ⟨frame, hframe, hj⟩ := List.mem_flatMap.mp hq
    exact List.mem_flatMap.mpr ⟨frame, List.mem_of_mem_tail hframe, hj⟩
  · exact (List.tail_sublist r.stack).filterMap _

/-- An exception on its way out changes no generator. -/
lemma steps_raiseInTick (h : Inv r) (error : Raised) : Steps r (raiseInTick error r) := by
  unfold raiseInTick
  split
  · exact ⟨h.callback true, progress_of_gens rfl rfl⟩
  · exact ⟨h.pop, progress_of_gens rfl rfl⟩

@[inherit_doc steps_raiseInTick]
lemma steps_raiseOut (h : Inv r) (via : Via) (error : Raised) :
    Steps r (raiseOut via error r) := by
  unfold raiseOut
  split
  · exact steps_raiseInTick h error
  · unfold raiseInWait
    split
    · exact ⟨h.callback false, progress_of_gens rfl rfl⟩
    · exact ⟨h, Progress.refl r⟩
  · exact ⟨h, Progress.refl r⟩
  · exact ⟨h, Progress.refl r⟩

lemma Steps.trans {r'' : Runner} (h : Steps r r') (h' : Steps r' r'') : Steps r r'' :=
  ⟨h'.inv, h.progress.trans h'.progress⟩

/-- A generator whose body does not wait at a `yield` is marked done. -/
lemma steps_markDone (h : Inv r) (hi : i < r.count) (hbody : (r.gens i).body ≠ .suspended) :
    Steps r (markDone i r) := by
  have hsame : r.update i id = r := by simp [Runner.update]
  have hs := h.sound i
  have hinv := h.markDone hi (f := id) rfl hs.error hbody hs.running
  have hprogress := progress_markDone (r := r) (i := i) (f := id) (fun hrun => hrun)
  rw [hsame] at hinv hprogress
  exact ⟨hinv, hprogress⟩

/-- A body that has ended: nothing but its `error` tells how. -/
lemma steps_ended (h : Inv r) (hi : i < r.count) (hidle : i ∉ r.bodies) {how : Ending}
    (hbody : (f (r.gens i)).body = .ended how)
    (hhandle : (f (r.gens i)).taskHandle = (r.gens i).taskHandle)
    (herror : ∀ e, (f (r.gens i)).error = some e ↔ how = .raised e) :
    Steps r (markDone i (r.update i f)) where
  inv := h.markDone hi hhandle (fun e => by rw [herror e, hbody, Body.ended.injEq])
    (by simp [hbody]) fun hb => absurd hb hidle
  progress := progress_markDone fun hrun => by simp [hbody] at hrun

/-- The handler of a queued generator, whose body is not running. -/
lemma steps_advance (h : Inv r) (hi : i < r.count) (hbody : (r.gens i).body ≠ .running)
    (hdone : (r.gens i).body = .suspended → (r.gens i).done = false) :
    Steps r (advance i r) := by
  unfold advance
  split
  · next hsus => exact ⟨h.resume hsus (hdone hsus) .handle, progress_resume (hdone hsus) .handle⟩
  · next hrun => exact absurd hrun hbody
  · next how hend => exact steps_markDone h hi (by simp [hend])

/-- A socket error that reaches a generator which is not done and whose body is not running. -/
lemma steps_advanceThrow (h : Inv r) (hdone : (r.gens i).done = false)
    (hbody : (r.gens i).body ≠ .running) : Steps r (advanceThrow i r) := by
  unfold advanceThrow
  split
  · next hsus => exact ⟨h.resume hsus hdone .ioError, progress_resume hdone .ioError⟩
  · next hrun => exact absurd hrun hbody
  · next how hend =>
    have hended := (h.sound i).ended how hend
    simp [hdone] at hended

/-- A cancellation: the body is closed, or the handle is done at once. -/
lemma steps_cancel (h : Inv r) (hi : i < r.count) : Steps r (cancel i r) := by
  have hs := h.sound i
  unfold cancel
  split
  · have hinv : Inv (r.update i fun g => { g with wrapper := false }) :=
      h.update hi rfl rfl hs.error hs.ended hs.idle hs.running
    have hprogress : Progress r (r.update i fun g => { g with wrapper := false }) :=
      progress_of_one (le_refl _) (fun j hj => gens_update_ne r _ hj) (fun hd => by simpa using hd)
        fun hne hrun => absurd (by simpa using hrun) hne
    refine Steps.trans ⟨hinv, hprogress⟩ ?_
    unfold close
    split
    · exact ⟨hinv, Progress.refl _⟩
    · next hdone =>
      rw [Bool.not_eq_true] at hdone
      split
      · next hsus => exact ⟨hinv.resume hsus hdone .close, progress_resume hdone .close⟩
      · next hrun => exact steps_markDone hinv hi fun hsus => by cases hrun.symm.trans hsus
      · next how hend => exact steps_markDone hinv hi fun hsus => by cases hend.symm.trans hsus
  · exact ⟨h, Progress.refl r⟩

/-- A new generator: its entry is the last, and its body is under way. -/
lemma steps_addGenerator (h : Inv r) : Steps r (addGenerator r) := by
  have hnew : (addGenerator r).gens r.count =
      ⟨.running, false, none, true, false, true⟩ := by simp [addGenerator]
  have hold {j : ℕ} (hj : j ≠ r.count) : (addGenerator r).gens j = r.gens j := by
    simp [addGenerator, hj]
  have hentry : Task.gen r.count ∉ r.entries := fun hmem => by
    have hdone := (h.sound r.count).entry.mp hmem
    simp [h.absent r.count (le_refl _), Generator.absent] at hdone
  have hidle : r.count ∉ r.bodies := fun hmem => by
    have hrun := (h.sound r.count).running hmem
    simp [h.absent r.count (le_refl _), Generator.absent] at hrun
  have hbodies : (addGenerator r).bodies = r.count :: r.bodies := rfl
  refine ⟨⟨fun j => ?_, ?_, ?_, fun j hq => ?_, fun j hj => ?_⟩, ⟨Nat.le_succ _, ?_, ?_⟩⟩
  · by_cases hj : j = r.count
    · subst hj
      exact ⟨by simp [addGenerator], by simp [hnew], by simp [hnew], by simp [hnew],
        by simp [hnew], by simp [hnew]⟩
    · refine (h.sound j).of_eq (hold hj) ?_ fun hb => ?_
      · simp [addGenerator, hj]
      · rw [hbodies] at hb
        exact (List.mem_cons.mp hb).resolve_left hj
  · exact h.nodup.append (List.nodup_singleton _) (by simpa using hentry)
  · rw [hbodies]
    exact List.nodup_cons.mpr ⟨hidle, h.bodies⟩
  · exact (h.known j hq).trans (Nat.lt_succ_self _)
  · have hlt : r.count < j := hj
    rw [hold (by omega)]
    exact h.absent j (by omega)
  · intro j hj hdone
    rwa [hold (by omega)]
  · intro j hj hne hrun
    rw [hold (by omega)] at hrun
    exact absurd hrun hne

/-- The entries of other tasks. -/
lemma steps_entries (h : Inv r) {entries : List Task} (hnodup : entries.Nodup)
    (hgen : ∀ j, Task.gen j ∈ entries ↔ Task.gen j ∈ r.entries) : Steps r { r with entries } :=
  ⟨⟨fun j => (h.sound j).of_eq rfl (hgen j) fun hb => hb, hnodup, h.bodies, h.known, h.absent⟩,
    progress_of_gens rfl rfl⟩

/-- A tick collects entries, and so generators that are not done. -/
lemma Inv.tick (h : Inv r) {batch : List Task} (hbatch : batch.Sublist r.entries) :
    Inv { r with stack := .tick batch :: r.stack } := by
  have hlive {j : ℕ} (hj : .gen j ∈ batch) : (r.gens j).done = false :=
    (h.sound j).entry.mp (hbatch.subset hj)
  have hqueued : ({ r with stack := .tick batch :: r.stack } : Runner).queued =
      batch ++ r.queued := rfl
  refine ⟨fun j => (h.sound j).of_eq rfl Iff.rfl fun hb => hb, h.nodup, h.bodies, fun j hq => ?_,
    h.absent⟩
  rw [hqueued, List.mem_append] at hq
  obtain hnow | hbefore := hq
  · exact h.lt_count (.inl (hlive hnow))
  · exact h.known j hbefore

/-! ## One step -/

/-- A call of user code. -/
lemma steps_call (h : Inv r) (hallowed : Allowed r action) (hcall : call r action = some r') :
    Steps r r' := by
  cases action with
  | addGenerator =>
    cases hcall
    exact steps_addGenerator h
  | cancel i =>
    simp only [call, Option.ite_none_right_eq_some, Option.some.injEq] at hcall
    obtain ⟨hi, rfl⟩ := hcall
    exact steps_cancel h hi
  | add k =>
    simp only [call, Option.ite_none_left_eq_some, Option.some.injEq] at hcall
    obtain ⟨hnew, rfl⟩ := hcall
    refine steps_entries h ?_ fun j => by simp
    exact h.nodup.append (List.nodup_singleton _) (by simpa using hnew)
  | remove k =>
    cases hcall
    exact steps_entries h (h.nodup.erase _) fun j => List.mem_erase_of_ne (by simp)
  | tick batch =>
    simp only [call] at hcall
    split_ifs at hcall with hticking hbatch
    · cases hcall
      exact ⟨h, Progress.refl r⟩
    · cases hcall
      exact ⟨h.tick hbatch.1, progress_of_gens rfl rfl⟩
  | ioError i =>
    simp only [call, Option.ite_none_right_eq_some, Option.some.injEq] at hcall
    obtain ⟨⟨hentry, -⟩, rfl⟩ := hcall
    exact steps_advanceThrow h ((h.sound i).entry.mp hentry) hallowed
  | yields => cases hcall
  | returns => cases hcall
  | raises error => cases hcall
  | next => cases hcall

/-- The stack below the call that has ended. -/
lemma Inv.below (h : Inv r) {frame : Frame} (hstack : r.stack = frame :: stack) :
    Inv { r with stack } := by
  have hpop := h.pop
  rwa [hstack] at hpop

/-- The call of a body that is on top: it is running, and no other call runs it. -/
lemma Inv.top (h : Inv r) (hstack : r.stack = .body i via :: stack) :
    (r.gens i).body = .running ∧ i ∉ ({ r with stack } : Runner).bodies ∧
      ∀ e, (r.gens i).error ≠ some e := by
  have hbodies : r.bodies = i :: ({ r with stack } : Runner).bodies := by
    simp [Runner.bodies, hstack, Frame.body?]
  have hrun : (r.gens i).body = .running := (h.sound i).running (by simp [hbodies])
  refine ⟨hrun, ?_, fun e he => ?_⟩
  · have hnodup := h.bodies
    rw [hbodies] at hnodup
    exact (List.nodup_cons.mp hnodup).1
  · have hend := ((h.sound i).error e).mp he
    simp [hrun] at hend

/-- A body that yields: its generator waits. -/
lemma steps_yields (h : Inv r) (hstack : r.stack = .body i via :: stack) (hclose : via ≠ .close)
    (hdone : (r.gens i).done = false) : Steps r (bodyYields i via { r with stack }) := by
  obtain ⟨hrun, hidle, hnone⟩ := h.top hstack
  have hyields : bodyYields i via { r with stack } =
      ({ r with stack } : Runner).update i fun g =>
        { g with body := .suspended, waiting := true } := by
    cases via <;> simp_all [bodyYields]
  rw [hyields]
  refine Steps.trans ⟨h.below hstack, progress_of_gens rfl rfl⟩ ⟨?_, ?_⟩
  · exact (h.below hstack).update (h.lt_count (.inr hrun)) rfl rfl (fun e => by simp [hnone])
      (fun how hend => by cases hend) (fun hd => nomatch hdone.symm.trans hd)
      fun hb => absurd hb hidle
  · exact progress_of_one (le_refl _) (fun j hj => gens_update_ne _ _ hj)
      (fun hd => by simpa using hd) fun _ hyield => by simp at hyield

/-- A body that ends without raising, or by the `GeneratorExit` it was closed with. -/
lemma steps_ends (h : Inv r) {how : Ending} (hstack : r.stack = .body i via :: stack)
    (hhow : ∀ e, how ≠ .raised e) :
    Steps r (markDone i (({ r with stack } : Runner).update i fun g =>
      { g with body := .ended how })) := by
  obtain ⟨hrun, hidle, hnone⟩ := h.top hstack
  refine Steps.trans ⟨h.below hstack, progress_of_gens rfl rfl⟩ ?_
  exact steps_ended (h.below hstack) (h.lt_count (.inr hrun)) hidle rfl rfl
    fun e => by simp [hnone e, hhow e]

/-- A body that raises. -/
lemma steps_raises (h : Inv r) {error : Raised} (hstack : r.stack = .body i via :: stack)
    (hexit : via = .close → error = .generatorExit) :
    Steps r (bodyRaises i via error { r with stack }) := by
  by_cases hclose : via = .close
  · subst hclose
    have hraises : bodyRaises i .close error { r with stack } =
        markDone i (({ r with stack } : Runner).update i fun g =>
          { g with body := .ended .exited }) := by
      simp [bodyRaises, hexit rfl]
    rw [hraises]
    exact steps_ends h hstack fun e => by simp
  · have hraises : bodyRaises i via error { r with stack } =
        raiseOut via error (markDone i (({ r with stack } : Runner).update i fun g =>
          { g with body := .ended (.raised error), error := some error })) := by
      cases via with
      | close => exact absurd rfl hclose
      | _ => simp only [bodyRaises, died, update_update]
    obtain ⟨hrun, hidle, -⟩ := h.top hstack
    have hended : Steps { r with stack } (markDone i (({ r with stack } : Runner).update i fun g =>
        { g with body := .ended (.raised error), error := some error })) :=
      steps_ended (h.below hstack) (h.lt_count (.inr hrun)) hidle rfl rfl fun e => by simp
    rw [hraises]
    refine Steps.trans ⟨h.below hstack, progress_of_gens rfl rfl⟩ (hended.trans ?_)
    exact steps_raiseOut hended.inv via error

/-- The end of user code. -/
lemma steps_finish (h : Inv r) (hallowed : Allowed r action) (hfinish : finish r action = some r') :
    Steps r r' := by
  cases action with
  | yields =>
    simp only [finish] at hfinish
    split at hfinish
    · next i via stack hstack =>
      cases hfinish
      obtain ⟨hclose, hdone⟩ := hallowed i via stack hstack
      exact steps_yields h hstack hclose hdone
    · cases hfinish
  | returns =>
    simp only [finish] at hfinish
    split at hfinish
    · next i via stack hstack =>
      cases hfinish
      exact steps_ends h hstack fun e => by simp
    · next k stack hstack =>
      cases hfinish
      exact ⟨h.below hstack, progress_of_gens rfl rfl⟩
    · next inTick stack hstack =>
      cases hfinish
      exact ⟨h.below hstack, progress_of_gens rfl rfl⟩
    · cases hfinish
  | raises error =>
    simp only [finish] at hfinish
    split at hfinish
    · next i via stack hstack =>
      cases hfinish
      exact steps_raises h hstack fun hclose => hallowed i stack (hclose ▸ hstack)
    · next k stack hstack =>
      cases hfinish
      exact Steps.trans ⟨h.below hstack, progress_of_gens rfl rfl⟩
        (steps_raiseInTick (h.below hstack) error)
    · next inTick stack hstack =>
      cases hfinish
      refine Steps.trans ⟨h.below hstack, progress_of_gens rfl rfl⟩ ?_
      unfold callbackRaises
      split_ifs
      · exact ⟨h.below hstack, Progress.refl _⟩
      · exact ⟨(h.below hstack).pop, progress_of_gens rfl rfl⟩
      · exact ⟨h.below hstack, Progress.refl _⟩
    · cases hfinish
  | addGenerator => cases hfinish
  | cancel i => cases hfinish
  | add k => cases hfinish
  | remove k => cases hfinish
  | tick batch => cases hfinish
  | ioError i => cases hfinish
  | next => cases hfinish

/-- A round of a tick. A generator that waits at a `yield` is not done. -/
lemma steps_next (h : Inv r) (hallowed : Allowed r .next) (hnext : nextRound r = some r') :
    Steps r r' := by
  unfold nextRound at hnext
  split at hnext
  · next stack hstack =>
    cases hnext
    exact ⟨h.below hstack, progress_of_gens rfl rfl⟩
  · next k batch stack hstack =>
    cases hnext
    refine ⟨h.restack (fun j hq => ?_) ?_, progress_of_gens rfl rfl⟩
    · simp only [Runner.queued, hstack, List.flatMap_cons, List.nil_append, List.mem_append] at hq ⊢
      exact hq.imp_left fun hj => List.mem_cons_of_mem _ hj
    · rw [Runner.bodies, Runner.bodies, hstack]
      exact List.Sublist.refl _
  · next i batch stack hstack =>
    cases hnext
    have hrest : Inv { r with stack := .tick batch :: stack } := by
      refine h.restack (fun j hq => ?_) ?_
      · simp only [Runner.queued, hstack, List.flatMap_cons, List.mem_append] at hq ⊢
        exact hq.imp_left fun hj => List.mem_cons_of_mem _ hj
      · rw [Runner.bodies, Runner.bodies, hstack]
        exact List.Sublist.refl _
    have hqueued : .gen i ∈ r.queued := by simp [Runner.queued, hstack]
    refine Steps.trans ⟨hrest, progress_of_gens rfl rfl⟩ ?_
    refine steps_advance hrest (h.known i hqueued) (hallowed i batch stack hstack) fun hsus => ?_
    rw [← Bool.not_eq_true]
    exact fun hdone => (h.sound i).idle hdone hsus
  · cases hnext

/-- **One allowed step** keeps the invariant, never takes `done` back, and never resumes the body of
a generator that is done. -/
theorem inv_step (h : Inv r) (hallowed : Allowed r action) (hstep : step r action = some r') :
    Steps r r' := by
  unfold step at hstep
  split at hstep
  · exact steps_next h hallowed hstep
  · exact steps_finish h hallowed hstep
  · exact steps_finish h hallowed hstep
  · exact steps_finish h hallowed hstep
  · split_ifs at hstep
    exact steps_call h hallowed hstep

end Steps

/-! ## Runs -/

/-- A new runner has no generators. -/
lemma inv_new : Inv .new where
  sound i := by
    refine ⟨?_, ?_, ?_, ?_, ?_, ?_⟩ <;>
      simp [Runner.new, Generator.absent, Runner.bodies]
  nodup := List.nodup_nil
  bodies := List.nodup_nil
  known i hq := by simp [Runner.new, Runner.queued] at hq
  absent i _ := rfl

/-- **Every run of allowed steps** keeps the invariant. -/
lemma Reaches.inv {r : Runner} (h : Reaches Allowed r) : Inv r := by
  induction h with
  | new => exact inv_new
  | step action reached ok next ih => exact (inv_step ih ok next).inv

/-- **The life of a generator task**, in every run of allowed steps: the runner holds one entry for
it exactly while it is not done, its error is set exactly if its body has raised, and a generator
that is done does not wait at a `yield`, where Python could resume it to finalize it. From there no
allowed step takes `done` back or resumes the body of a generator that is done. -/
theorem generator_lifecycle (r : Runner) (h : Reaches Allowed r) :
    (∀ i < r.count,
      r.entries.count (.gen i) = (if (r.gens i).done then 0 else 1) ∧
      (∀ e, (r.gens i).error = some e ↔ (r.gens i).body = .ended (.raised e)) ∧
      ((r.gens i).done = true → (r.gens i).body ≠ .suspended)) ∧
    ∀ action r', Allowed r action → step r action = some r' → ∀ i < r.count,
      ((r.gens i).done = true → (r'.gens i).done = true) ∧
      ((r.gens i).body ≠ .running → (r'.gens i).body = .running → (r.gens i).done = false) := by
  refine ⟨fun i hi => ⟨?_, (h.inv.sound i).error, (h.inv.sound i).idle⟩,
    fun action r' hallowed hstep i hi => ?_⟩
  · have hentry := (h.inv.sound i).entry
    cases hdone : (r.gens i).done with
    | true =>
      rw [hdone] at hentry
      exact List.count_eq_zero.mpr fun hmem => by simp [hentry] at hmem
    | false => exact List.count_eq_one_of_mem h.inv.nodup (hentry.mpr hdone)
  · have hsteps := inv_step h.inv hallowed hstep
    exact ⟨hsteps.progress.done i hi, hsteps.progress.resumed i hi⟩

/-- The state after a list of steps. -/
def runSteps (r : Runner) (actions : List Action) : Option Runner := actions.foldlM step r

/-- Any list of steps is a run. -/
lemma Reaches.runSteps {r r' : Runner} {actions : List Action}
    (h : Reaches (fun _ _ => True) r) (hrun : runSteps r actions = some r') :
    Reaches (fun _ _ => True) r' := by
  induction actions generalizing r with
  | nil =>
    cases hrun
    exact h
  | cons action actions ih =>
    obtain ⟨s, hs, hrest⟩ := Option.bind_eq_some_iff.mp hrun
    exact ih (.step action h trivial hs) hrest

/-- A generator is added, yields, and returns when a tick resumes it: it is done, without an error
and without an entry. -/
theorem generator_lifecycle_returned :
    ∃ r, runSteps .new [.addGenerator, .yields, .tick [.gen 0], .next, .returns] = some r ∧
      (r.gens 0).done = true ∧ r.entries.count (.gen 0) = 0 ∧ ∀ e, (r.gens 0).error ≠ some e := by
  let waits : Runner := (runSteps .new [.addGenerator, .yields]).getD .new
  let resumed : Runner := (runSteps waits [.tick [.gen 0], .next]).getD .new
  have hadded : Reaches Allowed (addGenerator .new) := .step .addGenerator .new trivial rfl
  have hwaits : Reaches Allowed waits := by
    refine .step .yields hadded (fun i via stack hstack => ?_) rfl
    cases hstack
    exact ⟨by decide, by simp [addGenerator]⟩
  have hresumed : Reaches Allowed resumed := by
    have hcollected := Reaches.step (.tick [.gen 0]) hwaits trivial rfl
    refine .step .next hcollected (fun i batch stack hstack => ?_) rfl
    cases hstack
    decide
  obtain ⟨hcount, herror, -⟩ :=
    (generator_lifecycle _ (.step .returns hresumed trivial rfl)).1 0 Nat.one_pos
  refine ⟨_, rfl, rfl, hcount, fun e he => ?_⟩
  cases (herror e).mp he

/-- **A generator that raises while it is cancelled** is done with no error, and one that answers
its cancellation by a `yield`, while the tick under way has queued its handler, is resumed by it
when it is done. -/
theorem cancelled_without_error :
    (¬ ∀ r, Reaches (fun _ _ => True) r → ∀ i < r.count, ∀ e,
      (r.gens i).error = some e ↔ (r.gens i).body = .ended (.raised e)) ∧
    ¬ ∀ r, Reaches (fun _ _ => True) r → ∀ action r', step r action = some r' → ∀ i < r.count,
      (r.gens i).body ≠ .running → (r'.gens i).body = .running → (r.gens i).done = false := by
  let cleanup : Raised := .exception (.valueError "cleanup")
  let failing : List Action := [.addGenerator, .yields, .cancel 0, .raises cleanup]
  let stubborn : List Action := [.addGenerator, .yields, .addGenerator, .yields,
    .tick [.gen 0, .gen 1], .next, .cancel 1, .yields, .yields]
  refine ⟨fun h => ?_, fun h => ?_⟩
  · obtain ⟨r, hr⟩ : ∃ r, runSteps .new failing = some r := ⟨_, rfl⟩
    have hrun := h r (Reaches.new.runSteps hr) 0 (by cases hr; decide) cleanup
    cases hr
    exact absurd (hrun.mpr rfl) (by decide)
  · obtain ⟨r, hr⟩ : ∃ r, runSteps .new stubborn = some r := ⟨_, rfl⟩
    obtain ⟨r', hr'⟩ : ∃ r', step r .next = some r' := by cases hr; exact ⟨_, rfl⟩
    have hdone := h r (Reaches.new.runSteps hr) .next r' hr' 1 (by cases hr; decide)
      (by cases hr; decide) (by cases hr; cases hr'; rfl)
    cases hr
    exact absurd hdone (by decide)

end ChuMicro.Generators
