import ChuMicro.Workspace.Markers

/-!
# Markers come in order, name by name

Whatever a producer and a consumer do with a `MarkerQueue`, step by step in any order: the markers
of a name are returned in the order in which they arrived, and those not returned yet are still
there.

## Main definitions

* `Markers.Event.Fair` — what a call may return after what has happened.
* `Markers.Watch.Inv` — the invariant: what was returned and what is left, name by name.

## Main results

* `Markers.Watch.Inv.step` — every step keeps it.
* `Markers.fifo` — the order of the markers of each name.
-/

namespace ChuMicro.Markers

/-! ## Histories -/

/-- The markers of a name. -/
def named (name : Str) (markers : List Marker) : List Marker := markers.filter (·.name = name)

/-- The marker that an event puts into the queue. -/
def Event.arrival : Event → Option Marker
  | .arrived marker => some marker
  | _ => none

/-- The marker that an event gives to the consumer. -/
def Event.return : Event → Option Marker
  | .returned _ marker => some marker
  | _ => none

/-- The markers that have arrived. -/
def arrivals (history : List Event) : List Marker := history.filterMap Event.arrival

/-- The markers that have been returned. -/
def returns (history : List Event) : List Marker := history.filterMap Event.return

/-- What a call may do after a history: it returns the oldest marker of its name that has not been
returned, and a `poll` finds nothing only where all of that name have been. -/
def Event.Fair (before : List Event) : Event → Prop
  | .returned call marker =>
    marker.name = call.name ∧
      named call.name (returns before) ++ [marker] <+: named call.name (arrivals before)
  | .nothing name => named name (returns before) = named name (arrivals before)
  | _ => True

/-- Every event of a history is fair. -/
def Fair (history : List Event) : Prop :=
  ∀ before event behind, history = before ++ event :: behind → event.Fair before

section Histories

variable {name : Str} {markers : List Marker} {marker : Marker} {history : List Event} {event : Event}

@[simp] lemma named_append (name : Str) (l l' : List Marker) :
    named name (l ++ l') = named name l ++ named name l' := List.filter_append ..

@[simp] lemma named_nil (name : Str) : named name [] = [] := rfl

lemma named_cons (name : Str) (marker : Marker) (markers : List Marker) :
    named name (marker :: markers) =
      if marker.name = name then marker :: named name markers else named name markers := by
  simp [named, List.filter_cons]

lemma named_eq_nil : named name markers = [] ↔ ∀ m ∈ markers, m.name ≠ name := by
  simp [named, List.filter_eq_nil_iff]

@[simp] lemma arrivals_append (h h' : List Event) : arrivals (h ++ h') = arrivals h ++ arrivals h' :=
  List.filterMap_append ..

@[simp] lemma returns_append (h h' : List Event) : returns (h ++ h') = returns h ++ returns h' :=
  List.filterMap_append ..

lemma fair_nil : Fair [] := by
  intro before event behind h
  simp at h

/-- One more event. -/
lemma Fair.concat (h : Fair history) (hevent : event.Fair history) : Fair (history ++ [event]) := by
  intro before event' behind heq
  rcases List.eq_nil_or_concat behind with rfl | ⟨behind, last, rfl⟩
  · obtain ⟨rfl, hlast⟩ := List.append_inj' heq rfl
    exact (List.cons.inj hlast).1 ▸ hevent
  · rw [List.concat_eq_append, ← List.cons_append, ← List.append_assoc] at heq
    exact h before event' behind (List.append_inj' heq rfl).1

/-- The oldest marker of a name goes. -/
lemma named_eraseP_of_find? (h : markers.find? (·.name = name) = some marker) :
    marker.name = name ∧
      named name markers = marker :: named name (markers.eraseP (·.name = name)) := by
  induction markers with
  | nil => simp at h
  | cons m markers ih =>
    by_cases hm : m.name = name
    · rw [List.find?_cons_of_pos (by simpa using hm), Option.some.injEq] at h
      subst h
      rw [named_cons, if_pos hm, List.eraseP_cons_of_pos (by simpa using hm)]
      exact ⟨hm, rfl⟩
    · rw [List.find?_cons_of_neg (by simpa using hm)] at h
      obtain ⟨hname, heq⟩ := ih h
      rw [named_cons, if_neg hm, List.eraseP_cons_of_neg (by simpa using hm), named_cons, if_neg hm]
      exact ⟨hname, heq⟩

/-- The markers of the other names stay. -/
lemma named_eraseP_of_ne {other : Str} (h : other ≠ name) :
    named other (markers.eraseP (·.name = name)) = named other markers := by
  induction markers with
  | nil => rfl
  | cons m markers ih =>
    by_cases hm : m.name = name
    · rw [List.eraseP_cons_of_pos (by simpa using hm), named_cons,
        if_neg fun heq => h (heq.symm.trans hm)]
    · rw [List.eraseP_cons_of_neg (by simpa using hm), named_cons, named_cons, ih]

/-- Lists with the same markers of every name are the same but for the order of the names. -/
lemma perm_of_named {l l' : List Marker} (h : ∀ name, named name l = named name l') : l.Perm l' := by
  rw [List.perm_iff_count]
  intro m
  have hcount : ∀ l : List Marker, (named m.name l).count m = l.count m := fun l =>
    List.count_filter (by simp)
  rw [← hcount l, ← hcount l', h]

end Histories

/-! ## The invariant -/

/-- **The invariant.** Name by name, what has been returned and what is still there, the retained
markers before those in the queue, is what has arrived; what the consumer waits for is not retained;
and every event was fair. -/
structure Watch.Inv (w : Watch) : Prop where
  balanced : ∀ name, named name (returns w.history) ++ named name (w.deferred ++ w.queue) =
    named name (arrivals w.history)
  waiting : ∀ call, w.call = some call → named call.name w.deferred = []
  fair : Fair w.history

namespace Watch

variable {w w' : Watch} {call : Call} {marker : Marker} {q : MarkerQueue} {name : Str}

lemma inv_new : new.Inv where
  balanced _ := rfl
  waiting _ h := by cases h
  fair := fair_nil

/-- A marker arrives. -/
lemma Inv.arrive (h : w.Inv) (hqueue : q.queue = w.queue ++ [marker])
    (hdeferred : q.deferred = w.deferred) :
    Inv { q with call := w.call, history := w.history ++ [Event.arrived marker] } where
  balanced name := by
    have hbalanced := h.balanced name
    simp only [hqueue, hdeferred, named_append, returns_append, arrivals_append] at hbalanced ⊢
    simp only [returns, arrivals, List.filterMap_cons, List.filterMap_nil, Event.return,
      Event.arrival, named_nil, List.append_nil] at hbalanced ⊢
    rw [← hbalanced]
    simp only [List.append_assoc]
  waiting call hcall := by
    rw [hdeferred]
    exact h.waiting call hcall
  fair := h.fair.concat trivial

/-- A call returns the oldest marker of its name, from wherever it was. -/
lemma Inv.give (h : w.Inv) (hname : marker.name = call.name)
    (holdest : named call.name (w.deferred ++ w.queue) =
      marker :: named call.name (q.deferred ++ q.queue))
    (hothers : ∀ name, name ≠ call.name →
      named name (q.deferred ++ q.queue) = named name (w.deferred ++ w.queue)) :
    (w.finish q (.returned call marker)).Inv where
  balanced name := by
    have hbalanced := h.balanced name
    simp only [finish, returns_append, arrivals_append, named_append name (returns _)]
    simp only [returns, arrivals, List.filterMap_cons, List.filterMap_nil, Event.return,
      Event.arrival, List.append_nil, List.append_assoc] at hbalanced ⊢
    rw [← hbalanced]
    congr 1
    by_cases hcall : name = call.name
    · rw [hcall, holdest, named_cons, if_pos hname]
      rfl
    · rw [hothers name hcall, named_cons, if_neg fun heq => hcall (heq.symm.trans hname)]
      rfl
  waiting _ hcall := by cases hcall
  fair := by
    refine h.fair.concat ⟨hname, ?_⟩
    rw [← h.balanced call.name, holdest]
    exact ⟨named call.name (q.deferred ++ q.queue), by simp⟩

/-- A call ends without a marker: a `poll` only where all of its name have been returned. -/
lemma Inv.quit {event : Event} (h : w.Inv) (hreturn : event.return = none)
    (harrival : event.arrival = none) (hfair : event.Fair w.history) :
    (w.finish w.toMarkerQueue event).Inv where
  balanced name := by
    simp only [finish, returns_append, arrivals_append]
    simp only [returns, arrivals, List.filterMap_cons, List.filterMap_nil, hreturn, harrival,
      List.append_nil]
    exact h.balanced name
  waiting _ hcall := by cases hcall
  fair := h.fair.concat hfair

/-- The consumer starts a call. -/
lemma Inv.start (h : w.Inv) (hstep : w.step (.start call) = some w') : w'.Inv := by
  simp only [Watch.step, MarkerQueue.popDeferred] at hstep
  split at hstep
  · cases hstep
  · cases hfind : w.deferred.find? (·.name = call.name) with
    | some marker =>
      rw [hfind] at hstep
      cases hstep
      obtain ⟨hname, holdest⟩ := named_eraseP_of_find? hfind
      refine h.give hname ?_ fun name hne => ?_
      · rw [named_append, holdest, named_append]
        rfl
      · rw [named_append, named_append, named_eraseP_of_ne hne]
    | none =>
      rw [hfind] at hstep
      cases hstep
      refine ⟨h.balanced, fun call' hcall => ?_, h.fair⟩
      cases hcall
      refine named_eq_nil.mpr fun m hm => ?_
      simpa using List.find?_eq_none.mp hfind m hm

/-- The consumer takes a marker in its loop. -/
lemma Inv.get (h : w.Inv) (hfits : w.Fits .get) (hstep : w.step .get = some w') : w'.Inv := by
  simp only [Watch.step] at hstep
  split at hstep
  · next call marker queue hcall hqueue =>
    have hnone := h.waiting call hcall
    split_ifs at hstep with hname
    · cases hstep
      refine h.give hname ?_ fun name hne => ?_
      · rw [named_append, hnone, hqueue, named_cons, if_pos hname, named_append, hnone]
        rfl
      · rw [named_append, named_append, hqueue, named_cons,
          if_neg fun heq => hne (heq.symm.trans hname)]
    · cases hstep
      -- below the cap nothing is dropped
      have hbelow : ¬ DEFERRED_MARKER_CAP ≤ w.deferred.length := by
        have hroom := hfits (by simp [defers, hcall, hqueue, hname])
        omega
      have hdeferred : (MarkerQueue.defer { w.toMarkerQueue with queue := queue } marker).deferred =
          w.deferred ++ [marker] := by
        simp [MarkerQueue.defer, appendCapped, hbelow]
      refine ⟨fun name => ?_, fun call' hcall' => ?_, h.fair⟩
      · calc named name (returns w.history) ++ named name (_ ++ queue)
          _ = named name (returns w.history) ++ named name (w.deferred ++ [marker] ++ queue) := by
            rw [hdeferred]
          _ = named name (returns w.history) ++ named name (w.deferred ++ w.queue) := by
            rw [hqueue, List.append_assoc]
            rfl
          _ = named name (arrivals w.history) := h.balanced name
      · cases hcall'
        rw [hdeferred, named_append, hnone, named_cons, if_neg hname]
        rfl
  · cases hstep

/-- The consumer finds the queue empty. -/
lemma Inv.empty (h : w.Inv) (hstep : w.step .empty = some w') : w'.Inv := by
  simp only [Watch.step] at hstep
  split at hstep
  · next name hcall hqueue =>
    cases hstep
    refine h.quit rfl rfl ?_
    have hbalanced := h.balanced name
    have hnone := h.waiting _ hcall
    rw [named_append, hqueue, show named name w.deferred = [] from hnone] at hbalanced
    exact (List.append_nil _).symm.trans hbalanced
  · cases hstep
    exact h.quit rfl rfl trivial
  · cases hstep
    exact h
  · cases hstep

/-- **Every step keeps the invariant.** -/
theorem Inv.step {action : Action} (h : w.Inv) (hfits : w.Fits action)
    (hstep : w.step action = some w') : w'.Inv := by
  cases action with
  | push marker =>
    cases hstep
    exact h.arrive rfl rfl
  | offerLine line =>
    simp only [Watch.step, MarkerQueue.offerLine] at hstep
    split at hstep
    · next heq =>
      split at heq
      · cases heq
        cases hstep
        exact h.arrive rfl rfl
      · split_ifs at heq <;> cases heq
    · next heq =>
      split at heq
      · cases heq
      · split_ifs at heq <;> cases heq <;> cases hstep <;> exact ⟨h.balanced, h.waiting, h.fair⟩
  | start call => exact h.start hstep
  | get => exact h.get hfits hstep
  | empty => exact h.empty hstep
  | expire =>
    simp only [Watch.step] at hstep
    split at hstep
    · cases hstep
      exact h.quit rfl rfl trivial
    · cases hstep

/-- An interleaving keeps it. -/
lemma Inv.run {actions : List Action} (h : w.Inv) (hretains : w.Retains actions)
    (hrun : w.run actions = some w') : w'.Inv := by
  induction actions generalizing w with
  | nil =>
    cases hrun
    exact h
  | cons action actions ih =>
    obtain ⟨hfits, hretains⟩ := hretains
    obtain ⟨v, hstep, hrun⟩ := Option.bind_eq_some_iff.mp hrun
    rw [hstep] at hretains
    exact ih (h.step hfits hstep) hretains hrun

end Watch

/-- **First in, first out, name by name.** In every interleaving of a producer's and a consumer's
steps that retains no more markers than the cap, each call that returns a marker returns the oldest
of its name that was not returned before, a `poll` returns nothing only where every marker of its
name that had arrived was returned, and all that has arrived has been returned once or is still
there, in the order of arrival.

**Proof sketch.** The invariant: per name, what was returned, then what is retained, then what is in
the queue is what has arrived. A call retains only markers of other names, so that what it takes
from the queue is the oldest of its own. -/
theorem fifo {actions : List Action} {w : Watch} (hrun : Watch.new.run actions = some w)
    (hretains : Watch.new.Retains actions) :
    Fair w.history ∧ (returns w.history ++ (w.deferred ++ w.queue)).Perm (arrivals w.history) ∧
      ∀ name, named name (returns w.history) ++ named name (w.deferred ++ w.queue) =
        named name (arrivals w.history) := by
  have h := Watch.inv_new.run hretains hrun
  refine ⟨h.fair, perm_of_named fun name => ?_, h.balanced⟩
  rw [named_append]
  exact h.balanced name

/-- Two names whose markers are waited for in the wrong order, a wait that times out while a marker
arrives, and a poll that finds nothing. -/
theorem fifo_twoNames :
    let ready : Marker := ⟨"READY".toList, []⟩
    let done (n : String) : Marker := ⟨"DONE".toList, [("n".toList, n.toList)]⟩
    Fair [.arrived (done "1"), .arrived (done "2"), .timedOut "READY".toList, .arrived ready,
      .returned (.poll "READY".toList) ready, .returned (.poll "DONE".toList) (done "1"),
      .returned (.waitFor "DONE".toList true) (done "2"), .nothing "DONE".toList] := by
  exact (@fifo [.push ⟨"DONE".toList, [("n".toList, "1".toList)]⟩,
    .start (.waitFor "READY".toList false), .get, .offerLine "DONE n=2".toList, .get, .expire,
    .start (.poll "READY".toList), .offerLine "READY\n".toList, .get, .start (.poll "DONE".toList),
    .start (.waitFor "DONE".toList true), .start (.poll "DONE".toList), .empty] _ rfl
    (by decide)).1

end ChuMicro.Markers
