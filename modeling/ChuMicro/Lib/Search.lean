import Mathlib.Algebra.Order.BigOperators.Group.List
import Mathlib.Algebra.Order.Group.Nat
import Mathlib.Algebra.Order.Ring.Nat
import Mathlib.Data.List.Induction
import Mathlib.Data.List.Nodup
import Mathlib.Logic.Relation

/-!
# Searching a graph

A graph is given by what each node leads to, `next : α → Option (List α)`; a node that `next` has no
list for does not exist, though lists may name it.

Programs walk such graphs depth first in several ways: with one list of finished nodes or with lists
that are put together, marking the nodes that do not exist or not. `DepthFirst` is what they have in
common, as rules: what is skipped, what is done one after another, and a node that is finished after
what it leads to. Its results are about any search built from these rules.

`breadthFirst` is the search with a queue.

## Main definitions

* `Search.Edge` — from a node that exists to one that exists.
* `Search.DepthFirst` — a depth-first search from some nodes, from one moment to another.
* `Search.NextFirst` — every node of a list comes after the nodes it leads to.
* `Search.breadthFirst` — a search with a queue.

## Main results

* `Search.DepthFirst.mem_iff`, `Search.DepthFirst.nodup`, `Search.DepthFirst.nextFirst` — a whole
  depth-first search finishes exactly the nodes that are reached, each once, and in a graph without
  cycles every node after the nodes it leads to.
* `Search.breadthFirst_spec` — a search with a queue ends, and finds exactly the nodes that are
  reached, each once.
-/

namespace Search

variable {α : Type}

/-! ## Graphs -/

section Graph

variable (next : α → Option (List α))

/-- A node that exists. -/
def Exists (node : α) : Prop := ∃ nodes, next node = some nodes

/-- A node that exists names another that exists. -/
def Edge (node node' : α) : Prop := ∃ nodes, next node = some nodes ∧ node' ∈ nodes ∧ Exists next node'

/-- Along edges. -/
def Reaches : α → α → Prop := Relation.ReflTransGen (Edge next)

/-- No node leads back to itself. -/
def Acyclic : Prop := ∀ node, ¬ Relation.TransGen (Edge next) node node

/-- Every node of a list comes after the nodes it leads to. -/
def NextFirst (finished : List α) : Prop :=
  ∀ before node after, finished = before ++ node :: after →
    ∀ node', Edge next node node' → node' ∈ before

variable {next}

/-- Where a path leads to a node that exists, it starts at one. -/
lemma Reaches.exists_left {node node' : α} (h : Reaches next node node')
    (hexists : Exists next node') : Exists next node := by
  rcases Relation.ReflTransGen.cases_head h with rfl | ⟨_, ⟨nodes, hnodes, -, -⟩, -⟩
  · exact hexists
  · exact ⟨nodes, hnodes⟩

lemma NextFirst.nil : NextFirst next [] := by
  intro before node after h
  simp at h

/-- A node after what it leads to. -/
lemma NextFirst.append_singleton {finished : List α} (h : NextFirst next finished) {node : α}
    (hnode : ∀ node', Edge next node node' → node' ∈ finished) :
    NextFirst next (finished ++ [node]) := by
  intro before node' after heq
  rcases List.eq_nil_or_concat after with rfl | ⟨after, last, rfl⟩
  · obtain ⟨hbefore, hlast⟩ := List.append_inj' heq rfl
    cases hlast
    rw [← hbefore]
    exact hnode
  · rw [List.concat_eq_append, ← List.cons_append, ← List.append_assoc] at heq
    exact h before node' after (List.append_inj' heq rfl).1

end Graph

/-! ## Depth first -/

/-- A depth-first search from the nodes of `starts`: before it the nodes `visited` had been entered
and `finished` finished, after it `visited'` and `finished'`. What it adds to the finished nodes is
what it enters, and leads nowhere that is not entered. A node in `visited` that is not finished is
one the search is inside of. -/
structure DepthFirst (next : α → Option (List α)) (starts visited finished visited' finished' : List α) :
    Prop where
  grows : visited ⊆ visited'
  started : ∀ node ∈ starts, Exists next node → node ∈ visited'
  adds : ∃ new : List α, finished' = finished ++ new ∧ new.Nodup ∧
    (∀ node ∈ new, node ∉ visited ∧ Exists next node ∧ ∃ start ∈ starts, Reaches next start node) ∧
    (∀ node, Exists next node → (node ∈ visited' ↔ node ∈ visited ∨ node ∈ new)) ∧
    ∀ node ∈ new, ∀ node', Edge next node node' → node' ∈ visited'
  order : Acyclic next → NextFirst next finished →
    (∀ node ∈ visited, Exists next node → node ∉ finished → ∀ start ∈ starts, Exists next start →
      Reaches next node start) → NextFirst next finished'

namespace DepthFirst

variable {next : α → Option (List α)} {visited finished : List α}

/-- **Nothing to search from.** -/
lemma nil : DepthFirst next [] visited finished visited finished where
  grows _ h := h
  started := by simp
  adds := ⟨[], by simp⟩
  order _ h _ := h

variable {node : α}

/-- **A node that was visited or does not exist is skipped**, and may be marked. -/
lemma skip {visited' : List α} (h : Exists next node → node ∈ visited)
    (hvisited : visited' = visited ∨ visited' = node :: visited) :
    DepthFirst next [node] visited finished visited' finished where
  grows := by
    rcases hvisited with rfl | rfl
    · exact fun _ h => h
    · exact List.subset_cons_self _ _
  started := by
    intro node' hmem hexists
    rw [List.mem_singleton] at hmem
    subst hmem
    rcases hvisited with rfl | rfl
    · exact h hexists
    · exact List.mem_cons_self
  adds := by
    refine ⟨[], by simp, List.nodup_nil, by simp, fun node' hexists => ?_, by simp⟩
    rcases hvisited with rfl | rfl
    · simp
    · rw [List.mem_cons]
      constructor
      · rintro (rfl | hmem)
        · exact Or.inl (h hexists)
        · exact Or.inl hmem
      · rintro (hmem | hmem)
        · exact Or.inr hmem
        · cases hmem
  order _ h _ := h

/-- **One start and then the others.** -/
lemma cons {nodes visited₁ finished₁ visited₂ finished₂ : List α}
    (hfirst : DepthFirst next [node] visited finished visited₁ finished₁)
    (hrest : DepthFirst next nodes visited₁ finished₁ visited₂ finished₂) :
    DepthFirst next (node :: nodes) visited finished visited₂ finished₂ := by
  obtain ⟨new₁, rfl, hnodup₁, hnew₁, hmem₁, hclosed₁⟩ := hfirst.adds
  obtain ⟨new₂, rfl, hnodup₂, hnew₂, hmem₂, hclosed₂⟩ := hrest.adds
  refine ⟨fun a ha => hrest.grows (hfirst.grows ha), ?_, ⟨new₁ ++ new₂, by simp, ?_, ?_, ?_, ?_⟩, ?_⟩
  · intro start hstart hexists
    rcases List.mem_cons.mp hstart with rfl | hstart
    · exact hrest.grows (hfirst.started start List.mem_cons_self hexists)
    · exact hrest.started start hstart hexists
  · refine List.nodup_append.mpr ⟨hnodup₁, hnodup₂, fun a ha b hb hab => ?_⟩
    subst hab
    exact (hnew₂ a hb).1 ((hmem₁ a (hnew₁ a ha).2.1).mpr (Or.inr ha))
  · intro a ha
    rcases List.mem_append.mp ha with ha | ha
    · obtain ⟨hnot, hexists, start, hstart, hreach⟩ := hnew₁ a ha
      rw [List.mem_singleton] at hstart
      exact ⟨hnot, hexists, start, List.mem_cons.mpr (Or.inl hstart), hreach⟩
    · obtain ⟨hnot, hexists, start, hstart, hreach⟩ := hnew₂ a ha
      exact ⟨fun h => hnot (hfirst.grows h), hexists, start, List.mem_cons_of_mem _ hstart, hreach⟩
  · intro a hexists
    rw [hmem₂ a hexists, hmem₁ a hexists, List.mem_append, or_assoc]
  · intro a ha a' hedge
    rcases List.mem_append.mp ha with ha | ha
    · exact hrest.grows (hclosed₁ a ha a' hedge)
    · exact hclosed₂ a ha a' hedge
  · intro hacyclic hordered hpending
    refine hrest.order hacyclic (hfirst.order hacyclic hordered fun a ha hexists hnot start hstart =>
      hpending a ha hexists hnot start ?_) fun a ha hexists hnot start hstart => ?_
    · rw [List.mem_singleton] at hstart
      exact List.mem_cons.mpr (Or.inl hstart)
    · rw [List.mem_append, not_or] at hnot
      have ha : a ∈ visited := ((hmem₁ a hexists).mp ha).resolve_right hnot.2
      exact hpending a ha hexists hnot.1 start (List.mem_cons_of_mem _ hstart)

/-- **A node is finished after the search from what it names.** -/
lemma finish {nodes visited' finished' : List α} (hnext : next node = some nodes)
    (hfresh : node ∉ visited)
    (h : DepthFirst next nodes (node :: visited) finished visited' finished') :
    DepthFirst next [node] visited finished visited' (finished' ++ [node]) := by
  obtain ⟨new, rfl, hnodup, hnew, hmem, hclosed⟩ := h.adds
  have hexists : Exists next node := ⟨nodes, hnext⟩
  have hnode : node ∈ visited' := h.grows List.mem_cons_self
  refine ⟨fun a ha => h.grows (List.mem_cons_of_mem _ ha), ?_,
    ⟨new ++ [node], by simp, ?_, ?_, ?_, ?_⟩, ?_⟩
  · intro start hstart _
    rw [List.mem_singleton] at hstart
    exact hstart ▸ hnode
  · refine List.nodup_append.mpr ⟨hnodup, List.nodup_singleton node, fun a ha b hb hab => ?_⟩
    rw [List.mem_singleton] at hb
    exact (hnew a ha).1 (List.mem_cons.mpr (Or.inl (hab.trans hb)))
  · intro a ha
    refine (List.mem_append.mp ha).elim (fun ha => ?_) fun ha => ?_
    · obtain ⟨hnot, haexists, start, hstart, hreach⟩ := hnew a ha
      have hedge : Edge next node start := ⟨nodes, hnext, hstart, hreach.exists_left haexists⟩
      exact ⟨fun hmem => hnot (List.mem_cons_of_mem _ hmem), haexists, node, List.mem_cons_self,
        Relation.ReflTransGen.head hedge hreach⟩
    · rw [List.mem_singleton] at ha
      subst ha
      exact ⟨hfresh, hexists, a, List.mem_cons_self, Relation.ReflTransGen.refl⟩
  · intro a haexists
    rw [hmem a haexists, List.mem_cons, List.mem_append, List.mem_singleton]
    tauto
  · intro a ha a' hedge
    refine (List.mem_append.mp ha).elim (fun ha => hclosed a ha a' hedge) fun ha => ?_
    rw [List.mem_singleton] at ha
    subst ha
    obtain ⟨nodes', hnodes', hmem', hexists'⟩ := hedge
    cases hnext.symm.trans hnodes'
    exact h.started a' hmem' hexists'
  · intro hacyclic hordered hpending
    have hinner : ∀ a ∈ node :: visited, Exists next a → a ∉ finished → ∀ start ∈ nodes,
        Exists next start → Reaches next a start := by
      intro a ha haexists hnot start hstart hsexists
      have hedge : Edge next node start := ⟨nodes, hnext, hstart, hsexists⟩
      rcases List.mem_cons.mp ha with rfl | ha
      · exact Relation.ReflTransGen.single hedge
      · exact (hpending a ha haexists hnot node List.mem_cons_self hexists).tail hedge
    refine (h.order hacyclic hordered hinner).append_singleton fun a hedge => ?_
    have haexists : Exists next a := hedge.choose_spec.2.2
    have hamem : a ∈ visited' := by
      obtain ⟨nodes', hnodes', hmem', -⟩ := hedge
      cases hnext.symm.trans hnodes'
      exact h.started a hmem' haexists
    rw [List.mem_append]
    rcases (hmem a haexists).mp hamem with hold | hnew
    · rcases List.mem_cons.mp hold with rfl | hold
      · exact absurd (Relation.TransGen.single hedge) (hacyclic a)
      · by_contra hnot
        rw [not_or] at hnot
        exact hacyclic node (Relation.TransGen.head' hedge
          (hpending a hold haexists hnot.1 node List.mem_cons_self hexists))
    · exact Or.inr hnew

section Whole

variable {starts visited' finished' : List α}

/-- A whole search finishes each node once. -/
theorem nodup (h : DepthFirst next starts [] [] visited' finished') : finished'.Nodup := by
  obtain ⟨new, rfl, hnodup, -⟩ := h.adds
  exact hnodup

/-- **A whole search finishes exactly the nodes that are reached.** -/
theorem mem_iff (h : DepthFirst next starts [] [] visited' finished') {node : α} :
    node ∈ finished' ↔ Exists next node ∧ ∃ start ∈ starts, Reaches next start node := by
  obtain ⟨new, rfl, -, hnew, hmem, hclosed⟩ := h.adds
  have hin {a : α} (ha : Exists next a) (hvisited : a ∈ visited') : a ∈ finished' :=
    ((hmem a ha).mp hvisited).resolve_left List.not_mem_nil
  have hreached {start : α} (hstart : start ∈ starts) (hsexists : Exists next start) {a : α}
      (hreach : Reaches next start a) : a ∈ finished' := by
    induction hreach with
    | refl => exact hin hsexists (h.started start hstart hsexists)
    | tail hpath hedge ih => exact hin hedge.choose_spec.2.2 (hclosed _ ih _ hedge)
  constructor
  · exact fun hnode => (hnew node hnode).2
  · rintro ⟨hexists, start, hstart, hreach⟩
    exact hreached hstart (hreach.exists_left hexists) hreach

/-- **In a graph without cycles** a whole search finishes each node after the nodes it leads to. -/
theorem nextFirst (h : DepthFirst next starts [] [] visited' finished') (hacyclic : Acyclic next) :
    NextFirst next finished' :=
  h.order hacyclic .nil (by simp)

end Whole

end DepthFirst

/-! ## With a queue -/

section BreadthFirst

variable [DecidableEq α] (depsOf : α → List α)

/-- The search with a queue: the first of the queue is taken off, and where it was not found before
it is found now, and those it leads to that were not found are queued. -/
def breadthFirst : ℕ → List α → List α → Option (List α)
  | 0, _, _ => none
  | _ + 1, found, [] => some found
  | fuel + 1, found, node :: queue =>
    if node ∈ found then breadthFirst fuel found queue
    else
      breadthFirst fuel (found ++ [node])
        (queue ++ (depsOf node).filter fun node' => node' ∉ found ++ [node])

/-- Along what nodes lead to, whether it exists or not. -/
def Leads : α → α → Prop := Relation.ReflTransGen fun node node' => node' ∈ depsOf node

variable {depsOf}

variable {found queue support : List α} {node : α} {starts : List α}

/-- More fuel changes no result. -/
lemma breadthFirst_mono {fuel : ℕ} {result : List α}
    (h : breadthFirst depsOf fuel found queue = some result) {fuel' : ℕ} (hle : fuel ≤ fuel') :
    breadthFirst depsOf fuel' found queue = some result := by
  induction fuel generalizing found queue fuel' with
  | zero => cases h
  | succ fuel ih =>
    obtain ⟨fuel', rfl⟩ : ∃ n, fuel' = n + 1 := ⟨fuel' - 1, by omega⟩
    cases queue with
    | nil => exact h
    | cons node queue =>
      rw [breadthFirst] at h ⊢
      split at h
      · next hmem =>
        rw [if_pos hmem]
        exact ih h (by omega)
      · next hmem =>
        rw [if_neg hmem]
        exact ih h (by omega)

/-- What the search has still to do: the queue, and the lists of the nodes of `support` that were
not found. -/
def remaining (depsOf : α → List α) (support found queue : List α) : ℕ :=
  queue.length + ((support.filter fun node => node ∉ found).map fun node => (depsOf node).length).sum

/-- Finding a node makes what is left smaller by its list. -/
lemma remaining_found (hnodup : support.Nodup) (hsupport : node ∉ support → depsOf node = [])
    (hnode : node ∉ found) :
    remaining depsOf support (found ++ [node])
      (queue ++ (depsOf node).filter fun node' => node' ∉ found ++ [node]) ≤
        remaining depsOf support found queue := by
  have hqueue : ((depsOf node).filter fun node' => node' ∉ found ++ [node]).length ≤
      (depsOf node).length := List.length_filter_le _ _
  have hsum : ((support.filter fun a => a ∉ found ++ [node]).map fun a => (depsOf a).length).sum +
      (depsOf node).length ≤
        ((support.filter fun a => a ∉ found).map fun a => (depsOf a).length).sum := by
    by_cases hmem : node ∈ support
    · have hperm := List.perm_cons_erase hmem
      have hsplit (l : List α) : ((support.filter fun a => a ∉ l).map fun a =>
          (depsOf a).length).sum = (((node :: support.erase node).filter fun a => a ∉ l).map fun a =>
            (depsOf a).length).sum :=
        ((hperm.filter _).map _).sum_nat
      have hrest : (support.erase node).filter (fun a => a ∉ found ++ [node]) =
          (support.erase node).filter fun a => a ∉ found := by
        apply List.filter_congr
        intro a ha
        have hne : a ≠ node := fun h => hnodup.not_mem_erase (h ▸ ha)
        simp [hne]
      rw [hsplit, hsplit, List.filter_cons_of_neg (by simp), List.filter_cons_of_pos (by simpa), hrest,
        List.map_cons, List.sum_cons, Nat.add_comm]
    · rw [hsupport hmem, List.length_nil, Nat.add_zero]
      apply List.Sublist.sum_le_sum
      · refine (List.monotone_filter_right _ fun a ha => ?_).map _
        simp only [List.mem_append, decide_eq_true_eq, not_or] at ha ⊢
        exact ha.1
      · simp
  rw [remaining, remaining, List.length_append]
  omega

/-- **The search ends** with enough fuel.

**Proof sketch.** Induction on the fuel: taking a node off the queue makes what is left smaller, as
what a found node queues was counted before. -/
lemma breadthFirst_ends (hnodup : support.Nodup)
    (hsupport : ∀ node, node ∉ support → depsOf node = []) (fuel : ℕ) (found queue : List α)
    (h : remaining depsOf support found queue < fuel) :
    ∃ result, breadthFirst depsOf fuel found queue = some result := by
  induction fuel generalizing found queue with
  | zero => omega
  | succ fuel ih =>
    cases queue with
    | nil => exact ⟨found, rfl⟩
    | cons node queue =>
      have hcons : remaining depsOf support found (node :: queue) =
          remaining depsOf support found queue + 1 := by
        rw [remaining, remaining, List.length_cons]
        omega
      rw [breadthFirst]
      split
      · exact ih found queue (by omega)
      · next hmem =>
        have hless : remaining depsOf support (found ++ [node])
            (queue ++ (depsOf node).filter fun node' => node' ∉ found ++ [node]) ≤
              remaining depsOf support found queue := remaining_found hnodup (hsupport node) hmem
        exact ih _ _ (by omega)

/-- Where a search stands that began with `starts`: each node found once, what is found or queued is
reached, and what a found node leads to is found or queued. -/
structure Searching (depsOf : α → List α) (starts found queue : List α) : Prop where
  nodup : found.Nodup
  started : ∀ start ∈ starts, start ∈ found ∨ start ∈ queue
  reached : ∀ node, node ∈ found ∨ node ∈ queue → ∃ start ∈ starts, Leads depsOf start node
  closed : ∀ node ∈ found, ∀ node' ∈ depsOf node, node' ∈ found ∨ node' ∈ queue

/-- **One node of the queue.** -/
lemma Searching.step (h : Searching depsOf starts found (node :: queue)) :
    if node ∈ found then Searching depsOf starts found queue
    else Searching depsOf starts (found ++ [node])
      (queue ++ (depsOf node).filter fun node' => node' ∉ found ++ [node]) := by
  split
  · next hmem =>
    have hstill {a : α} (ha : a ∈ found ∨ a ∈ node :: queue) : a ∈ found ∨ a ∈ queue := by
      rcases ha with ha | ha
      · exact Or.inl ha
      · rcases List.mem_cons.mp ha with rfl | ha
        · exact Or.inl hmem
        · exact Or.inr ha
    exact ⟨h.nodup, fun a ha => hstill (h.started a ha),
      fun a ha => h.reached a (ha.imp id (List.mem_cons_of_mem _)),
      fun a ha a' ha' => hstill (h.closed a ha a' ha')⟩
  · next hmem =>
    have hstill {a : α} (ha : a ∈ found ∨ a ∈ node :: queue) : a ∈ found ++ [node] ∨
        a ∈ queue ++ (depsOf node).filter fun node' => node' ∉ found ++ [node] := by
      rw [List.mem_append, List.mem_append, List.mem_singleton]
      rcases ha with ha | ha
      · exact Or.inl (Or.inl ha)
      · rcases List.mem_cons.mp ha with ha | ha
        · exact Or.inl (Or.inr ha)
        · exact Or.inr (Or.inl ha)
    refine ⟨?_, fun a ha => hstill (h.started a ha), fun a ha => ?_, fun a ha a' ha' => ?_⟩
    · refine List.nodup_append.mpr ⟨h.nodup, List.nodup_singleton node, fun a ha b hb hab => ?_⟩
      rw [List.mem_singleton] at hb
      exact hmem (hb ▸ hab ▸ ha)
    · obtain ⟨start, hstart, hleads⟩ := h.reached node (Or.inr List.mem_cons_self)
      rw [List.mem_append, List.mem_append, List.mem_singleton] at ha
      rcases ha with (ha | rfl) | (ha | ha)
      · exact h.reached a (Or.inl ha)
      · exact ⟨start, hstart, hleads⟩
      · exact h.reached a (Or.inr (List.mem_cons_of_mem _ ha))
      · exact ⟨start, hstart, hleads.tail (List.mem_of_mem_filter ha)⟩
    · rcases List.mem_append.mp ha with ha | ha
      · exact hstill (h.closed a ha a' ha')
      · rw [List.mem_singleton] at ha
        subst ha
        by_cases hfound : a' ∈ found ++ [a]
        · exact Or.inl hfound
        · exact Or.inr (List.mem_append_right _ (List.mem_filter.mpr ⟨ha', by simpa using hfound⟩))

omit [DecidableEq α] in
/-- What a search has found when the queue is empty. -/
theorem Searching.mem_iff (h : Searching depsOf starts found []) :
    node ∈ found ↔ ∃ start ∈ starts, Leads depsOf start node := by
  have hall {a : α} (ha : a ∈ found ∨ a ∈ ([] : List α)) : a ∈ found :=
    ha.resolve_right List.not_mem_nil
  constructor
  · exact fun hnode => h.reached node (Or.inl hnode)
  · rintro ⟨start, hstart, hleads⟩
    induction hleads with
    | refl => exact hall (h.started start hstart)
    | tail _ hstep ih => exact hall (h.closed _ ih _ hstep)

/-- A search that ended has found what its beginning calls for. -/
lemma Searching.of_breadthFirst {fuel : ℕ} {result : List α}
    (h : Searching depsOf starts found queue)
    (hresult : breadthFirst depsOf fuel found queue = some result) :
    Searching depsOf starts result [] := by
  induction fuel generalizing found queue with
  | zero => cases hresult
  | succ fuel ih =>
    cases queue with
    | nil =>
      cases hresult
      exact h
    | cons node queue =>
      have hstep := h.step
      rw [breadthFirst] at hresult
      split at hresult
      · next hmem =>
        rw [if_pos hmem] at hstep
        exact ih hstep hresult
      · next hmem =>
        rw [if_neg hmem] at hstep
        exact ih hstep hresult

/-- **A search with a queue** ends, where only the nodes of a list lead anywhere, and finds each
node that is reached once, and no other. -/
theorem breadthFirst_spec (hnodup : support.Nodup)
    (hsupport : ∀ node, node ∉ support → depsOf node = []) (starts : List α) :
    ∃ result bound, (∀ fuel, bound ≤ fuel → breadthFirst depsOf fuel [] starts = some result) ∧
      result.Nodup ∧ ∀ node, node ∈ result ↔ ∃ start ∈ starts, Leads depsOf start node := by
  obtain ⟨result, hresult⟩ :=
    breadthFirst_ends hnodup hsupport (remaining depsOf support [] starts + 1) [] starts (by omega)
  have hbegin : Searching depsOf starts [] starts :=
    ⟨List.nodup_nil, fun _ h => Or.inr h,
      fun node h => ⟨node, h.resolve_left List.not_mem_nil, Relation.ReflTransGen.refl⟩, by simp⟩
  have hend := hbegin.of_breadthFirst hresult
  exact ⟨result, _, fun fuel hle => breadthFirst_mono hresult hle, hend.nodup, fun _ => hend.mem_iff⟩

end BreadthFirst

end Search
