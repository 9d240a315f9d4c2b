import Mathlib.Data.Nat.Notation
import Mathlib.Order.Defs.Unbundled

/-!
# State computations that may raise

A computation takes a state to a result or an exception and, in both cases, to the state it leaves
behind: an exception does not undo what was done before it was raised. Specifications are weakest
preconditions, computed by rewriting along the program text.

## Main definitions

* `Prog` — computations over a state with exceptions.
* `Prog.tryCatch`, `Prog.tryFinally` — `try … except` and `try … finally`.
* `Prog.attempt` — a computation whose exception is an answer like any other.
* `Prog.loop` — a `while True` loop with a bound on the number of rounds.
* `Prog.wp` — the weakest precondition for a result and an exception postcondition.
* `Prog.Within` — every run of a computation stays within a relation of states.

## Main results

* `Prog.wp_bind`, `Prog.wp_tryCatch`, `Prog.wp_tryFinally` — the rules of the program text.
* `Prog.wp_mono` — the rule of consequence, which applies the specification of a callee.
* `Prog.wp_loop` — the invariant rule of loops.
* `Prog.within_bind` and its like — a computation stays within a preorder if its parts do.
-/

/-- A computation over the state `σ` that returns an `α` or raises an `ε`. -/
def Prog (σ ε α : Type) : Type := σ → Except ε α × σ

namespace Prog

variable {σ ε α β : Type}

/-! ## Programs -/

instance : Monad (Prog σ ε) where
  pure a s := (.ok a, s)
  bind m f s :=
    match m s with
    | (.ok a, t) => f a t
    | (.error e, t) => (.error e, t)

/-- The current state. -/
def get : Prog σ ε σ := fun s => (.ok s, s)

/-- A change of state. -/
def modify (f : σ → σ) : Prog σ ε Unit := fun s => (.ok (), f s)

/-- `raise`. -/
def throw (e : ε) : Prog σ ε α := fun s => (.error e, s)

/-- A computation that does not touch the state. -/
def lift (x : Except ε α) : Prog σ ε α := fun s => (x, s)

/-- A statement that runs only if the condition holds. -/
def when (c : Prop) [Decidable c] (m : Prog σ ε Unit) : Prog σ ε Unit :=
  if c then m else pure ()

/-- `try m except`: the handler starts in the state the exception left. -/
def tryCatch (m : Prog σ ε α) (handler : ε → Prog σ ε α) : Prog σ ε α := fun s =>
  match m s with
  | (.ok a, t) => (.ok a, t)
  | (.error e, t) => handler e t

/-- `try m finally after`: an exception raised by `after` replaces the outcome of `m`. -/
def tryFinally (m : Prog σ ε α) (after : Prog σ ε Unit) : Prog σ ε α := fun s =>
  match m s with
  | (r, t) =>
    match after t with
    | (.ok _, u) => (r, u)
    | (.error e, u) => (.error e, u)

/-- Run `m` and go on with its result or its exception. -/
def attempt (m : Prog σ ε α) (k : Except ε α → Prog σ ε β) : Prog σ ε β := fun s =>
  match m s with
  | (r, t) => k r t

/-- `while True`: `body` returns `none` to go on and a value to leave the loop. After `rounds`
rounds the loop is given up with the exception `e`. -/
def loop (e : ε) (body : Prog σ ε (Option α)) : ℕ → Prog σ ε α
  | 0 => throw e
  | rounds + 1 => do
    match ← body with
    | some a => pure a
    | none => loop e body rounds

/-- `for x in xs`: `body` returns `none` to go on and a value to leave the loop early. -/
def forEach {γ : Type} (body : γ → Prog σ ε (Option α)) : List γ → Prog σ ε (Option α)
  | [] => pure none
  | x :: xs => do
    match ← body x with
    | some a => pure (some a)
    | none => forEach body xs

section Runs

variable (f : σ → σ) (g : σ → Prog σ ε α) (k : Unit → Prog σ ε α) (s : σ)

/-- Reading the state gives it to what follows. -/
lemma get_bind_apply : (get >>= g) s = g s s := rfl

/-- What follows a change starts from the changed state. -/
lemma modify_bind_apply : (modify f >>= k) s = k () (f s) := rfl

end Runs

/-! ## Weakest preconditions -/

/-- From the state `s` the computation ends in `Q`, or raises into `E`. -/
def wp (m : Prog σ ε α) (Q : α → σ → Prop) (E : ε → σ → Prop) (s : σ) : Prop :=
  match m s with
  | (.ok a, t) => Q a t
  | (.error e, t) => E e t

section Rules

variable {m : Prog σ ε α} {Q Q' : α → σ → Prop} {E E' : ε → σ → Prop} {s : σ}

/-- Returning a value. -/
@[simp] lemma wp_pure (a : α) : wp (pure a : Prog σ ε α) Q E s ↔ Q a s := Iff.rfl

/-- Reading the state. -/
@[simp] lemma wp_get (Q : σ → σ → Prop) : wp (get : Prog σ ε σ) Q E s ↔ Q s s := Iff.rfl

/-- Changing the state. -/
@[simp] lemma wp_modify (f : σ → σ) (Q : Unit → σ → Prop) :
    wp (modify f : Prog σ ε Unit) Q E s ↔ Q () (f s) := Iff.rfl

/-- Raising. -/
@[simp] lemma wp_throw (e : ε) : wp (throw e : Prog σ ε α) Q E s ↔ E e s := Iff.rfl

/-- An outcome that is a value. -/
@[simp] lemma wp_lift_ok (a : α) : wp (lift (.ok a) : Prog σ ε α) Q E s ↔ Q a s := Iff.rfl

/-- An outcome that is an exception. -/
@[simp] lemma wp_lift_error (e : ε) : wp (lift (.error e) : Prog σ ε α) Q E s ↔ E e s := Iff.rfl

/-- Sequencing. -/
@[simp] theorem wp_bind (f : α → Prog σ ε β) (Q : β → σ → Prop) :
    wp (m >>= f) Q E s ↔ wp m (fun a t => wp (f a) Q E t) E s := by
  simp only [wp, Bind.bind]
  rcases m s with ⟨_ | a, t⟩ <;> rfl

/-- A branch, by its condition. -/
@[simp] lemma wp_ite (c : Prop) [Decidable c] (n : Prog σ ε α) :
    wp (if c then m else n) Q E s ↔ (c → wp m Q E s) ∧ (¬ c → wp n Q E s) := by
  by_cases hc : c
  · simp [hc]
  · simp [hc]

/-- A branch without an alternative. -/
@[simp] lemma wp_when (c : Prop) [Decidable c] (n : Prog σ ε Unit) (Q : Unit → σ → Prop) :
    wp (when c n) Q E s ↔ (c → wp n Q E s) ∧ (¬ c → Q () s) := by
  rw [when, wp_ite, wp_pure]

/-- A handler starts in the state that the exception was raised in. -/
@[simp] theorem wp_tryCatch (handler : ε → Prog σ ε α) :
    wp (tryCatch m handler) Q E s ↔ wp m Q (fun e t => wp (handler e) Q E t) s := by
  simp only [wp, tryCatch]
  rcases m s with ⟨_ | a, t⟩ <;> rfl

/-- What comes after is run in either case, and may raise instead. -/
@[simp] theorem wp_tryFinally (after : Prog σ ε Unit) :
    wp (tryFinally m after) Q E s ↔
      wp m (fun a t => wp after (fun _ u => Q a u) E t)
        (fun e t => wp after (fun _ u => E e u) E t) s := by
  simp only [wp, tryFinally]
  rcases m s with ⟨e | a, t⟩
  · rcases ha : after t with ⟨_ | b, u⟩ <;> simp [ha]
  · rcases ha : after t with ⟨_ | b, u⟩ <;> simp [ha]

/-- The rule of consequence. -/
theorem wp_mono (h : wp m Q E s) (hQ : ∀ a t, Q a t → Q' a t) (hE : ∀ e t, E e t → E' e t) :
    wp m Q' E' s := by
  simp only [wp] at *
  rcases hm : m s with ⟨_ | a, t⟩
  · rw [hm] at h
    exact hE _ _ h
  · rw [hm] at h
    exact hQ _ _ h

/-- The specification from a state only looks at what the computation does from there. -/
lemma wp_congr {n : Prog σ ε α} (h : m s = n s) : wp m Q E s ↔ wp n Q E s := by
  simp only [wp, h]

/-- Two specifications of one computation. -/
lemma wp_and (h : wp m Q E s) (h' : wp m Q' E' s) :
    wp m (fun a t => Q a t ∧ Q' a t) (fun e t => E e t ∧ E' e t) s := by
  simp only [wp] at *
  rcases hm : m s with ⟨_ | a, t⟩
  · rw [hm] at h h'
    exact ⟨h, h'⟩
  · rw [hm] at h h'
    exact ⟨h, h'⟩

/-- What holds of the state left behind by the specification holds of the state left behind. -/
lemma wp_state {P : σ → Prop} (h : wp m (fun _ => P) (fun _ => P) s) : P (m s).2 := by
  simp only [wp] at h
  rcases hm : m s with ⟨_ | a, t⟩
  · rw [hm] at h
    exact h
  · rw [hm] at h
    exact h

/-- What a specification says of a run that returns. -/
lemma wp_ok {a : α} (h : wp m Q E s) (hm : (m s).1 = .ok a) : Q a (m s).2 := by
  simp only [wp] at h
  rcases hrun : m s with ⟨_ | b, t⟩
  · simp [hrun] at hm
  · simp only [hrun, Except.ok.injEq] at h hm
    subst hm
    exact h

/-- What a specification says of a run that raises. -/
lemma wp_error {e : ε} (h : wp m Q E s) (hm : (m s).1 = .error e) : E e (m s).2 := by
  simp only [wp] at h
  rcases hrun : m s with ⟨f | _, t⟩
  · simp only [hrun, Except.error.injEq] at h hm
    subst hm
    exact h
  · simp [hrun] at hm

/-- A specification that excludes exceptions says that the run returns. -/
lemma returns_of_wp (h : wp m Q (fun _ _ => False) s) : ∃ a t, m s = (.ok a, t) ∧ Q a t := by
  simp only [wp] at h
  rcases hrun : m s with ⟨_ | a, t⟩
  · simp [hrun] at h
  · simp only [hrun] at h
    exact ⟨a, t, rfl, h⟩

/-- The first half of a sequence, where it returns. -/
lemma bind_of_ok {f : α → Prog σ ε β} {a : α} {t : σ} (h : m s = (.ok a, t)) :
    (m >>= f) s = f a t := by
  simp only [Bind.bind, h]

/-- A second half that does nothing from wherever the first half returns. -/
lemma bind_of_idle {f : α → Prog σ ε α} (h : wp m (fun a t => f a t = (.ok a, t)) (fun _ _ => True) s) :
    (m >>= f) s = m s := by
  simp only [wp] at h
  rcases hm : m s with ⟨e | a, t⟩
  · simp only [Bind.bind, hm]
  · rw [hm] at h
    exact (bind_of_ok hm).trans h

/-- Two second halves that agree wherever the first half returns. -/
lemma bind_congr_of_wp {f g : α → Prog σ ε β} (h : wp m (fun a t => f a t = g a t) (fun _ _ => True) s) :
    (m >>= f) s = (m >>= g) s := by
  simp only [wp] at h
  rcases hm : m s with ⟨e | a, t⟩
  · simp only [Bind.bind, hm]
  · rw [hm] at h
    rw [bind_of_ok hm, bind_of_ok hm]
    exact h

/-- Every computation satisfies the specification that says nothing. -/
lemma wp_of_forall (hQ : ∀ a t, Q a t) (hE : ∀ e t, E e t) : wp m Q E s := by
  simp only [wp]
  rcases m s with ⟨_ | a, t⟩
  · exact hE _ _
  · exact hQ _ _

/-- The invariant rule: `I` holds before every round, and a round that leaves the loop or raises
establishes the postcondition. Giving the loop up raises in a state of the invariant. -/
theorem wp_loop (I : σ → Prop) {e : ε} {body : Prog σ ε (Option α)} (rounds : ℕ)
    (hbody : ∀ t, I t → wp body (fun r u => match r with | some a => Q a u | none => I u) E t)
    (hgive : ∀ t, I t → E e t) (hs : I s) : wp (loop e body rounds) Q E s := by
  induction rounds generalizing s with
  | zero => exact hgive s hs
  | succ rounds ih =>
    rw [loop, wp_bind]
    refine wp_mono (hbody s hs) ?_ (fun _ _ h => h)
    intro r t hr
    cases r with
    | some a => exact hr
    | none => exact ih hr

/-- The invariant rule of bounded loops. -/
lemma wp_forEach {γ : Type} (I : List γ → σ → Prop) {body : γ → Prog σ ε (Option α)}
    {Q : Option α → σ → Prop} (xs : List γ)
    (hbody : ∀ x rest t, I (x :: rest) t →
      wp (body x) (fun r u => match r with | some a => Q (some a) u | none => I rest u) E t)
    (hdone : ∀ t, I [] t → Q none t) (hs : I xs s) : wp (forEach body xs) Q E s := by
  induction xs generalizing s with
  | nil => exact hdone s hs
  | cons x xs ih =>
    rw [forEach, wp_bind]
    refine wp_mono (hbody x xs s hs) ?_ (fun _ _ h => h)
    intro r t hr
    cases r with
    | some a => exact hr
    | none => exact ih hr

end Rules

/-! ## Relations between the states before and after -/

/-- From every state the computation leads to a state related to it, whether it returns or raises.
-/
def Within (R : σ → σ → Prop) (m : Prog σ ε α) : Prop := ∀ s, R s (m s).2

section Within

variable {R : σ → σ → Prop} {m n : Prog σ ε α} {c : Prop} [Decidable c]

/-- A computation within a relation, as a specification. -/
lemma Within.wp (h : Within R m) (s : σ) : wp m (fun _ => R s) (fun _ => R s) s := by
  have hs := h s
  simp only [Prog.wp]
  rcases hm : m s with ⟨_ | a, t⟩
  · rw [hm] at hs
    exact hs
  · rw [hm] at hs
    exact hs

/-- A computation stays within a weaker relation. -/
lemma Within.mono {R' : σ → σ → Prop} (h : Within R m) (hR : ∀ s t, R s t → R' s t) :
    Within R' m := fun s => hR _ _ (h s)

/-- A change that is related to the state before it. -/
lemma within_modify {f : σ → σ} (h : ∀ s, R s (f s)) :
    Within R (modify f : Prog σ ε Unit) := h

/-- A computation that starts by looking at the state. -/
lemma within_get {f : σ → Prog σ ε β} (h : ∀ s, Within R (f s)) : Within R (get >>= f) :=
  fun s => h s s

/-- A branch stays within a relation if both sides do. -/
lemma within_ite (hm : Within R m) (hn : Within R n) : Within R (if c then m else n) := by
  split
  · exact hm
  · exact hn

section Refl

variable [Std.Refl R]

lemma within_pure (a : α) : Within R (pure a : Prog σ ε α) := fun s => Std.Refl.refl s

/-- Raising changes nothing. -/
lemma within_throw (e : ε) : Within R (throw e : Prog σ ε α) := fun s => Std.Refl.refl s

lemma within_lift (x : Except ε α) : Within R (lift x : Prog σ ε α) := fun s => Std.Refl.refl s

/-- A branch without an alternative. -/
lemma within_when {n : Prog σ ε Unit} (h : Within R n) : Within R (when c n) :=
  within_ite h (within_pure ())

end Refl

variable [IsTrans σ R]

/-- **Sequencing** stays within a transitive relation if both parts do. -/
theorem within_bind {f : α → Prog σ ε β} (hm : Within R m) (hf : ∀ a, Within R (f a)) :
    Within R (m >>= f) := by
  intro s
  have hs := hm s
  simp only [Bind.bind]
  rcases h : m s with ⟨e | a, t⟩
  · rw [h] at hs
    exact hs
  · rw [h] at hs
    exact IsTrans.trans _ _ _ hs (hf a t)

/-- A loop over a list stays within a preorder if its body does. -/
lemma within_forEach [Std.Refl R] {γ : Type} {body : γ → Prog σ ε (Option α)}
    (h : ∀ x, Within R (body x)) (xs : List γ) : Within R (forEach body xs) := by
  induction xs with
  | nil => exact within_pure none
  | cons x xs ih =>
    refine within_bind (h x) fun r => ?_
    cases r with
    | some a => exact within_pure _
    | none => exact ih

/-- A handler that stays within the relation as well. -/
lemma within_tryCatch {handler : ε → Prog σ ε α} (hm : Within R m)
    (hh : ∀ e, Within R (handler e)) : Within R (tryCatch m handler) := by
  intro s
  have hs := hm s
  simp only [tryCatch]
  rcases h : m s with ⟨e | a, t⟩
  · rw [h] at hs
    exact IsTrans.trans _ _ _ hs (hh e t)
  · rw [h] at hs
    exact hs

lemma within_attempt {k : Except ε α → Prog σ ε β} (hm : Within R m) (hk : ∀ r, Within R (k r)) :
    Within R (attempt m k) := fun s => IsTrans.trans _ _ _ (hm s) (hk _ _)

/-- What is done in the end is done in any case. -/
lemma within_tryFinally {after : Prog σ ε Unit} (hm : Within R m) (ha : Within R after) :
    Within R (tryFinally m after) := by
  intro s
  have hs := hm s
  simp only [tryFinally]
  rcases h : m s with ⟨r, t⟩
  rw [h] at hs
  have ht := ha t
  rcases h' : after t with ⟨_ | b, u⟩
  · rw [h'] at ht
    simpa [h'] using IsTrans.trans _ _ _ hs ht
  · rw [h'] at ht
    simpa [h'] using IsTrans.trans _ _ _ hs ht

end Within

end Prog
