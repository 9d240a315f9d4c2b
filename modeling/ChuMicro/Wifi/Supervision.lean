import ChuMicro.Wifi.Service
import Mathlib.Tactic.Ring

/-!
# The supervisor a wifi service is

What the service is for, as a supervisor that counts the failures in a row, knows when the next
attempt is due and how many attempts are in flight, and says which event may come next. Every log of
a service is a history of the supervisor, whatever the adapter and the clock answer, if no callback
calls the service back: one that calls `handle` in the transition to `CONNECTING` lets it leave
`FAILED`.

Two settings are outside of this. A service with a `reconnect_max` below one gives up at the first
failure, as with one. `ticks_add` refuses distances of half a period: a backoff that long is never
scheduled, and a timeout that long leaves an attempt of an adapter that does not block without a
deadline, so that the next tick starts another one.

## Main definitions

* `Wifi.Supervisor`, `Wifi.supervised` — the supervisor after a history.
* `Wifi.Admits` — what may happen next.
* `Wifi.Inv` — the service and the supervisor of its log agree.

## Main results

* `Wifi.wp_markConnected`, `Wifi.wp_registerFailedAttempt` — the two ends of an attempt.
* `Wifi.wp_handle` — a tick keeps the agreement.
* `Wifi.supervision` — every history is admitted.
-/

namespace ChuMicro.Wifi

/-! ## The supervisor -/

/-- The state of a supervisor: the failures since the last success or loss of the link, the tick the
next attempt is due at, and the attempts that are not settled. -/
structure Supervisor where
  state : WifiState
  failures : ℕ
  dueMs : ℤ
  inFlight : ℕ
  deriving DecidableEq, Repr

/-- The supervisor after an event. -/
def Supervisor.after (sup : Supervisor) : Event → Supervisor
  | .changed _ new => { sup with state := new }
  | .attempt _ => { sup with inFlight := sup.inFlight + 1 }
  | .succeeded => { sup with failures := 0, inFlight := sup.inFlight - 1 }
  | .failed (.retry _ _ dueMs) =>
    { sup with failures := sup.failures + 1, dueMs := dueMs, inFlight := sup.inFlight - 1 }
  | .failed _ => { sup with failures := sup.failures + 1, inFlight := sup.inFlight - 1 }
  | .lost nowMs => { sup with failures := 0, dueMs := nowMs }

/-- The supervisor after a history. It starts disconnected, with an attempt due at once. -/
def supervised (env : Env) (log : List Event) : Supervisor :=
  log.foldl Supervisor.after ⟨.DISCONNECTED, 0, env.ticksMs 0, 0⟩

@[simp] lemma supervised_append (env : Env) (log : List Event) (e : Event) :
    supervised env (log ++ [e]) = (supervised env log).after e := by
  simp [supervised]

/-- The transitions of a supervisor. -/
inductive Allowed : WifiState → WifiState → Prop
  | start : Allowed .DISCONNECTED .CONNECTING
  | connect : Allowed .CONNECTING .CONNECTED
  | reconnect : Allowed .RECONNECTING .CONNECTED
  | fail : Allowed .CONNECTING .FAILED
  | failAgain : Allowed .RECONNECTING .FAILED
  | drop : Allowed .CONNECTED .RECONNECTING

/-- The delay after the `k`-th failure in a row. -/
def delayAfter (cfg : WifiConfig) (k : ℕ) : ℤ :=
  min (cfg.reconnectBackoffStartMs * 2 ^ (k - 1)) cfg.reconnectBackoffMaxMs

/-- The `k`-th failure in a row is the last one. -/
def Exhausted (cfg : WifiConfig) (k : ℕ) : Prop :=
  ∃ n, cfg.reconnectMax = some n ∧ (k : ℤ) = max n 1

/-- Every attempt of an adapter that does not block has a deadline. -/
def Fits (cfg : WifiConfig) (env : Env) : Prop :=
  (∀ n, env.connectBlocks n = true) ∨
    TicksOk cfg.connectTimeoutMs ∧ ∀ graceMs, cfg.firstConnectTimeoutMs = some graceMs →
      TicksOk graceMs

/-- What may follow from the `k`-th failure in a row. -/
def AdmitsVerdict (cfg : WifiConfig) (k : ℕ) : Verdict → Prop
  | .gaveUp => Exhausted cfg k
  | .retry clockMs delayMs dueMs => ¬ Exhausted cfg k ∧ ticksAdd clockMs delayMs = .ok dueMs ∧
    (cfg.reconnectBackoffStartMs ≤ cfg.reconnectBackoffMaxMs → delayMs = delayAfter cfg k)
  | .unscheduled => ¬ Exhausted cfg k ∧
    (cfg.reconnectBackoffStartMs ≤ cfg.reconnectBackoffMaxMs → ¬ TicksOk (delayAfter cfg k))

/-- What may happen next. -/
def Admits (cfg : WifiConfig) (env : Env) (sup : Supervisor) : Event → Prop
  | .changed old new => old = sup.state ∧ Allowed old new ∧
    (new = .FAILED → Exhausted cfg sup.failures)
  | .attempt nowMs => 0 ≤ ticksDiff nowMs sup.dueMs ∧ (Fits cfg env → sup.inFlight = 0)
  | .succeeded => Fits cfg env → sup.inFlight = 1
  | .failed verdict => (Fits cfg env → sup.inFlight = 1) ∧
    AdmitsVerdict cfg (sup.failures + 1) verdict
  | .lost _ => sup.state = .CONNECTED

/-- Every event of a history was admitted when it happened. -/
def Obeys (cfg : WifiConfig) (env : Env) (log : List Event) : Prop :=
  ∀ a e b, log = a ++ e :: b → Admits cfg env (supervised env a) e

lemma Obeys.nil (cfg : WifiConfig) (env : Env) : Obeys cfg env [] := by
  intro a e b h
  simp at h

lemma Obeys.append {cfg : WifiConfig} {env : Env} {log : List Event} {e : Event}
    (h : Obeys cfg env log) (he : Admits cfg env (supervised env log) e) :
    Obeys cfg env (log ++ [e]) := by
  intro a e' b hsplit
  rcases List.eq_nil_or_concat b with rfl | ⟨b', last, rfl⟩
  · obtain ⟨rfl, hlast⟩ := List.append_inj' hsplit rfl
    cases hlast
    exact he
  · have heq : log ++ [e] = (a ++ e' :: b') ++ [last] := by simpa using hsplit
    exact h a e' b' (List.append_inj' heq rfl).1

/-- At most one attempt is in flight at any time of an admitted history. -/
lemma Obeys.inFlight_le {cfg : WifiConfig} {env : Env} {log : List Event}
    (h : Obeys cfg env log) (hfits : Fits cfg env) {a : List Event} (ha : a <+: log) :
    (supervised env a).inFlight ≤ 1 := by
  induction a using List.reverseRecOn with
  | nil => exact Nat.zero_le _
  | append_singleton a e ih =>
    have hle := ih ((List.prefix_append _ _).trans ha)
    obtain ⟨b, hb⟩ := ha
    have hadm := h a e b (by rw [← hb]; simp)
    rw [supervised_append]
    cases e with
    | changed old new => exact hle
    | attempt nowMs =>
      show (supervised env a).inFlight + 1 ≤ 1
      rw [hadm.2 hfits]
    | succeeded => exact (Nat.sub_le _ _).trans hle
    | failed verdict => cases verdict <;> exact (Nat.sub_le _ _).trans hle
    | lost nowMs => exact hle

/-! ## Exponential backoff -/

/-- The backoff after `j` doublings. -/
def backoffOf (cfg : WifiConfig) (j : ℕ) : ℤ :=
  min (cfg.reconnectBackoffStartMs * 2 ^ j) cfg.reconnectBackoffMaxMs

/-- The bound may be applied before or after doubling. -/
lemma backoffOf_succ {cfg : WifiConfig}
    (h : cfg.reconnectBackoffStartMs ≤ cfg.reconnectBackoffMaxMs) (j : ℕ) :
    min (backoffOf cfg j * 2) cfg.reconnectBackoffMaxMs = backoffOf cfg (j + 1) := by
  unfold backoffOf
  rw [pow_succ, ← mul_assoc]
  set x := cfg.reconnectBackoffStartMs * 2 ^ j with hx
  by_cases hpos : 0 ≤ cfg.reconnectBackoffMaxMs
  · omega
  · -- a bound below zero is never reached from a start below it
    have hle : x ≤ cfg.reconnectBackoffStartMs := by
      have hone : (1 : ℤ) ≤ 2 ^ j := one_le_pow₀ (by norm_num)
      nlinarith
    omega

/-- A backoff that `ticks_add` refuses stays refused while it doubles. -/
lemma not_ticksOk_backoffOf {cfg : WifiConfig}
    (h : cfg.reconnectBackoffStartMs ≤ cfg.reconnectBackoffMaxMs) {j k : ℕ} (hjk : j ≤ k)
    (hj : ¬ TicksOk (backoffOf cfg j)) : ¬ TicksOk (backoffOf cfg k) := by
  induction k, hjk using Nat.le_induction with
  | base => exact hj
  | succ k _ ih =>
    rw [← backoffOf_succ h]
    have hmax : backoffOf cfg k ≤ cfg.reconnectBackoffMaxMs := min_le_right _ _
    simp only [TicksOk, TICKS_HALFPERIOD] at ih ⊢
    omega

/-! ## The service and its supervisor -/

/-- The states in which the service pursues a link. -/
def Seeking (state : WifiState) : Prop := state = .CONNECTING ∨ state = .RECONNECTING

/-- The service agrees with the supervisor of its log, `flying` attempts being in flight. -/
structure Inv (cfg : WifiConfig) (env : Env) (flying : ℕ) (s : WifiService) : Prop where
  obeys : Obeys cfg env s.log
  state : (supervised env s.log).state = s.state
  failures : ((supervised env s.log).failures : ℤ) = s.reconnectAttempts
  due : (supervised env s.log).dueMs = s.nextAttemptDueMs
  inFlight : Fits cfg env → (supervised env s.log).inFlight = flying
  /-- The backoff has doubled after every failure, unless it is too long to be scheduled. -/
  backoff : cfg.reconnectBackoffStartMs ≤ cfg.reconnectBackoffMaxMs → s.state ≠ .FAILED →
    ∃ j ≤ (supervised env s.log).failures, s.currentBackoffMs = backoffOf cfg j ∧
      (j = (supervised env s.log).failures ∨ ¬ TicksOk s.currentBackoffMs)
  failed : s.state = .FAILED → Exhausted cfg (supervised env s.log).failures
  trying : s.state ≠ .FAILED → ∀ n, cfg.reconnectMax = some n → s.reconnectAttempts < max n 1
  linked : s.state = .CONNECTED → s.reconnectAttempts = 0

/-- The service between two ticks: an attempt in flight has a deadline. -/
structure Rest (cfg : WifiConfig) (env : Env) (s : WifiService) : Prop where
  inv : Inv cfg env (if s.attemptDeadlineMs.isSome then 1 else 0) s
  seeking : s.attemptDeadlineMs.isSome → Seeking s.state

/-- A service that differs in what the supervisor does not look at. -/
structure Same (s t : WifiService) : Prop where
  state : t.state = s.state
  log : t.log = s.log
  attempts : t.reconnectAttempts = s.reconnectAttempts
  due : t.nextAttemptDueMs = s.nextAttemptDueMs
  backoff : t.currentBackoffMs = s.currentBackoffMs
  deadline : t.attemptDeadlineMs = s.attemptDeadlineMs

lemma Same.rfl' (s : WifiService) : Same s s := ⟨rfl, rfl, rfl, rfl, rfl, rfl⟩

lemma Same.trans {s t u : WifiService} (h : Same s t) (h' : Same t u) : Same s u :=
  ⟨h'.state.trans h.state, h'.log.trans h.log, h'.attempts.trans h.attempts,
    h'.due.trans h.due, h'.backoff.trans h.backoff, h'.deadline.trans h.deadline⟩

variable {cfg : WifiConfig} {env : Env} {flying : ℕ} {s t : WifiService}

lemma Inv.of_same (h : Inv cfg env flying s) (hst : Same s t) : Inv cfg env flying t where
  obeys := hst.log ▸ h.obeys
  state := by rw [hst.log, hst.state, h.state]
  failures := by rw [hst.log, hst.attempts, h.failures]
  due := by rw [hst.log, hst.due, h.due]
  inFlight := by rw [hst.log]; exact h.inFlight
  backoff := by rw [hst.log, hst.state, hst.backoff]; exact h.backoff
  failed := by rw [hst.log, hst.state]; exact h.failed
  trying := by rw [hst.attempts, hst.state]; exact h.trying
  linked := by rw [hst.attempts, hst.state]; exact h.linked

lemma Rest.of_same (h : Rest cfg env s) (hst : Same s t) : Rest cfg env t where
  inv := by rw [hst.deadline]; exact h.inv.of_same hst
  seeking := by rw [hst.deadline, hst.state]; exact h.seeking

/-- The number of failures is not negative. -/
lemma Inv.attempts_nonneg (h : Inv cfg env flying s) : 0 ≤ s.reconnectAttempts := by
  rw [← h.failures]
  exact Int.natCast_nonneg _

/-! ## Transitions -/

open Prog

lemma wp_ask {α : Type} (answer : ℕ → α) {Q : α → WifiService → Prop}
    {E : PyExn → WifiService → Prop} :
    wp (ask answer) Q E s ↔ Q (answer s.asked) { s with asked := s.asked + 1 } := Iff.rfl

/-- A callback that is aloof. -/
lemma wp_callback (haloof : env.Aloof) (callback : ℕ) (old new : WifiState) (n : ℕ) (s : WifiService) :
    wp (env.callback callback old new n) (fun _ t => t = s) (fun _ t => t = s) s := by
  have hleft := haloof callback old new n s
  revert hleft
  unfold wp
  rcases env.callback callback old new n s with ⟨_ | _, t⟩ <;> exact id

/-- Aloof callbacks leave the service as it is, but for an error that is recorded. -/
lemma wp_notify (haloof : env.Aloof) (old new : WifiState) (callbacks : List ℕ) (s : WifiService) :
    wp (notify env old new callbacks) (fun _ => Same s) (fun _ _ => False) s := by
  induction callbacks generalizing s with
  | nil => exact .rfl' s
  | cons callback callbacks ih =>
    -- the callbacks that are left, once this one has been dealt with
    have hrest : ∀ t : WifiService, Same s t →
        wp (notify env old new callbacks) (fun _ => Same s) (fun _ _ => False) t := fun t ht =>
      wp_mono (ih t) (fun _ _ h => ht.trans h) fun _ _ h => h.elim
    simp only [notify, wp_bind, wp_ask, wp_tryCatch, wp_modify]
    refine wp_mono (wp_callback haloof callback old new _ _) ?_ ?_
    · rintro - t rfl
      exact hrest _ ⟨rfl, rfl, rfl, rfl, rfl, rfl⟩
    · rintro error t rfl
      exact hrest _ ⟨rfl, rfl, rfl, rfl, rfl, rfl⟩

/-- A transition to another state. -/
lemma wp_transition (haloof : env.Aloof) {new : WifiState} (hne : new ≠ s.state) :
    wp (transition env new)
      (fun _ => Same { s with state := new, log := s.log ++ [Event.changed s.state new] })
      (fun _ _ => False) s := by
  simp only [transition, wp_bind, wp_get, if_neg hne, wp_modify, note]
  exact wp_notify haloof _ _ _ _

open Supervisor

/-- A transition that leaves the count of failures as it is. -/
lemma Inv.changed (h : Inv cfg env flying s) {new : WifiState} (hallow : Allowed s.state new)
    (hnew : new ≠ .FAILED) (hlinked : new = .CONNECTED → s.reconnectAttempts = 0) :
    Inv cfg env flying { s with state := new, log := s.log ++ [Event.changed s.state new] } := by
  have hold : s.state ≠ .FAILED := fun he => by
    rw [he] at hallow
    cases hallow
  exact
    { obeys := h.obeys.append ⟨h.state.symm, hallow, fun he => absurd he hnew⟩
      state := by simp [after]
      failures := by simpa [after] using h.failures
      due := by simpa [after] using h.due
      inFlight := by simpa [after] using h.inFlight
      backoff := fun hle _ => by simpa [after] using h.backoff hle hold
      failed := fun he => absurd he hnew
      trying := fun _ => h.trying hold
      linked := hlinked }

/-! ## The ends of an attempt -/

/-- **A success resets the sequence of failures.** -/
theorem wp_markConnected (haloof : env.Aloof) (h : Inv cfg env 1 s) (hs : Seeking s.state) :
    wp (markConnected cfg env) (fun _ => Rest cfg env) (fun _ => Rest cfg env) s := by
  have hstate : s.state ≠ .FAILED ∧ s.state ≠ .CONNECTED := by
    rcases hs with hs | hs <;> simp [hs]
  simp only [markConnected, resetBackoff, note, wp_bind, wp_modify]
  set u : WifiService := { s with
    lastError := none
    currentBackoffMs := cfg.reconnectBackoffStartMs
    reconnectAttempts := 0
    attemptDeadlineMs := none
    log := s.log ++ [Event.succeeded] } with hu
  have hinv : Inv cfg env 0 u :=
    { obeys := h.obeys.append h.inFlight
      state := by simpa [hu, after] using h.state
      failures := by simp [hu, after]
      due := by simpa [hu, after] using h.due
      inFlight := fun hf => by simp [hu, after, h.inFlight hf]
      backoff := fun hle _ => ⟨0, Nat.zero_le _, by simp [hu, backoffOf, hle],
        .inl (by simp [hu, after])⟩
      failed := fun he => absurd he hstate.1
      trying := fun _ n _ => by
        show (0 : ℤ) < max n 1
        omega
      linked := fun _ => rfl }
  have hallow : Allowed u.state .CONNECTED := by
    show Allowed s.state .CONNECTED
    rcases hs with hs | hs
    · rw [hs]
      exact .connect
    · rw [hs]
      exact .reconnect
  refine wp_mono (wp_transition haloof (s := u) (Ne.symm hstate.2)) (fun _ t ht => ?_)
    fun _ _ hf => hf.elim
  refine Rest.of_same ⟨?_, by simp [hu]⟩ ht
  exact hinv.changed hallow (by simp) fun _ => rfl

/-- **A failure is counted, and gives up or schedules the next attempt.** -/
theorem wp_registerFailedAttempt (haloof : env.Aloof) (h : Inv cfg env 1 s)
    (hs : Seeking s.state) (hd : s.attemptDeadlineMs = none) :
    wp (registerFailedAttempt cfg env) (fun _ => Rest cfg env) (fun _ => Rest cfg env) s := by
  have hstate : s.state ≠ .FAILED ∧ s.state ≠ .CONNECTED := by
    rcases hs with hs | hs <;> simp [hs]
  set k := (supervised env s.log).failures + 1 with hk
  have hattempts : (k : ℤ) = s.reconnectAttempts + 1 := by
    rw [hk, Nat.cast_succ, h.failures]
  have hnonneg := h.attempts_nonneg
  simp only [registerFailedAttempt, wp_bind, wp_modify, wp_get]
  by_cases hmax : (cfg.reconnectMax.any (· ≤ s.reconnectAttempts + 1)) = true
  · rw [if_pos hmax]
    obtain ⟨n, hn, hle⟩ := (Option.any_eq_true _ _).mp hmax
    have hlast : Exhausted cfg k := by
      refine ⟨n, hn, ?_⟩
      have hlt := h.trying hstate.1 n hn
      have hle' : n ≤ s.reconnectAttempts + 1 := by simpa using hle
      omega
    simp only [note, wp_bind, wp_modify]
    set u : WifiService := { s with
      reconnectAttempts := s.reconnectAttempts + 1
      log := s.log ++ [Event.failed .gaveUp] } with hu
    refine wp_mono (wp_transition haloof (s := u) (Ne.symm hstate.1)) (fun _ t ht => ?_)
      fun _ _ hf => hf.elim
    refine Rest.of_same ⟨?_, by simp [hu, hd]⟩ ht
    have hobeys : Obeys cfg env u.log := h.obeys.append ⟨h.inFlight, hlast⟩
    have hallow : Allowed s.state .FAILED := by
      rcases hs with hs | hs
      · rw [hs]
        exact .fail
      · rw [hs]
        exact .failAgain
    have hsup : supervised env u.log = { supervised env s.log with
        failures := k, inFlight := (supervised env s.log).inFlight - 1 } := by
      simp [hu, after, hk]
    exact
      { obeys := hobeys.append ⟨by rw [hsup]; exact h.state.symm, hallow, fun _ => by
          rw [hsup]
          exact hlast⟩
        state := by simp [after]
        failures := by
          rw [supervised_append, after, hsup]
          exact hattempts
        due := by
          rw [supervised_append, after, hsup]
          exact h.due
        inFlight := fun hf => by
          rw [supervised_append, after, hsup]
          simp [h.inFlight hf, hu, hd]
        backoff := fun _ he => absurd rfl he
        failed := fun _ => by
          rw [supervised_append, after, hsup]
          exact hlast
        trying := fun he => absurd rfl he
        linked := fun he => by cases he }
  · rw [if_neg hmax]
    have hmore : ∀ n, cfg.reconnectMax = some n → s.reconnectAttempts + 1 < n := by
      intro n hn
      simpa [hn] using hmax
    have hopen : ¬ Exhausted cfg k := by
      rintro ⟨n, hn, heq⟩
      have := hmore n hn
      omega
    have htrying : ∀ n, cfg.reconnectMax = some n → s.reconnectAttempts + 1 < max n 1 :=
      fun n hn => lt_max_of_lt_left (hmore n hn)
    simp only [wp_bind, wp_ask]
    cases hticks : ticksAdd (env.ticksMs s.asked) s.currentBackoffMs with
    | error error =>
      have hrange : ¬ TicksOk s.currentBackoffMs := fun hok => by
        rw [ticksAdd_of_ok hok] at hticks
        cases hticks
      simp only [note, wp_bind, wp_modify, wp_throw]
      refine ⟨?_, by simp [hd]⟩
      refine
        { obeys := h.obeys.append ⟨h.inFlight, hopen, fun hle => ?_⟩
          state := by simpa [after] using h.state
          failures := by simpa [after] using h.failures
          due := by simpa [after] using h.due
          inFlight := fun hf => by simp [after, h.inFlight hf, hd]
          backoff := fun hle _ => ?_
          failed := fun he => absurd he hstate.1
          trying := fun _ => htrying
          linked := fun he => absurd he hstate.2 }
      · obtain ⟨j, hj, hcur, -⟩ := h.backoff hle hstate.1
        exact not_ticksOk_backoffOf hle hj (hcur ▸ hrange)
      · obtain ⟨j, hj, hcur, -⟩ := h.backoff hle hstate.1
        refine ⟨j, ?_, hcur, .inr hrange⟩
        simp only [supervised_append, after]
        omega
    | ok due =>
      have hrange : TicksOk s.currentBackoffMs := by
        by_contra hno
        rw [ticksAdd_of_not hno] at hticks
        cases hticks
      simp only [note, wp_bind, wp_modify]
      have hcurrent : cfg.reconnectBackoffStartMs ≤ cfg.reconnectBackoffMaxMs →
          s.currentBackoffMs = backoffOf cfg (supervised env s.log).failures := by
        intro hle
        obtain ⟨j, -, hcur, rfl | hno⟩ := h.backoff hle hstate.1
        · exact hcur
        · exact absurd hrange hno
      refine ⟨?_, by simp [hd]⟩
      exact
        { obeys := h.obeys.append ⟨h.inFlight, hopen, hticks, hcurrent⟩
          state := by simpa [after] using h.state
          failures := by simpa [after] using h.failures
          due := by simp [after]
          inFlight := fun hf => by simp [after, h.inFlight hf, hd]
          backoff := fun hle _ => ⟨k, by simp [after, hk], by
            rw [hk, ← backoffOf_succ hle, ← hcurrent hle], .inl (by simp [after, hk])⟩
          failed := fun he => absurd he hstate.1
          trying := fun _ => htrying
          linked := fun he => absurd he hstate.2 }

/-! ## Ticks -/

/-- The calls of the adapter leave the service as it is, but for what it has been asked. -/
lemma wp_dial (timeoutMs : ℤ) (s : WifiService) :
    wp (dial env timeoutMs) (fun _ => Same s) (fun _ => Same s) s := by
  have hlast : ∀ (n : ℕ) (u : WifiService), Same s u →
      wp (lift (env.connect timeoutMs n)) (fun _ => Same s) (fun _ => Same s) u := by
    intro n u hu
    cases env.connect timeoutMs n with
    | ok ok => exact hu
    | error error => exact hu
  simp only [dial, wp_bind, wp_get, wp_when, wp_ask, wp_modify]
  refine ⟨fun _ => ?_, fun _ => hlast _ _ ⟨rfl, rfl, rfl, rfl, rfl, rfl⟩⟩
  cases env.configure s.asked with
  | ok _ => exact hlast _ _ ⟨rfl, rfl, rfl, rfl, rfl, rfl⟩
  | error error => exact ⟨rfl, rfl, rfl, rfl, rfl, rfl⟩

/-- The timeout of an attempt is one of the two that are configured. -/
lemma ticksOk_attemptTimeoutMs (hfits : Fits cfg env) (s : WifiService) :
    (∀ n, env.connectBlocks n = true) ∨ TicksOk (attemptTimeoutMs cfg s) := by
  refine hfits.imp_right fun h => ?_
  unfold attemptTimeoutMs
  split
  · rename_i graceMs hgrace
    split
    · exact h.1
    · exact h.2 graceMs hgrace
  · exact h.1

/-- **An attempt starts when it is due and none is in flight.** -/
lemma wp_attemptConnect (haloof : env.Aloof) {nowMs : ℤ} (h : Inv cfg env 0 s)
    (hs : Seeking s.state) (hd : s.attemptDeadlineMs = none)
    (hdue : 0 ≤ ticksDiff nowMs s.nextAttemptDueMs) :
    wp (attemptConnect cfg env nowMs) (fun _ => Rest cfg env) (fun _ => Rest cfg env) s := by
  set u : WifiService := { s with log := s.log ++ [Event.attempt nowMs] } with hu
  have hinv : Inv cfg env 1 u :=
    { obeys := h.obeys.append ⟨by rw [h.due]; exact hdue, h.inFlight⟩
      state := by simpa [hu, after] using h.state
      failures := by simpa [hu, after] using h.failures
      due := by simpa [hu, after] using h.due
      inFlight := fun hf => by simp [hu, after, h.inFlight hf]
      backoff := by simpa [hu, after] using h.backoff
      failed := by simpa [hu, after] using h.failed
      trying := h.trying
      linked := h.linked }
  -- what is known of the service when the adapter has answered
  have hseek : ∀ {t : WifiService}, Same u t → Seeking t.state := fun ht => by
    rw [ht.state]
    exact hs
  have hnone : ∀ {t : WifiService}, Same u t → t.attemptDeadlineMs = none := fun ht =>
    ht.deadline.trans hd
  simp only [attemptConnect, wp_bind, wp_get, note, wp_modify, wp_tryCatch,
    wp_pure]
  refine wp_mono (wp_dial (attemptTimeoutMs cfg s) u) (fun ok t ht => ?_) fun error t ht => ?_
  · cases ok with
    | true => exact wp_markConnected haloof (hinv.of_same ht) (hseek ht)
    | false =>
      simp only [wp_bind, wp_ask]
      set v : WifiService := { t with asked := t.asked + 1 }
      have hv : Same u v := ht.trans ⟨rfl, rfl, rfl, rfl, rfl, rfl⟩
      cases hblocks : env.connectBlocks t.asked with
      | true =>
        exact wp_registerFailedAttempt haloof (hinv.of_same hv) (hseek hv) (hnone hv)
      | false =>
        simp only [Bool.false_eq_true, if_false, wp_bind]
        have hiv := hinv.of_same hv
        cases hticks : ticksAdd nowMs (attemptTimeoutMs cfg s) with
        | ok deadline =>
          refine ⟨?_, fun _ => (hseek hv : Seeking v.state)⟩
          exact
            { obeys := hiv.obeys
              state := hiv.state
              failures := hiv.failures
              due := hiv.due
              inFlight := hiv.inFlight
              backoff := hiv.backoff
              failed := hiv.failed
              trying := hiv.trying
              linked := hiv.linked }
        | error error =>
          -- an attempt without a deadline, which settings that fit exclude
          have hnofit : ¬ Fits cfg env := fun hfits => by
            rcases ticksOk_attemptTimeoutMs hfits s with hall | hok
            · rw [hall] at hblocks
              cases hblocks
            · rw [ticksAdd_of_ok hok] at hticks
              cases hticks
          refine ⟨?_, by simp [hnone hv]⟩
          exact { hiv with inFlight := fun hfits => absurd hfits hnofit }
  · have ht' : Same u { t with lastError := some error } :=
      ht.trans ⟨rfl, rfl, rfl, rfl, rfl, rfl⟩
    exact wp_registerFailedAttempt haloof (hinv.of_same ht') (hseek ht') (hnone ht')

lemma wp_pollInFlight (haloof : env.Aloof) {nowMs deadlineMs : ℤ} (h : Rest cfg env s)
    (hd : s.attemptDeadlineMs = some deadlineMs) :
    wp (pollInFlight cfg env nowMs deadlineMs) (fun _ => Rest cfg env)
      (fun _ => Rest cfg env) s := by
  have hsome : s.attemptDeadlineMs.isSome := by simp [hd]
  have hinv : Inv cfg env 1 s := by simpa [hsome] using h.inv
  have hsame : Same s { s with asked := s.asked + 1 } := ⟨rfl, rfl, rfl, rfl, rfl, rfl⟩
  simp only [pollInFlight, wp_bind, wp_ask]
  split
  · exact wp_markConnected haloof (hinv.of_same hsame) (h.seeking hsome)
  · split
    · simp only [wp_bind, wp_modify]
      refine wp_registerFailedAttempt haloof ?_ (h.seeking hsome) rfl
      exact
        { obeys := hinv.obeys
          state := hinv.state
          failures := hinv.failures
          due := hinv.due
          inFlight := hinv.inFlight
          backoff := hinv.backoff
          failed := hinv.failed
          trying := hinv.trying
          linked := hinv.linked }
    · exact h.of_same hsame

lemma wp_pursue (haloof : env.Aloof) (nowMs : ℤ) (h : Rest cfg env s) (hs : Seeking s.state) :
    wp (pursue cfg env nowMs) (fun _ => Rest cfg env) (fun _ => Rest cfg env) s := by
  simp only [pursue, wp_bind, wp_get]
  cases hd : s.attemptDeadlineMs with
  | some deadline => exact wp_pollInFlight haloof h hd
  | none =>
    have hinv : Inv cfg env 0 s := by simpa [hd] using h.inv
    simp only [wp_ite, wp_pure]
    exact ⟨fun _ => h, fun hdue => wp_attemptConnect haloof hinv hs hd (not_lt.mp hdue)⟩

/-- **A tick keeps the service and its supervisor in agreement.** -/
theorem wp_handle (haloof : env.Aloof) (nowMs : ℤ) (h : Rest cfg env s) :
    wp (handle cfg env nowMs) (fun _ => Rest cfg env) (fun _ => Rest cfg env) s := by
  simp only [handle, wp_bind, wp_get]
  have hidle : ¬ Seeking s.state → s.attemptDeadlineMs = none := fun hno => by
    by_contra hsome
    exact hno (h.seeking (Option.isSome_iff_ne_none.mpr hsome))
  cases hstate : s.state with
  | FAILED => exact h
  | CONNECTING => exact wp_pursue haloof nowMs h (.inl hstate)
  | RECONNECTING => exact wp_pursue haloof nowMs h (.inr hstate)
  | DISCONNECTED =>
    have hd := hidle (by simp [Seeking, hstate])
    have hinv : Inv cfg env 0 s := by simpa [hd] using h.inv
    simp only [wp_bind]
    refine wp_mono (wp_transition haloof (by simp [hstate])) (fun _ t ht => ?_) fun _ _ hf => hf.elim
    refine wp_pursue haloof nowMs (Rest.of_same ⟨?_, by simp [hd]⟩ ht) (.inl ht.state)
    simpa [hd] using hinv.changed (hstate ▸ .start : Allowed s.state .CONNECTING) (by simp) (by simp)
  | CONNECTED =>
    have hd := hidle (by simp [Seeking, hstate])
    have hinv : Inv cfg env 0 s := by simpa [hd] using h.inv
    have hzero := hinv.linked hstate
    simp only [wp_bind, wp_ask]
    split
    · exact h.of_same ⟨rfl, rfl, rfl, rfl, rfl, rfl⟩
    · simp only [resetBackoff, note, wp_bind, wp_modify]
      set u : WifiService := { s with
        asked := s.asked + 1
        currentBackoffMs := cfg.reconnectBackoffStartMs
        nextAttemptDueMs := nowMs
        attemptDeadlineMs := none
        log := s.log ++ [Event.lost nowMs] } with hu
      have hlost : Inv cfg env 0 u :=
        { obeys := hinv.obeys.append (hinv.state.trans hstate)
          state := by simpa [hu, after] using hinv.state
          failures := by simp [hu, after, hzero]
          due := by simp [hu, after]
          inFlight := by simpa [hu, after] using hinv.inFlight
          backoff := fun hle _ => ⟨0, Nat.zero_le _, by simp [hu, backoffOf, hle],
            .inl (by simp [hu, after])⟩
          failed := fun he => by
            rw [show u.state = s.state from rfl, hstate] at he
            cases he
          trying := hinv.trying
          linked := hinv.linked }
      refine wp_mono (wp_transition haloof (s := u) (by simp [hu, hstate])) (fun _ t ht => ?_)
        fun _ _ hf => hf.elim
      refine Rest.of_same ⟨?_, by simp [hu]⟩ ht
      exact hlost.changed (hstate ▸ .drop : Allowed u.state .RECONNECTING) (by simp) (by simp)

lemma wp_check (nowMs : ℤ) (h : Rest cfg env s) :
    wp (check env nowMs) (fun _ => Rest cfg env) (fun _ => Rest cfg env) s := by
  simp only [check, wp_bind, wp_get]
  cases s.state with
  | FAILED => exact h
  | CONNECTED => exact h.of_same ⟨rfl, rfl, rfl, rfl, rfl, rfl⟩
  | _ =>
    simp only [wp_ite, wp_pure]
    exact ⟨fun _ => h, fun _ => h⟩

/-- Between two ticks the service agrees with its supervisor. -/
lemma Reaches.rest (haloof : env.Aloof) (h : Reaches cfg env s) : Rest cfg env s := by
  induction h with
  | new =>
    exact
      { inv :=
          { obeys := Obeys.nil cfg env
            state := rfl
            failures := rfl
            due := rfl
            inFlight := fun _ => rfl
            backoff := fun hle _ => ⟨0, le_rfl, by simp [WifiService.new, backoffOf, hle], .inl rfl⟩
            failed := fun he => by cases he
            trying := fun _ n _ => by
              show (0 : ℤ) < max n 1
              omega
            linked := fun _ => rfl }
        seeking := fun he => by cases he }
  | step action _ ih =>
    cases action with
    | onStateChange callback => exact ih.of_same ⟨rfl, rfl, rfl, rfl, rfl, rfl⟩
    | check nowMs => exact wp_state (wp_check nowMs ih)
    | handle nowMs => exact wp_state (wp_handle haloof nowMs ih)

/-- **A wifi service is a supervisor**, whatever the adapter and the clock answer, whichever aloof
callback raises and whenever it is ticked. Only allowed transitions occur, one from the state of the
other, so that `FAILED` is never left; the service has failed exactly when the last allowed failure
in a row has happened, and that failure is the one that gives up. Any other failure schedules the
next attempt by the delay of its place in the row, which a success or a loss of the link starts
anew, unless `ticks_add` refuses that delay. No attempt starts before the tick it was scheduled for.
At most one attempt is in flight, if the timeouts of an adapter that does not block fit `ticks_add`.
-/
theorem supervision (haloof : env.Aloof) (h : Reaches cfg env s) :
    (∀ a old new b, s.log = a ++ Event.changed old new :: b →
      old = (supervised env a).state ∧ Allowed old new ∧
        (new = .FAILED → Exhausted cfg (supervised env a).failures)) ∧
    (supervised env s.log).state = s.state ∧
    (s.state = .FAILED ↔ Exhausted cfg (supervised env s.log).failures) ∧
    (∀ a verdict b, s.log = a ++ Event.failed verdict :: b →
      AdmitsVerdict cfg ((supervised env a).failures + 1) verdict) ∧
    (∀ a nowMs b, s.log = a ++ Event.attempt nowMs :: b →
      0 ≤ ticksDiff nowMs (supervised env a).dueMs) ∧
    (Fits cfg env → ∀ a, a <+: s.log → (supervised env a).inFlight ≤ 1) := by
  have hinv := (h.rest haloof).inv
  refine ⟨fun a old new b hlog => hinv.obeys a _ b hlog, hinv.state, ⟨hinv.failed, ?_⟩,
    fun a verdict b hlog => (hinv.obeys a _ b hlog).2,
    fun a nowMs b hlog => (hinv.obeys a _ b hlog).1,
    fun hfits a ha => hinv.obeys.inFlight_le hfits ha⟩
  rintro ⟨n, hn, heq⟩
  by_contra hno
  have hlt := hinv.trying hno n hn
  rw [← hinv.failures, heq] at hlt
  exact lt_irrefl _ hlt

/-! ## Two runs -/

/-- What ticks at the given times lead a new service to. -/
def ticked (cfg : WifiConfig) (env : Env) (times : List ℤ) : WifiService :=
  times.foldl (fun s nowMs => act cfg env (.handle nowMs) s) (.new cfg env)

lemma reaches_ticked (cfg : WifiConfig) (env : Env) (times : List ℤ) :
    Reaches cfg env (ticked cfg env times) := by
  have hfold : ∀ (s : WifiService), Reaches cfg env s →
      Reaches cfg env (times.foldl (fun s nowMs => act cfg env (.handle nowMs) s) s) := by
    induction times with
    | nil => exact fun s h => h
    | cons nowMs times ih => exact fun s h => ih _ (h.step (.handle nowMs))
  exact hfold _ .new

/-- A radio that never links, at a clock that stands still. -/
def deafRadio (blocks : Bool) : Env where
  ticksMs _ := 0
  configure _ := .ok ()
  connect _ _ := .ok false
  isLinked _ := false
  connectBlocks _ := blocks
  callback _ _ _ _ := pure ()

/-- With two attempts allowed, the first failure schedules a second attempt one second later, the
second one gives up, and there is never more than one attempt in flight. -/
theorem supervision_givingUp :
    let cfg : WifiConfig := { reconnectMax := some 2 }
    let s := ticked cfg (deafRadio true) [0, 1000]
    Exhausted cfg (supervised (deafRadio true) s.log).failures ∧
      AdmitsVerdict cfg 1 (.retry 0 1000 1000) ∧
      ∀ a, a <+: s.log → (supervised (deafRadio true) a).inFlight ≤ 1 := by
  intro cfg s
  have haloof : (deafRadio true).Aloof := fun _ _ _ _ _ => rfl
  obtain ⟨-, -, hfailed, hverdict, -, hflight⟩ := supervision haloof
    (reaches_ticked cfg (deafRadio true) [0, 1000])
  have hlog : s.log = [Event.changed .DISCONNECTED .CONNECTING, .attempt 0] ++
      .failed (.retry 0 1000 1000) ::
        [.attempt 1000, .failed .gaveUp, .changed .CONNECTING .FAILED] := by
    decide +kernel
  exact ⟨hfailed.mp (by decide +kernel), hverdict _ _ _ hlog, hflight (.inl fun _ => rfl)⟩

/-- An attempt whose timeout is half a period has no deadline: the next tick starts a second attempt
while the first one is in flight. -/
theorem two_in_flight : ¬ ∀ (cfg : WifiConfig) (env : Env) (s : WifiService),
    cfg.reconnectBackoffStartMs ≤ cfg.reconnectBackoffMaxMs → Reaches cfg env s →
      (supervised env s.log).inFlight ≤ 1 := by
  intro h
  have htwo : (supervised (deafRadio false)
      (ticked { connectTimeoutMs := 2 ^ 28 } (deafRadio false) [0, 1]).log).inFlight = 2 := by
    decide +kernel
  have hle := h _ _ _ (by decide) (reaches_ticked { connectTimeoutMs := 2 ^ 28 }
    (deafRadio false) [0, 1])
  rw [htwo] at hle
  exact absurd hle (by decide)

/-- A radio that links at the second attempt, and a callback that answers the transition to
`CONNECTING` with a tick of its own. What that tick does is told to a callback that does nothing. -/
def impatient : Env :=
  let radio : Env := { deafRadio true with connect := fun _ n => .ok (decide (4 ≤ n)) }
  { radio with
    callback := fun _ _ new _ => match new with
      | .CONNECTING => handle { reconnectMax := some 1 } radio 0
      | _ => pure () }

/-- **A callback that calls the service back lets it leave `FAILED`**: its tick makes the one
attempt that is allowed and gives up, and the tick that it interrupts goes on to connect. -/
theorem failed_left : ¬ ∀ (cfg : WifiConfig) (env : Env) (s : WifiService), Reaches cfg env s →
    ∀ old new, Event.changed old new ∈ s.log → Allowed old new := by
  intro h
  have hreaches : Reaches { reconnectMax := some 1 } impatient
      (act { reconnectMax := some 1 } impatient (.handle 0)
        (act { reconnectMax := some 1 } impatient (.onStateChange 0)
          (.new { reconnectMax := some 1 } impatient))) := (Reaches.new.step _).step _
  have hallow := h _ _ _ hreaches .FAILED .CONNECTED (by decide +kernel)
  cases hallow

end ChuMicro.Wifi
