import ChuMicro.Ntp.Client
import Mathlib.Data.List.Induction

/-!
# Runs of the SNTP client

Any sequence of calls of `NTPClient`, with any behaviour of the socket. A call that raises leaves
the client as far as it has come, and the run goes on from there. `close` does not look at the query
in flight: its result stays pending, and the next `handle` calls `recvfrom_into` of a socket that is
gone. Calls come at moments of a clock that does not wrap, in any order; what the client sees of
them are their ticks.

## Main definitions

* `Ntp.NTPClient.Op` — the calls.
* `Ntp.NTPClient.startedAt` — the moment of the query that the client has last made.
* `Ntp.NTPClient.SafeCall` — what is asked of one call.
* `Ntp.NTPClient.HandledInTime` — a timeout that has elapsed shows in the ticks.

## Main results

* `Ntp.NTPClient.safe_iff` — a run is safe exactly when no query is in flight at any of its calls of
  `close` and every timeout that has elapsed shows in the ticks.
-/

namespace ChuMicro.Ntp.NTPClient

/-- A call of the client, with what the socket and the transport factory do, and its moment. -/
inductive Op where
  | query (factory : CallAnswer) (recv : ℕ → RecvAnswer) (moment : ℤ) (sendto : CallAnswer)
  | handle (recv : RecvAnswer) (moment : ℤ)
  | cancel
  | close (answer : CallAnswer)

/-- The results that are done stay as they are. -/
def KeepsDone (client client' : NTPClient) : Prop :=
  ∀ (index : ℕ) (result : NTPResult), client.results[index]? = some result → result.done = true →
    client'.results[index]? = some result

/-- Only the result that the client holds may still be pending. -/
def PendingHeld (client : NTPClient) : Prop :=
  ∀ (index : ℕ) (result : NTPResult), client.results[index]? = some result → result.done = false →
    client.result = some index

section Runs

variable (ewouldblock : Option ℕ)

/-- The call; what it returns is of no matter here. -/
def perform : Op → Prog NTPClient Exn Unit
  | .query factory recv moment sendto => do
    let _ ← NTPClient.query factory recv (ticksMs moment) sendto
  | .handle recv moment => NTPClient.handle ewouldblock recv (ticksMs moment)
  | .cancel => do let _ ← NTPClient.cancel
  | .close answer => NTPClient.close answer

/-- The client after some calls. -/
def after (client : NTPClient) (ops : List Op) : NTPClient :=
  ops.foldl (fun client op => (perform ewouldblock op client).2) client

/-- The moment of a query that returns is that of the query last made from then on. -/
def queriedAt (client : NTPClient) (moment : ℤ) (op : Op) : ℤ :=
  match op, (perform ewouldblock op client).1 with
  | .query _ _ moment _, .ok _ => moment
  | _, _ => moment

/-- The moment of the query last made, after some calls. -/
def startedAt (client : NTPClient) (moment : ℤ) : List Op → ℤ
  | [] => moment
  | op :: ops =>
    startedAt (perform ewouldblock op client).2 (queriedAt ewouldblock client moment op) ops

/-- **What is asked of a call**, `started` being the moment of the query last made: `handle` and
`cancel` do not raise; a result that is done stays as it is, and only the result that the client is
busy with is not done; after `close`, and after a `handle` at which the timeout has elapsed, the
client is not busy. -/
structure SafeCall (client : NTPClient) (started : ℤ) (op : Op) : Prop where
  handle_returns : ∀ recv moment, op = .handle recv moment →
    (perform ewouldblock op client).1 = .ok ()
  cancel_returns : op = .cancel → (perform ewouldblock op client).1 = .ok ()
  done_stays : client.KeepsDone (perform ewouldblock op client).2
  pending_held : (perform ewouldblock op client).2.PendingHeld
  close_idle : ∀ answer, op = .close answer → (perform ewouldblock op client).2.busy = false
  timeout_idle : ∀ recv moment, op = .handle recv moment →
    client.settings.timeoutMs ≤ moment - started → (perform ewouldblock op client).2.busy = false

/-- Every call of the run is safe. -/
def Safe (start : NTPClient) (ops : List Op) : Prop :=
  ∀ before op, before ++ [op] <+: ops →
    SafeCall ewouldblock (after ewouldblock start before) (startedAt ewouldblock start 0 before) op

end Runs

/-! ## The invariant -/

/-- **The state between two calls**: the client holds one of the results, every other result is
done, and every result says something. -/
structure Inv (client : NTPClient) : Prop where
  held_lt : ∀ index, client.result = some index → index < client.results.length
  pending_held : client.PendingHeld
  sound : ∀ result ∈ client.results, result.Sound

variable {ewouldblock : Option ℕ} {client client' : NTPClient}

/-- A client that is not busy holds a finished result or none, so that all are finished. -/
lemma Inv.done_of_idle (h : client.Inv) (hidle : client.busy = false) {index : ℕ}
    {result : NTPResult} (hresult : client.results[index]? = some result) : result.done = true := by
  by_contra hpending
  rw [Bool.not_eq_true] at hpending
  have hheld := held_eq_some.mpr ⟨index, h.pending_held index result hresult hpending, hresult⟩
  exact nomatch hidle.symm.trans (busy_iff.mpr ⟨result, hheld, hpending⟩)

/-- A call that finishes the held result, or none. -/
lemma Inv.advances (h : client.Inv) (hadvances : client.Advances client') :
    client'.Inv ∧ client.KeepsDone client' := by
  obtain ⟨-, -, hresult, hresults⟩ := hadvances
  obtain hresults | ⟨index, old, new, hindex, hold, hfinishes, hresults⟩ := hresults
  · refine ⟨⟨?_, ?_, ?_⟩, ?_⟩
    · rw [hresult, hresults]
      exact h.held_lt
    · unfold PendingHeld
      rw [hresult, hresults]
      exact h.pending_held
    · rw [hresults]
      exact h.sound
    · unfold KeepsDone
      rw [hresults]
      exact fun _ _ hat _ => hat
  · have hlt := h.held_lt index hindex
    refine ⟨⟨?_, ?_, ?_⟩, ?_⟩
    · rw [hresult, hresults, List.length_set]
      exact h.held_lt
    · intro i result hat hpending
      rw [hresults] at hat
      rw [hresult]
      obtain rfl | hne := eq_or_ne index i
      · exact hindex
      · rw [List.getElem?_set_ne hne] at hat
        exact h.pending_held i result hat hpending
    · intro result hmem
      rw [hresults] at hmem
      obtain hmem | rfl := List.mem_or_eq_of_mem_set hmem
      · exact h.sound result hmem
      · exact hfinishes.sound (h.sound old (List.mem_of_getElem? hold))
    · intro i result hat hdone
      rw [hresults]
      obtain rfl | hne := eq_or_ne index i
      · cases hold.symm.trans hat
        exact nomatch hdone.symm.trans hfinishes.pending
      · rw [List.getElem?_set_ne hne]
        exact hat

/-- A call that hands out a result. -/
lemma Inv.asks (h : client.Inv) {nowMs : ℤ} {index : ℕ}
    (hasks : client.Asks nowMs index client') :
    client'.Inv ∧ client.KeepsDone client' := by
  obtain ⟨result, hsound, -, hresults⟩ := hasks.results
  refine ⟨⟨?_, ?_, ?_⟩, ?_⟩
  · intro i hi
    rw [hasks.result, hasks.index_eq] at hi
    cases hi
    rw [hresults, List.length_append]
    exact Nat.lt_succ_self _
  · intro i r hat hpending
    rw [hresults] at hat
    rw [hasks.result, hasks.index_eq]
    obtain hlt | hge := lt_or_ge i client.results.length
    · rw [List.getElem?_append_left hlt] at hat
      exact nomatch hpending.symm.trans (h.done_of_idle hasks.idle hat)
    · have hlt := (List.getElem?_eq_some_iff.mp hat).1
      rw [List.length_append, List.length_singleton] at hlt
      exact congrArg some (Nat.le_antisymm hge (Nat.lt_succ_iff.mp hlt))
  · intro r hmem
    rw [hresults, List.mem_append, List.mem_singleton] at hmem
    obtain hmem | rfl := hmem
    · exact h.sound r hmem
    · exact hsound
  · intro i r hat _
    rw [hresults, List.getElem?_append_left (List.getElem?_eq_some_iff.mp hat).1]
    exact hat

/-- What a call leaves behind: a query that returns hands out a result, `close` takes the socket
away, and every other call finishes the held result, or none. -/
lemma perform_cases (ewouldblock : Option ℕ) (client : NTPClient) (op : Op) :
    (∃ moment index, (∀ started, queriedAt ewouldblock client started op = moment) ∧
      client.Asks (ticksMs moment) index (perform ewouldblock op client).2) ∨
    (∀ started, queriedAt ewouldblock client started op = started) ∧
      (client.Advances (perform ewouldblock op client).2 ∨
        ∃ answer, op = .close answer ∧
          (perform ewouldblock op client).2 = { client with socket := false }) := by
  have hstays : client.Advances client := ⟨rfl, rfl, rfl, .inl rfl⟩
  cases op with
  | query factory recv moment sendto =>
    have hspec := query_spec client factory recv (ticksMs moment) sendto
    rcases hquery : query factory recv (ticksMs moment) sendto client with ⟨e | index, client'⟩
    · rw [Prog.wp, hquery] at hspec
      obtain rfl : client' = client := hspec
      have hrun : perform ewouldblock (.query factory recv moment sendto) client' =
          (.error e, client') := by
        simp only [perform, bind, hquery]
      refine .inr ⟨fun _ => by unfold queriedAt; rw [hrun], .inl ?_⟩
      rw [hrun]
      exact hstays
    · rw [Prog.wp, hquery] at hspec
      have hrun : perform ewouldblock (.query factory recv moment sendto) client =
          (.ok (), client') := by
        simp only [perform, bind, hquery]
        rfl
      refine .inl ⟨moment, index, fun _ => by unfold queriedAt; rw [hrun], ?_⟩
      rw [hrun]
      exact hspec
  | handle recv moment =>
    refine .inr ⟨fun _ => rfl, .inl (Prog.wp_state ?_)⟩
    rw [perform]
    refine Prog.wp_mono (handle_spec client ewouldblock recv (ticksMs moment)) ?_ ?_
    · exact fun _ _ hspec => hspec.advances
    · rintro - _ ⟨rfl, -, -⟩
      exact hstays
  | cancel =>
    refine .inr ⟨fun _ => rfl, .inl (Prog.wp_state ?_)⟩
    rw [perform, Prog.wp_bind]
    exact Prog.wp_mono (cancel_spec client) (fun _ _ hspec => hspec.1) (fun _ _ hfalse => hfalse.elim)
  | close answer =>
    refine .inr ⟨fun _ => rfl, .inr ⟨answer, rfl, Prog.wp_state (P := (· = _)) ?_⟩⟩
    rw [perform]
    exact Prog.wp_mono (close_spec client answer) (fun _ _ hspec => hspec)
      (fun _ _ hfalse => hfalse.elim)

/-- **One call keeps the invariant** and what is done. -/
lemma Inv.perform (h : client.Inv) (op : Op) :
    (perform ewouldblock op client).2.Inv ∧
      client.KeepsDone (NTPClient.perform ewouldblock op client).2 := by
  obtain ⟨_, _, -, hasks⟩ | ⟨-, hadvances | ⟨_, -, hclosed⟩⟩ := perform_cases ewouldblock client op
  · exact h.asks hasks
  · exact h.advances hadvances
  · rw [hclosed]
    exact ⟨⟨h.held_lt, h.pending_held, h.sound⟩, fun _ _ hat _ => hat⟩

/-- A result that is pending after `handle` or `cancel` was pending before. -/
lemma Advances.busy (h : client.Advances client') (hbusy : client'.busy = true) :
    client.busy = true := by
  obtain ⟨-, -, hresult, hresults | ⟨index, old, new, hindex, hold, hfinishes, hresults⟩⟩ := h
  · have hheld : client'.held = client.held := by
      unfold held
      rw [hresult, hresults]
    obtain ⟨result, hresult, hpending⟩ := busy_iff.mp hbusy
    exact busy_iff.mpr ⟨result, hheld ▸ hresult, hpending⟩
  · exact busy_iff.mpr ⟨old, held_eq_some.mpr ⟨index, hindex, hold⟩, hfinishes.pending⟩

/-- A client that is busy has the socket that it waits at. -/
def Connected (client : NTPClient) : Prop := client.busy = true → client.socket = true

/-- **One call keeps the socket of a busy client**, but for `close`. -/
lemma Connected.perform (h : client.Connected) (op : Op)
    (hclose : ∀ answer, op = .close answer → client.busy = false) :
    (NTPClient.perform ewouldblock op client).2.Connected := by
  obtain ⟨_, _, -, hasks⟩ | ⟨-, hadvances | ⟨answer, hop, hclosed⟩⟩ :=
    perform_cases ewouldblock client op
  · exact fun _ => hasks.socket
  · intro hbusy
    rw [hadvances.2.1]
    exact h (hadvances.busy hbusy)
  · rw [hclosed]
    exact fun hbusy => nomatch (hclose answer hop).symm.trans hbusy

/-! ## The moment of the query in flight -/

/-- The result that the client holds was started at the tick of the moment. -/
def StartedAt (client : NTPClient) (started : ℤ) : Prop :=
  ∀ result, client.held = some result → result.ticksStartedMs = ticksMs started

/-- A step of the result that the client holds leaves its start. -/
lemma StartedAt.advances {started : ℤ} (h : client.StartedAt started)
    (hadvances : client.Advances client') : client'.StartedAt started := by
  obtain ⟨-, -, hresult, hresults | ⟨index, old, new, hindex, hold, hfinishes, hresults⟩⟩ := hadvances
  · unfold StartedAt held
    rw [hresult, hresults]
    exact h
  · intro result hheld
    obtain ⟨i, hi, hat⟩ := held_eq_some.mp hheld
    cases (hresult ▸ hi).symm.trans hindex
    rw [hresults, List.getElem?_set_self (List.getElem?_eq_some_iff.mp hold).1] at hat
    cases hat
    exact hfinishes.started.trans (h old (held_eq_some.mpr ⟨index, hindex, hold⟩))

/-- **One call keeps track of the moment** of the query that it belongs to. -/
lemma StartedAt.perform {started : ℤ} (h : client.StartedAt started) (op : Op) :
    (NTPClient.perform ewouldblock op client).2.StartedAt
      (queriedAt ewouldblock client started op) := by
  obtain ⟨moment, index, hmoment, hasks⟩ | ⟨hmoment, hadvances | ⟨_, -, hclosed⟩⟩ :=
    perform_cases ewouldblock client op
  · obtain ⟨new, -, hstarted, hresults⟩ := hasks.results
    rw [hmoment]
    intro result hheld
    obtain ⟨i, hi, hat⟩ := held_eq_some.mp hheld
    rw [hasks.result, hasks.index_eq] at hi
    cases hi
    rw [hresults, List.getElem?_concat_length] at hat
    cases hat
    exact hstarted
  · rw [hmoment]
    exact h.advances hadvances
  · rw [hmoment, hclosed]
    exact h

/-- The difference of two ticks reaches a positive timeout exactly when the time between them,
up to whole turns of the ring, lies between the timeout and half the ring. -/
lemma le_ticksDiff_iff {timeoutMs now started : ℤ} (hpos : 0 < timeoutMs) :
    timeoutMs ≤ ticksDiff (ticksMs now) (ticksMs started) ↔
      timeoutMs ≤ (now - started) % TICKS_PERIOD ∧
        (now - started) % TICKS_PERIOD < TICKS_HALFPERIOD := by
  unfold ticksDiff ticksMs TICKS_PERIOD TICKS_HALFPERIOD
  omega

/-! ## Safe calls -/

/-- A call of `close` leaves the client as busy as it was. -/
lemma busy_close (client : NTPClient) (answer : CallAnswer) :
    (NTPClient.perform ewouldblock (.close answer) client).2.busy = client.busy := by
  refine Prog.wp_state (P := fun c : NTPClient => c.busy = client.busy) ?_
  rw [NTPClient.perform]
  refine Prog.wp_mono (close_spec client answer) ?_ (fun _ _ hfalse => hfalse.elim)
  rintro - _ rfl
  rfl

/-- **A timeout that has elapsed shows in the ticks**, unless something comes: up to whole turns of
the ring the time since the query in flight lies between its timeout and half the ring. -/
def ShowsTimeout (ewouldblock : Option ℕ) (client : NTPClient) (started moment : ℤ)
    (recv : RecvAnswer) : Prop :=
  client.busy = true → client.settings.timeoutMs ≤ moment - started →
    client.Quiet ewouldblock recv →
      client.settings.timeoutMs ≤ (moment - started) % TICKS_PERIOD ∧
        (moment - started) % TICKS_PERIOD < TICKS_HALFPERIOD

/-- By the ticks the timeout has elapsed when the time since the start says so. -/
lemma StartedAt.ticksElapsed_iff {started moment : ℤ} (h : client.StartedAt started)
    (hbusy : client.busy = true) :
    client.TicksElapsed (ticksMs moment) ↔
      client.settings.timeoutMs ≤ (moment - started) % TICKS_PERIOD ∧
        (moment - started) % TICKS_PERIOD < TICKS_HALFPERIOD := by
  rw [← le_ticksDiff_iff client.settings.timeout_pos]
  obtain ⟨result, hheld, -⟩ := busy_iff.mp hbusy
  refine ⟨fun helapsed => h result hheld ▸ helapsed result hheld, fun helapsed other hother => ?_⟩
  rw [h other hother]
  exact helapsed

/-- With a socket to wait at, `handle` never raises. -/
lemma Connected.handle_spec (h : client.Connected) (recv : RecvAnswer) (nowMs : ℤ) :
    Prog.wp (NTPClient.handle ewouldblock recv nowMs) (fun _ => client.Handles ewouldblock recv nowMs)
      (fun _ _ => False) client := by
  refine Prog.wp_mono (NTPClient.handle_spec client ewouldblock recv nowMs) (fun _ _ h => h) ?_
  rintro - _ ⟨-, hbusy, hsocket⟩
  exact nomatch (h hbusy).symm.trans hsocket

/-- **A call of a connected client is safe** if it does not close the socket under a query in
flight, and a timeout that has elapsed shows in the ticks. -/
lemma Inv.safeCall (h : client.Inv) (hconnected : client.Connected) {started : ℤ}
    (hstarted : client.StartedAt started) (op : Op)
    (hclose : ∀ answer, op = .close answer → client.busy = false)
    (hshows : ∀ recv moment, op = .handle recv moment →
      client.ShowsTimeout ewouldblock started moment recv) :
    SafeCall ewouldblock client started op where
  done_stays := (h.perform op).2
  pending_held := (h.perform op).1.pending_held
  close_idle
    | answer, hop => by
      rw [hop, busy_close]
      exact hclose answer hop
  cancel_returns hop := by
    subst hop
    rw [NTPClient.perform]
    obtain ⟨canceled, client', hrun, -⟩ := Prog.returns_of_wp (cancel_spec client)
    rw [Prog.bind_of_ok hrun]
    rfl
  handle_returns
    | recv, moment, hop => by
      subst hop
      obtain ⟨_, client', hrun, -⟩ :=
        Prog.returns_of_wp (@Connected.handle_spec ewouldblock _ hconnected recv (ticksMs moment))
      rw [NTPClient.perform, hrun]
  timeout_idle
    | recv, moment, hop, helapsed => by
      have hshow := hshows recv moment hop
      subst hop
      obtain ⟨_, client', hrun, hhandles⟩ :=
        Prog.returns_of_wp (@Connected.handle_spec ewouldblock _ hconnected recv (ticksMs moment))
      rw [NTPClient.perform, hrun]
      by_cases hbusy : client.busy = true
      · by_cases hquiet : client.Quiet ewouldblock recv
        · exact hhandles.idle_of_elapsed <|
            (hstarted.ticksElapsed_iff hbusy).mpr (hshow hbusy helapsed hquiet)
        · exact hhandles.idle_of_comes hquiet
      · by_contra hbusy'
        exact hbusy (hhandles.advances.busy (Bool.eq_true_of_not_eq_false hbusy'))

/-! ## Safe runs -/

section SafeRuns

variable {start : NTPClient} {ops before : List Op}

lemma after_concat (start : NTPClient) (before : List Op) (op : Op) :
    after ewouldblock start (before ++ [op]) =
      (perform ewouldblock op (after ewouldblock start before)).2 :=
  List.foldl_append

/-- No query is in flight at any call of `close`. -/
def ClosesIdle (ewouldblock : Option ℕ) (start : NTPClient) (ops : List Op) : Prop :=
  ∀ before answer, before ++ [Op.close answer] <+: ops → (after ewouldblock start before).busy = false

/-- At every call of `handle` at which the timeout of the query in flight has elapsed it shows in
the ticks, unless something comes. -/
def HandledInTime (ewouldblock : Option ℕ) (start : NTPClient) (ops : List Op) : Prop :=
  ∀ before recv moment, before ++ [Op.handle recv moment] <+: ops →
    (after ewouldblock start before).ShowsTimeout ewouldblock (startedAt ewouldblock start 0 before)
      moment recv

lemma startedAt_concat (start : NTPClient) (moment : ℤ) (before : List Op) (op : Op) :
    startedAt ewouldblock start moment (before ++ [op]) =
      queriedAt ewouldblock (after ewouldblock start before)
        (startedAt ewouldblock start moment before) op := by
  induction before generalizing start moment with
  | nil => rfl
  | cons first before ih => exact ih _ _

/-- **The invariant along a run**, by induction on the calls that have been made. -/
lemma Inv.after (h : start.Inv) (hconnected : start.Connected) (hstarted : start.StartedAt 0)
    (hcloses : ClosesIdle ewouldblock start ops) (before : List Op) (hbefore : before <+: ops) :
    (after ewouldblock start before).Inv ∧ (NTPClient.after ewouldblock start before).Connected ∧
      (NTPClient.after ewouldblock start before).StartedAt (startedAt ewouldblock start 0 before) := by
  induction before using List.reverseRecOn with
  | nil => exact ⟨h, hconnected, hstarted⟩
  | append_singleton before op ih =>
    obtain ⟨hinv, hconnected, hstarted⟩ := ih ((List.prefix_append _ _).trans hbefore)
    rw [after_concat, startedAt_concat]
    refine ⟨(hinv.perform op).1, hconnected.perform op ?_, hstarted.perform op⟩
    rintro answer rfl
    exact hcloses before answer hbefore

/-- A client that has just been constructed. -/
lemma inv_new {socket transportFactory : Bool} {server : String} {port timeoutMs : ℤ}
    (hnew : new socket transportFactory server port timeoutMs = .ok start) :
    start.Inv ∧ start.Connected ∧ start.StartedAt 0 := by
  unfold new at hnew
  split_ifs at hnew
  cases hnew
  exact ⟨⟨nofun, nofun, nofun⟩, nofun, nofun⟩

/-- **The SNTP client is safe in exactly the runs that never close it under a query in flight, and
whose calls of `handle` see in the ticks when its timeout has elapsed.** Then `handle` and `cancel`
never raise, a result that is done is never changed, no result but the one that the client is busy
with is pending, and the client is idle after `close` and after a `handle` at which the timeout has
elapsed, whatever the socket does. A call of `close` that comes while a query is in flight leaves
the client busy, and so does a `handle` without a datagram that comes half the ring late.

**Proof sketch.** A call of `close` leaves the client as busy as it was. As long as none comes under
a query in flight the client has its socket, so that `handle` returns, and the held result was
started at the tick of the last query: `handle` without a datagram finishes it exactly if the ticks
say so. -/
theorem safe_iff {socket transportFactory : Bool} {server : String} {port timeoutMs : ℤ}
    (hnew : new socket transportFactory server port timeoutMs = .ok start) (ops : List Op) :
    Safe ewouldblock start ops ↔
      ClosesIdle ewouldblock start ops ∧ HandledInTime ewouldblock start ops := by
  obtain ⟨hinv, hconnected, hstarted⟩ := inv_new hnew
  constructor
  · intro hsafe
    have hcloses : ClosesIdle ewouldblock start ops := fun before answer hbefore =>
      (busy_close _ answer).symm.trans <| (hsafe before _ hbefore).close_idle answer rfl
    refine ⟨hcloses, fun before recv moment hbefore hbusy helapsed hquiet => ?_⟩
    obtain ⟨hinv', hconnected', hstarted'⟩ :=
      hinv.after hconnected hstarted hcloses before ((List.prefix_append _ _).trans hbefore)
    rw [← hstarted'.ticksElapsed_iff hbusy]
    obtain ⟨_, client', hrun, hhandles⟩ := Prog.returns_of_wp
      (@Connected.handle_spec ewouldblock _ hconnected' recv (ticksMs moment))
    have hidle := (hsafe before _ hbefore).timeout_idle recv moment rfl helapsed
    rw [NTPClient.perform, hrun] at hidle
    exact hhandles.elapsed_of_idle hbusy hquiet hidle
  · rintro ⟨hcloses, hhandled⟩ before op hbefore
    obtain ⟨hinv', hconnected', hstarted'⟩ :=
      hinv.after hconnected hstarted hcloses before ((List.prefix_append _ _).trans hbefore)
    refine hinv'.safeCall hconnected' hstarted' op ?_ ?_
    · rintro answer rfl
      exact hcloses before answer hbefore
    · rintro recv moment rfl
      exact hhandled before recv moment hbefore

end SafeRuns

/-- A client with an injected socket. -/
def injected : NTPClient where
  settings := ⟨false, "pool.ntp.org", 123, 5000, by decide⟩
  socket := true

/-- A query at a socket with nothing to read, and a `handle` at such a socket. -/
def ask : Op := .query .ok (fun _ => .failed (some EAGAIN)) 0 .ok

def wait (moment : ℤ) : Op := .handle (.failed (some EAGAIN)) moment

/-- A query that times out after a turn of the ring and six seconds. -/
theorem safe_timed_out :
    Safe none injected [ask, wait 10, wait (2 ^ 29 + 6000), .close .ok, wait (2 ^ 29 + 7000)] := by
  refine (@safe_iff none injected true false "pool.ntp.org" 123 5000 rfl _).mpr ⟨?_, ?_⟩
  · rintro before answer ⟨rest, hbefore⟩
    obtain _ | ⟨a, _ | ⟨b, _ | ⟨c, _ | ⟨d, _ | ⟨e, before⟩⟩⟩⟩⟩ := before
    · cases hbefore
    · cases hbefore
    · cases hbefore
    · cases hbefore
      rfl
    · cases hbefore
    · cases before <;> cases hbefore
  · rintro before recv moment ⟨rest, hbefore⟩ hbusy helapsed -
    obtain _ | ⟨a, _ | ⟨b, _ | ⟨c, _ | ⟨d, _ | ⟨e, before⟩⟩⟩⟩⟩ := before
    · cases hbefore
    · cases hbefore
      exact absurd helapsed (by decide)
    · cases hbefore
      exact ⟨by decide, by decide⟩
    · cases hbefore
    · cases hbefore
      cases hbusy
    · cases before <;> cases hbefore

/-- **A query in flight is not finished by `close`**: the client stays busy, and `handle` raises. -/
theorem not_safe_closed_in_flight : ¬ Safe none injected [ask, .close .ok, wait 10] := by
  intro hsafe
  have hreturns := (hsafe [ask, .close .ok] (wait 10) (List.prefix_refl _)).handle_returns _ _ rfl
  cases hreturns

end ChuMicro.Ntp.NTPClient
