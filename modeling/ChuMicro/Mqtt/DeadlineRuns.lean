import ChuMicro.Mqtt.ClientRuns
import ChuMicro.Timing.Deadlines

/-!
# What the MQTT client reports

The deadline that `next_deadline` of `MQTTClient` in `libraries/mqtt/src/chumicro_mqtt/client.py`
reports to the runner, against what its ticks do: a tick before the
reported deadline finds no timer that is due. While a connection attempt is under way this needs a
condition that the code does not ensure itself: `next_deadline` does not report the timers of
publishes in flight then, but the tick that completes the attempt looks at them.

## Main definitions

* `Mqtt.Client.nextDeadline` — `next_deadline`.
* `Mqtt.quietHandle` — a tick that looks at no timer.
* `Mqtt.Before` — a tick before the reported deadline.

## Main results

* `Mqtt.handle_eq_quietHandle` — nothing happens before the reported deadline.
* `Mqtt.nothing_before_deadline` — the same for every client that a run leads to.
-/

namespace ChuMicro.Mqtt

open Prog

/-! ## The reported deadline -/

/-- The ping due-tick, where the client pings. -/
def Client.pingDue (c : Client) : Option ℤ :=
  if c.state = .connected ∧ c.config.keepAliveSeconds > 0 then some c.timers.nextPingDueTicks
  else none

/-- `next_deadline` of a session. -/
def Client.sessionDeadline (c : Client) : Option ℤ :=
  earlier (earliest (earliest c.pingDue (c.pendingResponses.map PendingResponse.deadlineTicks))
    (c.inFlight.map InFlightPublish.deadlineTicks)) c.timers.sendDeadlineTicks

/-- `next_deadline`. The connector answers whether it has a socket yet, and with a deadline of its
own. -/
def Client.nextDeadline (connectorSocket : Bool) (connectorDeadline : Option ℤ) (c : Client)
    (nowMs : ℤ) : Option ℤ :=
  match c.state with
  | .awaitingTransport =>
    if c.connector = false then none
    else if connectorSocket = false then some nowMs
    else earlier connectorDeadline c.timers.transportDeadlineTicks
  | .failed => if c.selfHealActive then some (c.heal.retryAtTicks.getD nowMs) else none
  | .disconnected => none
  | .connecting => c.sessionDeadline
  | .connected => c.sessionDeadline

/-! ## Ticks without timers -/

section Quiet

variable (env : Env) (callee : Call → M Unit)

/-- `handle` in a session, without its timers. -/
def quietSession (nowMs : ℤ) : M Unit := do
  let w ← get
  if w.state = .disconnected then pure ()
  else
    tryCatch
      (withFrame .trying do
        record (.checkedDeadlines nowMs)
        readInbound env callee nowMs
        drainTxQueue env callee)
      (onTickError env callee)

/-- The body of a tick without its timers. -/
def quietBody (nowMs : ℤ) : M Unit := do
  let w ← get
  if w.state = .failed then pure ()
  else if w.state = .awaitingTransport then do
    let ready ← advanceConnector env callee nowMs
    if ready then quietSession env callee nowMs else pure ()
  else quietSession env callee nowMs

/-- A tick that only reads, writes and advances a connection attempt: no timeout, no retransmission,
no PING and no new attempt. -/
def quietHandle (nowMs : ℤ) : M Unit := do
  let w ← get
  withFrame (.handle w.stops) (quietBody env callee nowMs)

end Quiet

/-! ## Before the reported deadline -/

/-- The timers of a session. -/
def Client.sessionTimers (c : Client) : List ℤ :=
  c.pingDue.toList ++ c.pendingResponses.map PendingResponse.deadlineTicks ++
    c.inFlight.map InFlightPublish.deadlineTicks ++ c.timers.sendDeadlineTicks.toList

/-- The deadlines that `next_deadline` compares. -/
def Client.candidates (connectorDeadline : Option ℤ) (c : Client) : List ℤ :=
  match c.state with
  | .awaitingTransport => connectorDeadline.toList ++ c.timers.transportDeadlineTicks.toList
  | .failed => c.heal.retryAtTicks.toList
  | .disconnected => []
  | .connecting => c.sessionTimers
  | .connected => c.sessionTimers

/-- A tick that is not before `now`, and before the deadline that is reported at `now`. All these
ticks lie in one half of the ring. -/
structure Before (connectorSocket : Bool) (connectorDeadline : Option ℤ) (c : Client) (now t : ℤ) :
    Prop where
  le : 0 ≤ ticksDiff t now
  lt : ∀ d, c.nextDeadline connectorSocket connectorDeadline now = some d → ticksDiff t d < 0
  half : ∃ base, Ahead now base ∧ Ahead t base ∧ ∀ d ∈ c.candidates connectorDeadline, Ahead d base

/-- A session none of whose timers is due. -/
structure Client.InTime (c : Client) (t : ℤ) : Prop where
  inFlight : ∀ e ∈ c.inFlight, Ahead e.deadlineTicks t
  responses : ∀ p ∈ c.pendingResponses, Ahead p.deadlineTicks t
  send : ∀ d, c.timers.sendDeadlineTicks = some d → Ahead d t
  ping : ∀ d, c.pingDue = some d → Ahead d t

section Before

variable {env : Env} {callee : Call → M Unit} {w : World} {now t : ℤ} {connectorSocket : Bool}
  {connectorDeadline : Option ℤ}

lemma sessionDeadline_eq (c : Client) : c.sessionDeadline = earliest none c.sessionTimers := by
  have hfirst : earliest none c.pingDue.toList = c.pingDue := by cases c.pingDue <;> rfl
  have hlast : ∀ nearest (last : Option ℤ),
      earliest nearest last.toList = earlier nearest last := by
    intro nearest last
    cases last <;> cases nearest <;> rfl
  unfold Client.sessionDeadline Client.sessionTimers
  simp only [earliest, List.foldl_append] at hfirst hlast ⊢
  rw [hfirst, hlast]

lemma Client.InTime.of_timers {c : Client} (h : ∀ d ∈ c.sessionTimers, Ahead d t) :
    c.InTime t := by
  simp only [Client.sessionTimers, List.mem_append, List.mem_map, Option.mem_toList] at h
  exact ⟨fun e he => h _ (.inl (.inr ⟨e, he, rfl⟩)),
    fun p hp => h _ (.inl (.inl (.inr ⟨p, hp, rfl⟩))),
    fun d hd => h d (.inr hd), fun d hd => h d (.inl (.inl (.inl hd)))⟩

/-- A tick before the earliest of several deadlines is before all of them. -/
lemma ahead_of_before_earliest {base : ℤ} {candidates : List ℤ} (ht : Ahead t base)
    (hall : ∀ d ∈ candidates, Ahead d base)
    (hlt : ∀ d, earliest none candidates = some d → ticksDiff t d < 0) :
    ∀ d ∈ candidates, Ahead d t := by
  have hfirst : ∀ d, (none : Option ℤ) = some d → Ahead d base := nofun
  intro d hd
  obtain ⟨hsome, hnone⟩ := earliest_spec hfirst hall
  cases hn : earliest none candidates with
  | none => exact absurd (hnone hn).2 (List.ne_nil_of_mem hd)
  | some n =>
    obtain ⟨hahead, -, hle⟩ := hsome n hn
    have hbefore := (ticksDiff_neg_iff hahead ht).mp (hlt n hn)
    exact (hall d hd).of_lt ht (hbefore.trans_le (hle d hd))

/-! ## Nothing is due -/

/-- `_check_deadlines` of a session whose timers are in time. -/
lemma checkDeadlines_eq (h : w.toClient.InTime t) :
    checkDeadlines env callee t w = record (.checkedDeadlines t) w := by
  have hflight : ∀ (entries : List InFlightPublish) (v : World),
      (∀ e ∈ entries, Ahead e.deadlineTicks t) →
        checkInFlight env callee t entries v = (.ok false, v) := by
    intro entries
    induction entries with
    | nil => exact fun v _ => rfl
    | cons entry rest ih =>
      intro v hall
      have hentry : ticksDiff entry.deadlineTicks t > 0 := hall entry List.mem_cons_self
      unfold checkInFlight
      rw [get_bind_apply, if_pos hentry]
      exact ih v fun e he => hall e (List.mem_cons_of_mem _ he)
  have hresponses : ∀ v : World, v.toClient.InTime t →
      checkResponses env callee t v = (.ok (), v) := by
    intro v hv
    have hfind : v.pendingResponses.find?
        (fun pending => decide (ticksDiff pending.deadlineTicks t ≤ 0)) = none := by
      refine List.find?_eq_none.mpr fun p hp => ?_
      have hp : 0 < ticksDiff p.deadlineTicks t := hv.responses p hp
      simpa using hp
    have hsend : ¬ (v.timers.sendDeadlineTicks.any fun d => decide (ticksDiff d t ≤ 0)) = true := by
      cases hd : v.timers.sendDeadlineTicks with
      | none => simp
      | some d =>
        have hd : 0 < ticksDiff d t := hv.send d hd
        simpa using hd
    unfold checkResponses
    rw [get_bind_apply, hfind]
    change when _ _ v = _
    rw [when, if_neg hsend]
    rfl
  unfold checkDeadlines
  have hrecord : record (.checkedDeadlines t) w = (.ok (), w.record (.checkedDeadlines t)) := rfl
  have hnone := hflight (w.record (.checkedDeadlines t)).inFlight (w.record (.checkedDeadlines t))
    h.inFlight
  rw [bind_of_ok hrecord, get_bind_apply, bind_of_ok hnone, if_neg Bool.false_ne_true]
  exact hresponses _ h

/-- `_check_keepalive` of a session whose timers are in time. -/
lemma checkKeepalive_eq (h : w.toClient.InTime t) : checkKeepalive env t w = (.ok (), w) := by
  unfold checkKeepalive
  rw [get_bind_apply]
  by_cases hping : w.config.keepAliveSeconds = 0 ∨ w.state ≠ .connected
  · rw [if_pos (hping.elim .inl fun h => .inr (.inl h))]
    rfl
  · obtain ⟨hkeep, hstate⟩ := not_or.mp hping
    have hdue : w.pingDue = some w.timers.nextPingDueTicks :=
      if_pos ⟨not_not.mp hstate, Nat.pos_of_ne_zero hkeep⟩
    rw [if_pos (.inr (.inr (.inl (h.ping _ hdue))))]
    rfl

lemma withFrame_congr {m m' : M Unit} {frame : Frame}
    (h : m { w with frames := frame :: w.frames } = m' { w with frames := frame :: w.frames }) :
    withFrame frame m w = withFrame frame m' w := by
  simp only [withFrame, modify_bind_apply, Prog.tryFinally, h]

/-- A tick of a session whose timers are in time looks at none of them. -/
lemma handleSession_eq (h : w.toClient.InTime t) :
    handleSession env callee t w = quietSession env callee t w := by
  unfold handleSession quietSession
  rw [get_bind_apply, get_bind_apply]
  split
  · rfl
  · have htick : withFrame .trying (tick env callee t) w = withFrame .trying (do
        record (.checkedDeadlines t)
        readInbound env callee t
        drainTxQueue env callee) w := by
      refine withFrame_congr ?_
      have hrecord : ∀ v : World, record (.checkedDeadlines t) v =
          (.ok (), v.record (.checkedDeadlines t)) := fun _ => rfl
      have hcheck : checkDeadlines env callee t { w with frames := .trying :: w.frames } =
          (.ok (), World.record { w with frames := .trying :: w.frames } (.checkedDeadlines t)) :=
        checkDeadlines_eq h
      have hkeep : checkKeepalive env t
          (World.record { w with frames := .trying :: w.frames } (.checkedDeadlines t)) =
          (.ok (), World.record { w with frames := .trying :: w.frames } (.checkedDeadlines t)) :=
        checkKeepalive_eq h
      unfold tick
      rw [bind_of_ok hcheck, bind_of_ok hkeep, bind_of_ok (hrecord _)]
    simp only [Prog.tryCatch, htick]

/-! ## Other states -/

/-- The CONNECT packet of a session, with the timer of the CONNACK. -/
lemma wp_enqueueConnectPacket (hpositive : 0 < w.config.ackTimeoutMs) :
    wp (enqueueConnectPacket env (some t))
      (fun _ u => ∃ bytes d, Ahead d t ∧ u = { w with
        txQueue := w.txQueue ++ [TxItem.packet ⟨.connect, bytes⟩]
        pendingResponses := w.pendingResponses ++ [⟨.connack, d, none, none, none⟩] } ∧
        w.txQueue.length + 1 ≤ w.config.maxTxQueueSize)
      (fun _ _ => True) w := by
  unfold enqueueConnectPacket
  rw [wp_bind, wp_get, wp_bind]
  cases encodeConnect w.connectArgs with
  | error e => trivial
  | ok bytes =>
    rw [wp_lift_ok, wp_bind]
    refine wp_mono (enqueueUserTx_spec _) (fun _ u hu => ?_) fun _ _ _ => trivial
    obtain ⟨rfl, hroom⟩ := hu
    unfold awaitAck deadline
    rw [wp_bind, wp_get, wp_bind]
    cases hadd : ticksAdd t w.config.ackTimeoutMs with
    | error e =>
      simp only [hadd]
      trivial
    | ok d =>
      simp only [hadd, liftPy_ok, wp_lift_ok, wp_modify]
      exact ⟨bytes, d, ahead_of_ticksAdd hadd hpositive, rfl, hroom⟩

/-- A connection attempt that completes begins a session, whose timers are those there were and that
of the CONNACK. -/
lemma wp_advanceConnector (hpositive : 0 < w.config.ackTimeoutMs) :
    wp (advanceConnector env callee t)
      (fun ready u => ready = true → u.state = .connecting ∧ u.config = w.config ∧
        u.inFlight = w.inFlight ∧ u.timers.sendDeadlineTicks = w.timers.sendDeadlineTicks ∧
        (∃ d, Ahead d t ∧
          u.pendingResponses = w.pendingResponses ++ [⟨.connack, d, none, none, none⟩]) ∧
        u.txQueue.length = w.txQueue.length + 1)
      (fun _ _ => True) w := by
  unfold advanceConnector
  rw [wp_bind, wp_get, wp_ite]
  refine ⟨fun _ => trivial, fun _ => ?_⟩
  rw [wp_bind, wp_modify]
  split
  · trivial
  · exact nofun
  · rw [wp_bind, wp_modify, wp_bind]
    exact wp_of_forall (fun _ _ => nofun) fun _ _ => trivial
  · rw [wp_bind, wp_modify, wp_bind]
    refine wp_mono (wp_enqueueConnectPacket hpositive) (fun _ u hu => ?_) fun _ _ _ => trivial
    obtain ⟨bytes, d, hd, rfl, -⟩ := hu
    rw [wp_bind, wp_modify, wp_pure]
    exact fun _ => ⟨rfl, rfl, rfl, rfl, ⟨d, hd, rfl⟩, by simp⟩

/-- A connection attempt before its deadline. -/
lemma checkTransportDeadline_eq
    (h : ∀ d, w.timers.transportDeadlineTicks = some d → Ahead d t) :
    checkTransportDeadline env callee t w = (.ok false, w) := by
  unfold checkTransportDeadline
  rw [get_bind_apply]
  cases hd : w.timers.transportDeadlineTicks with
  | none => rfl
  | some d =>
    have hahead : ticksDiff d t > 0 := h d hd
    dsimp only
    rw [if_pos hahead]
    rfl

/-- A tick of a failed client before its next attempt. -/
lemma handleBody_of_failed (hstate : w.state = .failed)
    (hbefore : Before connectorSocket connectorDeadline w.toClient now t) :
    handleBody env callee t w = (.ok (), w) := by
  obtain ⟨hle, hlt, base, -, ht, hall⟩ := hbefore
  unfold Client.nextDeadline at hlt
  unfold Client.candidates at hall
  rw [hstate] at hlt hall
  unfold handleBody
  rw [get_bind_apply, if_pos hstate]
  have hwait : w.selfHealActive = false ∨
      (w.heal.retryAtTicks.any fun d => ticksDiff d t > 0) = true := by
    by_cases hactive : w.selfHealActive = true
    · right
      dsimp only at hlt hall
      rw [if_pos hactive] at hlt
      cases hretry : w.heal.retryAtTicks with
      | none =>
        -- the attempt is due at once, so no tick is before it
        have hnow := hlt now (by rw [hretry]; rfl)
        exact absurd hnow (not_lt.mpr hle)
      | some retryAt =>
        have hbase : Ahead retryAt base := hall retryAt (by rw [hretry]; simp)
        have hneg := hlt retryAt (by rw [hretry]; rfl)
        have hahead : ticksDiff retryAt t > 0 :=
          hbase.of_lt ht ((ticksDiff_neg_iff hbase ht).mp hneg)
        simpa using hahead
    · exact .inl (Bool.not_eq_true _ ▸ hactive)
  rw [if_pos hwait]
  rfl

/-- A tick before the deadline of a connection attempt. -/
lemma handleTransport_of_awaiting (hpositive : 0 < w.config.ackTimeoutMs)
    (hstate : w.state = .awaitingTransport)
    (hattempt : w.connector = false → w.timers.transportDeadlineTicks = none)
    (hbefore : Before connectorSocket connectorDeadline w.toClient now t)
    (hwaiting : w.toClient.InTime t) :
    handleTransport env callee t w = (do
      let ready ← advanceConnector env callee t
      if ready then quietSession env callee t else pure ()) w := by
  obtain ⟨hle, hlt, base, -, ht, hall⟩ := hbefore
  unfold Client.nextDeadline at hlt
  unfold Client.candidates at hall
  rw [hstate] at hlt hall
  dsimp only at hlt hall
  have htransport : ∀ d, w.timers.transportDeadlineTicks = some d → Ahead d t := by
    intro d hd
    cases hconnector : w.connector with
    | false => exact nomatch (hattempt hconnector).symm.trans hd
    | true =>
      rw [if_neg (by rw [hconnector]; simp)] at hlt
      split at hlt
      · exact absurd (hlt now rfl) (not_lt.mpr hle)
      · simp only [List.mem_append, Option.mem_toList] at hall
        have hone : ∀ d, connectorDeadline = some d → Ahead d base := fun d hd => hall d (.inl hd)
        have htwo : ∀ d, w.timers.transportDeadlineTicks = some d → Ahead d base :=
          fun d hd => hall d (.inr hd)
        obtain ⟨n, hn⟩ : ∃ n, earlier connectorDeadline w.timers.transportDeadlineTicks = some n :=
          Option.ne_none_iff_exists'.mp fun h => nomatch (earlier_eq_none.mp h).2.symm.trans hd
        have hnear := (before_earlier hone htwo hn).2 d hd
        have hneg := (ticksDiff_neg_iff (ahead_earlier hone htwo n hn) ht).mp (hlt n hn)
        exact (htwo d hd).of_lt ht (hneg.trans_le hnear)
  unfold handleTransport
  rw [get_bind_apply, if_pos hstate, bind_of_ok (checkTransportDeadline_eq htransport),
    if_neg Bool.false_ne_true]
  have hadvanced : wp (advanceConnector env callee t)
      (fun ready u => (if ready then handleSession env callee t else pure ()) u =
        (if ready then quietSession env callee t else pure ()) u) (fun _ _ => True) w := by
    refine wp_mono (wp_advanceConnector hpositive) (fun ready u hu => ?_) fun _ _ _ => trivial
    cases ready with
    | false => rfl
    | true =>
      obtain ⟨hconnecting, hconfig, hflight, hsend, ⟨d, hd, hresponses⟩, -⟩ := hu rfl
      refine handleSession_eq ⟨?_, ?_, ?_, ?_⟩
      · rw [hflight]
        exact hwaiting.inFlight
      · rw [hresponses]
        intro p hp
        rcases List.mem_append.mp hp with hp | hp
        · exact hwaiting.responses p hp
        · rw [List.mem_singleton.mp hp]
          exact hd
      · rw [hsend]
        exact hwaiting.send
      · intro d hd
        unfold Client.pingDue at hd
        rw [hconnecting] at hd
        simp at hd
  exact bind_congr_of_wp hadvanced

/-- **Nothing happens before the reported deadline**: a tick before it reads and writes, and goes on
with a connection attempt, but no timeout, no retransmission, no PING and no new attempt happens in
it. While an attempt is under way no timer of the session may be due, since `next_deadline` does not
report these then.

**Proof sketch.** The scan has found the earliest of the timers that the state serves. So all of
them are ahead of the tick, and each check of the tick passes without an effect. -/
theorem handle_eq_quietHandle (hpositive : 0 < w.config.ackTimeoutMs)
    (hattempt : w.state = .awaitingTransport → w.connector = false →
      w.timers.transportDeadlineTicks = none)
    (hbefore : Before connectorSocket connectorDeadline w.toClient now t)
    (hwaiting : w.state = .awaitingTransport → w.toClient.InTime t) :
    handle env callee t w = quietHandle env callee t w := by
  unfold handle quietHandle
  rw [get_bind_apply, get_bind_apply]
  refine withFrame_congr ?_
  unfold quietBody
  rw [get_bind_apply]
  -- the frame is no part of the client
  by_cases hfailed : w.state = .failed
  · rw [if_pos hfailed]
    exact handleBody_of_failed hfailed hbefore
  unfold handleBody
  rw [get_bind_apply, if_neg hfailed, if_neg hfailed]
  by_cases hawaiting : w.state = .awaitingTransport
  · rw [if_pos hawaiting]
    exact handleTransport_of_awaiting hpositive hawaiting (hattempt hawaiting) hbefore
      (hwaiting hawaiting)
  · rw [if_neg hawaiting]
    unfold handleTransport
    rw [get_bind_apply, if_neg hawaiting]
    by_cases hdisconnected : w.state = .disconnected
    · unfold handleSession quietSession
      rw [get_bind_apply, get_bind_apply, if_pos hdisconnected, if_pos hdisconnected]
    · obtain ⟨-, hlt, base, -, ht, hall⟩ := hbefore
      refine handleSession_eq (.of_timers ?_)
      refine ahead_of_before_earliest ht (fun d hd => hall d ?_) fun d hd => hlt d ?_
      · unfold Client.candidates
        cases hstate : w.state <;> simp_all
      · rw [← sessionDeadline_eq] at hd
        unfold Client.nextDeadline
        cases hstate : w.state <;> simp_all

end Before

/-! ## Every run -/

/-- **Nothing happens before the reported deadline, in every run**: whatever calls the application
has made, also from its callbacks, and whatever the transports, the connectors and the clock have
answered, a tick before the deadline that the client reports only reads, writes and goes on with a
connection attempt: no timeout, no retransmission, no PING and no new attempt happens in it. While
an attempt is under way no timer of the session may be due. -/
theorem nothing_before_deadline (env : Env) (depth : ℕ) (config : ClientConfig) (will : Will)
    (hasSocket : Bool) (calls : List Call) (hpositive : 0 < config.ackTimeoutMs)
    (connectorSocket : Bool) (connectorDeadline : Option ℤ) (now t : ℤ) :
    let w := runCalls env depth (World.new config will hasSocket) calls
    Before connectorSocket connectorDeadline w.toClient now t →
      (w.state = .awaitingTransport → w.toClient.InTime t) →
        handle env (perform env depth) t w = quietHandle env (perform env depth) t w := by
  intro w hbefore hwaiting
  have hnew := coherent_new config will hasSocket
  have hrun : Stays (World.new config will hasSocket) w := runCalls_reaches env depth hnew calls
  have hconfig : w.config = config := hrun.reaches.config_eq
  refine handle_eq_quietHandle ?_ (hrun.coherent hnew).attempt hbefore hwaiting
  rw [hconfig]
  exact hpositive

/-- A tick 4000 ms after the CONNECT packet was queued, which may wait 5000 ms for its answer. -/
theorem nothing_before_deadline_connecting :
    handle .still (perform .still 1) 4000
        (runCalls .still 1 (World.new (.defaults false) {} true) [.connect, .handle 0]) =
      quietHandle .still (perform .still 1) 4000
        (runCalls .still 1 (World.new (.defaults false) {} true) [.connect, .handle 0]) :=
  nothing_before_deadline .still 1 (.defaults false) {} true [.connect, .handle 0] (by decide)
    false none 0 4000 ⟨by decide, by decide +kernel, -1, by decide, by decide, by decide +kernel⟩
    fun h => absurd h (by decide +kernel)

end ChuMicro.Mqtt
