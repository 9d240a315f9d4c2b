import ChuMicro.Websockets.Deadlines
import ChuMicro.Websockets.HandshakeRoundTrip

/-!
# What a client reports

The deadline that a client reports, over whole runs. Before the session is established only the
handshake has a timer; from then on every tick leaves the timers in time, so that what is reported
after it lies ahead, and nothing happens before it.

The exception is a session in the state CLOSING. Its auto-ping is not sent any more, but its timer
is neither disarmed nor armed anew: once it is due the client reports it, tick after tick, until the
close has come to its end.

## Main definitions

* `Websockets.Client.Unopened` — a session before its handshake is over.
* `Websockets.Client.OnTime` — a clock that is not behind a tick and not too far ahead of it.
* `Websockets.Client.Pinned` — an auto-ping that is reported though nothing will send it.

## Main results

* `Websockets.Client.Reaches.inv` — every run keeps the invariant.
* `Websockets.Client.deadline_exact_iff` — after a tick the reported deadline is exact if and only
  if the session is not pinned.
-/

namespace ChuMicro.Websockets

namespace Client

open Prog

/-! ## Connecting -/

/-- A client that is connecting has no timer but that of the handshake. -/
structure Connecting (s : Session) : Prop where
  client : s.config.isServer = false
  called : s.handshake.connectCalled = true
  state : s.state = .connecting
  close : s.closeDeadlineTicks = none
  pong : s.pendingPingDeadlineTicks = none
  autoPing : s.nextAutoPingTicks = none

/-- What keeps a property of a session, and its settings. -/
def Preserves (P : Session → Prop) (s t : Session) : Prop := P s → P t ∧ t.config = s.config

instance (P : Session → Prop) : Std.Refl (Preserves P) where
  refl _ h := ⟨h, rfl⟩

instance (P : Session → Prop) : IsTrans Session (Preserves P) where
  trans _ _ _ hst htu hs :=
    have ht := hst hs
    have hu := htu ht.1
    ⟨hu.1, hu.2.trans ht.2⟩

/-- What keeps a client connecting. -/
abbrev Waits (s t : Session) : Prop := Preserves Connecting s t

/-- What a tick of a connecting client leads to. -/
structure Leads (times : ℤ → Prop) (s t : Session) : Prop where
  inv : Connecting t ∨ Established t
  timers : Timers times s t

section Connecting

variable {times : ℤ → Prop} {s t u : Session} {env : Env} {nowMs : ℤ}

lemma Connecting.leads (hs : Connecting s) (ht : Waits s t) : Leads times s t := by
  obtain ⟨ht, hconfig⟩ := ht hs
  exact ⟨.inl ht, hconfig, .inl ht.close, .inl ht.pong, .inl ht.autoPing⟩

lemma Ended.leads (h : Ended s t) : Leads times s t := ⟨.inr h.established, h.moves.timers⟩

lemma Leads.runs (h : Leads times s t) (ht : Established t) (hu : Runs times t u) :
    Leads times s u :=
  ⟨.inr (hu ht).established, h.timers.trans (hu ht).timers⟩

/-- A change of what a session that waits does not look at. -/
lemma waits_modify {f : Session → Session}
    (h : ∀ s, (f s).config = s.config ∧ (f s).state = s.state ∧
      (f s).handshake.connectCalled = s.handshake.connectCalled ∧
      (f s).closeDeadlineTicks = s.closeDeadlineTicks ∧
      (f s).pendingPingDeadlineTicks = s.pendingPingDeadlineTicks ∧
      (f s).nextAutoPingTicks = s.nextAutoPingTicks) : Within Waits (modify f : M Unit) := by
  intro s hs
  obtain ⟨hc, hst, hcall, h1, h2, h3⟩ := h s
  exact ⟨⟨(congrArg Config.isServer hc).trans hs.client, hcall.trans hs.called, hst.trans hs.state,
    h1.trans hs.close, h2.trans hs.pong, h3.trans hs.autoPing⟩, hc⟩

lemma waits_withHandshake {f : Handshake → Handshake}
    (h : ∀ h, (f h).connectCalled = h.connectCalled) : Within Waits (withHandshake f) :=
  waits_modify fun s => ⟨rfl, rfl, h s.handshake, rfl, rfl, rfl⟩

/-- A transport that is ready. -/
lemma waits_onTransportReady : Within Waits (onTransportReady env) := by
  refine within_bind (waits_withHandshake fun _ => rfl) fun _ => within_get fun s => ?_
  split
  · exact within_throw _
  · refine within_bind (waits_modify fun s => ⟨rfl, rfl, rfl, rfl, rfl, rfl⟩) fun _ => ?_
    refine within_bind (within_lift _) fun buffer => ?_
    refine within_bind (waits_withHandshake fun _ => rfl) fun _ => ?_
    exact within_bind (within_lift _) fun accept => waits_withHandshake fun _ => rfl

/-- A part of the request is sent. -/
lemma waits_socketSendRequest (chunk : List UInt8) :
    Within Waits (socketSendRequest env chunk) := by
  refine within_get fun s => within_bind (waits_modify fun s => ⟨rfl, rfl, rfl, rfl, rfl, rfl⟩) ?_
  intro _
  rcases env.send s.sends with errno | _ | n
  · exact within_pure _
  · exact within_pure _
  · exact within_bind (waits_modify fun s => ⟨rfl, rfl, rfl, rfl, rfl, rfl⟩) fun _ => within_pure _

variable (hcallback : ∀ n, Within (Runs times) (env.callback n))

include hcallback

/-- A failure of the handshake ends the session. -/
lemma Connecting.wp_fail (hs : Connecting s) (hst : Waits s t) (error : Exn) :
    wp (failWithError env error) (fun _ => Leads times s) (fun _ => Leads times s) t := by
  obtain ⟨ht, hconfig⟩ := hst hs
  have hend : ∀ u, Ended t u → Leads times s u := fun u h =>
    Ended.leads ⟨h.established, h.closed, h.config.trans hconfig⟩
  exact wp_mono (wp_failWithError hcallback error ht.client ht.called) (fun _ => hend) fun _ => hend

/-- The connector is driven. -/
lemma wp_advanceConnector (hs : Connecting s) :
    wp (advanceConnector env) (fun _ => Leads times s) (fun _ => Leads times s) s := by
  have hself : Waits s s := Std.Refl.refl s
  unfold advanceConnector
  rw [wp_bind, wp_get]
  split
  · exact hs.leads hself
  · rw [wp_bind, wp_modify]
    have hticked : Waits s { s with connectorTicks := s.connectorTicks + 1 } := fun h =>
      ⟨⟨h.client, h.called, h.state, h.close, h.pong, h.autoPing⟩, rfl⟩
    rcases env.connectorTick s.connectorTicks with _ | _ | lastError | e
    · exact hs.leads hticked
    · have hlead : ∀ t, Waits { s with connectorTicks := s.connectorTicks + 1 } t → Leads times s t :=
        fun t ht => hs.leads (IsTrans.trans _ _ _ hticked ht)
      exact wp_mono (waits_onTransportReady.wp _) (fun _ => hlead) fun _ => hlead
    · refine (wp_bind _ _).mpr ?_
      refine hs.wp_fail hcallback (IsTrans.trans _ _ _ hticked ?_) _
      exact waits_withHandshake (f := fun h => { h with connector := false }) (fun _ => rfl) _
    · exact hs.leads hticked

/-- The request is sent. -/
lemma wp_sendHandshakeChunk (hs : Connecting s) :
    wp (sendHandshakeChunk env) (fun _ => Leads times s) (fun _ => Leads times s) s := by
  have hcomplete : Within Waits onHandshakeSendComplete := waits_withHandshake fun _ => rfl
  have hleads : ∀ t, Waits s t → Leads times s t := fun _ => hs.leads
  unfold sendHandshakeChunk
  rw [wp_bind, wp_get]
  dsimp only
  split
  · exact wp_mono (hcomplete.wp s) (fun _ => hleads) fun _ => hleads
  · rw [wp_bind]
    refine wp_mono ((waits_socketSendRequest _).wp s) (fun answer t ht => ?_) fun _ => hleads
    rcases answer with errno | _ | sent
    · rw [wp_ite]
      exact ⟨fun _ => hs.leads ht, fun _ => hs.wp_fail hcallback ht _⟩
    · exact hs.leads ht
    · rw [wp_ite]
      refine ⟨fun _ => hs.leads ht, fun _ => ?_⟩
      have hrest : Within Waits (do
          withHandshake fun h => { h with sendOffset := h.sendOffset + sent }
          when (s.handshake.sendOffset + sent ≥ (s.handshake.sendBuffer.getD []).length)
            onHandshakeSendComplete : M Unit) :=
        within_bind (waits_withHandshake fun _ => rfl) fun _ => within_when hcomplete
      have hlead : ∀ u, Waits t u → Leads times s u := fun u hu =>
        hs.leads (IsTrans.trans _ _ _ ht hu)
      exact wp_mono (hrest.wp t) (fun _ => hlead) fun _ => hlead

omit hcallback in
/-- A connecting client whose handshake is over. -/
lemma established_opened (hs : Connecting s) (ht : Waits s t) (leftover : List UInt8) :
    Leads times s { t with
      handshake := { t.handshake with
        carry := leftover, sendBuffer := none, parser := none, phase := none }
      handshakeDeadlineTicks := none, state := .opened, log := t.log ++ [Entry.became .opened] } ∧
    Established { t with
      handshake := { t.handshake with
        carry := leftover, sendBuffer := none, parser := none, phase := none }
      handshakeDeadlineTicks := none, state := .opened, log := t.log ++ [Entry.became .opened] } := by
  obtain ⟨ht, hconfig⟩ := ht hs
  have hest : Established { t with
      handshake := { t.handshake with
        carry := leftover, sendBuffer := none, parser := none, phase := none }
      handshakeDeadlineTicks := none, state := .opened, log := t.log ++ [Entry.became .opened] } :=
    { client := ht.client
      called := ht.called
      state := by simp
      phase := rfl
      handshake := rfl
      closed := by simp
      autoPing := fun hne => absurd ht.autoPing hne }
  exact ⟨⟨.inr hest, hconfig, .inl ht.close, .inl ht.pong, .inl ht.autoPing⟩, hest⟩

omit hcallback in
/-- `_arm_auto_ping` in a session that is open. -/
lemma wp_armAutoPing (hs : Established s) (hopen : s.state = .opened) (hnow : times nowMs) :
    wp (armAutoPing nowMs) (fun _ => Moves times s) (fun _ => Moves times s) s := by
  have hself : Moves times s s := Std.Refl.refl (r := Runs times) s hs
  unfold armAutoPing
  rw [wp_bind, wp_get]
  split
  · exact hself
  · next interval hinterval =>
    refine wp_deadlineAfter (fun deadline hd => ?_) fun _ => hself
    refine hs.moves_armed hs.called hs.phase hs.handshake (by simp [hopen]) (.inl hopen)
      ⟨rfl, armed_self _ _, armed_self _ _, ?_⟩
    exact .inr (.inr ⟨nowMs, interval, deadline, hnow, hinterval, hd, rfl⟩)

/-- The session opens. -/
lemma wp_openSession (hclock : ∀ n, times (env.ticksMs n)) (hnow : times nowMs)
    (hs : Connecting s) (hst : Waits s t) (leftover : List UInt8) :
    wp (openSession env leftover nowMs) (fun _ => Leads times s) (fun _ => Leads times s) t := by
  obtain ⟨hleads, hest⟩ := @established_opened times s t hs hst leftover
  have hthen : ∀ u, Moves times _ u → Leads times s u := fun u hu => hleads.runs hest fun _ => hu
  unfold openSession
  rw [wp_bind, wp_modify, wp_bind]
  refine wp_mono (wp_armAutoPing hest rfl hnow) (fun _ u hu => ?_) fun _ => hthen
  have hrest : Within (Runs times) (do
      fire env .onOpen
      let s ← get
      when (s.handshake.carry ≠ []) do
        record fun s => .carried s.state
        feedFrameBytes env s.handshake.carry nowMs
        withHandshake fun h => { h with carry := [] }) := by
    refine within_bind (runs_fire hcallback _) fun _ => within_get fun s => within_when ?_
    refine within_bind (runs_modify fun _ => rfl) fun _ => ?_
    exact within_bind (runs_feedFrameBytes hclock hcallback hnow _) fun _ => runs_modify fun _ => rfl
  have hlead : ∀ v, Runs times u v → Leads times s v := fun v hv =>
    hthen v (hu.trans (hv hu.established))
  exact wp_mono (hrest.wp u) (fun _ => hlead) fun _ => hlead

/-- The response is received. -/
lemma wp_receiveHandshakeChunk (hclock : ∀ n, times (env.ticksMs n)) (hnow : times nowMs)
    (hs : Connecting s) : wp (receiveHandshakeChunk env nowMs) (fun _ => Leads times s)
      (fun _ => Leads times s) s := by
  unfold receiveHandshakeChunk
  rw [wp_bind, wp_get, wp_bind]
  have hreceived : Waits s { s with log := s.log ++ [Entry.recv s.state], recvs := s.recvs + 1 } :=
    fun h => ⟨⟨h.client, h.called, h.state, h.close, h.pong, h.autoPing⟩, rfl⟩
  refine wp_mono (Q := fun received t =>
    (received = none ∧ Leads times s t) ∨ (received ≠ none ∧ Waits s t)) ?_
    (fun received t ht => ?_) fun _ _ h => h
  · unfold recvChunk
    rw [wp_bind, wp_get]
    dsimp only
    rw [wp_bind, record, wp_modify, wp_bind, wp_modify]
    split
    · rw [wp_ite, wp_bind]
      refine ⟨fun _ => .inl ⟨rfl, hs.leads hreceived⟩, fun _ => ?_⟩
      exact wp_mono (hs.wp_fail hcallback hreceived _) (fun _ _ h => .inl ⟨rfl, h⟩) fun _ _ h => h
    · exact .inl ⟨rfl, hs.leads hreceived⟩
    · exact .inr ⟨nofun, hreceived⟩
  · split
    · exact ht.elim And.right fun h => absurd rfl h.1
    · obtain ⟨hnone, -⟩ | ⟨-, ht⟩ := ht
      · cases hnone
      · exact hs.wp_fail hcallback ht _
    · obtain ⟨hnone, -⟩ | ⟨-, ht⟩ := ht
      · cases hnone
      · split
        · exact hs.leads ht
        · next parser hparser =>
          have hfed : ∀ parser, Waits s { t with
              handshake := { t.handshake with parser := some parser } } := fun _ =>
            IsTrans.trans _ _ _ ht fun h =>
              ⟨⟨h.client, h.called, h.state, h.close, h.pong, h.autoPing⟩, rfl⟩
          rw [wp_bind, withHandshake, wp_modify]
          split
          · exact hs.wp_fail hcallback (hfed _) _
          · exact hs.leads (hfed _)
          · rw [wp_when]
            exact ⟨fun _ => wp_openSession hcallback hclock hnow hs (hfed _) _,
              fun _ => hs.leads (hfed _)⟩

/-- **A tick of a connecting client** leaves it connecting, opens its session or ends it. -/
lemma wp_handle_connecting (hclock : ∀ n, times (env.ticksMs n)) (hnow : times nowMs)
    (hs : Connecting s) :
    wp (Client.handle env nowMs) (fun _ => Leads times s) (fun _ => Leads times s) s := by
  unfold Client.handle
  rw [wp_bind, wp_get, if_neg (by simp [hs.state, hs.called]), wp_bind]
  refine wp_mono (wp_checkTimeouts hcallback hs.client hs.called fun h => absurd hs.close h)
    (fun expired t ht => ?_) fun _ t ht => ht.elim Ended.leads fun h => absurd hs.state h.1.state
  cases expired with
  | true => exact Ended.leads ht
  | false =>
    obtain ⟨rfl, -⟩ := ht
    rw [if_neg Bool.false_ne_true, wp_bind, wp_get, if_pos hs.state]
    split
    · exact wp_advanceConnector hcallback hs
    · exact wp_sendHandshakeChunk hcallback hs
    · exact wp_receiveHandshakeChunk hcallback hclock hnow hs
    · exact hs.leads (Std.Refl.refl t)

end Connecting

/-! ## Runs -/

/-- A session before its handshake is over: it may be closed already. -/
structure Unopened (s : Session) : Prop where
  client : s.config.isServer = false
  state : s.state = .connecting ∨
    s.state = .closed ∧ s.handshakeDeadlineTicks = none ∧ s.handshake.phase = none
  close : s.closeDeadlineTicks = none
  pong : s.pendingPingDeadlineTicks = none
  autoPing : s.nextAutoPingTicks = none

/-- What a call does to a session, whether its handshake is over or not. -/
structure Keeps (times : ℤ → Prop) (s t : Session) : Prop where
  runs : Runs times s t
  unopened : Unopened s → (Unopened t ∨ Established t) ∧ Timers times s t

instance (times : ℤ → Prop) : Std.Refl (Keeps times) where
  refl s := ⟨Std.Refl.refl s, fun h => ⟨.inl h, timers_self s⟩⟩

instance (times : ℤ → Prop) : IsTrans Session (Keeps times) where
  trans s t u := by
    intro hst htu
    refine ⟨IsTrans.trans _ _ _ hst.runs htu.runs, fun hs => ?_⟩
    obtain ⟨ht | ht, htimers⟩ := hst.unopened hs
    · obtain ⟨hu, htimers'⟩ := htu.unopened ht
      exact ⟨hu, htimers.trans htimers'⟩
    · have hmoves := htu.runs ht
      exact ⟨.inr hmoves.established, htimers.trans hmoves.timers⟩

section Keeps

variable {times : ℤ → Prop} {s t : Session} {env : Env}

/-- A session that stays before the end of its handshake has no timer that matters. -/
lemma Unopened.timers (ht : Unopened t) (hconfig : t.config = s.config) : Timers times s t :=
  ⟨hconfig, .inl ht.close, .inl ht.pong, .inl ht.autoPing⟩

/-- A change before the end of the handshake. -/
lemma unopened_modify {f : Session → Session}
    (h : ∀ s, Unopened s → Unopened (f s) ∧ (f s).config = s.config) :
    Within (Preserves Unopened) (modify f : M Unit) := within_modify h

/-- A change of the handshake. -/
lemma unopened_withHandshake {f : Handshake → Handshake} (h : ∀ h, (f h).phase = h.phase) :
    Within (Preserves Unopened) (withHandshake f) :=
  unopened_modify fun s hs =>
    ⟨⟨hs.client, by simpa only [h] using hs.state, hs.close, hs.pong, hs.autoPing⟩, rfl⟩

lemma unopened_of_same {α : Type} {m : M α} (h : Within Same m) :
    Within (Preserves Unopened) m :=
  h.mono fun s t hst hs => by
    unfold Same view at hst
    simp only [Prod.mk.injEq] at hst
    obtain ⟨hc, hstate, -, hp, h1, h2, h3, h4⟩ := hst
    refine ⟨⟨hc ▸ hs.client, ?_, h2.trans hs.close, h3.trans hs.pong, h4.trans hs.autoPing⟩, hc⟩
    rw [hstate, hp, h1]
    exact hs.state

/-- What changes nothing that is seen keeps it. -/
lemma keeps_of_same {α : Type} {m : M α} (h : Within Same m) : Within (Keeps times) m := by
  intro s
  refine ⟨runs_of_same h s, fun hs => ?_⟩
  obtain ⟨ht, hconfig⟩ := unopened_of_same h s hs
  exact ⟨.inl ht, ht.timers hconfig⟩

/-- `connect` may only be called once, and arms the timer of the handshake. -/
lemma keeps_connect (url : Str) (timeoutMs : Option ℤ) (extraHeaders : List (Str × Str)) :
    Within (Keeps times) (connect env url timeoutMs extraHeaders) := by
  intro s
  refine ⟨fun hs => ?_, fun hs => ?_⟩
  · have hrefused : (connect env url timeoutMs extraHeaders s).2 = s := by
      change ((if s.handshake.connectCalled then throw _ else _ : M Unit) s).2 = s
      rw [if_pos hs.called]
      rfl
    rw [hrefused]
    exact Std.Refl.refl (r := Runs times) s hs
  · have hconnect : Within (Preserves Unopened) (connect env url timeoutMs extraHeaders) := by
      refine within_get fun s => within_ite (within_throw _) ?_
      refine within_bind (unopened_of_same (same_modify fun _ => rfl)) fun _ => ?_
      refine within_bind (unopened_withHandshake fun _ => rfl) fun _ => ?_
      refine within_bind (within_lift _) fun target => ?_
      split
      · exact within_throw _
      · refine within_bind (unopened_withHandshake fun _ => rfl) fun _ => ?_
        refine within_bind (unopened_of_same (within_same aside_ticksMs)) fun now => ?_
        refine within_bind (within_lift _) fun deadline => unopened_modify fun s hs => ?_
        exact ⟨⟨hs.client, .inl rfl, hs.close, hs.pong, hs.autoPing⟩, rfl⟩
    obtain ⟨ht, hconfig⟩ := hconnect s hs
    exact ⟨.inl ht, ht.timers hconfig⟩

/-- A call that requires an open session is refused before there is one. -/
lemma keeps_refused {m : M Unit} (hruns : Within (Runs times) m)
    (hrefused : ∀ s, s.state ≠ .opened → (m s).2 = s) : Within (Keeps times) m := by
  intro s
  refine ⟨hruns s, fun hs => ?_⟩
  have hnot : s.state ≠ .opened := by
    rcases hs.state with h | ⟨h, -⟩ <;> simp [h]
  rw [hrefused s hnot]
  exact ⟨.inl hs, timers_self s⟩

/-- A PING is refused before the session is open. -/
lemma keeps_sendPing (hclock : ∀ n, times (env.ticksMs n)) (payload : List UInt8) :
    Within (Keeps times) (sendPing env payload) := by
  refine keeps_refused (runs_sendPing hclock payload) fun s hs => ?_
  have hraise : ∃ e, sendOpen env "send_ping" OPCODE_PING payload s = (.error e, s) := by
    unfold sendOpen
    rw [get_bind_apply, if_pos hs]
    exact ⟨_, rfl⟩
  obtain ⟨e, he⟩ := hraise
  simp only [sendPing, Bind.bind, he]

variable (hcallback : ∀ n, Within (Keeps times) (env.callback n))

include hcallback

/-- `close` of a client ends a connection that is not up. -/
lemma keeps_close (hclock : ∀ n, times (env.ticksMs n)) (code : ℕ) (reason : String) :
    Within (Keeps times) (Client.close env code reason) := by
  intro s
  have hraise : s.state = .closing ∨ s.state = .closed →
      (Client.close env code reason s).2 = s := by
    intro h
    change ((if s.state = .closing ∨ s.state = .closed then throw _ else _ : M Unit) s).2 = s
    rw [if_pos h]
    rfl
  by_cases h : s.state = .closing ∨ s.state = .closed
  · rw [hraise h]
    exact Std.Refl.refl s
  refine ⟨fun hs => ?_, fun hs => ?_⟩
  · refine wp_state (m := Client.close env code reason) (P := Moves times s) ?_
    unfold Client.close
    rw [wp_bind, wp_get, if_neg h, if_neg hs.state]
    have hnone : ∀ now, (none : Option ℤ) = some now → times now := nofun
    have hclose := (runs_sendClose hclock code reason hnone).wp s
    exact wp_mono hclose (fun _ _ h => h hs) fun _ _ h => h hs
  · have hconnecting : s.state = .connecting := hs.state.resolve_right fun hc => h (.inr hc.1)
    refine wp_state (m := Client.close env code reason)
      (P := fun t => (Unopened t ∨ Established t) ∧ Timers times s t) ?_
    unfold Client.close
    rw [wp_bind, wp_get, if_neg h, if_pos hconnecting, wp_bind]
    have hend : ∀ t, Unopened t → t.config = s.config → wp (do
        dropTransport
        onFinalized
        let s ← get
        fire env (.onClose (s.lastCloseCode.getD code) s.lastCloseReason))
        (fun _ t => (Unopened t ∨ Established t) ∧ Timers times s t)
        (fun _ t => (Unopened t ∨ Established t) ∧ Timers times s t) t := by
      intro t ht hconfig
      have hdropped : Unopened (Session.dropped t) :=
        ⟨ht.client, .inr ⟨rfl, rfl, rfl⟩, rfl, rfl, rfl⟩
      have hfire : Within (Keeps times) (do
          let s ← get
          fire env (.onClose (s.lastCloseCode.getD code) s.lastCloseReason)) :=
        within_get fun _ => within_get fun _ =>
          within_bind (keeps_of_same (same_modify fun _ => rfl)) fun _ => hcallback _
      have hthen : ∀ u, Keeps times (Session.dropped t) u →
          (Unopened u ∨ Established u) ∧ Timers times s u := by
        intro u hu
        obtain ⟨hinv, htimers⟩ := hu.unopened hdropped
        exact ⟨hinv, (hdropped.timers hconfig).trans htimers⟩
      rw [wp_drop ht.client]
      exact wp_mono (hfire.wp _) (fun _ => hthen) fun _ => hthen
    rw [wp_when]
    refine ⟨fun _ => ?_, fun _ => hend s hs rfl⟩
    exact hend _ ⟨hs.client, hs.state, hs.close, hs.pong, hs.autoPing⟩ rfl

/-- `handle`. -/
lemma keeps_handle (hclock : ∀ n, times (env.ticksMs n)) {nowMs : ℤ} (hnow : times nowMs) :
    Within (Keeps times) (Client.handle env nowMs) := by
  have hcallback' : ∀ n, Within (Runs times) (env.callback n) :=
    fun n => (hcallback n).mono fun _ _ h => h.runs
  intro s
  by_cases hidle : s.state = .closed ∨ s.handshake.connectCalled = false
  · have hskip : (Client.handle env nowMs s).2 = s := by
      change ((if s.state = .closed ∨ s.handshake.connectCalled = false then pure () else _ : M Unit)
        s).2 = s
      rw [if_pos hidle]
      rfl
    rw [hskip]
    exact Std.Refl.refl s
  obtain ⟨hopen, hcalled⟩ := not_or.mp hidle
  refine ⟨fun hs => ?_, fun hs => ?_⟩
  · have hhandle := wp_handle_established hclock hcallback' hnow hs hopen
    exact wp_state (wp_mono hhandle (fun _ _ h => h.1) fun _ _ h => h)
  · have hconnecting : Connecting s :=
      ⟨hs.client, by simpa using hcalled, hs.state.resolve_right fun h => hopen h.1, hs.close,
        hs.pong, hs.autoPing⟩
    have hleads := wp_state (wp_handle_connecting hcallback' hclock hnow hconnecting)
    refine ⟨hleads.inv.imp_left fun ht => ?_, hleads.timers⟩
    exact ⟨ht.client, .inl ht.state, ht.close, ht.pong, ht.autoPing⟩

/-- Every call keeps it. -/
lemma keeps_call (hclock : ∀ n, times (env.ticksMs n)) {c : Call} (hc : c.At times) :
    Within (Keeps times) (c.run env) := by
  cases c with
  | connect url timeoutMs extraHeaders => exact keeps_connect _ _ _
  | handle nowMs => exact keeps_handle hcallback hclock hc
  | sendText text => exact keeps_of_same (within_same (aside_sendOpen _ _ _))
  | sendBinary data => exact keeps_of_same (within_same (aside_sendOpen _ _ _))
  | sendPing payload => exact keeps_sendPing hclock _
  | close code reason => exact keeps_close hcallback hclock _ _
  | nextMessage => exact keeps_of_same (same_modify fun _ => rfl)

end Keeps

/-- Whatever an application does in a callback keeps the invariant.

**Proof sketch.** Induction on the program; a call that it makes has programs for callbacks, of
which this is known. -/
lemma Program.keeps {times : ℤ → Prop} {m : M Unit} (h : Program times m) :
    Within (Keeps times) m := by
  induction h with
  | done => exact within_pure _
  | raise e => exact within_throw _
  | look k _ ih => exact within_get ih
  | call env hclock _ c hc k _ hcallback ih =>
    exact within_attempt (keeps_call hcallback hclock hc) ih

/-- **Every run keeps the invariant**: a session is established, or has no timer but that of the
handshake. -/
theorem Reaches.inv {config : Config} (hclient : config.isServer = false) {s : Session}
    (h : Reaches config s) : (Unopened s ∨ Established s) ∧ s.config = config := by
  induction h with
  | start => exact ⟨.inl ⟨hclient, .inl rfl, rfl, rfl, rfl⟩, rfl⟩
  | @call s env henv c _ ih =>
    have hat : c.At fun _ => True := by cases c <;> trivial
    have hkeeps := keeps_call (fun n => (henv.callback n).keeps) henv.clock hat s
    obtain ⟨hs | hs, hconfig⟩ := ih
    · obtain ⟨ht, htimers⟩ := hkeeps.unopened hs
      exact ⟨ht, htimers.config.trans hconfig⟩
    · have hmoves := hkeeps.runs hs
      exact ⟨.inr hmoves.established, hmoves.timers.config.trans hconfig⟩

/-! ## Ticks on which nothing arrives -/

/-- An outside from which no bytes arrive. -/
def NoBytes (env : Env) : Prop := ∀ n received, env.recv n = .ok (some received) → received = []

/-- A tick that reads and writes, and does nothing else. -/
def drain (env : Env) (nowMs : ℤ) : M Unit := do
  let s ← get
  if s.state = .closed then pure ()
  else do
    drainInbound env nowMs
    drainOutbound env

/-- One tick after the other; an exception goes to the caller, who goes on. -/
def runTicks (s : Session) (ticks : List (Env × ℤ)) : Session :=
  ticks.foldl (fun s tick => (Client.handle tick.1 tick.2 s).2) s

/-- Nothing happens to an established session but that it may end. -/
def Rests (s t : Session) : Prop := Established s → Same s t ∨ Ended s t

instance : Std.Refl Rests where
  refl _ _ := .inl rfl

instance : IsTrans Session Rests where
  trans s t u := by
    intro hst htu hs
    have hconfig : ∀ v, Same s v → v.config = s.config := fun _ h => congrArg (fun p => p.1) h
    obtain hsame | hend := hst hs
    · have ht : Established t := hs.of_same hsame
      obtain hsame' | hend' := htu ht
      · exact .inl (IsTrans.trans _ _ _ hsame hsame')
      · exact .inr ⟨hend'.established, hend'.closed, hend'.config.trans (hconfig t hsame)⟩
    · obtain hsame' | hend' := htu hend.established
      · have hu : Moves (fun _ => True) t u := hend.established.moves_same hsame'
        exact .inr ⟨hu.established, hu.closed hend.closed, hu.timers.config.trans hend.config⟩
      · exact .inr ⟨hend'.established, hend'.closed, hend'.config.trans hend.config⟩

section Rests

variable {times : ℤ → Prop} {s t : Session} {env : Env} {nowMs : ℤ}

variable (hcallback : ∀ n, Within (Runs times) (env.callback n))

include hcallback

/-- `_fail_with_error` ends the session. -/
lemma rests_failWithError (error : Exn) : Within Rests (failWithError env error) :=
  fun _ hs => .inr (wp_state (wp_failWithError hcallback error hs.client hs.called))

/-- Sending arms nothing. -/
lemma rests_drainOutbound : Within Rests (drainOutbound env) :=
  within_get fun _ => within_drainOutboundLoop (fun _ _ h _ => .inl (same_of_aside h))
    (rests_failWithError hcallback) _ _

/-- Where no bytes arrive, reading leads nowhere. -/
lemma rests_drainInbound (hsilent : NoBytes env) : Within Rests (drainInbound env nowMs) := by
  have hrecv : ∀ maxBytes s, wp (recvChunk env maxBytes)
      (fun received t => (received = none ∨ received = some []) ∧ Rests s t)
      (fun _ t => Rests s t) s := by
    intro maxBytes s
    have hsame : Rests s { s with log := s.log ++ [Entry.recv s.state], recvs := s.recvs + 1 } :=
      fun _ => .inl rfl
    have hfail : ∀ error t, wp (failWithError env error) (fun _ => Rests t) (fun _ => Rests t) t :=
      fun error t => (rests_failWithError hcallback error).wp t
    unfold recvChunk
    rw [wp_bind, wp_get]
    dsimp only
    rw [wp_bind, record, wp_modify, wp_bind, wp_modify]
    split
    · rw [wp_ite, wp_bind]
      refine ⟨fun _ => ⟨.inl rfl, hsame⟩, fun _ => ?_⟩
      exact wp_mono (hfail _ _) (fun _ _ h => ⟨.inl rfl, IsTrans.trans _ _ _ hsame h⟩)
        fun _ _ h => IsTrans.trans _ _ _ hsame h
    · exact ⟨.inl rfl, hsame⟩
    · next received hreceived =>
      refine ⟨.inr ?_, hsame⟩
      rw [hsilent _ _ hreceived, List.take_nil]
  have hloop : ∀ rounds remaining, Within Rests (drainInboundLoop env nowMs rounds remaining) := by
    intro rounds remaining s
    cases rounds with
    | zero => exact within_pure (R := Rests) () s
    | succ rounds =>
      refine wp_state (m := drainInboundLoop env nowMs (rounds + 1) remaining) (P := Rests s) ?_
      rw [drainInboundLoop, wp_ite, wp_bind]
      refine ⟨fun _ => Std.Refl.refl (r := Rests) s, fun _ => ?_⟩
      refine wp_mono (hrecv remaining s) (fun received t ht => ?_) fun _ _ h => h
      obtain ⟨rfl | rfl, ht⟩ := ht
      · exact ht
      · have hfail := (rests_failWithError hcallback
          (.protocolError "peer closed TCP without sending a CLOSE frame")).wp t
        exact wp_mono hfail (fun _ _ h => IsTrans.trans _ _ _ ht h)
          fun _ _ h => IsTrans.trans _ _ _ ht h
  exact within_get fun _ => hloop _ _

/-- Nor does the tick, where nothing comes. -/
lemma rests_drain (hsilent : NoBytes env) : Within Rests (drain env nowMs) :=
  within_get fun _ => within_ite (within_pure _) <|
    within_bind (rests_drainInbound hcallback hsilent) fun _ => rests_drainOutbound hcallback

/-- **A tick that finds every timer in time only reads and writes**, if no bytes arrive.

**Proof sketch.** No timer has expired, and the session that the stages leave open has the timer of
its auto-ping unchanged. -/
lemma handle_eq_drain (hsilent : NoBytes env) (hs : Established s)
    (hclose : InTime nowMs s.closeDeadlineTicks) (hpong : InTime nowMs s.pendingPingDeadlineTicks)
    (hping : s.state = .opened → InTime nowMs s.nextAutoPingTicks) :
    Client.handle env nowMs s = drain env nowMs s := by
  unfold Client.handle drain
  rw [get_bind_apply, get_bind_apply]
  by_cases hclosed : s.state = .closed
  · rw [if_pos (.inl hclosed), if_pos hclosed]
  have hcheck : checkTimeouts env nowMs s = (.ok false, s) := by
    unfold checkTimeouts
    rw [get_bind_apply, if_neg, if_neg (any_due_iff.mpr hclose), if_neg (any_due_iff.mpr hpong)]
    · rfl
    · simp [hs.handshake]
  rw [if_neg (by simp [hclosed, hs.called]), if_neg hclosed, bind_of_ok hcheck,
    if_neg Bool.false_ne_true, get_bind_apply, if_neg hs.state]
  have hin : Rests s (drainInbound env nowMs s).2 := rests_drainInbound hcallback hsilent s
  rcases hinbound : drainInbound env nowMs s with ⟨e | _, t⟩
  · simp only [Bind.bind, hinbound]
  rw [bind_of_ok hinbound, bind_of_ok hinbound]
  rw [hinbound] at hin
  refine bind_of_idle (wp_mono ((rests_drainOutbound hcallback).wp t) (fun _ u hu => ?_)
    fun _ _ _ => trivial)
  rw [get_bind_apply]
  by_cases hopened : u.state = .opened
  · obtain hsame | hend := IsTrans.trans (r := Rests) _ _ _ hin hu hs
    · unfold Same view at hsame
      simp only [Prod.mk.injEq] at hsame
      obtain ⟨-, hstate, -, -, -, -, -, hauto⟩ := hsame
      rw [when, if_pos hopened]
      unfold maybeEmitAutoPing
      rw [get_bind_apply]
      cases hdue : u.nextAutoPingTicks with
      | none => rfl
      | some due =>
        cases u.config.pingIntervalMs with
        | none => rfl
        | some interval =>
          have hahead : ticksDiff due nowMs > 0 := hping (hstate ▸ hopened) due (hauto ▸ hdue)
          change (if ticksDiff due nowMs > 0 then pure () else _ : M Unit) u = _
          rw [if_pos hahead]
          rfl
    · rw [hend.closed] at hopened
      cases hopened
  · rw [when, if_neg hopened]
    rfl

end Rests

/-! ## The reported deadline -/

/-- A tick that is not before `now`, and before the deadline that is reported after it. -/
def Before (s : Session) (now t : ℤ) : Prop :=
  0 ≤ ticksDiff t now ∧
    ∀ connectorSocket d, nextDeadline connectorSocket s now = some d → ticksDiff t now < ticksDiff d now

/-- **The reported deadline is exact**: it is ahead, and in every run of ticks before it, in which
no bytes arrive, every tick only reads and writes. -/
structure Exact (s : Session) (now : ℤ) : Prop where
  ahead : ∀ connectorSocket d, nextDeadline connectorSocket s now = some d → Ahead d now
  quiet : ∀ (ticks : List (Env × ℤ)) (env : Env) (t : ℤ),
    (∀ tick ∈ (env, t) :: ticks, Outside (fun _ => True) tick.1 ∧ NoBytes tick.1 ∧
      Before s now tick.2) →
    Client.handle env t (runTicks s ticks) = drain env t (runTicks s ticks)

/-- A session that is closing, with an auto-ping that is due and before the other timers: nothing
will send it, and it is what the session reports. -/
def Pinned (s : Session) (now : ℤ) : Prop :=
  s.state = .closing ∧ ∃ p, s.nextAutoPingTicks = some p ∧ ¬ Ahead p now ∧
    ((s.closeDeadlineTicks = none ∧ s.pendingPingDeadlineTicks = none) ∨
      ∃ d, (s.closeDeadlineTicks = some d ∨ s.pendingPingDeadlineTicks = some d) ∧
        ticksDiff p d < 0)

section Reported

variable {s t : Session} {now : ℤ}

/-- Behind the handshake the deadline is that of the session. -/
lemma nextDeadline_eq (hphase : s.handshake.phase = none) (connectorSocket : Bool) :
    nextDeadline connectorSocket s now = sessionDeadline s := by
  unfold nextDeadline
  rw [if_neg (by simp [hphase])]

/-- It is the earliest of its timers. -/
lemma sessionDeadline_eq (hs : Established s) : sessionDeadline s =
    earlier (earlier s.closeDeadlineTicks s.pendingPingDeadlineTicks) s.nextAutoPingTicks := by
  unfold sessionDeadline
  rw [hs.handshake]
  cases s.closeDeadlineTicks <;> rfl

variable (hs : Established s) (hclose : InTime now s.closeDeadlineTicks)
  (hpong : InTime now s.pendingPingDeadlineTicks)
  (hping : s.state = .opened → InTime now s.nextAutoPingTicks)

include hs hclose hpong in
/-- A pinned session reports its auto-ping. -/
lemma Pinned.sessionDeadline (h : Pinned s now) :
    ∃ p, Client.sessionDeadline s = some p ∧ ¬ Ahead p now := by
  obtain ⟨-, p, hp, hnot, hcase⟩ := h
  refine ⟨p, ?_, hnot⟩
  rw [sessionDeadline_eq hs, hp]
  obtain ⟨hnone, hnone'⟩ | ⟨d, hd, hneg⟩ := hcase
  · rw [hnone, hnone']
    rfl
  · obtain ⟨x, hx⟩ : ∃ x, earlier s.closeDeadlineTicks s.pendingPingDeadlineTicks = some x := by
      refine Option.ne_none_iff_exists'.mp fun hnone => ?_
      obtain ⟨h1, h2⟩ := earlier_eq_none.mp hnone
      rw [h1, h2] at hd
      exact hd.elim nofun nofun
    have hnearest := before_earlier hclose hpong hx
    have hle : ticksDiff x now ≤ ticksDiff d now := hd.elim (hnearest.1 d) (hnearest.2 d)
    have hd' : Ahead d now := hd.elim (hclose d) (hpong d)
    rw [hx]
    exact if_pos (ticksDiff_neg_of_le hd' (ahead_earlier hclose hpong x hx) hnot hle hneg)

include hs hping in
/-- A session that is not pinned has its auto-ping in time, or reports another timer. -/
lemma autoPing_of_not_pinned (h : ¬ Pinned s now) : InTime now s.nextAutoPingTicks ∨
    s.state ≠ .opened ∧
      Client.sessionDeadline s = earlier s.closeDeadlineTicks s.pendingPingDeadlineTicks := by
  by_cases hintime : InTime now s.nextAutoPingTicks
  · exact .inl hintime
  have hopened : s.state ≠ .opened := fun h => hintime (hping h)
  have hclosing : s.state = .closing := by
    have hconn := hs.state
    cases hstate : s.state with
    | connecting => exact absurd hstate hconn
    | opened => exact absurd hstate hopened
    | closing => rfl
    | closed => exact absurd (fun d hd => by simp [(hs.closed hstate).2.2] at hd) hintime
  obtain ⟨p, hp⟩ := not_forall.mp hintime
  obtain ⟨hp, hnot⟩ := Classical.not_imp.mp hp
  refine .inr ⟨hopened, ?_⟩
  rw [sessionDeadline_eq hs, hp]
  cases hx : earlier s.closeDeadlineTicks s.pendingPingDeadlineTicks with
  | none => exact absurd ⟨hclosing, p, hp, hnot, .inl (earlier_eq_none.mp hx)⟩ h
  | some x =>
    refine if_neg fun hneg => h ⟨hclosing, p, hp, hnot, .inr ⟨x, earlier_eq_some hx, hneg⟩⟩

/-- What is reported is no later than a timer. -/
def ReportedBy (s : Session) (now : ℤ) (timer : Option ℤ) : Prop :=
  ∀ d, timer = some d →
    Ahead d now ∧ ∃ n, Client.sessionDeadline s = some n ∧ ticksDiff n now ≤ ticksDiff d now

include hs hclose hpong hping in
/-- A session that is not pinned reports a deadline that is ahead, and no later than any timer that
it serves. -/
lemma reported_of_not_pinned (h : ¬ Pinned s now) :
    (∀ d, Client.sessionDeadline s = some d → Ahead d now) ∧
      ReportedBy s now s.closeDeadlineTicks ∧ ReportedBy s now s.pendingPingDeadlineTicks ∧
      (s.state = .opened → ReportedBy s now s.nextAutoPingTicks) := by
  have hother := ahead_earlier hclose hpong
  obtain hintime | ⟨hopened, hreport⟩ := autoPing_of_not_pinned hs hping h
  · have hsome : ∀ d, s.closeDeadlineTicks = some d ∨ s.pendingPingDeadlineTicks = some d ∨
        s.nextAutoPingTicks = some d → ∃ n, Client.sessionDeadline s = some n := by
      intro d hd
      refine Option.ne_none_iff_exists'.mp fun hnone => ?_
      rw [sessionDeadline_eq hs, earlier_eq_none, earlier_eq_none] at hnone
      obtain ⟨⟨h1, h2⟩, h3⟩ := hnone
      simp [h1, h2, h3] at hd
    have hle : ∀ n, Client.sessionDeadline s = some n →
        (∀ d, s.closeDeadlineTicks = some d → ticksDiff n now ≤ ticksDiff d now) ∧
        (∀ d, s.pendingPingDeadlineTicks = some d → ticksDiff n now ≤ ticksDiff d now) ∧
        ∀ d, s.nextAutoPingTicks = some d → ticksDiff n now ≤ ticksDiff d now := by
      intro n hn
      rw [sessionDeadline_eq hs] at hn
      obtain ⟨hfirst, hauto⟩ := before_earlier hother hintime hn
      have hboth : ∀ d, s.closeDeadlineTicks = some d ∨ s.pendingPingDeadlineTicks = some d →
          ticksDiff n now ≤ ticksDiff d now := by
        intro d hd
        obtain ⟨x, hx⟩ : ∃ x, earlier s.closeDeadlineTicks s.pendingPingDeadlineTicks = some x := by
          refine Option.ne_none_iff_exists'.mp fun hnone => ?_
          obtain ⟨h1, h2⟩ := earlier_eq_none.mp hnone
          simp [h1, h2] at hd
        have hnearest := before_earlier hclose hpong hx
        exact (hfirst x hx).trans (hd.elim (hnearest.1 d) (hnearest.2 d))
      exact ⟨fun d hd => hboth d (.inl hd), fun d hd => hboth d (.inr hd), hauto⟩
    refine ⟨fun d hd => ?_, fun d hd => ⟨hclose d hd, ?_⟩, fun d hd => ⟨hpong d hd, ?_⟩,
      fun _ d hd => ⟨hintime d hd, ?_⟩⟩
    · rw [sessionDeadline_eq hs] at hd
      exact ahead_earlier hother hintime d hd
    · obtain ⟨n, hn⟩ := hsome d (.inl hd)
      exact ⟨n, hn, (hle n hn).1 d hd⟩
    · obtain ⟨n, hn⟩ := hsome d (.inr (.inl hd))
      exact ⟨n, hn, (hle n hn).2.1 d hd⟩
    · obtain ⟨n, hn⟩ := hsome d (.inr (.inr hd))
      exact ⟨n, hn, (hle n hn).2.2 d hd⟩
  · have hsome : ∀ d, s.closeDeadlineTicks = some d ∨ s.pendingPingDeadlineTicks = some d →
        ∃ n, earlier s.closeDeadlineTicks s.pendingPingDeadlineTicks = some n := by
      intro d hd
      refine Option.ne_none_iff_exists'.mp fun hnone => ?_
      obtain ⟨h1, h2⟩ := earlier_eq_none.mp hnone
      simp [h1, h2] at hd
    rw [hreport]
    refine ⟨hother, fun d hd => ⟨hclose d hd, ?_⟩, fun d hd => ⟨hpong d hd, ?_⟩,
      fun h => absurd h hopened⟩
    · obtain ⟨n, hn⟩ := hsome d (.inl hd)
      exact ⟨n, hreport.trans hn, (before_earlier hclose hpong hn).1 d hd⟩
    · obtain ⟨n, hn⟩ := hsome d (.inr hd)
      exact ⟨n, hreport.trans hn, (before_earlier hclose hpong hn).2 d hd⟩

/-- Timers that stay as they were keep a run of ticks before the reported deadline quiet. -/
lemma rests_runTicks (hs : Established s) (hclose : ReportedBy s now s.closeDeadlineTicks)
    (hpong : ReportedBy s now s.pendingPingDeadlineTicks)
    (hping : s.state = .opened → ReportedBy s now s.nextAutoPingTicks) (hst : Rests s t)
    (env : Env) (tick : ℤ) (henv : Outside (fun _ => True) env) (hsilent : NoBytes env)
    (hbefore : Before s now tick) : Client.handle env tick t = drain env tick t := by
  have hlater : ∀ timer, ReportedBy s now timer → InTime tick timer := by
    intro timer hreported d hd
    obtain ⟨hahead, n, hn, hle⟩ := hreported d hd
    have hlt : ticksDiff tick now < ticksDiff n now :=
      hbefore.2 true n ((nextDeadline_eq hs.phase true).trans hn)
    have hfar := ticksDiff_later hbefore.1 (hlt.le.trans hle)
    unfold Ahead
    omega
  have hnone : InTime tick none := nofun
  have hcallback : ∀ n, Within (Runs fun _ => True) (env.callback n) :=
    fun n => (henv.callback n).keeps.mono fun _ _ h => h.runs
  obtain hsame | hend := hst hs
  · have ht := hs.of_same hsame
    unfold Same view at hsame
    simp only [Prod.mk.injEq] at hsame
    obtain ⟨-, hstate, -, -, -, h2, h3, h4⟩ := hsame
    refine handle_eq_drain hcallback hsilent ht ?_ ?_ ?_
    · rw [h2]
      exact hlater _ hclose
    · rw [h3]
      exact hlater _ hpong
    · rw [hstate, h4]
      exact fun hopened => hlater _ (hping hopened)
  · obtain ⟨h2, h3, h4⟩ := hend.established.closed hend.closed
    refine handle_eq_drain hcallback hsilent hend.established ?_ ?_ ?_
    · rw [h2]
      exact hnone
    · rw [h3]
      exact hnone
    · rw [h4]
      exact fun _ => hnone

/-- **An established session whose timers are in time reports an exact deadline if and only if it is
not pinned.**

**Proof sketch.** A pinned session reports its auto-ping, which is not ahead. In a session that is
not pinned no timer that it serves is earlier than what it reports, so that no tick before it finds
one due, and each leaves the timers as they are or ends the session. -/
lemma exact_iff (hs : Established s) (hclose : InTime now s.closeDeadlineTicks)
    (hpong : InTime now s.pendingPingDeadlineTicks)
    (hping : s.state = .opened → InTime now s.nextAutoPingTicks) :
    Exact s now ↔ ¬ Pinned s now := by
  refine ⟨fun hexact hpinned => ?_, fun hnot => ?_⟩
  · obtain ⟨p, hp, hbehind⟩ := hpinned.sessionDeadline hs hclose hpong
    exact hbehind (hexact.ahead true p ((nextDeadline_eq hs.phase true).trans hp))
  obtain ⟨hahead, hclose', hpong', hping'⟩ := reported_of_not_pinned hs hclose hpong hping hnot
  refine ⟨fun b d hd => hahead d ((nextDeadline_eq hs.phase b).symm.trans hd), ?_⟩
  intro ticks env t hticks
  have hrests : ∀ (ticks : List (Env × ℤ)) (u : Session), Rests s u →
      (∀ tick ∈ ticks, Outside (fun _ => True) tick.1 ∧ NoBytes tick.1 ∧ Before s now tick.2) →
      Rests s (runTicks u ticks) := by
    intro ticks
    induction ticks with
    | nil => exact fun u hu _ => hu
    | cons tick ticks ih =>
      intro u hu hall
      obtain ⟨henv, hsilent, hbefore⟩ := hall tick List.mem_cons_self
      refine ih _ ?_ fun x hx => hall x (List.mem_cons_of_mem _ hx)
      change Rests s (Client.handle tick.1 tick.2 u).2
      rw [rests_runTicks hs hclose' hpong' hping' hu tick.1 tick.2 henv hsilent hbefore]
      have hcallback : ∀ n, Within (Runs fun _ => True) (tick.1.callback n) :=
        fun n => (henv.callback n).keeps.mono fun _ _ h => h.runs
      exact IsTrans.trans _ _ _ hu (rests_drain hcallback hsilent u)
  obtain ⟨henv, hsilent, hbefore⟩ := hticks (env, t) List.mem_cons_self
  exact rests_runTicks hs hclose' hpong' hping'
    (hrests ticks s (Std.Refl.refl s) fun x hx => hticks x (List.mem_cons_of_mem _ hx))
    env t henv hsilent hbefore

/-- A session that ended before its handshake was over reports nothing, and nothing happens to it.
-/
lemma Unopened.exact (hs : Unopened s) (hclosed : s.state = .closed) : Exact s now := by
  obtain hconnecting | ⟨-, hhandshake, hphase⟩ := hs.state
  · rw [hclosed] at hconnecting
    cases hconnecting
  have hskip : ∀ env t, Client.handle env t s = (.ok (), s) := by
    intro env t
    unfold Client.handle
    rw [get_bind_apply, if_pos (.inl hclosed)]
    rfl
  have hstays : ∀ ticks : List (Env × ℤ), runTicks s ticks = s := by
    intro ticks
    induction ticks with
    | nil => rfl
    | cons tick ticks ih =>
      change runTicks (Client.handle tick.1 tick.2 s).2 ticks = s
      rw [hskip]
      exact ih
  refine ⟨fun b d hd => ?_, fun ticks env t _ => ?_⟩
  · rw [nextDeadline_eq hphase, sessionDeadline, hhandshake, hs.close, hs.pong, hs.autoPing] at hd
    cases hd
  · rw [hstays, hskip, drain, get_bind_apply, if_pos hclosed]
    rfl

end Reported

/-! ## Every reachable session -/

/-- The timeouts of a client that arm its timers ahead. -/
structure Positive (c : Config) : Prop where
  close : 0 < c.closeTimeoutMs
  pong : ∀ delta, c.pongTimeoutMs = some delta → 0 < delta
  ping : ∀ delta, c.pingIntervalMs = some delta → 0 < delta

/-- A tick that is not before `now`, and so near to it that the timers armed at it are less than
half a period ahead. -/
structure OnTime (c : Config) (now t : ℤ) : Prop where
  le : 0 ≤ ticksDiff t now
  close : ticksDiff t now + c.closeTimeoutMs < TICKS_HALFPERIOD
  pong : ∀ delta, c.pongTimeoutMs = some delta → ticksDiff t now + delta < TICKS_HALFPERIOD
  ping : ∀ delta, c.pingIntervalMs = some delta → ticksDiff t now + delta < TICKS_HALFPERIOD

section Reachable

variable {config : Config} {s : Session} {env : Env} {now : ℤ}

/-- A timer that is fresh is in time. -/
lemma Fresh.inTime {timeout timer : Option ℤ} (h : Fresh (OnTime config now) now timeout timer)
    (hpositive : ∀ delta, timeout = some delta → 0 < delta)
    (hnear : ∀ t delta, OnTime config now t → timeout = some delta →
      ticksDiff t now + delta < TICKS_HALFPERIOD) : InTime now timer := by
  intro d hd
  obtain hahead | ⟨t, delta, ht, hdelta, hadd⟩ := h d hd
  · exact hahead
  · have hpos := hpositive delta hdelta
    have hle := ht.le
    have hfar := ticksDiff_of_ticksAdd hadd (by unfold TICKS_HALFPERIOD; omega)
      (hnear t delta ht hdelta)
    unfold Ahead
    omega

/-- What a tick has settled is in time. -/
lemma Settled.exact_iff (h : Settled (OnTime config now) now s) (hs : Established s)
    (hconfig : s.config = config) (hpositive : Positive config) : Exact s now ↔ ¬ Pinned s now := by
  subst hconfig
  refine Client.exact_iff hs (h.close.inTime ?_ ?_) (h.pong.inTime hpositive.pong fun _ _ ht => ht.pong _)
    fun hopened => (h.autoPing hopened).inTime hpositive.ping fun _ _ ht => ht.ping _
  · intro delta hdelta
    exact Option.some.inj hdelta ▸ hpositive.close
  · intro t delta ht hdelta
    exact Option.some.inj hdelta ▸ ht.close

/-- **After a tick the reported deadline is exact if and only if the session is not pinned.** From
every session that a run leads to, in which the application may do anything at any time: once
`handle(now)` has returned and left the session open, closing or closed, what is reported is later
than `now`, and no timeout and no auto-ping happens before it while no bytes arrive, unless the
session is closing with an auto-ping that is due.

**Proof sketch.** A tick of an established session finds its timers in time, or ends it; what is
armed later in the tick is armed ahead, and the auto-ping is seen to in the state OPEN. A tick of a
connecting client that opens the session has armed all its timers itself. -/
theorem deadline_exact_iff (hclient : config.isServer = false) (hpositive : Positive config)
    (hreach : Reaches config s) (henv : Outside (OnTime config now) env)
    (hnow : OnTime config now now) (hreturns : (Client.handle env now s).1 = .ok ())
    (hstate : (Client.handle env now s).2.state ≠ .connecting) :
    Exact (Client.handle env now s).2 now ↔ ¬ Pinned (Client.handle env now s).2 now := by
  have hcallback : ∀ n, Within (Runs (OnTime config now)) (env.callback n) :=
    fun n => (henv.callback n).keeps.mono fun _ _ h => h.runs
  obtain ⟨hinv, hconfig⟩ := hreach.inv hclient
  have hidle : s.state = .closed ∨ s.handshake.connectCalled = false →
      Client.handle env now s = (.ok (), s) := by
    intro h
    unfold Client.handle
    rw [get_bind_apply, if_pos h]
    rfl
  by_cases hskip : s.state = .closed ∨ s.handshake.connectCalled = false
  · rw [hidle hskip] at hstate ⊢
    have hclosed : s.state = .closed := by
      obtain hs | hs := hinv
      · exact (hs.state.resolve_left hstate).1
      · exact hskip.resolve_right (by simp [hs.called])
    have hnot : ¬ Pinned s now := by
      rintro ⟨hclosing, -⟩
      rw [hclosed] at hclosing
      cases hclosing
    refine ⟨fun _ => hnot, fun _ => ?_⟩
    obtain hs | hs := hinv
    · exact hs.exact hclosed
    · obtain ⟨h2, h3, h4⟩ := hs.closed hclosed
      refine (Client.exact_iff hs ?_ ?_ ?_).mpr hnot
      · rw [h2]
        exact nofun
      · rw [h3]
        exact nofun
      · rw [h4]
        exact fun _ => nofun
  obtain ⟨hopen, hcalled⟩ := not_or.mp hskip
  obtain hs | hs := hinv
  · have hconnecting : Connecting s :=
      ⟨hs.client, by simpa using hcalled, hs.state.resolve_right fun h => hopen h.1, hs.close,
        hs.pong, hs.autoPing⟩
    have hleads := wp_state (wp_handle_connecting hcallback henv.clock hnow hconnecting)
    have hest := hleads.inv.resolve_left fun h => hstate h.state
    have hnone : InTime now none := nofun
    refine Settled.exact_iff ⟨?_, ?_, fun _ => ?_⟩ hest (hleads.timers.config.trans hconfig) hpositive
    · rw [hleads.timers.config]
      exact hleads.timers.close.fresh (hconnecting.close ▸ hnone)
    · rw [hleads.timers.config]
      exact hleads.timers.pong.fresh (hconnecting.pong ▸ hnone)
    · rw [hleads.timers.config]
      exact hleads.timers.autoPing.fresh (hconnecting.autoPing ▸ hnone)
  · obtain ⟨hmoves, hsettled⟩ :=
      wp_ok (wp_handle_established henv.clock hcallback hnow hs hopen) hreturns
    exact hsettled.exact_iff hmoves.established (hmoves.timers.config.trans hconfig) hpositive

end Reachable

/-- A client that sends a PING every 100 milliseconds. -/
def pingingClient : Config := { fourByteClient with pingIntervalMs := some 100 }

/-- A server that accepts the handshake and then says nothing, and a clock that shows `now`. -/
def upgradingEnv (now : ℤ) : Env :=
  { quietEnv with
    codecs := sampleCodecs
    websocketKey _ := SAMPLE_KEY
    connectorTick _ := .ready
    send _ := .ok (some 512)
    recv n := if n = 0 then .ok (some sampleResponseChunks.flatten.dropLast) else .ok none
    ticksMs _ := now }

/-- A session that is opened at 0 and closed at 50. -/
def closingSession : Session :=
  let connected := (Call.connect "ws://h/".toList none []).run (upgradingEnv 0) (start pingingClient)
  let sending := (Call.handle 0).run (upgradingEnv 0) connected.2
  let receiving := (Call.handle 0).run (upgradingEnv 0) sending.2
  let opened := (Call.handle 0).run (upgradingEnv 0) receiving.2
  ((Call.close 1000 "").run (upgradingEnv 50) opened.2).2

lemma outside_upgradingEnv {times : ℤ → Prop} {now : ℤ} (h : times now) :
    Outside times (upgradingEnv now) := ⟨fun _ => h, fun _ => .done⟩

/-- The session of the example is reached. -/
lemma reaches_closingSession : Reaches pingingClient closingSession := by
  have henv : ∀ now, Outside (fun _ => True) (upgradingEnv now) :=
    fun now => outside_upgradingEnv trivial
  exact (((((Reaches.start).call _ (henv 0) _).call _ (henv 0) _).call _ (henv 0) _).call _
    (henv 0) _).call _ (henv 50) _

lemma onTime_pingingClient (now : ℤ) : OnTime pingingClient now now := by
  have hzero : ticksDiff now now = 0 := by
    unfold ticksDiff TICKS_PERIOD TICKS_HALFPERIOD
    omega
  constructor
  · exact hzero.ge
  · rw [hzero]
    decide
  · exact fun _ h => nomatch h
  · intro delta h
    obtain rfl : 100 = delta := Option.some.inj h
    rw [hzero]
    decide

lemma positive_pingingClient : Positive pingingClient := by
  refine ⟨by decide, fun _ h => (nomatch h), fun delta h => ?_⟩
  obtain rfl : 100 = delta := Option.some.inj h
  decide

/-- Before its auto-ping is due, the session that is closing reports it, ahead. -/
theorem deadline_exact_closing : Exact (Client.handle (upgradingEnv 60) 60 closingSession).2 60 := by
  have hrun : (Client.handle (upgradingEnv 60) 60 closingSession).1 = .ok () ∧
      (Client.handle (upgradingEnv 60) 60 closingSession).2.state ≠ .connecting ∧
      (Client.handle (upgradingEnv 60) 60 closingSession).2.nextAutoPingTicks = some 100 := by
    decide +kernel
  refine (deadline_exact_iff rfl positive_pingingClient reaches_closingSession
    (outside_upgradingEnv (onTime_pingingClient 60)) (onTime_pingingClient 60) hrun.1 hrun.2.1).mpr ?_
  rintro ⟨-, p, hp, hbehind, -⟩
  obtain rfl : 100 = p := Option.some.inj (hrun.2.2.symm.trans hp)
  exact hbehind (by decide)

/-- A session that was opened at 0 with an auto-ping every 100 milliseconds, and closed at 50,
reports the deadline 100 when it is left by the tick at 150: the runner does not wait. -/
theorem pinned_while_closing :
    ∃ (s : Session) (env : Env) (now deadline : ℤ), Reaches pingingClient s ∧
      Outside (OnTime pingingClient now) env ∧ OnTime pingingClient now now ∧
      (Client.handle env now s).1 = .ok () ∧ (Client.handle env now s).2.state = .closing ∧
      nextDeadline true (Client.handle env now s).2 now = some deadline ∧ ¬ Ahead deadline now := by
  have hrun : (Client.handle (upgradingEnv 150) 150 closingSession).1 = .ok () ∧
      (Client.handle (upgradingEnv 150) 150 closingSession).2.state = .closing ∧
      nextDeadline true (Client.handle (upgradingEnv 150) 150 closingSession).2 150 = some 100 := by
    decide +kernel
  exact ⟨closingSession, upgradingEnv 150, 150, 100, reaches_closingSession,
    outside_upgradingEnv (onTime_pingingClient 150), onTime_pingingClient 150, hrun.1, hrun.2.1,
    hrun.2.2, by decide⟩

end Client

end ChuMicro.Websockets
