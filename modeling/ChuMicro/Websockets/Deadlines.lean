import ChuMicro.Websockets.Client

/-!
# The deadlines of a client

What happens to the timers of a client. Once its session is established, a timer is disarmed, stays
as it is, or is armed anew, its own timeout after a tick that the session was given or has read from
the clock; and a closed session has none. So after a tick every timer is ahead of it, with one
exception: the auto-ping is only sent in the state OPEN, and its timer keeps running in the state
CLOSING.

## Main definitions

* `Websockets.Client.Established` — a session whose handshake is over.
* `Websockets.Client.Moves` — what a computation does to the timers.
* `Websockets.Client.Settled` — what a tick leaves of the timers.

## Main results

* `Websockets.Client.runs_receives` — receiving moves the timers of an established session so.
* `Websockets.Client.wp_handle_established` — a tick leaves them settled.
-/

namespace ChuMicro.Websockets

namespace Client

open Prog

/-! ## Fields that matter -/

/-- What the reported deadline depends on. -/
def view (s : Session) :
    Config × WebSocketState × Bool × Option Phase × Option ℤ × Option ℤ × Option ℤ × Option ℤ :=
  (s.config, s.state, s.handshake.connectCalled, s.handshake.phase, s.handshakeDeadlineTicks,
    s.closeDeadlineTicks, s.pendingPingDeadlineTicks, s.nextAutoPingTicks)

/-- None of them has changed. -/
def Same (s t : Session) : Prop := view t = view s

instance : Std.Refl Same where
  refl _ := rfl

instance : IsTrans Session Same where
  trans _ _ _ hst htu := Eq.trans htu hst

/-- A change of fields that are not seen. -/
lemma same_modify {f : Session → Session} (h : ∀ s, view (f s) = view s) :
    Within Same (modify f : M Unit) := within_modify h

/-- What is aside of the timers leaves them alone. -/
lemma same_of_aside {s t : Session} (h : Aside s t) : Same s t := by
  simp only [Aside, Session.looked, Prod.mk.injEq] at h
  obtain ⟨hc, hs, -, -, -, -, hh, h1, h2, h3, h4⟩ := h
  rw [Same, view, view, hc, hs, hh, h1, h2, h3, h4]

/-- Sending changes nothing that is seen. -/
lemma within_same {α : Type} {m : M α} (h : Within Aside m) : Within Same m :=
  h.mono fun _ _ => same_of_aside

/-! ## Moving timers -/

/-- A session whose handshake is over: a closed one has no timer. -/
structure Established (s : Session) : Prop where
  client : s.config.isServer = false
  called : s.handshake.connectCalled = true
  state : s.state ≠ .connecting
  phase : s.handshake.phase = none
  handshake : s.handshakeDeadlineTicks = none
  closed : s.state = .closed → s.closeDeadlineTicks = none ∧ s.pendingPingDeadlineTicks = none ∧
    s.nextAutoPingTicks = none
  autoPing : s.nextAutoPingTicks ≠ none → s.config.pingIntervalMs ≠ none

/-- A timer is disarmed, or as before, or armed `timeout` after one of `times`. -/
def Armed (times : ℤ → Prop) (timeout before after : Option ℤ) : Prop :=
  after = none ∨ after = before ∨
    ∃ t delta deadline, times t ∧ timeout = some delta ∧ ticksAdd t delta = .ok deadline ∧
      after = some deadline

/-- What happens to the timers of a session. -/
structure Timers (times : ℤ → Prop) (s t : Session) : Prop where
  config : t.config = s.config
  close : Armed times (some s.config.closeTimeoutMs) s.closeDeadlineTicks t.closeDeadlineTicks
  pong : Armed times s.config.pongTimeoutMs s.pendingPingDeadlineTicks t.pendingPingDeadlineTicks
  autoPing : Armed times s.config.pingIntervalMs s.nextAutoPingTicks t.nextAutoPingTicks

/-- What happens to an established session: it stays one, and closed stays closed. -/
structure Moves (times : ℤ → Prop) (s t : Session) : Prop where
  established : Established t
  closed : s.state = .closed → t.state = .closed
  timers : Timers times s t

/-- The same as a relation between any two sessions. -/
def Runs (times : ℤ → Prop) (s t : Session) : Prop := Established s → Moves times s t

section Runs

variable {times : ℤ → Prop} {s t u : Session}

lemma armed_self (timeout a : Option ℤ) : Armed times timeout a a := .inr (.inl rfl)

/-- A timer that is armed twice. -/
lemma Armed.trans {timeout a b c : Option ℤ} (h : Armed times timeout a b)
    (h' : Armed times timeout b c) : Armed times timeout a c := by
  obtain hnone | hsame | hnew := h'
  · exact .inl hnone
  · rw [hsame]
    exact h
  · exact .inr (.inr hnew)

lemma timers_self (s : Session) : Timers times s s :=
  ⟨rfl, armed_self _ _, armed_self _ _, armed_self _ _⟩

lemma Timers.trans (h : Timers times s t) (h' : Timers times t u) : Timers times s u where
  config := h'.config.trans h.config
  close := h.close.trans (h.config ▸ h'.close)
  pong := h.pong.trans (h.config ▸ h'.pong)
  autoPing := h.autoPing.trans (h.config ▸ h'.autoPing)

lemma Moves.trans (h : Moves times s t) (h' : Moves times t u) : Moves times s u where
  established := h'.established
  closed hs := h'.closed (h.closed hs)
  timers := h.timers.trans h'.timers

instance : Std.Refl (Runs times) where
  refl s h := ⟨h, id, timers_self s⟩

instance : IsTrans Session (Runs times) where
  trans _ _ _ hst htu hs := (hst hs).trans (htu (hst hs).established)

/-- Where no field that matters has changed, nothing has happened. -/
lemma Established.of_same (h : Established s) (hsame : Same s t) : Established t := by
  unfold Same view at hsame
  simp only [Prod.mk.injEq] at hsame
  obtain ⟨hc, hst, hcall, hp, h1, h2, h3, h4⟩ := hsame
  refine ⟨hc ▸ h.client, hcall ▸ h.called, hst ▸ h.state, hp ▸ h.phase, h1 ▸ h.handshake, ?_, ?_⟩
  · rw [hst, h2, h3, h4]
    exact h.closed
  · rw [h4, hc]
    exact h.autoPing

@[inherit_doc Established.of_same]
lemma Established.moves_same (h : Established s) (hsame : Same s t) : Moves times s t := by
  have hest := h.of_same hsame
  unfold Same view at hsame
  simp only [Prod.mk.injEq] at hsame
  obtain ⟨hc, hst, -, -, -, h2, h3, h4⟩ := hsame
  exact ⟨hest, fun hs => hst.trans hs, hc, .inr (.inl h2), .inr (.inl h3), .inr (.inl h4)⟩

variable {α : Type} {Q : α → Session → Prop} {E : Exn → Session → Prop} {nowMs : Option ℤ}

/-- What changes nothing that is seen keeps the timers. -/
lemma runs_of_same {m : M α} (h : Within Same m) : Within (Runs times) m :=
  h.mono fun _ _ hst hs => hs.moves_same hst

lemma runs_modify {f : Session → Session} (h : ∀ s, view (f s) = view s) :
    Within (Runs times) (modify f : M Unit) := runs_of_same (same_modify h)

/-- Arming a timer of a session that is not closed. -/
lemma Established.moves_armed (h : Established s) (hcalled : t.handshake.connectCalled = true)
    (hphase : t.handshake.phase = none) (hh : t.handshakeDeadlineTicks = none)
    (hs : s.state ≠ .closed) (ht : t.state = .opened ∨ t.state = .closing)
    (htimers : Timers times s t) : Moves times s t where
  established :=
    { client := htimers.config ▸ h.client
      called := hcalled
      state := by rintro hconn; simp [hconn] at ht
      phase := hphase
      handshake := hh
      closed := by intro hclosed; simp [hclosed] at ht
      autoPing := by
        rw [htimers.config]
        obtain hnone | hsame | ⟨_, delta, _, -, hdelta, -, -⟩ := htimers.autoPing
        · exact fun hne => absurd hnone hne
        · rw [hsame]
          exact h.autoPing
        · simp [hdelta] }
  closed hclosed := absurd hclosed hs
  timers := htimers

/-- The session of a client that has dropped its transport. -/
def Session.dropped (s : Session) : Session :=
  { s with
    socketClosed := true, state := .closed, log := s.log ++ [Entry.became .closed]
    handshakeDeadlineTicks := none, closeDeadlineTicks := none, pendingPingDeadlineTicks := none
    nextAutoPingTicks := none, handshake := { s.handshake with connector := false, phase := none } }

/-- `_drop_transport` and `_on_finalized` of a client. -/
lemma wp_drop (hclient : s.config.isServer = false) {k : M α} :
    wp (do
      dropTransport
      onFinalized
      k) Q E s ↔ wp k Q E (Session.dropped s) := by
  simp only [dropTransport, onFinalized, wp_bind, wp_modify, hclient, Bool.false_eq_true, if_false,
    Session.dropped]

/-- Arming a timer: the deadline, or the exception that `ticks_add` raises. -/
lemma wp_deadlineAfter {now delta : ℤ} {k : ℤ → M α}
    (hok : ∀ deadline, ticksAdd now delta = .ok deadline → wp (k deadline) Q E s)
    (herr : ∀ e, E e s) : wp (deadlineAfter now delta >>= k) Q E s := by
  refine (wp_bind _ _).mpr ?_
  unfold deadlineAfter
  cases h : ticksAdd now delta with
  | ok deadline => exact hok deadline h
  | error e => exact herr _

variable {env : Env}

/-- The tick that a timer is armed at. -/
lemma wp_now (hclock : ∀ n, times (env.ticksMs n)) (hnow : ∀ now, nowMs = some now → times now)
    {k : ℤ → M α} (h : ∀ now t, times now → Same s t → wp (k now) Q E t) :
    wp (do
      let now ← match nowMs with
        | some now => pure now
        | none => ticksMs env
      k now) Q E s := by
  cases nowMs with
  | some now => exact h now s (hnow now rfl) (Std.Refl.refl s)
  | none => exact h _ _ (hclock _) rfl

/-- `send_close` and the timer that it arms.

**Proof sketch.** In a session that is open only the state changes before the timer is armed. -/
lemma runs_sendClose (hclock : ∀ n, times (env.ticksMs n)) (code : ℕ) (reason : String)
    (hnow : ∀ now, nowMs = some now → times now) :
    Within (Runs times) (sendClose env code reason nowMs) := by
  intro s hs
  refine wp_state (m := sendClose env code reason nowMs) (P := Moves times s) ?_
  unfold sendClose
  rw [wp_bind, wp_get, wp_ite]
  refine ⟨fun _ => Std.Refl.refl (r := Runs times) s hs, fun hnot => ?_⟩
  have hopen : s.state = .opened := by
    have hconn := hs.state
    cases hstate : s.state <;> simp_all
  rw [wp_bind]
  have hpay : ∀ handler : Exn → M (List UInt8), (∀ e, Within Same (handler e)) →
      Within Same (tryCatch (lift (encodeClosePayload (some code) reason)) handler) :=
    fun handler hhandler => within_tryCatch (within_lift _) hhandler
  have hraise : ∀ (e : Exn) t, Same s t → Moves times s t := fun _ _ h => hs.moves_same h
  refine wp_mono ((hpay _ fun e => ?_).wp s) (fun payload t ht => ?_) hraise
  · split
    · exact within_pure _
    · exact within_throw _
  rw [wp_bind]
  refine wp_mono ((within_same (aside_enqueueInternalFrame _ _)).wp t) (fun _ u hu => ?_)
    fun e _ h => hraise e _ (IsTrans.trans _ _ _ ht h)
  have hsu : Same s u := IsTrans.trans _ _ _ ht hu
  have hrest : ∀ v, Same s v → wp (do
      modify fun s => { s with state := .closing, log := s.log ++ [Entry.became .closing] }
      let now ← match nowMs with
        | some now => pure now
        | none => ticksMs env
      let deadline ← deadlineAfter now s.config.closeTimeoutMs
      modify fun s => { s with closeDeadlineTicks := some deadline } : M Unit)
      (fun _ => Moves times s) (fun _ => Moves times s) v := by
    intro v hv
    have hmoves : Moves times s v := hs.moves_same hv
    have hest := hmoves.established
    rw [wp_bind, wp_modify]
    refine wp_now hclock hnow fun now w hnow hw => ?_
    have hclosing : Moves times s { v with state := .closing, log := v.log ++ [Entry.became .closing] } :=
      hs.moves_armed hest.called hest.phase hest.handshake (by simp [hopen]) (.inr rfl)
        ⟨hmoves.timers.config, hmoves.timers.close, hmoves.timers.pong, hmoves.timers.autoPing⟩
    have hw' := hclosing.trans (hclosing.established.moves_same hw)
    have hstate : w.state = .closing := congrArg (fun p => p.2.1) hw
    refine wp_deadlineAfter (fun deadline hd => ?_) fun _ => hw'
    refine hw'.trans (hw'.established.moves_armed hw'.established.called hw'.established.phase
      hw'.established.handshake (by simp [hstate]) (.inr hstate) ?_)
    refine ⟨rfl, .inr (.inr ⟨now, _, deadline, hnow, ?_, hd, rfl⟩), armed_self _ _, armed_self _ _⟩
    rw [hw'.timers.config]
  rw [wp_bind, wp_when]
  refine ⟨fun _ => ?_, fun _ => hrest u hsu⟩
  rw [wp_modify]
  exact hrest _ hsu

/-- `_arm_pong_deadline` in a session that is open. -/
lemma wp_armPongDeadline (hclock : ∀ n, times (env.ticksMs n))
    (hnow : ∀ now, nowMs = some now → times now) (hs : Established s) (hopen : s.state = .opened) :
    wp (armPongDeadline env nowMs) (fun _ t => Moves times s t ∧ t.state = .opened)
      (fun _ t => Moves times s t ∧ t.state = .opened) s := by
  have hself : Moves times s s := Std.Refl.refl (r := Runs times) s hs
  unfold armPongDeadline
  rw [wp_bind, wp_get]
  split
  · next timeout hpong hnone =>
    refine wp_now hclock hnow fun now w hnow hw => ?_
    have hstate : w.state = .opened := (congrArg (fun p => p.2.1) hw).trans hopen
    have hmoves : Moves times s w := hs.moves_same hw
    have hest := hmoves.established
    refine wp_deadlineAfter (fun deadline hd => ?_) fun _ => ⟨hmoves, hstate⟩
    refine ⟨hmoves.trans (hest.moves_armed hest.called hest.phase hest.handshake (by simp [hstate])
      (.inl hstate) ?_), hstate⟩
    refine ⟨rfl, armed_self _ _, .inr (.inr ⟨now, timeout, deadline, hnow, ?_, hd, rfl⟩),
      armed_self _ _⟩
    rw [hmoves.timers.config, hpong]
  · exact ⟨hself, hopen⟩

/-- `send_ping`. -/
lemma runs_sendPing (hclock : ∀ n, times (env.ticksMs n)) (payload : List UInt8) :
    Within (Runs times) (sendPing env payload) := by
  intro s hs
  refine wp_state (m := sendPing env payload) (P := Moves times s) ?_
  unfold sendPing
  by_cases hopen : s.state = .opened
  · rw [wp_bind]
    refine wp_mono ((within_same (aside_sendOpen _ _ _)).wp s) (fun _ t ht => ?_) fun _ t ht =>
      hs.moves_same ht
    have hmoves : Moves times s t := hs.moves_same ht
    have hstate : t.state = .opened := (congrArg (fun p => p.2.1) ht).trans hopen
    exact wp_mono (wp_armPongDeadline hclock (fun _ h => nomatch h) hmoves.established hstate)
      (fun _ _ h => hmoves.trans h.1) fun _ _ h => hmoves.trans h.1
  · rw [wp_bind, sendOpen, wp_bind, wp_get, if_pos hopen, wp_throw]
    exact Std.Refl.refl (r := Runs times) s hs

/-- `_maybe_emit_auto_ping` in a session that is open: afterwards the auto-ping is not due. -/
lemma wp_maybeEmitAutoPing (hclock : ∀ n, times (env.ticksMs n)) {nowMs : ℤ} (hnow : times nowMs)
    (hs : Established s) (hopen : s.state = .opened) :
    wp (maybeEmitAutoPing env nowMs)
      (fun _ t => Moves times s t ∧ t.state = .opened ∧
        ∀ p, t.nextAutoPingTicks = some p → Ahead p nowMs ∨
          ∃ delta, s.config.pingIntervalMs = some delta ∧ ticksAdd nowMs delta = .ok p)
      (fun _ t => Moves times s t ∧ t.state = .opened) s := by
  have hself : Moves times s s := Std.Refl.refl (r := Runs times) s hs
  unfold maybeEmitAutoPing
  rw [wp_bind, wp_get]
  split
  · next due interval hdue hinterval =>
    rw [wp_ite]
    refine ⟨fun hahead => ⟨hself, hopen, fun p hp => .inl ?_⟩, fun _ => ?_⟩
    · rw [hdue, Option.some.injEq] at hp
      exact hp ▸ hahead
    · rw [wp_bind]
      have hsame : ∀ t, Same s t → Moves times s t ∧ t.state = .opened := fun t ht =>
        ⟨hs.moves_same ht, (congrArg (fun p => p.2.1) ht).trans hopen⟩
      refine wp_mono ((within_same (aside_enqueueInternalFrame _ _)).wp s) (fun _ t ht => ?_)
        fun _ t ht => hsame t ht
      obtain ⟨hmoves, hstate⟩ := hsame t ht
      rw [wp_bind]
      refine wp_mono (wp_armPongDeadline hclock (fun _ h => Option.some.inj h ▸ hnow)
        hmoves.established hstate) (fun _ u hu => ?_) fun _ u hu => ⟨hmoves.trans hu.1, hu.2⟩
      have hsu := hmoves.trans hu.1
      have hest := hsu.established
      refine wp_deadlineAfter (fun deadline hd => ?_) fun _ => ⟨hsu, hu.2⟩
      refine ⟨hsu.trans (hest.moves_armed hest.called hest.phase hest.handshake
        (by simp [hu.2]) (.inl hu.2) ⟨rfl, armed_self _ _, armed_self _ _, ?_⟩), hu.2, ?_⟩
      · refine .inr (.inr ⟨nowMs, interval, deadline, hnow, ?_, hd, rfl⟩)
        rw [hsu.timers.config, hinterval]
      · intro p hp
        obtain rfl : deadline = p := Option.some.inj hp
        exact .inr ⟨interval, hinterval, hd⟩
  · next hnone =>
    refine ⟨hself, hopen, fun p hp => ?_⟩
    obtain ⟨interval, hinterval⟩ := Option.ne_none_iff_exists'.mp (hs.autoPing (by simp [hp]))
    exact absurd hinterval (hnone p interval hp)

/-! ## Whole ticks -/

variable (hcallback : ∀ n, Within (Runs times) (env.callback n))

include hcallback

/-- A callback keeps the timers. -/
lemma runs_fire (event : Event) : Within (Runs times) (fire env event) :=
  within_get fun _ => within_bind (runs_modify fun _ => rfl) fun _ => hcallback _

/-- What is left of a session that has ended. -/
structure Ended (s t : Session) : Prop where
  established : Established t
  closed : t.state = .closed
  config : t.config = s.config

omit hcallback in
/-- The end of a session disarms its timers. -/
lemma Ended.moves (h : Ended s t) : Moves times s t where
  established := h.established
  closed _ := h.closed
  timers :=
    have hnone := h.established.closed h.closed
    ⟨h.config, .inl hnone.1, .inl hnone.2.1, .inl hnone.2.2⟩

/-- The end of a session, with its callback. -/
lemma wp_onClose (code : ℕ) (hclient : s.config.isServer = false)
    (hcalled : s.handshake.connectCalled = true) :
    wp (do
      dropTransport
      onFinalized
      let s ← get
      fire env (.onClose (s.lastCloseCode.getD code) s.lastCloseReason))
      (fun _ => Ended s) (fun _ => Ended s) s := by
  have hdropped : Established (Session.dropped s) :=
    ⟨hclient, hcalled, by simp [Session.dropped], rfl, rfl, fun _ => ⟨rfl, rfl, rfl⟩,
      fun h => absurd rfl h⟩
  have hend : ∀ t, Runs times (Session.dropped s) t → Ended s t := by
    intro t ht
    have hmoves := ht hdropped
    exact ⟨hmoves.established, hmoves.closed rfl, hmoves.timers.config⟩
  rw [wp_drop hclient, wp_bind, wp_get]
  exact wp_mono ((runs_fire hcallback _).wp _) (fun _ => hend) fun _ => hend

/-- `_fail_with_error` ends the session. -/
lemma wp_failWithError (error : Exn) (hclient : s.config.isServer = false)
    (hcalled : s.handshake.connectCalled = true) :
    wp (failWithError env error) (fun _ => Ended s) (fun _ => Ended s) s := by
  have hclose : ∀ t, t.config = s.config → t.handshake = s.handshake → wp (do
      dropTransport
      onFinalized
      let s ← get
      fire env (.onClose (s.lastCloseCode.getD CLOSE_INTERNAL_ERROR) s.lastCloseReason))
      (fun _ => Ended s) (fun _ => Ended s) t := by
    intro t hc hh
    have hend : ∀ u, Ended t u → Ended s u := fun u h => ⟨h.established, h.closed, h.config.trans hc⟩
    exact wp_mono (wp_onClose hcallback _ (hc ▸ hclient) (hh ▸ hcalled)) (fun _ => hend) fun _ => hend
  unfold failWithError
  rw [wp_bind, wp_get, wp_bind, wp_when]
  refine ⟨fun _ => ?_, fun _ => ?_⟩
  · rw [wp_modify, wp_bind, wp_when]
    refine ⟨fun _ => ?_, fun _ => hclose _ rfl rfl⟩
    exact hclose _ rfl rfl
  · rw [wp_bind, wp_when]
    refine ⟨fun _ => ?_, fun _ => hclose _ rfl rfl⟩
    exact hclose _ rfl rfl

/-- It keeps the timers. -/
lemma runs_failWithError (error : Exn) : Within (Runs times) (failWithError env error) := by
  intro s hs
  exact (wp_state (wp_failWithError hcallback error hs.client hs.called)).moves

omit hcallback in
lemma runs_of_aside (s t : Session) (h : Aside s t) : Runs times s t :=
  fun hs => hs.moves_same (same_of_aside h)

/-- Sending keeps the timers. -/
lemma runs_drainOutbound : Within (Runs times) (drainOutbound env) :=
  within_get fun _ => within_drainOutboundLoop runs_of_aside (runs_failWithError hcallback) _ _

/-- `_finalize_closed` ends the session, or raises. -/
lemma wp_finalizeClosed (hs : Established s) :
    wp (finalizeClosed env) (fun _ => Ended s) (fun _ => Moves times s) s := by
  unfold finalizeClosed
  rw [wp_bind, wp_modify]
  have hstart : Moves times s { s with finalizing := true } := hs.moves_same rfl
  rw [wp_bind, wp_get, wp_bind]
  have hrest := within_when (c := s.txQueue ≠ [] ∨ s.txPartial ≠ none) (runs_drainOutbound hcallback)
  refine wp_mono (hrest.wp _) (fun _ t ht => ?_) fun _ t ht => hstart.trans (ht hstart.established)
  have hmoves := hstart.trans (ht hstart.established)
  have hend : ∀ u, Ended t u → Ended s u := fun u h =>
    ⟨h.established, h.closed, h.config.trans hmoves.timers.config⟩
  exact wp_mono (wp_onClose hcallback _ hmoves.established.client hmoves.established.called)
    (fun _ => hend) fun _ u hu => (hend u hu).moves

/-- It keeps the timers. -/
lemma runs_finalizeClosed : Within (Runs times) (finalizeClosed env) := by
  intro s hs
  exact wp_state (wp_mono (wp_finalizeClosed hcallback hs) (fun _ _ h => h.moves) fun _ _ h => h)

end Runs

/-! ## Frames -/

section Frames

variable {times : ℤ → Prop} {s t : Session} {env : Env} {nowMs : ℤ}
  (hclock : ∀ n, times (env.ticksMs n)) (hcallback : ∀ n, Within (Runs times) (env.callback n))
  (hnow : times nowMs)

include hclock hnow in
/-- `send_close` with the tick of a call. -/
lemma runs_sendClose_at (code : ℕ) (reason : String) :
    Within (Runs times) (sendClose env code reason (some nowMs)) :=
  runs_sendClose hclock code reason fun _ h => Option.some.inj h ▸ hnow

/-- A PONG disarms its timer. -/
lemma Established.moves_disarmed (hs : Established s) :
    Moves times s { s with pendingPingDeadlineTicks := none } where
  established :=
    { client := hs.client
      called := hs.called
      state := hs.state
      phase := hs.phase
      handshake := hs.handshake
      closed := fun h => ⟨(hs.closed h).1, rfl, (hs.closed h).2.2⟩
      autoPing := hs.autoPing }
  closed := id
  timers := ⟨rfl, armed_self _ _, .inl rfl, armed_self _ _⟩

include hclock hcallback hnow

/-- Every frame moves the timers of an established session so. -/
lemma runs_receives : Receives (Runs times) env nowMs where
  aside := runs_of_aside
  reading _ _ _ hs := hs.moves_same rfl
  note _ := runs_modify fun _ => rfl
  queue _ := runs_modify fun _ => rfl
  fire := runs_fire hcallback
  disarm _ hs := hs.moves_disarmed
  sendClose := runs_sendClose_at hclock hnow
  finalizeClosed := runs_finalizeClosed hcallback

/-- Bytes that are received keep the timers. -/
lemma runs_feedFrameBytes (chunk : List UInt8) :
    Within (Runs times) (feedFrameBytes env chunk nowMs) :=
  within_get fun _ => within_ite (within_pure _) <|
    (runs_receives hclock hcallback hnow).feedFrameLoop _ _ _

/-- So does receiving. -/
lemma runs_drainInbound : Within (Runs times) (drainInbound env nowMs) :=
  within_get fun _ => within_drainInboundLoop runs_of_aside (runs_failWithError hcallback)
    (runs_feedFrameBytes hclock hcallback hnow) _ _

end Frames

/-! ## A tick -/

/-- A timer that a tick finds in time: unarmed, or still ahead. -/
def InTime (now : ℤ) (timer : Option ℤ) : Prop := ∀ d, timer = some d → Ahead d now

/-- A timer that a tick leaves in time: still ahead, or armed `timeout` after one of `times`. -/
def Fresh (times : ℤ → Prop) (now : ℤ) (timeout timer : Option ℤ) : Prop :=
  ∀ d, timer = some d → Ahead d now ∨
    ∃ t delta, times t ∧ timeout = some delta ∧ ticksAdd t delta = .ok d

/-- What a tick leaves behind: the auto-ping is in time if the session is open. -/
structure Settled (times : ℤ → Prop) (now : ℤ) (s : Session) : Prop where
  close : Fresh times now (some s.config.closeTimeoutMs) s.closeDeadlineTicks
  pong : Fresh times now s.config.pongTimeoutMs s.pendingPingDeadlineTicks
  autoPing : s.state = .opened → Fresh times now s.config.pingIntervalMs s.nextAutoPingTicks

section Tick

variable {times : ℤ → Prop} {s t : Session} {env : Env} {nowMs : ℤ}

/-- A timer that is not due is in time. -/
lemma any_due_iff {timer : Option ℤ} :
    ¬ (timer.any fun t => decide (ticksDiff t nowMs ≤ 0)) = true ↔ InTime nowMs timer := by
  cases timer with
  | none => simp [InTime]
  | some d => simp [InTime, Ahead]

/-- A timer that was in time, and may have been armed since. -/
lemma Armed.fresh {timeout before after : Option ℤ} (h : Armed times timeout before after)
    (hbefore : InTime nowMs before) : Fresh times nowMs timeout after := by
  intro d hd
  obtain hnone | hsame | ⟨t, delta, deadline, ht, hdelta, hadd, hafter⟩ := h
  · rw [hnone] at hd
    cases hd
  · exact .inl (hbefore d (hsame ▸ hd))
  · rw [hafter, Option.some.injEq] at hd
    exact .inr ⟨t, delta, ht, hdelta, hd ▸ hadd⟩

/-- A session that has ended is settled. -/
lemma Ended.settled (h : Ended s t) : Settled times nowMs t := by
  obtain ⟨hclose, hpong, hping⟩ := h.established.closed h.closed
  refine ⟨fun d hd => ?_, fun d hd => ?_, fun _ d hd => ?_⟩
  · rw [hclose] at hd
    cases hd
  · rw [hpong] at hd
    cases hd
  · rw [hping] at hd
    cases hd

variable (hclock : ∀ n, times (env.ticksMs n)) (hcallback : ∀ n, Within (Runs times) (env.callback n))
  (hnow : times nowMs)

include hcallback in
/-- `_check_timeouts`: it ends the session, or finds all timers in time. -/
lemma wp_checkTimeouts (hclient : s.config.isServer = false)
    (hcalled : s.handshake.connectCalled = true)
    (hest : s.closeDeadlineTicks ≠ none → Established s) :
    wp (checkTimeouts env nowMs)
      (fun expired t => if expired then Ended s t else
        t = s ∧ InTime nowMs s.handshakeDeadlineTicks ∧ InTime nowMs s.closeDeadlineTicks ∧
          InTime nowMs s.pendingPingDeadlineTicks)
      (fun _ t => Ended s t ∨ Established s ∧ Moves times s t) s := by
  have hfail : ∀ error, wp (do
      failWithError env error
      pure true)
      (fun expired t => if expired then Ended s t else
        t = s ∧ InTime nowMs s.handshakeDeadlineTicks ∧ InTime nowMs s.closeDeadlineTicks ∧
          InTime nowMs s.pendingPingDeadlineTicks)
      (fun _ t => Ended s t ∨ Established s ∧ Moves times s t) s := by
    intro error
    rw [wp_bind]
    exact wp_mono (wp_failWithError hcallback error hclient hcalled) (fun _ _ h => h)
      fun _ _ h => .inl h
  unfold checkTimeouts
  rw [wp_bind, wp_get, wp_ite]
  refine ⟨fun _ => hfail _, fun hhandshake => ?_⟩
  rw [wp_ite]
  refine ⟨fun hdue => ?_, fun hclose => ?_⟩
  · have hs : Established s := hest (by rintro hnone; simp [hnone] at hdue)
    rw [wp_bind, wp_modify, wp_bind]
    have hsame : ∀ e : Exn, Moves times s { s with lastError := some e } :=
      fun e => hs.moves_same rfl
    refine wp_mono (wp_finalizeClosed hcallback (hsame _).established) (fun _ t ht => ?_)
      fun _ t ht => .inr ⟨hs, (hsame _).trans ht⟩
    exact ⟨ht.established, ht.closed, ht.config⟩
  · rw [wp_ite]
    refine ⟨fun _ => hfail _, fun hpong => ?_⟩
    exact ⟨rfl, any_due_iff.mp hhandshake, any_due_iff.mp hclose, any_due_iff.mp hpong⟩

include hclock hcallback hnow

/-- **A tick of an established session** leaves its timers in time. -/
lemma wp_handle_established (hs : Established s) (hopen : s.state ≠ .closed) :
    wp (Client.handle env nowMs) (fun _ t => Moves times s t ∧ Settled times nowMs t)
      (fun _ => Moves times s) s := by
  unfold Client.handle
  rw [wp_bind, wp_get, if_neg (by simp [hopen, hs.called]), wp_bind]
  refine wp_mono (wp_checkTimeouts hcallback hs.client hs.called fun _ => hs) (fun expired t ht => ?_)
    fun _ t ht => ht.elim Ended.moves And.right
  cases expired with
  | true => exact ⟨Ended.moves ht, Ended.settled ht⟩
  | false =>
    obtain ⟨rfl, -, hclose, hpong⟩ := ht
    rw [if_neg Bool.false_ne_true, wp_bind, wp_get, if_neg hs.state, wp_bind]
    refine wp_mono ((runs_drainInbound hclock hcallback hnow).wp t) (fun _ u hu => ?_)
      fun _ u hu => hu hs
    have hu := hu hs
    rw [wp_bind]
    refine wp_mono ((runs_drainOutbound hcallback).wp u) (fun _ v hv => ?_)
      fun _ v hv => hu.trans (hv hu.established)
    have hv := hu.trans (hv hu.established)
    have hsettled : ∀ w, Moves times t w →
        (w.state = .opened → Fresh times nowMs w.config.pingIntervalMs w.nextAutoPingTicks) →
        Settled times nowMs w := by
      intro w hw hping
      have hconfig := hw.timers.config
      exact ⟨hconfig ▸ hw.timers.close.fresh hclose, hconfig ▸ hw.timers.pong.fresh hpong, hping⟩
    rw [wp_bind, wp_get, wp_when]
    refine ⟨fun hopened => ?_, fun hnot => ⟨hv, hsettled v hv fun h => absurd h hnot⟩⟩
    refine wp_mono (wp_maybeEmitAutoPing hclock hnow hv.established hopened) (fun _ w hw => ?_)
      fun _ w hw => hv.trans hw.1
    have htw := hv.trans hw.1
    refine ⟨htw, hsettled w htw fun _ p hp => ?_⟩
    obtain hahead | ⟨delta, hdelta, hadd⟩ := hw.2.2 p hp
    · exact .inl hahead
    · exact .inr ⟨nowMs, delta, hnow, by rw [hw.1.timers.config, hdelta], hadd⟩

end Tick

end Client

end ChuMicro.Websockets
