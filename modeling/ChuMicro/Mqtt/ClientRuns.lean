import ChuMicro.Mqtt.ClientSpecs

/-!
# Runs of the MQTT client are sequences of steps

Every function of the client leads from a coherent world to one that is reached from it by steps,
and ends with the frames it began with. The functions that can call the application need this of the
calls that the callbacks make, and have it by induction on the depth of the nesting.

## Main definitions

* `Mqtt.Stays` — a world is reached, and the same frames are running.
* `Mqtt.Follows` — the same, from every coherent world.

## Main results

* `Mqtt.perform_follows` — a call with all the calls its callbacks make.
* `Mqtt.runCalls_reaches` — a run of the application.
-/

namespace ChuMicro.Mqtt

open Prog

/-! ## Reaching a world under the same frames -/

/-- The world `t` is reached from `w`, and the same frames are running. -/
structure Stays (w t : World) : Prop where
  reaches : Reaches w t
  frames : t.frames = w.frames

/-- The same, if `w` is coherent. -/
def Follows (w t : World) : Prop := Coherent w → Stays w t

section Stays

variable {w t u : World} {α : Type}

lemma Stays.refl (w : World) : Stays w w := ⟨.refl, rfl⟩

lemma Stays.trans (h : Stays w t) (h' : Stays t u) : Stays w u :=
  ⟨h.reaches.trans h'.reaches, h'.frames.trans h.frames⟩

lemma Stays.coherent (h : Stays w t) (hw : Coherent w) : Coherent t := h.reaches.coherent hw

/-- One step is a run. -/
lemma Step.stays (h : Step w t) (hframes : t.frames = w.frames) : Stays w t := ⟨.single h, hframes⟩

/-- One more step that does not touch the frames. -/
lemma Stays.step (h : Stays w t) (h' : Step t u) (hframes : u.frames = t.frames) : Stays w u :=
  h.trans (h'.stays hframes)

section Quiet

variable {timers : Timers} {heal : SelfHeal} {will : Will} {decoder : PacketDecoder}
  {inFlight : List InFlightPublish} {nextPacketId : ℕ} {onPublishSet : Bool}
  {inboundQueue : Option (List InboundPublish)} {lastError : Option Exn} {used : Used}

/-- Fields that no step looks at. -/
lemma Stays.quiet (ids : Ids inFlight nextPacketId)
    (same : timers.transportDeadlineTicks = w.timers.transportDeadlineTicks) :
    Stays w { w with
      timers := timers, heal := heal, will := will, decoder := decoder
      inFlight := inFlight, nextPacketId := nextPacketId, onPublishSet := onPublishSet
      inboundQueue := inboundQueue, lastError := lastError, used := used } :=
  ⟨.single (.quiet _ _ _ _ _ _ _ _ _ _ _ ids (.inl ⟨rfl, same⟩)), rfl⟩

/-- The same, and the connector is dropped, with the timer of its attempt. -/
lemma Stays.undial (ids : Ids inFlight nextPacketId)
    (ended : w.state ≠ .awaitingTransport ∨ timers.transportDeadlineTicks = none) :
    Stays w { w with
      connector := false, timers := timers, heal := heal, will := will, decoder := decoder
      inFlight := inFlight, nextPacketId := nextPacketId, onPublishSet := onPublishSet
      inboundQueue := inboundQueue, lastError := lastError, used := used } :=
  ⟨.single (.quiet _ _ _ _ _ _ _ _ _ _ _ ids (.inr ⟨rfl, ended⟩)), rfl⟩

end Quiet

variable {m : M α}

/-- A computation that stays, after a part of the run that does. -/
lemma wp_after (hw : Coherent w) (h : Stays w t)
    (hm : Coherent t → wp m (fun _ => Stays t) (fun _ => Stays t) t) :
    wp m (fun _ => Stays w) (fun _ => Stays w) t :=
  wp_mono (hm (h.coherent hw)) (fun _ _ => h.trans) (fun _ _ => h.trans)

instance : Std.Refl Follows := ⟨fun w _ => .refl w⟩

instance : IsTrans World Follows :=
  ⟨fun _ _ _ h h' hw => (h hw).trans (h' ((h hw).coherent hw))⟩

/-- A computation that follows the steps, as a specification. -/
lemma Follows.wp (hm : Within Follows m) (hw : Coherent w) :
    wp m (fun _ => Stays w) (fun _ => Stays w) w :=
  wp_mono (hm.wp w) (fun _ _ h => h hw) (fun _ _ h => h hw)

/-- The same, after a part of the run. -/
lemma wp_follows (hm : Within Follows m) (hw : Coherent w) (h : Stays w t) :
    Prog.wp m (fun _ => Stays w) (fun _ => Stays w) t :=
  wp_after hw h (Follows.wp hm)

lemma within_follows (h : ∀ w, Coherent w → Prog.wp m (fun _ => Stays w) (fun _ => Stays w) w) :
    Within Follows m := by
  intro w hw
  exact wp_state (h w hw)

/-- A change of fields that no step looks at. -/
lemma within_quiet {f : World → World} (h : ∀ w, Coherent w → Stays w (f w)) :
    Within Follows (modify f : M Unit) := within_modify h

/-- The end of a frame. -/
lemma Stays.exit {f : Frame} (hu : Stays t u) (hreaches : Reaches w t)
    (hframes : t.frames = f :: w.frames) (other : ∀ n, f ≠ .owing n) :
    Stays w { u with frames := u.frames.tail } := by
  have huframes : u.frames = f :: w.frames := hu.frames.trans hframes
  rw [huframes, List.tail_cons]
  exact ⟨(hreaches.trans hu.reaches).tail (.exit huframes other), rfl⟩

/-- A computation under a frame. -/
lemma wp_exit {f : Frame} (hreaches : Reaches w t) (hframes : t.frames = f :: w.frames)
    (other : ∀ n, f ≠ .owing n) (hm : Prog.wp m (fun _ => Stays t) (fun _ => Stays t) t) :
    Prog.wp (tryFinally m (modify fun w => { w with frames := w.frames.tail }))
      (fun _ => Stays w) (fun _ => Stays w) t := by
  rw [wp_tryFinally]
  exact wp_mono hm (fun _ u hu => hu.exit hreaches hframes other)
    (fun _ u hu => hu.exit hreaches hframes other)

end Stays

open Stays

section Client

variable {env : Env} {callee : Call → M Unit} (hcallee : ∀ c, Within Follows (callee c)) {w : World}

include hcallee

/-! ## Callbacks -/

/-- The calls that a callback makes. -/
lemma runScript_follows (calls : List (Call × Bool)) : Within Follows (runScript callee calls) := by
  induction calls with
  | nil => exact within_pure ()
  | cons call rest ih =>
    obtain ⟨c, swallow⟩ := call
    cases swallow with
    | true => exact within_bind (within_tryCatch (hcallee c) fun _ => within_pure ()) fun _ => ih
    | false => exact within_bind (hcallee c) fun _ => ih

/-- What a callback does. -/
lemma callback_follows (script : Script) :
    Within Follows (do
      runScript callee script.calls
      match script.raises with
      | some e => throw e
      | none => pure () : M Unit) := by
  refine within_bind (runScript_follows hcallee _) fun _ => ?_
  split
  · exact within_throw _
  · exact within_pure ()

/-- A callback other than `on_connect`. -/
lemma fire_follows {cb : Callback} (other : cb ≠ .onConnect) :
    Within Follows (fire env callee cb) := by
  refine within_follows fun w hw => ?_
  simp only [fire, record, withFrame, wp_bind, wp_modify, wp_get, decide_eq_true other, Bool.and_true]
  have hreaches : Reaches w { w.record (.fired cb) with
      used := { w.used with callbacks := w.used.callbacks + 1 }
      frames := .callback cb :: w.frames } :=
    .trans (.single (.enterCallback other)) (quiet hw.ids rfl).reaches
  exact wp_exit hreaches rfl (by simp) (Follows.wp (callback_follows hcallee _) (hreaches.coherent hw))

/-- `on_connect`, which is called for a CONNACK that has been accepted. -/
lemma fireOnConnect_stays (hw : Coherent w) (harmed : w.armed = true) :
    wp (fire env callee .onConnect) (fun _ => Stays w) (fun _ => Stays w) w := by
  have hdisarmed : (w.armed && decide (Callback.onConnect ≠ .onConnect)) = false := by simp
  simp only [fire, record, withFrame, wp_bind, wp_modify, wp_get]
  rw [show (w.record (.fired .onConnect)).armed = w.armed from rfl, hdisarmed]
  have hreaches : Reaches w { w.record (.fired .onConnect) with
      used := { w.used with callbacks := w.used.callbacks + 1 }
      armed := false
      frames := .callback .onConnect :: w.frames } :=
    .trans (.single (.enterOnConnect harmed)) (quiet hw.ids rfl).reaches
  exact wp_exit hreaches rfl (by simp) (Follows.wp (callback_follows hcallee _) (hreaches.coherent hw))

/-- `_enter_failed`. -/
lemma enterFailed_stays (hw : Coherent w) (why : w.MayFail) :
    wp (enterFailed env callee) (fun _ => Stays w) (fun _ => Stays w) w := by
  simp only [enterFailed, wp_bind, wp_get, wp_modify, wp_when]
  exact ⟨fun _ => wp_follows (fire_follows hcallee (by simp)) hw ((Step.fail why).stays rfl),
    fun _ => (Step.fail why).stays rfl⟩

/-! ## Calls of the application -/

/-- A connection is begun. -/
lemma connectNow_stays (hw : Coherent w) (hstate : w.state = .disconnected) :
    wp (connectNow env callee) (fun _ => Stays w) (fun _ => Stays w) w := by
  simp only [connectNow, wp_bind, wp_get, wp_ite]
  refine ⟨fun hsocket => ?_, fun hsocket => ?_⟩
  · refine wp_mono (startTransport_spec none) ?_ ?_
    · rintro r t (⟨rfl, timers, used, rfl⟩ | ⟨rfl, error, used, rfl⟩)
      · refine ⟨fun _ => ?_, by simp⟩
        exact ((Step.await hsocket timers (.inl hstate)).stays rfl).trans (quiet hw.ids rfl)
      · refine ⟨by simp, fun _ => ?_⟩
        exact wp_after hw (quiet hw.ids rfl) fun ht =>
          enterFailed_stays hcallee ht (.inl ⟨hstate, hsocket⟩)
    · rintro e t ⟨used, rfl⟩
      exact ((Step.dial hsocket).stays rfl).trans (quiet hw.ids rfl)
  · obtain ⟨t, ht⟩ := Option.ne_none_iff_exists'.mp hsocket
    refine wp_mono (enqueueConnectPacket_spec none) ?_ ?_
    · rintro - u ⟨bytes, pending, used, hbytes, hack, hpending, rfl⟩
      exact ((Step.connecting pending (.inl hstate) ht hbytes hack hpending).stays rfl).trans
        (quiet hw.ids rfl)
    · rintro e u (rfl | ⟨bytes, used, hbytes, hack, rfl⟩)
      · exact .refl _
      · exact ((Step.strandConnect (.inl hstate) ht hbytes hack).stays rfl).trans (quiet hw.ids rfl)

/-- `connect`. -/
lemma connect_follows : Within Follows (connect env callee) := by
  refine within_bind (within_quiet fun w hw => quiet hw.ids rfl) fun _ => within_follows fun w hw => ?_
  rw [wp_bind, wp_get, wp_ite]
  refine ⟨fun hstate => ?_, fun _ => ?_⟩
  · rw [wp_bind, wp_modify]
    exact wp_after hw (quiet hw.ids rfl) fun ht => connectNow_stays hcallee ht hstate
  · exact (wp_when _ _ _).mpr ⟨fun _ => quiet hw.ids rfl, fun _ => .refl _⟩

omit hcallee in
/-- Two changes of the current transport. -/
lemma World.onSocket_onSocket (w : World) (f g : Transport → Transport) :
    (w.onSocket f).onSocket g = w.onSocket fun tr => g (f tr) := by
  unfold World.onSocket onTransport
  rcases w.socket with _ | t
  · rfl
  · simp

/-- What `disconnect` does before it clears the client: steps, the end of a connection attempt whose
timer is cleared later, or the DISCONNECT packet. -/
def Left (w t : World) : Prop :=
  Stays w t ∨ t = { w with connector := false } ∨ ∃ n tr used, 0 < n ∧ w.Alive ∧ w.socket = some tr ∧
    t = { ((w.record (.sent tr PACKET_DISCONNECT)).onSocket fun tr => { tr with
      written := tr.written ++ PACKET_DISCONNECT.take n
      taken := tr.taken ++ [⟨.disconnect, PACKET_DISCONNECT⟩] }) with used := used }

omit hcallee in
/-- The DISCONNECT packet. -/
lemma sendDisconnect_spec (hw : Coherent w) (halive : w.Alive) :
    wp (sendDisconnect env) (fun _ => Left w) (fun _ => Left w) w := by
  rw [sendDisconnect, wp_bind]
  refine wp_mono (sendRaw_spec _) ?_ ?_
  · rintro n t ⟨tr, used, hsocket, ⟨rfl, rfl⟩ | ⟨hpos, hle, rfl⟩⟩
    · exact (wp_when _ _ _).mpr ⟨by simp, fun _ => .inl
        (((Step.blocked _ hsocket (.inl halive)).stays rfl).trans (quiet hw.ids rfl))⟩
    · refine (wp_when _ _ _).mpr ⟨fun _ => .inr <| .inr ⟨n, tr, used, hpos, halive, hsocket, ?_⟩,
        fun h => absurd hpos h⟩
      exact congrArg (fun v : World => { v with used := used })
        (World.onSocket_onSocket (w.record (.sent tr PACKET_DISCONNECT))
          (fun tr => { tr with written := tr.written ++ PACKET_DISCONNECT.take n })
          (fun tr => { tr with taken := tr.taken ++ [⟨.disconnect, PACKET_DISCONNECT⟩] }))
  · rintro e t (rfl | ⟨tr, used, hsocket, rfl⟩)
    · exact .inl (.refl _)
    · exact .inl (((Step.blocked _ hsocket (.inl halive)).stays rfl).trans (quiet hw.ids rfl))

omit hcallee in
/-- What `disconnect` does to a client that is not disconnected. -/
lemma leave_spec (hw : Coherent w) (hstate : w.state ≠ .disconnected) :
    wp (leave env) (fun _ => Left w) (fun _ _ => False) w := by
  simp only [leave, wp_bind, wp_get, wp_ite, wp_modify, wp_tryCatch, wp_pure]
  refine ⟨fun _ => .inr (.inl rfl), fun hawaiting => ⟨fun hfailed => ?_,
    fun _ => .inl (.refl _)⟩⟩
  have halive : w.Alive := by
    unfold Client.Alive
    cases hs : w.state
    all_goals simp_all
  exact sendDisconnect_spec hw halive

/-- `disconnect`. -/
lemma disconnect_stays (hw : Coherent w)
    (called : ∃ e ∈ w.log, e.event = .called .disconnect ∧ e.before.toClient = w.toClient) :
    wp (disconnect env callee) (fun _ => Stays w) (fun _ => Stays w) w := by
  rw [disconnect, wp_bind, wp_get, wp_ite]
  refine ⟨fun _ => .refl _, fun hstate => ?_⟩
  rw [wp_bind]
  refine wp_mono (leave_spec hw hstate) ?_ (fun _ _ h => h.elim)
  rintro - t (ht | rfl | ⟨n, tr, used, hpos, halive, hsocket, rfl⟩)
  · simp only [closeSocket, resetTransientState, wp_bind, wp_modify]
    exact wp_follows (fire_follows hcallee (by simp)) hw (ht.step (Step.halt _ _ _) rfl)
  · simp only [closeSocket, resetTransientState, wp_bind, wp_modify]
    exact wp_follows (fire_follows hcallee (by simp)) hw
      (((Step.halt w.decoder w.timers w.heal).stays rfl).trans
        (undial hw.ids (.inl (by simp [World.halted]))))
  · simp only [closeSocket, resetTransientState, wp_bind, wp_modify]
    exact wp_follows (fire_follows hcallee (by simp)) hw
      (((Step.goodbye n w.decoder { nextPingDueTicks := w.timers.nextPingDueTicks } w.heal hpos
        halive hsocket called).stays rfl).trans (quiet hw.ids rfl))

omit hcallee in
/-- `publish`. -/
lemma publish_follows (p : QueuedPublish) : Within Follows (publish env p) := by
  refine within_follows fun w hw => ?_
  simp only [publish, publishDisconnected, wp_bind, wp_get, wp_ite, wp_throw, wp_modify]
  refine ⟨fun _ => .refl _, fun _ => ⟨fun hstate => ⟨fun _ => .refl _, fun _ => ⟨fun _ => .refl _,
    fun _ => ?_⟩⟩, fun hstate => ?_⟩⟩
  · exact (Step.buffer p hstate).stays rfl
  · have halive : w.Alive := .inr (not_not.mp hstate)
    refine wp_mono (doPublish_spec p none hw.ids (hw.timed (.inl halive)).1) ?_ ?_
    · rintro - t ⟨items, inFlight, next, used, rfl, hplain, -, -, hids, -⟩
      exact ((Step.enqueue halive hplain).stays rfl).trans (quiet hids rfl)
    · rintro e t ⟨⟨inFlight, next, used, rfl, hids⟩, -⟩
      exact quiet hids rfl

omit hcallee in
/-- `subscribe`. -/
lemma subscribe_stays {topic : String} {qos : ℕ} {own : Bool} (hw : Coherent w)
    (called : ∃ e ∈ w.log, e.before.state = w.state ∧
      e.event = .called (.subscribe topic qos own)) :
    wp (subscribe env topic qos own) (fun _ => Stays w) (fun _ => Stays w) w := by
  simp only [subscribe, wp_bind, wp_get, wp_when]
  refine ⟨fun hstate => ?_, fun hstate => ?_⟩
  · have hack := (hw.timed (.inl (.inr hstate))).1
    refine wp_mono (allocatePacketId_spec hw.ids) ?_ ?_
    · rintro packetId t ⟨-, -, next, rfl, hids⟩
      rcases hbytes : encodeSubscribe packetId [(topic, qos)] with e | bytes
      · exact quiet hids rfl
      · rw [wp_lift_ok]
        refine wp_mono (enqueueUserTx_spec _) ?_ ?_
        · rintro - t ⟨rfl, -⟩
          refine wp_mono (awaitAck_spec _ _ _ _ _) ?_ (fun _ _ h => absurd hack h.2)
          rintro - t ⟨⟨u, d, rfl⟩, -⟩
          exact ((Step.subscribe ⟨.suback, d, some packetId, none, some topic⟩ (some own) hstate
            (wf_subscribe hbytes) ⟨rfl, rfl⟩).stays rfl).trans (quiet hids rfl)
        · rintro e t ⟨rfl, -⟩
          exact quiet hids rfl
    · rintro e t ⟨-, next, rfl, hids⟩
      exact quiet hids rfl
  · obtain ⟨e, he, hbefore, hevent⟩ := called
    exact (Step.offline (some ⟨qos, some own⟩) hstate
      ⟨e, he, hbefore, .inl ⟨qos, own, hevent⟩⟩).stays rfl

omit hcallee in
/-- `unsubscribe`. -/
lemma unsubscribe_stays {topic : String} {own : Bool} (hw : Coherent w)
    (called : ∃ e ∈ w.log, e.before.state = w.state ∧ e.event = .called (.unsubscribe topic own)) :
    wp (unsubscribe env topic own) (fun _ => Stays w) (fun _ => Stays w) w := by
  simp only [unsubscribe, wp_bind, wp_get, wp_ite, wp_modify]
  refine ⟨fun hstate => ?_, fun hstate => ?_⟩
  · obtain ⟨e, he, hbefore, hevent⟩ := called
    exact (Step.offline none hstate ⟨e, he, hbefore, .inr ⟨own, hevent⟩⟩).stays rfl
  · rw [not_not] at hstate
    have hack := (hw.timed (.inl (.inr hstate))).1
    refine wp_mono (allocatePacketId_spec hw.ids) ?_ ?_
    · rintro packetId t ⟨-, -, next, rfl, hids⟩
      rcases hbytes : encodeUnsubscribe packetId [topic] with e | bytes
      · exact quiet hids rfl
      · rw [wp_lift_ok]
        refine wp_mono (enqueueUserTx_spec _) ?_ ?_
        · rintro - t ⟨rfl, -⟩
          refine wp_mono (awaitAck_spec _ _ _ _ _) ?_ (fun _ _ h => absurd hack h.2)
          rintro - t ⟨⟨u, d, rfl⟩, -⟩
          exact ((Step.unsubscribe ⟨.unsuback, d, some packetId, some (topic, own), none⟩ hstate
            (wf_unsubscribe hbytes) rfl).stays rfl).trans (quiet hids rfl)
        · rintro e t ⟨rfl, -⟩
          exact quiet hids rfl
    · rintro e t ⟨-, next, rfl, hids⟩
      exact quiet hids rfl

/-- `io_error`. -/
lemma ioError_stays {eventmask : ℕ} (hw : Coherent w)
    (called : ∃ e ∈ w.log, e.event = .called (.ioError eventmask) ∧ e.before.frames = w.frames) :
    wp (ioError env callee eventmask) (fun _ => Stays w) (fun _ => Stays w) w := by
  obtain ⟨e, he, hevent, hframes⟩ := called
  have hfail : w.MayFail := .inr (.inr (.inr (.inr ⟨e, he, _, hevent, hframes⟩)))
  rw [ioError, wp_bind, wp_get, wp_ite]
  refine ⟨fun _ => .refl _, fun _ => ?_⟩
  rw [wp_bind, wp_when]
  simp only [wp_bind, wp_modify]
  exact ⟨fun _ => wp_after hw (undial hw.ids (.inr rfl)) fun ht =>
      enterFailed_stays hcallee ht hfail,
    fun _ => wp_after hw (quiet hw.ids rfl) fun ht => enterFailed_stays hcallee ht hfail⟩

/-! ## Receiving -/

omit hcallee in
/-- The settling of a response that has no callback. -/
lemma discardPending_spec {awaiting : Awaiting} {packetId : Option ℕ} (hw : Coherent w)
    (hne : awaiting ≠ .unsuback) :
    wp (discardPending env callee awaiting packetId)
      (fun _ t => t = { w with pendingResponses :=
        w.pendingResponses.eraseP (PendingResponse.isFor awaiting packetId) })
      (fun _ _ => False) w := by
  simp only [discardPending, wp_bind, wp_get]
  split
  · rename_i hnone
    rw [wp_pure, List.eraseP_of_forall_not]
    intro p hp
    have := List.find?_eq_none.mp hnone p hp
    simpa using this
  · rename_i pending hsome
    have hfor := List.find?_some hsome
    have hawaiting : pending.awaiting = awaiting := by
      simp only [PendingResponse.isFor, Bool.and_eq_true, decide_eq_true_eq] at hfor
      exact hfor.1
    have hcallback := hw.pendings pending (List.mem_of_find?_eq_some hsome) (by rwa [hawaiting])
    simp only [wp_bind, wp_modify, firePending, hcallback, wp_pure]

/-- The world after an acknowledgement has come in and been logged. -/
def World.ackIn (w : World) (p : ParsedAck) : World :=
  (w.record (.acked p)).onSocket fun tr => { tr with acks := tr.acks ++ [p] }

omit hcallee in
/-- What is taken from a transport is not touched by an acknowledgement. -/
lemma ackIn_taken (w : World) (p : ParsedAck) (t : ℕ) :
    ((w.ackIn p).transports t).taken = (w.transports t).taken := by
  unfold World.ackIn World.onSocket onTransport
  rcases hsocket : (w.record (.acked p)).socket with _ | s
  · rfl
  · rcases eq_or_ne t s with rfl | hne
    · simp [World.record]
    · simp [World.record, Function.update_of_ne hne]

/-- A CONNACK that refuses. -/
lemma refuseConnack_stays {returnCode : ℕ} (hw : Coherent w) (why : w.MayFail) :
    wp (refuseConnack env callee returnCode) (fun _ => Stays w) (fun _ => Stays w) w := by
  rw [refuseConnack, wp_bind, wp_modify]
  exact wp_after hw (quiet hw.ids rfl) fun ht => enterFailed_stays hcallee ht why

variable {t : World} {nowMs : ℤ}

omit hcallee in
/-- What the acceptance of a CONNACK looks at is not changed by becoming CONNECTED. -/
lemma Accepts.of_eq {p : ParsedAck} {items : List TxItem} {pendings : List PendingResponse}
    {done lost rest : List QueuedPublish} (h : Accepts t p items pendings done lost rest)
    (hconfig : t.config = w.config) (hqueue : t.preConnectQueue = w.preConnectQueue)
    (hsubs : t.subscriptions = w.subscriptions) (htx : t.txQueue = w.txQueue)
    (hset : t.onPublishSet = w.onPublishSet) (hflight : t.inFlight = w.inFlight) :
    Accepts w p items pendings done lost rest := by
  have hreplays : t.replays p = w.replays p := by simp only [Client.replays, hconfig]
  have hdesired : t.desired = w.desired := by simp only [Client.desired, hsubs]
  have hreplay : t.ReplayOk ↔ w.ReplayOk :=
    ⟨fun h => ⟨hdesired ▸ h.encodes, hsubs ▸ hflight ▸ h.free⟩,
      fun h => ⟨hdesired ▸ h.encodes, hsubs ▸ hflight ▸ h.free⟩⟩
  have hslots : t.slots = w.slots := by
    funext q
    simp only [Client.slots, hset]
  have hkeeps : w.Keeps p → t.Keeps p := by
    intro hw ht
    have hfits := hw fun h => hreplay.mp (ht (hreplays ▸ h))
    exact ⟨hqueue ▸ hfits.encodes, by
      rw [hqueue, htx, hreplays, hsubs, hslots, hconfig]
      exact hfits.room, by
      rw [hqueue, hflight]
      exact hfits.free⟩
  exact ⟨h.wf, h.silent, hqueue ▸ h.queue, fun hw => h.keeps (hkeeps hw), h.carried, hreplays ▸ h.resumed,
    fun hyes hok => hdesired ▸ h.replayed (hreplays ▸ hyes) (hreplay.mpr hok)⟩

/-- A CONNACK that accepts. -/
lemma acceptConnack_stays {p : ParsedAck}
    (hw : Coherent w) (hloop : InLoop w.frames)
    (connack : ∃ e ∈ w.log, e.event = .acked p ∧ p.accepts = true ∧
      { e.before.toClient with pendingResponses := w.pendingResponses } = w.toClient ∧
      ∀ t, (e.before.transports t).taken = (w.transports t).taken)
    (last : ∃ (log : List Entry) (e : Entry), w.log = log ++ [e] ∧ e.event = .acked p) :
    wp (acceptConnack env callee (p.sessionPresent.getD false) nowMs)
      (fun _ => Stays w) (fun _ => Stays w) w := by
  obtain ⟨hack, hping⟩ := hw.timed (.inr hloop.trying_mem)
  unfold acceptConnack record
  rw [wp_bind, wp_modify, wp_bind, wp_modify, wp_bind, wp_get, wp_bind]
  refine wp_mono (deadline_spec _ _) ?_ (fun _ _ h => absurd hping h.2)
  rintro d t ⟨⟨u, rfl⟩, -⟩
  have hspec := @replayAndDrain_spec env
    { w.record .connected with
      state := .connected, heal := { w.heal with attempts := 0, retryAtTicks := none }, armed := true
      used := u, timers := { w.timers with nextPingDueTicks := d } } p nowMs hw.ids hack
  have haccept : ∀ t, Accepted { w.record .connected with
      state := .connected, heal := { w.heal with attempts := 0, retryAtTicks := none }, armed := true
      used := u, timers := { w.timers with nextPingDueTicks := d } } p t →
      Stays w t ∧ t.armed = true := by
    rintro t ⟨items, pendings, done, lost, rest, inFlight, next, used, rfl, haccepts, hids⟩
    refine ⟨?_, rfl⟩
    exact ((Step.accept hloop connack last
      (haccepts.of_eq rfl rfl rfl rfl rfl rfl) w.timers w.heal inFlight next hids).stays rfl).trans
      (quiet hids rfl)
  rw [wp_bind] at hspec
  rw [wp_bind, wp_modify, wp_bind]
  refine wp_mono hspec ?_ (fun _ t h => (haccept t h).1)
  intro _ t ht
  rw [wp_bind]
  refine wp_mono ht ?_ (fun _ t h => (haccept t h).1)
  intro _ t ht
  obtain ⟨hstays, harmed⟩ := haccept t ht
  exact wp_after hw hstays fun ht => fireOnConnect_stays hcallee ht harmed

/-- A PUBACK. -/
lemma handlePuback_follows (packetId : Option ℕ) :
    Within Follows (handlePuback env callee packetId) := by
  refine within_get fun w => ?_
  split
  · exact within_pure ()
  · refine within_bind (within_quiet fun w hw => quiet (hw.ids.filter _) rfl) fun _ => ?_
    exact within_bind (within_when (fire_follows hcallee (by simp))) fun _ =>
      fire_follows hcallee (by simp)

/-- A granted subscription uses up its one-shot callback. -/
lemma fireSubscribed_follows (topic : String) (grantedQos : Option (List ℕ)) :
    Within Follows (fireSubscribed env callee topic grantedQos) := by
  refine within_get fun w => ?_
  split
  · exact within_pure ()
  · refine within_bind (within_quiet fun w _ => (Step.oneShot ?_).stays rfl) fun _ => ?_
    · rw [List.map_map, Client.desired]
      refine List.map_congr_left fun s _ => ?_
      simp only [Function.comp_apply]
      split_ifs
      · rfl
      · rfl
    · exact within_bind (within_when (fire_follows hcallee (by simp))) fun _ =>
        fire_follows hcallee (by simp)

/-- The callback of a response. -/
lemma firePending_follows (pending : PendingResponse) :
    Within Follows (firePending env callee pending) := by
  unfold firePending
  split
  · exact within_pure ()
  · exact within_bind (within_when (fire_follows hcallee (by simp))) fun _ =>
      fire_follows hcallee (by simp)

section Loop

variable (hloop : InLoop w.frames) (halive : Fatal w.log ∨ w.Alive)

include hloop halive

omit hcallee in
/-- An acknowledgement that settles nothing. -/
lemma ackIn_stays (p : ParsedAck) : Stays w (w.ackIn p) :=
  (Step.acked p w.pendingResponses hloop halive (.inl rfl)).stays rfl

variable {p : ParsedAck}

omit hcallee in
/-- An acknowledgement that settles a response. -/
lemma ackIn_settled {a : Awaiting} (packetId : Option ℕ) (ha : p.awaited = some a) :
    Stays w { w.ackIn p with
      pendingResponses := w.pendingResponses.eraseP (PendingResponse.isFor a packetId) } :=
  (Step.acked p _ hloop halive (.inr ⟨a, packetId, ha, rfl⟩)).stays rfl

variable (hw : Coherent w)

include hw

omit hcallee in
/-- A PINGRESP. -/
lemma handlePingresp_stays (hp : p.packetType = PACKET_PINGRESP) :
    wp (do
        let _ ← discardPending env callee .pingresp none
        pure ())
      (fun _ => Stays w) (fun _ => Stays w) (w.ackIn p) := by
  rw [wp_bind]
  refine wp_mono (discardPending_spec ((ackIn_stays hloop halive p).coherent hw) (by simp)) ?_
    (fun _ _ h => h.elim)
  rintro - t rfl
  exact ackIn_settled hloop halive none (show p.awaited = some .pingresp by
    simp [ParsedAck.awaited, hp, PACKET_PINGRESP, PACKET_CONNACK])

/-- A CONNACK. -/
lemma handleConnack_stays {nowMs : ℤ} (hp : p.packetType = PACKET_CONNACK) :
    wp (handleConnack env callee p nowMs) (fun _ => Stays w) (fun _ => Stays w) (w.ackIn p) := by
  have hstays := ackIn_settled hloop halive none (show p.awaited = some .connack by
    simp [ParsedAck.awaited, hp])
  rw [handleConnack, wp_bind]
  refine wp_mono (discardPending_spec ((ackIn_stays hloop halive p).coherent hw) (by simp)) ?_
    (fun _ _ h => h.elim)
  rintro - t rfl
  by_cases hcode : p.returnCode.getD 0 ≠ 0
  · rw [if_pos hcode]
    refine wp_after hw hstays fun ht => refuseConnack_stays hcallee ht ?_
    refine .inr (.inr (.inr (.inl ⟨hloop, ⟨.acked p, w.toMoment⟩, ?_, p, rfl, ?_, rfl, rfl, rfl⟩)))
    · exact List.mem_append_right _ (List.mem_singleton.mpr rfl)
    · simp [ParsedAck.refuses, hp, hcode]
  · rw [if_neg hcode]
    rw [not_not] at hcode
    refine wp_after hw hstays fun ht => acceptConnack_stays hcallee ht hloop
      ⟨⟨.acked p, w.toMoment⟩, ?_, rfl, ?_, rfl, fun t => (ackIn_taken w p t).symm⟩
      ⟨w.log, _, rfl, rfl⟩
    · exact List.mem_append_right _ (List.mem_singleton.mpr rfl)
    · simp [ParsedAck.accepts, hp, hcode]

/-- A SUBACK. -/
lemma handleSuback_stays (hp : p.packetType = PACKET_SUBACK) :
    wp (handleSuback env callee p) (fun _ => Stays w) (fun _ => Stays w) (w.ackIn p) := by
  unfold handleSuback
  rw [wp_ite]
  refine ⟨fun hrejected => ?_, fun _ => ?_⟩
  · rw [evictRejectedSubscription, wp_bind, wp_modify, wp_throw]
    refine (ackIn_stays hloop halive p).trans ?_
    split
    · exact .refl _
    · exact (Step.evict ⟨⟨.acked p, w.toMoment⟩,
        List.mem_append_right _ (List.mem_singleton.mpr rfl), p, rfl, hrejected⟩).stays rfl
  · rw [wp_bind]
    refine wp_mono (discardPending_spec ((ackIn_stays hloop halive p).coherent hw) (by simp)) ?_
      (fun _ _ h => h.elim)
    rintro matched t rfl
    have hstays := ackIn_settled hloop halive p.packetId (show p.awaited = some .suback by
      simp [ParsedAck.awaited, hp, PACKET_PINGRESP, PACKET_CONNACK, PACKET_SUBACK])
    split
    · exact hstays
    · split
      · exact hstays
      · exact wp_follows (fireSubscribed_follows hcallee _ _) hw hstays

/-- An UNSUBACK. -/
lemma handleUnsuback_stays (hp : p.packetType = PACKET_UNSUBACK) :
    wp (handleUnsuback env callee p) (fun _ => Stays w) (fun _ => Stays w) (w.ackIn p) := by
  unfold handleUnsuback discardPending
  rw [wp_bind, wp_bind, wp_get]
  split
  · exact ackIn_stays hloop halive p
  · rename_i pending _
    rw [wp_bind, wp_modify, wp_bind]
    have hstays := ackIn_settled hloop halive p.packetId (show p.awaited = some .unsuback by
      simp [ParsedAck.awaited, hp, PACKET_PINGRESP, PACKET_CONNACK, PACKET_SUBACK, PACKET_UNSUBACK])
    exact wp_mono (wp_follows (firePending_follows hcallee pending) hw hstays) (fun _ _ h => h)
      (fun _ _ h => h)

/-- Any acknowledgement. -/
lemma handleAck_stays (p : ParsedAck) (nowMs : ℤ) :
    wp (handleAck env callee p nowMs) (fun _ => Stays w) (fun _ => Stays w) w := by
  unfold handleAck record
  rw [wp_bind, wp_modify, wp_bind, wp_modify]
  have hstays := ackIn_stays hloop halive p
  split
  · exact handleConnack_stays hcallee hloop halive hw ‹_›
  split
  · exact handlePingresp_stays hloop halive hw ‹_›
  split
  · exact wp_follows (handlePuback_follows hcallee _) hw hstays
  split
  · exact handleSuback_stays hcallee hloop halive hw ‹_›
  split
  · exact handleUnsuback_stays hcallee hloop halive hw ‹_›
  · exact hstays

end Loop

/-- The frames in which a message is handed over. -/
def InDelivery (frames : List Frame) : Prop :=
  InLoop frames ∨ ∃ n, InLoop frames.tail ∧ frames.head? = some (.owing n)

/-- A message is delivered. -/
lemma deliver_stays (p : ParsedPublish) (hw : Coherent w) (hloop : InDelivery w.frames)
    (halive : Fatal w.log ∨ w.Alive) :
    wp (deliver env callee p) (fun _ => Stays w) (fun _ => Stays w) w := by
  unfold deliver record
  rw [wp_bind, wp_modify, wp_bind, wp_get]
  have hmessage : Stays w (w.record (.message (some p.topic))) :=
    (Step.message _ hloop halive).stays rfl
  split
  · exact hmessage.trans (quiet hw.ids rfl)
  · exact wp_follows (fire_follows hcallee (by simp)) hw hmessage

/-- An oversized message is dropped. -/
lemma dropOversized_stays (p : OversizedMessage) (hw : Coherent w) (hloop : InDelivery w.frames)
    (halive : Fatal w.log ∨ w.Alive) :
    wp (dropOversized env callee p) (fun _ => Stays w) (fun _ => Stays w) w := by
  unfold dropOversized record
  rw [wp_bind, wp_modify, wp_bind, wp_get, wp_when]
  have hmessage : Stays w (w.record (.message p.topic)) := (Step.message _ hloop halive).stays rfl
  exact ⟨fun _ => wp_follows (fire_follows hcallee (by simp)) hw hmessage, fun _ => hmessage⟩

omit hcallee in
/-- A delivery for which a PUBACK is collected. -/
lemma collecting_stays {m : M Unit} (packetId : ℕ) (hw : Coherent w) (hloop : InLoop w.frames)
    (halive : Fatal w.log ∨ w.Alive)
    (hm : ∀ t, Coherent t → InDelivery t.frames → (Fatal t.log ∨ t.Alive) →
      wp m (fun _ => Stays t) (fun _ => Stays t) t) :
    wp (collecting packetId m) (fun _ => Stays w) (fun _ => Stays w) w := by
  unfold collecting
  rw [wp_bind, wp_modify]
  have howe := Step.owe packetId hloop halive
  generalize hframes : { w.onSocket fun tr => { tr with
    owed := if w.state = .connected then tr.owed ++ [packetId] else tr.owed } with
      frames := .owing packetId :: w.frames } = v at howe ⊢
  have hv : v.frames = .owing packetId :: w.frames := by rw [← hframes]
  have hvalive : Fatal v.log ∨ v.Alive := by rw [← hframes]; exact halive
  have hforfeit : ∀ e u, Stays v u → Stays w { u.record (.unacked packetId e) with
      frames := u.frames.tail } := by
    intro e u hu
    have huframes := hu.frames.trans hv
    rw [huframes]
    exact ⟨(Reaches.single howe).trans (hu.reaches.tail (.forfeit e huframes)), rfl⟩
  rw [wp_bind, wp_tryCatch, wp_bind]
  refine wp_mono (hm v (howe.coherent hw) (.inr ⟨packetId, by rw [hv]; exact hloop, by rw [hv]; rfl⟩)
    hvalive) ?_ (fun e u hu => hforfeit e u hu)
  intro _ u hu
  rcases hpuback : encodePuback packetId with e | puback
  · exact hforfeit (.py e) u hu
  · have huframes := hu.frames.trans hv
    rw [liftPy_ok, wp_lift_ok, wp_modify, huframes]
    exact ⟨(Reaches.single howe).trans (hu.reaches.tail (.collect huframes hpuback)), rfl⟩

/-- A packet is dispatched. -/
lemma dispatch_stays (packet : Inbound) (nowMs : ℤ) (hw : Coherent w) (hloop : InLoop w.frames)
    (halive : Fatal w.log ∨ w.Alive) :
    wp (dispatch env callee packet nowMs) (fun _ => Stays w) (fun _ => Stays w) w := by
  cases packet with
  | publish p =>
    rw [dispatch, handleInboundPublish, wp_ite]
    exact ⟨fun _ => collecting_stays _ hw hloop halive fun _ => deliver_stays hcallee p,
      fun _ => deliver_stays hcallee p hw (.inl hloop) halive⟩
  | oversized p =>
    rw [dispatch, handleOversized, wp_bind, wp_get, wp_ite]
    refine ⟨fun _ => .refl _, fun _ => ?_⟩
    split
    · rw [wp_ite]
      exact ⟨fun _ => collecting_stays _ hw hloop halive fun _ => dropOversized_stays hcallee p,
        fun _ => dropOversized_stays hcallee p hw (.inl hloop) halive⟩
    · exact dropOversized_stays hcallee p hw (.inl hloop) halive
  | ack p => exact handleAck_stays hcallee hloop halive hw p nowMs

omit hcallee in
/-- The PUBACKs that are owed are queued. -/
lemma flushPubacks_stays (hloop : InLoop w.frames)
    (hconnected : w.state = .connected ∨ w.pendingPubacks = []) :
    wp flushPubacks (fun _ => Stays w) (fun _ => Stays w) w := by
  unfold flushPubacks record
  rw [wp_bind, wp_get, wp_ite]
  refine ⟨fun _ => .refl _, fun hsome => ?_⟩
  rw [wp_bind, wp_modify, wp_bind]
  refine wp_mono (enqueueInternalTx_spec _ _) ?_ (fun _ _ h => h.elim)
  rintro r t (⟨rfl, -, rfl⟩ | ⟨rfl, -, rfl⟩)
  · rw [if_pos rfl, wp_modify]
    exact (Step.flush hloop (hconnected.resolve_right hsome) hsome).stays rfl
  · rw [if_neg (by simp), wp_throw]
    exact (Step.flushRefused hloop).stays rfl

/-- What holds before every round of the dispatch loop. -/
structure BeforeRound (w t : World) : Prop where
  stays : Stays w t
  alive : Fatal t.log ∨ t.Alive
  flush : t.state = .connected ∨ t.pendingPubacks = []

/-- A round of reading. -/
lemma readRound_stays (nowMs : ℤ) (hw : Coherent w) (hloop : InLoop w.frames)
    (h : BeforeRound w t) :
    wp (readRound env callee nowMs)
      (fun r u => match r with | some _ => Stays w u | none => BeforeRound w u)
      (fun _ => Stays w) t := by
  have ht := h.stays.coherent hw
  have hframes : InLoop t.frames := by rw [h.stays.frames]; exact hloop
  unfold readRound
  rw [wp_bind, wp_get, wp_bind]
  rcases t.decoder.readNext with e | ⟨packet, decoder⟩
  · exact h.stays
  have hquiet : Stays w { t with decoder := decoder } := h.stays.trans (quiet ht.ids rfl)
  rw [wp_lift_ok]
  dsimp only
  rw [wp_bind, wp_modify]
  cases packet with
  | none =>
    dsimp only
    rw [wp_bind]
    exact wp_mono (wp_after hw hquiet fun _ => flushPubacks_stays hframes h.flush)
      (fun _ _ h => h) (fun _ _ h => h)
  | some packet =>
    dsimp only
    rw [wp_bind]
    refine wp_mono (wp_after hw hquiet fun hv => dispatch_stays hcallee packet nowMs hv hframes h.alive)
      ?_ (fun _ _ h => h)
    intro _ u hu
    rw [wp_bind, wp_get, wp_ite]
    exact ⟨fun _ => hu, fun hstate =>
      ⟨hu, .inr (.inr (not_not.mp hstate)), .inl (not_not.mp hstate)⟩⟩

/-- All that the decoder has is dispatched. -/
lemma dispatchAll_stays (nowMs : ℤ) (hw : Coherent w) (htick : InTick w.frames)
    (halive : Fatal w.log ∨ w.Alive) (hopen : w.recvSuppressed = false) :
    wp (dispatchAll env callee nowMs) (fun _ => Stays w) (fun _ => Stays w) w := by
  unfold dispatchAll withFrame record
  rw [wp_bind, wp_modify]
  rw [wp_tryFinally, wp_tryCatch, wp_bind, wp_modify]
  have henter := Step.enterReading htick halive hopen
  have hcoherent := henter.coherent hw
  have hloop : InLoop (.reading :: w.frames) := ⟨w.frames, rfl, htick⟩
  have hraised : ∀ e t, Stays { w with frames := .reading :: w.frames, pendingPubacks := [] } t →
      Stays w { t.record (.raised e) with frames := t.frames.tail } := by
    intro e t ht
    have hframes : InLoop t.frames := by rw [ht.frames]; exact hloop
    exact (ht.step (.raised e hframes) rfl).exit (.single henter) rfl (by simp)
  refine wp_loop (BeforeRound { w with frames := .reading :: w.frames, pendingPubacks := [] }) _ ?_
    (fun t ht => hraised _ t ht.stays) ⟨.refl _, halive, .inr rfl⟩
  intro t ht
  refine wp_mono (readRound_stays hcallee nowMs hcoherent hloop ht) ?_ (fun e u hu => hraised e u hu)
  intro r u hu
  cases r with
  | none => exact hu
  | some a => exact hu.exit (.single henter) rfl (by simp)

omit hcallee in
/-- Bytes are taken from the transport. -/
lemma receive_stays (hw : Coherent w) (htick : InTick w.frames) (halive : Fatal w.log ∨ w.Alive)
    (hopen : w.recvSuppressed = false) :
    wp (receive env)
      (fun _ t => Stays w t ∧ (Fatal t.log ∨ t.Alive) ∧ t.recvSuppressed = false)
      (fun _ => Stays w) w := by
  unfold receive record
  rw [wp_bind, wp_get]
  dsimp only
  rw [wp_ite]
  refine ⟨fun _ => ⟨.refl _, halive, hopen⟩, fun _ => ?_⟩
  rcases hsocket : w.socket with _ | t
  · exact .refl _
  · rw [wp_bind, wp_modify, wp_bind, wp_modify]
    have hreceived : Stays w (w.record (.received t)) :=
      (Step.received htick halive hopen hsocket).stays rfl
    have halive' : Fatal (w.log ++ [⟨.received t, w.toMoment⟩]) ∨ w.Alive :=
      halive.imp (fun h => h.append _) id
    rcases env.recv w.used.recvs with errno | data
    · dsimp only
      rw [wp_ite]
      exact ⟨fun _ => ⟨hreceived.trans (quiet hw.ids rfl), halive', hopen⟩,
        fun _ => hreceived.trans (quiet hw.ids rfl)⟩
    · cases data with
      | nil => exact hreceived.trans (quiet hw.ids rfl)
      | cons b data =>
        exact ⟨hreceived.trans (quiet hw.ids rfl), halive', hopen⟩

/-- `_read_inbound`. -/
lemma readInbound_stays (nowMs : ℤ) (hw : Coherent w) (htick : InTick w.frames)
    (halive : Fatal w.log ∨ w.Alive) :
    wp (readInbound env callee nowMs) (fun _ => Stays w) (fun _ => Stays w) w := by
  unfold readInbound
  rw [wp_bind, wp_get, wp_ite]
  refine ⟨fun _ => .refl _, fun hopen => ?_⟩
  rw [wp_bind]
  refine wp_mono (receive_stays hw htick halive (by simpa using hopen)) ?_ (fun _ _ h => h)
  rintro - t ⟨hstays, halive', hopen'⟩
  exact wp_after hw hstays fun ht =>
    dispatchAll_stays hcallee nowMs ht (by rw [hstays.frames]; exact htick) halive' hopen'

/-! ## Sending -/

omit hcallee in
lemma updateSendDeadline_follows (bytesSent : ℕ) :
    Within Follows (updateSendDeadline env bytesSent) := by
  refine within_follows fun w hw => wp_mono (updateSendDeadline_spec _) ?_ ?_
  · rintro - t ⟨due, used, rfl⟩
    exact quiet hw.ids rfl
  · rintro e t ⟨used, rfl⟩
    exact quiet hw.ids rfl

/-- A marker at the head of the queue. -/
lemma drainCallbackMarker_follows : Within Follows (drainCallbackMarker env callee) := by
  refine within_follows fun w hw => ?_
  unfold drainCallbackMarker
  rw [wp_bind, wp_get]
  split
  · rename_i own topic payload rest hhead
    rw [wp_bind, wp_modify]
    have hfire : Within Follows (do
        when (own = true) (fire env callee (.onPublish true topic payload))
        fire env callee (.onPublish false topic payload)
        pure none : M (Option Unit)) :=
      within_bind (within_when (fire_follows hcallee (by simp))) fun _ =>
        within_bind (fire_follows hcallee (by simp)) fun _ => within_pure _
    exact wp_follows hfire hw ((Step.popMarker hhead).stays rfl)
  · exact .refl _

/-- Nothing is partly sent after the markers, if nothing was before. -/
lemma drainCallbackMarkers_stays (hw : Coherent w) (htick : InTick w.frames) (hfree : w.Free) :
    wp (drainCallbackMarkers env callee) (fun _ t => Stays w t ∧ t.Free) (fun _ => Stays w) w := by
  unfold drainCallbackMarkers withFrame
  rw [wp_bind, wp_modify, wp_tryFinally]
  have henter := Step.enterMarkers htick hfree
  have hcoherent := henter.coherent hw
  have hexit : ∀ u, Stays { w with frames := .markers :: w.frames } u →
      Stays w { u with frames := u.frames.tail } :=
    fun u hu => hu.exit (.single henter) rfl (by simp)
  refine wp_loop (Stays { w with frames := .markers :: w.frames }) _ ?_ (fun t ht => hexit t ht)
    (.refl _)
  intro t ht
  refine wp_mono (wp_follows (drainCallbackMarker_follows hcallee) hcoherent ht) ?_
    (fun _ u hu => hexit u hu)
  intro r u hu
  cases r with
  | none => exact hu
  | some a =>
    refine ⟨hexit u hu, fun hcalm => (hu.coherent hcoherent).free hcalm ?_⟩
    rw [hu.frames]
    exact List.mem_cons_self

/-- The same, after a part of the run. -/
lemma drainCallbackMarkers_after (hw : Coherent w) (htick : InTick w.frames) (ht : Stays w t)
    (hfree : t.Free) :
    wp (drainCallbackMarkers env callee) (fun _ u => Stays w u ∧ u.Free) (fun _ => Stays w) t := by
  have htick' : InTick t.frames := by rw [ht.frames]; exact htick
  exact wp_mono (drainCallbackMarkers_stays hcallee (ht.coherent hw) htick' hfree)
    (fun _ _ hu => ⟨ht.trans hu.1, hu.2⟩) (fun _ _ => ht.trans)

omit hcallee in
/-- Nothing stands in the way of sending, if the log only grows. -/
lemma World.Free.of_le {w : World} (h : w.Free) (hlog : w.log <+: t.log)
    (hpart : t.partialSend = w.partialSend) : t.Free := by
  obtain ⟨log, hlog⟩ := hlog
  intro hcalm
  rw [hpart]
  rw [← hlog] at hcalm
  exact h hcalm.left

/-- The packet at the head of the queue is sent, or a part of it. -/
lemma sendHead_stays {packet : Packet} {rest : List TxItem} (hw : Coherent w)
    (htick : InTick w.frames) (hfree : w.Free) (hhead : w.txQueue = .packet packet :: rest) :
    wp (sendHead env callee packet)
      (fun r t => match r with | some _ => Stays w t | none => Stays w t ∧ t.Free)
      (fun _ => Stays w) w := by
  unfold sendHead
  rw [wp_bind]
  refine wp_mono (sendRaw_spec _) ?_ ?_
  · rintro n t ⟨tr, used, hsocket, ⟨rfl, rfl⟩ | ⟨hpos, hle, rfl⟩⟩
    · have hblocked : Stays w (w.record (.sent tr packet.bytes)) :=
        (Step.blocked _ hsocket (.inr ⟨htick, .inr (by simp [hhead])⟩)).stays rfl
      rw [if_pos rfl, wp_bind]
      exact wp_mono (wp_follows (updateSendDeadline_follows 0) hw (hblocked.trans (quiet hw.ids rfl)))
        (fun _ _ h => h) (fun _ _ h => h)
    rw [if_neg (by omega), wp_ite]
    have htail : w.txQueue.tail = rest := by rw [hhead]; rfl
    refine ⟨fun hlt => ?_, fun hge => ?_⟩
    · have hpart : Stays w { ((w.record (.sent tr packet.bytes)).onSocket
            fun tr => { tr with written := tr.written ++ packet.bytes.take n }).onSocket
            fun tr => { tr with taken := tr.taken ++ [packet] } with
          partialSend := some (packet, n), txQueue := w.txQueue.tail
          pubackBatchQueued := if packet.isPubackBatch then false else w.pubackBatchQueued } := by
        rw [World.onSocket_onSocket, htail]
        exact (Step.sendPart n htick hfree hsocket hhead hpos hlt).stays rfl
      rw [take, wp_bind, wp_modify, wp_bind, wp_modify, wp_bind]
      exact wp_mono (wp_follows (updateSendDeadline_follows n) hw (hpart.trans (quiet hw.ids rfl)))
        (fun _ _ h => h) (fun _ _ h => h)
    · have hall : ∀ batchQueued,
          batchQueued = w.pubackBatchQueued ∨ packet.isPubackBatch = true →
          Stays w { ((w.record (.sent tr packet.bytes)).onSocket
            fun tr => { tr with written := tr.written ++ packet.bytes.take n }).onSocket
            fun tr => { tr with taken := tr.taken ++ [packet] } with
          txQueue := w.txQueue.tail, pubackBatchQueued := batchQueued } := by
        intro batchQueued hbatch
        rw [World.onSocket_onSocket, htail, List.take_of_length_le (by omega)]
        exact (Step.sendAll batchQueued htick hfree hsocket hhead (by omega) hbatch).stays rfl
      have hfree' : ∀ t : World, t.log = w.log ++ [⟨.sent tr packet.bytes, w.toMoment⟩] →
          t.partialSend = w.partialSend → t.Free := fun t hlog hpart =>
        hfree.of_le (by rw [hlog]; exact List.prefix_append _ _) hpart
      rw [take, wp_bind, wp_modify, wp_bind, wp_modify, wp_bind]
      refine wp_mono (updateSendDeadline_spec n) ?_ ?_
      · rintro - t ⟨due, used, rfl⟩
        rw [wp_ite]
        refine ⟨fun hbatch => ?_, fun _ => ?_⟩
        · rw [wp_bind, wp_modify]
          exact ⟨(hall false (.inr hbatch)).trans (quiet hw.ids rfl), hfree' _ rfl rfl⟩
        · rw [wp_bind]
          refine wp_mono (drainCallbackMarkers_after hcallee hw htick
            ((hall w.pubackBatchQueued (.inl rfl)).trans (quiet hw.ids rfl)) (hfree' _ rfl rfl))
            (fun _ _ h => h.1) (fun _ _ h => h)
      · rintro e t ⟨used, rfl⟩
        exact (hall w.pubackBatchQueued (.inl rfl)).trans (quiet hw.ids rfl)
  · rintro e t (rfl | ⟨tr, used, hsocket, rfl⟩)
    · exact .refl _
    · exact ((Step.blocked _ hsocket (.inr ⟨htick, .inr (by simp [hhead])⟩)).stays rfl).trans
        (quiet hw.ids rfl)

/-- A round of sending. -/
lemma drainRound_stays (hw : Coherent w) (htick : InTick w.frames) (ht : Stays w t)
    (hfree : t.Free) :
    wp (drainRound env callee)
      (fun r u => match r with | some _ => Stays w u | none => Stays w u ∧ u.Free)
      (fun _ => Stays w) t := by
  unfold drainRound
  rw [wp_bind]
  refine wp_mono (drainCallbackMarkers_after hcallee hw htick ht hfree) ?_ (fun _ _ h => h)
  rintro - u ⟨hu, hfree'⟩
  have htick' : InTick u.frames := by rw [hu.frames]; exact htick
  rw [wp_bind, wp_get]
  split
  · rw [wp_bind]
    exact wp_mono (wp_follows (updateSendDeadline_follows 0) hw hu) (fun _ _ h => h) (fun _ _ h => h)
  · rename_i packet rest hhead
    refine wp_mono (sendHead_stays hcallee (hu.coherent hw) htick' hfree' hhead) ?_
      (fun _ _ => hu.trans)
    intro r v hv
    cases r with
    | none => exact ⟨hu.trans hv.1, hv.2⟩
    | some a => exact hu.trans hv
  · exact hu

/-- `_drain_tx_queue`. -/
lemma drainTxQueue_stays (hw : Coherent w) (htick : InTick w.frames) :
    wp (drainTxQueue env callee) (fun _ => Stays w) (fun _ => Stays w) w := by
  unfold drainTxQueue
  rw [wp_bind, wp_get]
  split
  · rename_i packet offset hpartly
    obtain ⟨-, hpos, hlt⟩ := hw.partly packet offset hpartly
    have hblocked : ∀ tr, w.socket = some tr →
        Stays w (w.record (.sent tr (packet.bytes.drop offset))) := fun tr hsocket =>
      (Step.blocked _ hsocket (.inr ⟨htick, .inl (by simp [hpartly])⟩)).stays rfl
    rw [wp_bind]
    refine wp_mono (sendRaw_spec _) ?_ ?_
    · rintro n t ⟨tr, used, hsocket, ⟨rfl, rfl⟩ | ⟨-, hle, rfl⟩⟩
      · rw [wp_bind, wp_modify, if_neg (by omega), Nat.add_zero, ← hpartly]
        exact wp_follows (updateSendDeadline_follows 0) hw
          ((hblocked tr hsocket).trans (quiet hw.ids rfl))
      · rw [wp_bind, wp_modify]
        exact wp_follows (updateSendDeadline_follows n) hw
          (((Step.resume n htick hsocket hpartly hle).stays rfl).trans (quiet hw.ids rfl))
    · rintro e t (rfl | ⟨tr, used, hsocket, rfl⟩)
      · exact .refl _
      · exact (hblocked tr hsocket).trans (quiet hw.ids rfl)
  · rename_i hnone
    refine wp_loop (fun t => Stays w t ∧ t.Free) _ ?_ (fun _ h => h.1) ⟨.refl _, fun _ => hnone⟩
    rintro t ⟨ht, hfree⟩
    refine wp_mono (drainRound_stays hcallee hw htick ht hfree) ?_ (fun _ _ h => h)
    intro r u hu
    cases r with
    | none => exact hu
    | some a => exact hu

/-! ## Deadlines -/

omit hcallee in
/-- A change of one in-flight entry that keeps the table well formed. -/
lemma Ids.update {inFlight : List InFlightPublish} {next : ℕ} (h : Ids inFlight next) (packetId : ℕ)
    {f : InFlightPublish → InFlightPublish} (hf : ∀ e, e.WF → (f e).WF)
    (hid : ∀ e, (f e).packetId = e.packetId) :
    Ids (inFlight.map fun e => if e.packetId = packetId then f e else e) next := by
  refine h.map (fun e he => ?_) fun e => ?_
  · split_ifs
    · exact hf e he
    · exact he
  · split_ifs
    · exact hid e
    · rfl

omit hcallee in
/-- The DUP flag leaves a PUBLISH a PUBLISH. -/
lemma publishBytes_setDup {bytes : List UInt8} (h : PublishBytes bytes) :
    PublishBytes (setDup bytes) := by
  obtain ⟨first, rest, rfl, hfirst⟩ := h
  refine ⟨first ||| 0x08, rest, rfl, ?_⟩
  rw [← hfirst]
  apply UInt8.toBitVec_inj.mp
  simp [BitVec.and_or_distrib_right]

/-- What the checks of the in-flight table leave as it is when no retry limit is exceeded. -/
structure Unexpired (w t : World) : Prop where
  stays : Stays w t
  log : t.log = w.log
  state : t.state = w.state
  pendings : t.pendingResponses = w.pendingResponses
  timers : t.timers = w.timers

omit hcallee in
lemma Unexpired.refl (w : World) : Unexpired w w := ⟨.refl w, rfl, rfl, rfl, rfl⟩

omit hcallee in
lemma Unexpired.trans {u : World} (h : Unexpired w t) (h' : Unexpired t u) : Unexpired w u :=
  ⟨h.stays.trans h'.stays, h'.log.trans h.log, h'.state.trans h.state, h'.pendings.trans h.pendings,
    h'.timers.trans h.timers⟩

omit hcallee in
/-- It stays alive. -/
lemma Unexpired.alive (h : Unexpired w t) (hw : w.Alive) : t.Alive := by
  unfold Client.Alive
  rw [h.state]
  exact hw

omit hcallee in
/-- What is sent again is a PUBLISH. -/
lemma publishBytes_dup {entry : InFlightPublish} (h : entry.WF) : PublishBytes entry.dup := by
  unfold InFlightPublish.dup
  rcases hdup : entry.dupPacketBytes with _ | bytes
  · exact publishBytes_setDup h.packet
  · exact h.dup bytes hdup

omit hcallee in
/-- The retransmission of one entry. -/
lemma retransmit_spec {entry : InFlightPublish} (hw : Coherent w) (halive : w.Alive)
    (hentry : entry.WF) :
    wp (retransmit env nowMs entry) (fun _ => Unexpired w) (fun _ => Stays w) w := by
  have hdup := publishBytes_dup hentry
  have hids := hw.ids.update entry.packetId (f := fun e => { e with dupPacketBytes := some entry.dup })
    (fun e he => ⟨he.packet, by rintro bytes ⟨⟩; exact hdup⟩) fun e => rfl
  have hids' := hids.update entry.packetId (f := fun e => { e with retryCount := e.retryCount + 1 })
    (fun e he => ⟨he.packet, he.dup⟩) fun e => rfl
  unfold retransmit updateInFlight
  rw [wp_bind, wp_modify, wp_bind]
  refine wp_mono (enqueueInternalTx_spec _ _) ?_ (fun _ _ h => h.elim)
  rintro r t (⟨rfl, -, rfl⟩ | ⟨rfl, -, rfl⟩)
  · rw [wp_when]
    refine ⟨fun _ => ?_, by simp⟩
    rw [wp_bind, wp_modify, wp_bind, wp_get, wp_bind]
    have henqueue : Stays w { w with txQueue := w.txQueue ++ [TxItem.packet ⟨.publish, entry.dup⟩] } :=
      (Step.enqueue halive (plainItems_publish hdup rfl)).stays rfl
    refine wp_mono (deadline_spec _ _) ?_ ?_
    · rintro d t ⟨⟨u, rfl⟩, -⟩
      exact ⟨henqueue.trans (quiet (hids'.update _ (fun e he => ⟨he.packet, he.dup⟩)
        fun e => rfl) rfl), rfl, rfl, rfl, rfl⟩
    · rintro e t ⟨⟨u, rfl⟩, -⟩
      exact henqueue.trans (quiet hids' rfl)
  · rw [wp_when]
    exact ⟨by simp, fun _ => ⟨quiet hids rfl, rfl, rfl, rfl, rfl⟩⟩

/-- The deadlines of the messages in flight. -/
lemma checkInFlight_spec (nowMs : ℤ)
    (entries : List InFlightPublish) (hw : Coherent w) (halive : w.Alive)
    (hwf : ∀ e ∈ entries, e.WF)
    (hfatal : ∀ e ∈ entries, ticksDiff e.deadlineTicks nowMs ≤ 0 →
      e.retryCount ≥ w.config.publishRetryMax → Fatal w.log) :
    wp (checkInFlight env callee nowMs entries)
      (fun r t => if r then Stays w t ∧ Fatal t.log else Unexpired w t) (fun _ => Stays w) w := by
  induction entries generalizing w with
  | nil => exact .refl w
  | cons entry rest ih =>
    have hrest : ∀ t, Unexpired w t → wp (checkInFlight env callee nowMs rest)
        (fun r t => if r then Stays w t ∧ Fatal t.log else Unexpired w t) (fun _ => Stays w) t := by
      intro t ht
      refine wp_mono (ih (ht.stays.coherent hw) (ht.alive halive)
        (fun e he => hwf e (List.mem_cons_of_mem _ he)) fun e he hdue hretry => ?_) ?_
        (fun _ _ => ht.stays.trans)
      · rw [ht.log]
        rw [ht.stays.reaches.config_eq] at hretry
        exact hfatal e (List.mem_cons_of_mem _ he) hdue hretry
      · intro r u hu
        cases r with
        | false => exact ht.trans hu
        | true => exact ⟨ht.stays.trans hu.1, hu.2⟩
    rw [checkInFlight, wp_bind, wp_get, wp_ite]
    refine ⟨fun _ => hrest w (.refl w), fun hdue => ?_⟩
    rw [wp_ite]
    refine ⟨fun hretry => ?_, fun _ => ?_⟩
    · have hlog := hfatal entry List.mem_cons_self (by omega) hretry
      rw [wp_bind, wp_modify, wp_bind]
      refine wp_mono (wp_after hw (quiet (hw.ids.filter _) rfl) fun ht =>
        enterFailed_stays hcallee ht (.inr (.inr (.inl hlog)))) ?_ (fun _ _ h => h)
      intro _ u hu
      obtain ⟨log, hprefix⟩ := hu.reaches.log_le
      exact ⟨hu, by rw [← hprefix]; exact hlog.append _⟩
    · rw [wp_bind]
      exact wp_mono (retransmit_spec hw halive (hwf entry List.mem_cons_self))
        (fun _ t ht => hrest t ht) (fun _ _ h => h)

/-- The deadlines of the responses that are awaited and of the packet that is sent. -/
lemma checkResponses_spec (nowMs : ℤ) (hw : Coherent w)
    (hfatal : (∃ p ∈ w.pendingResponses, ticksDiff p.deadlineTicks nowMs ≤ 0) ∨
      (∃ t, w.timers.sendDeadlineTicks = some t ∧ ticksDiff t nowMs ≤ 0) → Fatal w.log) :
    wp (checkResponses env callee nowMs)
      (fun _ t => Stays w t ∧ (Fatal t.log ∨ t.state = w.state)) (fun _ => Stays w) w := by
  have hfail : ∀ t, Stays w t → t.log = w.log → Fatal w.log →
      wp (enterFailed env callee) (fun _ t => Stays w t ∧ (Fatal t.log ∨ t.state = w.state))
        (fun _ => Stays w) t := by
    intro t ht hlog hfatal
    refine wp_mono (wp_after hw ht fun ht' => enterFailed_stays hcallee ht'
      (.inr (.inr (.inl (by rw [hlog]; exact hfatal))))) ?_ (fun _ _ h => h)
    intro _ u hu
    obtain ⟨log, hprefix⟩ := hu.reaches.log_le
    exact ⟨hu, .inl (by rw [← hprefix]; exact hfatal.append _)⟩
  unfold checkResponses
  rw [wp_bind, wp_get]
  split
  · rename_i pending hfind
    have hlog := hfatal (.inl ⟨pending, List.mem_of_find?_eq_some hfind, by
      simpa using List.find?_some hfind⟩)
    rw [wp_bind, wp_modify]
    exact hfail _ (((Step.expire pending hlog).stays rfl).trans (quiet hw.ids rfl)) rfl hlog
  · rw [wp_when]
    refine ⟨fun hdue => ?_, fun _ => ⟨.refl w, .inr rfl⟩⟩
    have hlog : Fatal w.log := by
      refine hfatal (.inr ?_)
      cases hsend : w.timers.sendDeadlineTicks with
      | none => simp [hsend] at hdue
      | some t => exact ⟨t, rfl, by simpa [hsend] using hdue⟩
    rw [wp_bind, wp_modify]
    exact hfail _ (quiet hw.ids rfl) rfl hlog

/-- `_check_deadlines`. -/
lemma checkDeadlines_stays (nowMs : ℤ) (hw : Coherent w) (htick : InTick w.frames)
    (halive : w.Alive) :
    wp (checkDeadlines env callee nowMs)
      (fun _ t => Stays w t ∧ (Fatal t.log ∨ t.Alive)) (fun _ => Stays w) w := by
  have hcheck : Stays w (w.record (.checkedDeadlines nowMs)) :=
    (Step.checkDeadlines nowMs htick halive).stays rfl
  have hdue : w.FatalDue nowMs → Fatal (w.record (.checkedDeadlines nowMs)).log := fun h =>
    ⟨⟨.checkedDeadlines nowMs, w.toMoment⟩, List.mem_append_right _ (List.mem_singleton.mpr rfl),
      nowMs, rfl, h⟩
  unfold checkDeadlines record
  rw [wp_bind, wp_modify, wp_bind, wp_get, wp_bind]
  refine wp_mono (checkInFlight_spec hcallee nowMs w.inFlight (hcheck.coherent hw) halive hw.ids.wf
    fun e he hdeadline hretry => hdue (.inl ⟨e, he, hdeadline, hretry⟩)) ?_ (fun _ _ => hcheck.trans)
  intro r t ht
  cases r with
  | true => exact ⟨hcheck.trans ht.1, .inl ht.2⟩
  | false =>
    have ht : Unexpired (w.record (.checkedDeadlines nowMs)) t := ht
    have hstays := hcheck.trans ht.stays
    rw [if_neg (by simp)]
    refine wp_mono (checkResponses_spec hcallee nowMs (hstays.coherent hw) ?_) ?_
      (fun _ _ => hstays.trans)
    · rw [ht.pendings, ht.timers, ht.log]
      exact fun h => hdue (.inr h)
    · rintro - u ⟨hu, hstate⟩
      refine ⟨hstays.trans hu, hstate.imp_right fun hstate => ?_⟩
      unfold Client.Alive
      rw [hstate, ht.state]
      exact halive

omit hcallee in
/-- `_check_keepalive`. -/
lemma checkKeepalive_stays (nowMs : ℤ) (hw : Coherent w) (halive : Fatal w.log ∨ w.Alive) :
    wp (checkKeepalive env nowMs)
      (fun _ t => Stays w t ∧ (Fatal t.log ∨ t.Alive)) (fun _ => Stays w) w := by
  unfold checkKeepalive
  rw [wp_bind, wp_get, wp_ite]
  refine ⟨fun _ => ⟨.refl w, halive⟩, fun hdue => ?_⟩
  have hstate : w.state = .connected := by
    by_contra hstate
    exact hdue (.inr (.inl hstate))
  have halive' : w.Alive := .inr hstate
  have hack := (hw.timed (.inl halive')).1
  have hnext : ∀ t, Stays w t → t.state = w.state → wp (do
      let nextPing ← deadline env w.config.pingIntervalMs (some nowMs)
      modify fun w => { w with timers := { w.timers with nextPingDueTicks := nextPing } })
      (fun _ t => Stays w t ∧ (Fatal t.log ∨ t.Alive)) (fun _ => Stays w) t := by
    intro t ht hstate'
    have hids := (ht.coherent hw).ids
    rw [wp_bind]
    refine wp_mono (deadline_spec _ _) ?_ ?_
    · rintro d u ⟨⟨used, rfl⟩, -⟩
      exact ⟨ht.trans (quiet hids rfl), .inr (.inr (hstate'.trans hstate))⟩
    · rintro e u ⟨⟨used, rfl⟩, -⟩
      exact ht.trans (quiet hids rfl)
  have hplain : PlainItems [.packet ⟨.pingreq, PACKET_PINGREQ⟩] := by
    intro p hp
    rw [packetsOf_packet, packetsOf_nil, List.mem_singleton] at hp
    rw [hp]
    exact ⟨wf_pingreq, .inr rfl⟩
  rw [wp_bind]
  refine wp_mono (enqueueInternalTx_spec _ _) ?_ (fun _ _ h => h.elim)
  rintro r t (⟨rfl, -, rfl⟩ | ⟨rfl, -, rfl⟩)
  · rw [wp_bind, wp_when]
    refine ⟨fun _ => ?_, fun h => absurd rfl h⟩
    refine wp_mono (awaitAck_spec _ _ _ _ _) ?_ (fun _ _ h => absurd hack h.2)
    rintro - t ⟨⟨u, d, rfl⟩, -⟩
    exact hnext _ ((((Step.enqueue halive' hplain).stays rfl).step
      (.expectPing ⟨.pingresp, d, none, none, none⟩ ⟨rfl, rfl⟩) rfl).trans (quiet hw.ids rfl)) rfl
  · rw [wp_bind, wp_when]
    exact ⟨fun h => absurd h (by simp), fun _ => hnext _ (.refl _) rfl⟩

/-! ## One tick -/

/-- A tick of a client that is alive. -/
lemma tick_stays (nowMs : ℤ) (hw : Coherent w) (htick : InTick w.frames) (halive : w.Alive) :
    wp (tick env callee nowMs) (fun _ => Stays w) (fun _ => Stays w) w := by
  unfold tick
  rw [wp_bind]
  refine wp_mono (checkDeadlines_stays hcallee nowMs hw htick halive) ?_ (fun _ _ h => h)
  rintro - t ⟨ht, halive'⟩
  rw [wp_bind]
  refine wp_mono (checkKeepalive_stays nowMs (ht.coherent hw) halive') ?_ (fun _ _ => ht.trans)
  rintro - u ⟨hu, halive''⟩
  have hu := ht.trans hu
  rw [wp_bind]
  refine wp_mono (wp_after hw hu fun hu' => readInbound_stays hcallee nowMs hu'
    (by rw [hu.frames]; exact htick) halive'') ?_ (fun _ _ h => h)
  intro _ v hv
  exact wp_after hw hv fun hv' => drainTxQueue_stays hcallee hv' (by rw [hv.frames]; exact htick)

/-- The frames are those of `handle`, outside its `try` block. -/
def InHandle (frames : List Frame) : Prop := ∃ n rest, frames = .handle n :: rest

/-- What is done about an exception in a tick. -/
lemma onTickError_stays (e : Exn) (hw : Coherent w) (hframes : InHandle w.frames) :
    wp (onTickError env callee e) (fun _ => Stays w) (fun _ => Stays w) w := by
  have hfail : wp (enterFailed env callee) (fun _ => Stays w) (fun _ => Stays w) w :=
    enterFailed_stays hcallee hw (.inr (.inl hframes))
  unfold onTickError
  rw [wp_ite]
  refine ⟨fun _ => ?_, fun _ => ?_⟩
  · rw [wp_bind, wp_modify]
    exact wp_after hw (quiet hw.ids rfl) fun ht => enterFailed_stays hcallee ht (.inr (.inl hframes))
  · split
    · rw [wp_bind, wp_modify]
      exact wp_after hw (quiet hw.ids rfl) fun ht =>
        enterFailed_stays hcallee ht (.inr (.inl hframes))
    · exact .refl w

/-- `handle` with a transport. -/
lemma handleSession_stays (nowMs : ℤ) (hw : Coherent w) (hframes : InHandle w.frames)
    (hstate : w.state = .disconnected ∨ w.Alive) :
    wp (handleSession env callee nowMs) (fun _ => Stays w) (fun _ => Stays w) w := by
  unfold handleSession withFrame
  rw [wp_bind, wp_get, wp_ite]
  refine ⟨fun _ => .refl w, fun hne => ?_⟩
  have halive := hstate.resolve_left hne
  obtain ⟨n, rest, hhandle⟩ := hframes
  have henter := Step.enterTry hhandle halive
  have htick : InTick (.trying :: w.frames) := ⟨n, rest, by rw [hhandle]⟩
  rw [wp_tryCatch, wp_bind, wp_modify]
  refine wp_mono (wp_exit (.single henter) rfl (by simp)
    (tick_stays hcallee nowMs (henter.coherent hw) htick halive)) (fun _ _ h => h) ?_
  intro e t ht
  exact wp_after hw ht fun ht' => onTickError_stays hcallee e ht'
    (by rw [ht.frames]; exact ⟨n, rest, hhandle⟩)

lemma checkTransportDeadline_stays (nowMs : ℤ) (hw : Coherent w) (hframes : InHandle w.frames) :
    wp (checkTransportDeadline env callee nowMs)
      (fun r t => Stays w t ∧ (r = false → t = w)) (fun _ => Stays w) w := by
  unfold checkTransportDeadline
  rw [wp_bind, wp_get]
  split
  · exact ⟨.refl w, fun _ => rfl⟩
  · rw [wp_ite]
    refine ⟨fun _ => ⟨.refl w, fun _ => rfl⟩, fun _ => ?_⟩
    dsimp only
    rw [wp_bind, wp_modify, wp_bind]
    exact wp_mono (wp_after hw (undial hw.ids (.inr rfl)) fun ht =>
      enterFailed_stays hcallee ht (.inr (.inl hframes))) (fun _ _ h => ⟨h, by simp⟩) (fun _ _ h => h)

/-- The connector is driven. -/
lemma advanceConnector_stays (nowMs : ℤ) (hw : Coherent w) (hframes : InHandle w.frames)
    (hstate : w.state = .awaitingTransport) :
    wp (advanceConnector env callee nowMs)
      (fun r t => Stays w t ∧ (r = true → t.state = .connecting)) (fun _ => Stays w) w := by
  unfold advanceConnector
  rw [wp_bind, wp_get, wp_ite]
  refine ⟨fun _ => .refl w, fun hconnector => ?_⟩
  rw [wp_bind, wp_modify]
  split
  · exact quiet hw.ids rfl
  · exact ⟨quiet hw.ids rfl, by simp⟩
  · rw [wp_bind, wp_modify, wp_bind]
    exact wp_mono (wp_after hw (undial hw.ids (.inr rfl)) fun ht =>
      enterFailed_stays hcallee ht (.inr (.inl hframes))) (fun _ _ h => ⟨h, by simp⟩) (fun _ _ h => h)
  · rw [wp_bind, wp_modify, wp_bind]
    have hopen := (Step.open hstate (by simpa using hconnector)
      { w.timers with transportDeadlineTicks := none } rfl).stays rfl
    refine wp_mono (enqueueConnectPacket_spec (some nowMs)) ?_ ?_
    · rintro - t ⟨bytes, pending, used, hbytes, hack, hpending, rfl⟩
      exact ⟨(hopen.step (.connecting pending (.inr hstate) rfl hbytes hack hpending) rfl).trans
        (quiet hw.ids rfl), fun _ => rfl⟩
    · rintro e t (rfl | ⟨bytes, used, hbytes, hack, rfl⟩)
      · exact hopen.trans (quiet hw.ids rfl)
      · exact (hopen.step (.strandConnect (.inr hstate) rfl hbytes hack) rfl).trans
          (quiet hw.ids rfl)

/-- `handle` while the transport may be awaited. -/
lemma handleTransport_stays (nowMs : ℤ) (hw : Coherent w) (hframes : InHandle w.frames)
    (hstate : w.state ≠ .failed) :
    wp (handleTransport env callee nowMs) (fun _ => Stays w) (fun _ => Stays w) w := by
  unfold handleTransport
  rw [wp_bind, wp_get, wp_ite]
  refine ⟨fun hawaiting => ?_, fun hawaiting => ?_⟩
  · rw [wp_bind]
    refine wp_mono (checkTransportDeadline_stays hcallee nowMs hw hframes) ?_ (fun _ _ h => h)
    rintro late t ⟨ht, hsame⟩
    rw [wp_ite]
    refine ⟨fun _ => ht, fun hlate => ?_⟩
    obtain rfl := hsame (by simpa using hlate)
    rw [wp_bind]
    refine wp_mono (advanceConnector_stays hcallee nowMs hw hframes hawaiting) ?_ (fun _ _ h => h)
    rintro ready u ⟨hu, hready⟩
    rw [wp_ite]
    exact ⟨fun h => wp_after hw hu fun hu' => handleSession_stays hcallee nowMs hu'
      (by rw [hu.frames]; exact hframes) (.inr (.inl (hready h))), fun _ => hu⟩
  · refine handleSession_stays hcallee nowMs hw hframes ?_
    unfold Client.Alive
    cases hs : w.state
    all_goals simp_all

omit hcallee in
/-- The next attempt is scheduled. -/
lemma armSelfHealBackoff_spec (nowMs : ℤ) :
    wp (armSelfHealBackoff env nowMs)
      (fun _ t => ∃ heal used, t = { w with heal := heal, used := used })
      (fun _ t => ∃ heal used, t = { w with heal := heal, used := used }) w := by
  unfold armSelfHealBackoff
  rw [wp_bind, wp_get]
  generalize (if w.heal.attempts ≥ 6 then 60000 else min 60000 (1000 <<< w.heal.attempts) : ℕ) = delay
  rw [wp_bind, wp_modify, wp_bind]
  refine wp_mono (deadline_spec _ _) ?_ ?_
  · rintro d t ⟨⟨u, rfl⟩, -⟩
    exact ⟨_, u, rfl⟩
  · rintro e t ⟨⟨u, rfl⟩, -⟩
    exact ⟨_, u, rfl⟩

omit hcallee in
/-- A failed client may try again. -/
lemma attemptSelfHeal_stays (nowMs : ℤ) (hw : Coherent w) (hstate : w.state = .failed) :
    wp (attemptSelfHeal env nowMs)
      (fun r t => Stays w t ∧ (r = true → t.state = .awaitingTransport)) (fun _ => Stays w) w := by
  have hids : Ids (if w.config.cleanSession then [] else w.inFlight)
      (if w.config.cleanSession then 1 else w.nextPacketId) := by
    split_ifs
    · exact ⟨by simp, by simp, by simp, by simp, by simp⟩
    · exact hw.ids
  unfold attemptSelfHeal closeSocket resetTransientState
  rw [wp_bind, wp_modify, wp_bind, wp_modify, wp_bind, wp_modify, wp_bind]
  have hheal := (Step.heal hstate (.new w.config.rxBufferSize)
    { w.timers with sendDeadlineTicks := none, transportDeadlineTicks := none } _ _ hids).stays rfl
  refine wp_mono (startTransport_spec (some nowMs)) ?_ ?_
  · rintro r t (⟨rfl, timers, used, rfl⟩ | ⟨rfl, error, used, rfl⟩)
    · rw [if_pos rfl, wp_bind, wp_modify]
      exact ⟨(hheal.step (.await rfl timers (.inr ⟨hstate, rfl, rfl, rfl, rfl⟩)) rfl).trans
        (quiet hids rfl), fun _ => rfl⟩
    · rw [if_neg (by simp)]
      exact ⟨hheal.trans (quiet hids rfl), by simp⟩
  · rintro e t ⟨used, rfl⟩
    exact (hheal.step (.dial rfl) rfl).trans (quiet hids rfl)

/-- The body of `handle`. -/
lemma handleBody_stays (nowMs : ℤ) (hw : Coherent w) (hframes : InHandle w.frames) :
    wp (handleBody env callee nowMs) (fun _ => Stays w) (fun _ => Stays w) w := by
  unfold handleBody
  rw [wp_bind, wp_get, wp_ite]
  refine ⟨fun hfailed => ?_, fun hstate => handleTransport_stays hcallee nowMs hw hframes hstate⟩
  rw [wp_ite]
  refine ⟨fun _ => .refl w, fun _ => ?_⟩
  rw [wp_bind]
  refine wp_mono (armSelfHealBackoff_spec nowMs) ?_ ?_
  · rintro - t ⟨heal, used, rfl⟩
    have hquiet : Stays w { w with heal := heal, used := used } := quiet hw.ids rfl
    rw [wp_bind]
    refine wp_mono (attemptSelfHeal_stays nowMs (hquiet.coherent hw) hfailed) ?_
      (fun _ _ => hquiet.trans)
    rintro healed t ⟨ht, hhealed⟩
    have ht := hquiet.trans ht
    rw [wp_ite]
    exact ⟨fun h => wp_after hw ht fun ht' => handleTransport_stays hcallee nowMs ht'
      (by rw [ht.frames]; exact hframes) (by rw [hhealed h]; simp), fun _ => ht⟩
  · rintro e t ⟨heal, used, rfl⟩
    exact quiet hw.ids rfl

/-- `handle`. -/
lemma handle_stays (hw : Coherent w)
    (called : ∃ e ∈ w.log, e.event = .called (.handle nowMs) ∧ e.before.frames = w.frames) :
    wp (handle env callee nowMs) (fun _ => Stays w) (fun _ => Stays w) w := by
  unfold handle withFrame
  rw [wp_bind, wp_get, wp_bind, wp_modify]
  have henter := Step.enterHandle called
  exact wp_exit (.single henter) rfl (by simp)
    (handleBody_stays hcallee nowMs (henter.coherent hw) ⟨w.stops, w.frames, rfl⟩)

/-! ## Runs -/

/-- Every method. -/
lemma method_follows (c : Call) : Within Follows (method env callee c) := by
  refine within_follows fun w hw => ?_
  unfold method record
  rw [wp_bind, wp_modify]
  have hcall : Stays w (w.record (.called c)) := (Step.call c).stays rfl
  have hmem : (⟨.called c, w.toMoment⟩ : Entry) ∈ (w.record (.called c)).log :=
    List.mem_append_right _ (List.mem_singleton.mpr rfl)
  cases c with
  | connect => exact wp_follows (connect_follows hcallee) hw hcall
  | hold => exact hcall.trans (quiet hw.ids rfl)
  | disconnect =>
    exact wp_after hw hcall fun ht => disconnect_stays hcallee ht ⟨_, hmem, rfl, rfl⟩
  | setWill will =>
    dsimp only
    rw [setWill, wp_ite]
    exact ⟨fun _ => hcall, fun _ => hcall.trans (quiet hw.ids rfl)⟩
  | setOnPublish given => exact hcall.trans (quiet hw.ids rfl)
  | publish p => exact wp_follows (publish_follows p) hw hcall
  | subscribe topic qos own =>
    exact wp_after hw hcall fun ht => subscribe_stays ht ⟨_, hmem, rfl, rfl⟩
  | unsubscribe topic own =>
    exact wp_after hw hcall fun ht => unsubscribe_stays ht ⟨_, hmem, rfl, rfl⟩
  | nextMessage => exact hcall.trans (quiet hw.ids rfl)
  | handle nowMs => exact wp_after hw hcall fun ht => handle_stays hcallee ht ⟨_, hmem, rfl, rfl⟩
  | ioError eventmask =>
    exact wp_after hw hcall fun ht => ioError_stays hcallee ht ⟨_, hmem, rfl, rfl⟩

end Client

/-- **A call follows the steps**, with all the calls that its callbacks make. -/
theorem perform_follows (env : Env) (depth : ℕ) (c : Call) : Within Follows (perform env depth c) := by
  induction depth generalizing c with
  | zero => exact within_pure ()
  | succ depth ih => exact method_follows ih c

/-- A client that has just been constructed is coherent. -/
lemma coherent_new (config : ClientConfig) (will : Will) (hasSocket : Bool) :
    Coherent (World.new config will hasSocket) where
  pendings := by simp [World.new]
  ids := ⟨by simp [World.new], by simp [World.new], by simp [World.new], by simp [World.new],
    by simp [World.new]⟩
  queue := by simp [World.new]
  partly := by simp [World.new]
  pubacks := by simp [World.new]
  order := by simp [World.new]
  free := by simp [World.new]
  timed := by simp [World.Timed, World.new, Client.Alive]
  dialing := by simp [World.new]
  attempt := by simp [World.new]

/-- **A run of the application follows the steps.** -/
theorem runCalls_reaches (env : Env) (depth : ℕ) {w : World} (hw : Coherent w) (calls : List Call) :
    Stays w (runCalls env depth w calls) := by
  induction calls generalizing w with
  | nil => exact .refl w
  | cons c calls ih =>
    have hc : Stays w (perform env depth c w).2 := perform_follows env depth c w hw
    exact hc.trans (ih (hc.coherent hw))

end ChuMicro.Mqtt
