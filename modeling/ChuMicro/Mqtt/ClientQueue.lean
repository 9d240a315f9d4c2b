import ChuMicro.Mqtt.ClientRuns

/-!
# Publishes before the connection

A publish that is made while the client is not CONNECTED goes to the pre-connect queue, and the
queue is drained into the tx queue when the broker accepts a connection. A publish is taken out of
the queue before it is put into the other one: when the tx queue refuses it, it is gone. Connecting
loses nothing exactly as long as, at every accepting CONNACK, the whole queue fits.

## Main definitions

* `Mqtt.Moment.Accounted` — every accepted publish is queued or enqueued, once and in order.

## Main results

* `Mqtt.preConnect_accounted` — the accepted publishes are accounted for in every run in which the
  queue fits at every accepting CONNACK.
* `Mqtt.preConnect_lost` — a run with the defaults of the constructor that loses a publish.
-/

namespace ChuMicro.Mqtt

/-- Every publish that was accepted since the last disconnect is still in the pre-connect queue or
has been enqueued for transmission, once and in the order of acceptance. -/
def Moment.Accounted (m : Moment) : Prop := m.accepted = m.enqueued ++ m.preConnectQueue

instance (m : Moment) : Decidable m.Accounted := inferInstanceAs (Decidable (_ = _))

instance (c : Client) : Decidable c.ReplayOk :=
  decidable_of_iff ((∀ s ∈ c.desired, s.2 ≤ 1 ∧ (encodeUtf8 s.1).length ≤ 65535) ∧
      (c.subscriptions ≠ [] → c.inFlight.length < 65535))
    ⟨fun h => ⟨h.1, h.2⟩, fun h => ⟨h.encodes, h.free⟩⟩

instance (topic : String) (payload : List UInt8) (qos : ℕ) (retain : Bool) (packetId : Option ℕ) :
    Decidable (∃ bytes, encodePublish topic payload qos retain packetId = .ok bytes) :=
  match encodePublish topic payload qos retain packetId with
  | .ok bytes => isTrue ⟨bytes, rfl⟩
  | .error _ => isFalse (by simp)

instance (c : Client) (p : ParsedAck) : Decidable (c.DrainFits p) :=
  decidable_of_iff ((∀ q ∈ c.preConnectQueue, ∃ bytes,
        encodePublish q.topic q.payload q.qos q.retain (some 1) = .ok bytes) ∧
      (c.preConnectQueue ≠ [] →
        c.txQueue.length + (if c.replays p then c.subscriptions.length else 0) +
          (c.preConnectQueue.map c.slots).sum ≤ c.config.maxTxQueueSize) ∧
      c.inFlight.length + c.preConnectQueue.countP (fun q => q.qos ≠ 0) ≤ 65535)
    ⟨fun h => ⟨h.1, h.2.1, h.2.2⟩, fun h => ⟨h.encodes, h.room, h.free⟩⟩

instance (c : Client) (p : ParsedAck) : Decidable (c.Keeps p) :=
  inferInstanceAs (Decidable ((_ → _) → _))

/-- An accepting CONNACK came when the pre-connect queue could be drained. -/
def Entry.KeepsQueue (e : Entry) : Prop :=
  ∀ p, e.event = .acked p → p.accepts = true → e.before.Keeps p

/-- The acknowledgement that an event logs. -/
def Event.ack? : Event → Option ParsedAck
  | .acked p => some p
  | _ => none

/-- The acknowledgement of an event. -/
lemma Event.ack?_eq_some {event : Event} {p : ParsedAck} :
    event.ack? = some p ↔ event = .acked p := by
  cases event
  all_goals simp [Event.ack?]

instance (e : Entry) : Decidable e.KeepsQueue :=
  decidable_of_iff (∀ p ∈ e.event.ack?, p.accepts = true → e.before.Keeps p)
    (forall_congr' fun _ => imp_congr_left Event.ack?_eq_some)

/-- The condition of a CONNACK does not depend on the pending responses. -/
lemma Client.Keeps.of_pendings {c : Client} {pendings : List PendingResponse} {p : ParsedAck}
    (h : c.Keeps p) : { c with pendingResponses := pendings }.Keeps p := by
  intro hreplay
  have hfits := h fun hyes => ⟨(hreplay hyes).encodes, (hreplay hyes).free⟩
  exact ⟨hfits.encodes, hfits.room, hfits.free⟩

/-- **The steps account for every publish.** -/
lemma Step.accounted {w w' : World} (hs : Step w w') (h : w.toMoment.Accounted)
    (hkeeps : ∀ e ∈ w'.log, e.KeepsQueue) : w'.toMoment.Accounted := by
  cases hs with
  | halt decoder timers heal => rfl
  | goodbye n decoder timers heal pos alive socket called => rfl
  | buffer p offline =>
    have h : w.accepted = w.enqueued ++ w.preConnectQueue := h
    exact (congrArg (· ++ [p]) h).trans (List.append_assoc _ _ _)
  | accept loop connack last accepts timers heal inFlight nextPacketId ids =>
    obtain ⟨e, he, hevent, haccepts, hclient, -⟩ := connack
    have hbefore := hkeeps e (List.mem_append_left _ he) _ hevent haccepts
    have hlost := accepts.keeps (hclient ▸ hbefore.of_pendings)
    have h : w.accepted = w.enqueued ++ w.preConnectQueue := h
    have hqueue := accepts.queue
    rw [hlost, List.append_nil] at hqueue
    exact (h.trans (congrArg (w.enqueued ++ ·) hqueue)).trans (List.append_assoc _ _ _).symm
  | _ => exact h

/-- **No accepted publish is lost by connecting**, in every run in which the pre-connect queue fits
at every accepting CONNACK. -/
theorem preConnect_accounted (env : Env) (depth : ℕ) (config : ClientConfig) (will : Will)
    (hasSocket : Bool) (calls : List Call)
    (hkeeps : ∀ e ∈ (runCalls env depth (World.new config will hasSocket) calls).log, e.KeepsQueue) :
    ∀ m ∈ (runCalls env depth (World.new config will hasSocket) calls).moments, m.Accounted :=
  (runCalls_reaches env depth (coherent_new config will hasSocket) calls).reaches.moments
    (coherent_new config will hasSocket) rfl
    (show (World.new config will hasSocket).toMoment.Accounted from rfl)
    (fun _ _ _ h hC hs => hs.accounted h hC) (fun _ _ h => h) hkeeps

/-- An application that subscribes to `subscriptions` topics and publishes `publishes` messages with
a callback at QoS 0, connects and runs two ticks. -/
def eagerCalls (subscriptions publishes : ℕ) : List Call :=
  List.replicate publishes (.publish ⟨"t", [1], 0, false, true⟩) ++
    (List.range subscriptions).map (fun n => .subscribe (String.ofList [Char.ofNat (97 + n)]) 0 false) ++
    [.connect, .handle 0, .handle 0]

/-- A broker that answers in the second tick. -/
def acceptingEnv : Env := .receiving fun n => if n = 1 then some [0x20, 2, 0, 0] else none

/-- With the defaults, four subscriptions leave room for eight publishes with a callback. -/
theorem preConnect_accounted_eager :
    (runCalls acceptingEnv 1 (World.new (.defaults false) {} true) (eagerCalls 4 8)).enqueued.length = 8 ∧
      ∀ m ∈ (runCalls acceptingEnv 1 (World.new (.defaults false) {} true) (eagerCalls 4 8)).moments,
        m.Accounted :=
  ⟨by decide +kernel, preConnect_accounted acceptingEnv 1 (.defaults false) {} true (eagerCalls 4 8)
    (by decide +kernel)⟩

/-- With five, the last of the eight publishes is in neither queue after the CONNACK. -/
theorem preConnect_lost :
    ¬ ∀ m ∈ (runCalls acceptingEnv 1 (World.new (.defaults false) {} true) (eagerCalls 5 8)).moments,
      m.Accounted := by
  decide +kernel

end ChuMicro.Mqtt
