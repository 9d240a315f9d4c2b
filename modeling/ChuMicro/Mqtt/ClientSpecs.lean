import ChuMicro.Mqtt.ClientSteps
import Mathlib.Data.Finset.Card
import Mathlib.Order.Interval.Finset.Nat
import Mathlib.Tactic.Ring

/-!
# What the functions without callbacks do

Specifications of the functions of the client that do not call the application: the world they leave
behind, field by field, when they return and when they raise.

## Main results

* `Mqtt.allocatePacketIdLoop_spec` — an identifier is found while the in-flight table is not full.
* `Mqtt.doPublish_spec` — `_do_publish`, with the exact condition under which it raises.
* `Mqtt.replayLoop_spec`, `Mqtt.drainPreConnectLoop_spec` — what is done at a CONNACK.
-/

namespace ChuMicro.Mqtt

open Prog

variable {env : Env} {w : World}

/-! ## Deadlines and queues -/

/-- What `_deadline` does. -/
lemma deadline_spec (offsetMs : ℤ) (nowMs : Option ℤ) :
    wp (deadline env offsetMs nowMs) (fun _ t => (∃ u, t = { w with used := u }) ∧ TicksOk offsetMs)
      (fun _ t => (∃ u, t = { w with used := u }) ∧ ¬ TicksOk offsetMs) w := by
  by_cases hok : TicksOk offsetMs
  · cases nowMs with
    | none =>
      simp only [deadline, ticksMs, wp_bind, wp_get, wp_modify, wp_pure, ticksAdd_of_ok hok, liftPy_ok,
        wp_lift_ok]
      exact ⟨⟨_, rfl⟩, hok⟩
    | some now =>
      simp only [deadline, ticksAdd_of_ok hok, liftPy_ok, wp_lift_ok]
      exact ⟨⟨w.used, rfl⟩, hok⟩
  · cases nowMs with
    | none =>
      simp only [deadline, ticksMs, wp_bind, wp_get, wp_modify, wp_pure, ticksAdd_of_not hok,
        liftPy_error, wp_lift_error]
      exact ⟨⟨_, rfl⟩, hok⟩
    | some now =>
      simp only [deadline, ticksAdd_of_not hok, liftPy_error, wp_lift_error]
      exact ⟨⟨w.used, rfl⟩, hok⟩

/-- What `_await_ack` does. -/
lemma awaitAck_spec (awaiting : Awaiting) (packetId : Option ℕ) (callback : Option (String × Bool))
    (topic : Option String) (nowMs : Option ℤ) :
    wp (awaitAck env awaiting packetId callback topic nowMs)
      (fun _ t => (∃ u d, t = { w with
        used := u, pendingResponses := w.pendingResponses ++
          [⟨awaiting, d, packetId, callback, topic⟩] }) ∧ TicksOk w.config.ackTimeoutMs)
      (fun _ t => (∃ u, t = { w with used := u }) ∧ ¬ TicksOk w.config.ackTimeoutMs) w := by
  unfold awaitAck
  rw [wp_bind, wp_get, wp_bind]
  refine wp_mono (deadline_spec _ _) ?_ (fun _ _ h => h)
  rintro d t ⟨⟨u, rfl⟩, hok⟩
  exact ⟨⟨u, d, rfl⟩, hok⟩

/-- What `_enqueue_user_tx` does. -/
lemma enqueueUserTx_spec (items : List TxItem) :
    wp (enqueueUserTx items)
      (fun _ t => t = { w with txQueue := w.txQueue ++ items } ∧
        w.txQueue.length + items.length ≤ w.config.maxTxQueueSize)
      (fun e t => t = w ∧ w.txQueue.length + items.length > w.config.maxTxQueueSize ∧
        ∃ message, e = .backpressureError message) w := by
  unfold enqueueUserTx
  rw [wp_bind, wp_get, wp_ite]
  exact ⟨fun h => ⟨rfl, h, _, rfl⟩, fun h => ⟨rfl, by omega⟩⟩

/-- What `_enqueue_internal_tx` does. -/
lemma enqueueInternalTx_spec (packet : Packet) (front : Bool) :
    wp (enqueueInternalTx packet front)
      (fun r t => (r = true ∧ w.txQueue.length < w.config.txQueueHardCap ∧ t = { w with
          txQueue := (if front then .packet packet :: w.txQueue
            else w.txQueue ++ [TxItem.packet packet]) }) ∨
        (r = false ∧ w.txQueue.length ≥ w.config.txQueueHardCap ∧ t = w))
      (fun _ _ => False) w := by
  unfold enqueueInternalTx
  rw [wp_bind, wp_get, wp_ite]
  refine ⟨fun h => .inr ⟨rfl, h, rfl⟩, fun h => .inl ⟨rfl, by omega, rfl⟩⟩

/-! ## Transports -/

/-- What `_start_transport` does. -/
lemma startTransport_spec (nowMs : Option ℤ) :
    wp (startTransport env nowMs)
      (fun r t => (r = true ∧ ∃ timers used, t = { w with
          connector := true, timers := timers, state := .awaitingTransport, used := used }) ∨
        (r = false ∧ ∃ error used, t = { w with lastError := error, used := used }))
      (fun _ t => ∃ used, t = { w with connector := true, used := used }) w := by
  simp only [startTransport, makeConnector, wp_bind, wp_get, wp_modify, wp_pure]
  split
  · exact .inr ⟨rfl, _, _, rfl⟩
  · simp only [wp_bind, wp_modify, wp_get, wp_pure]
    refine wp_mono (deadline_spec _ _) ?_ ?_
    · rintro d t ⟨⟨u, rfl⟩, -⟩
      exact .inl ⟨trivial, _, u, rfl⟩
    · rintro e t ⟨⟨u, rfl⟩, -⟩
      exact ⟨u, rfl⟩

/-- What `_enqueue_connect_packet` does. -/
lemma enqueueConnectPacket_spec (nowMs : Option ℤ) :
    wp (enqueueConnectPacket env nowMs)
      (fun _ t => ∃ bytes pending used, encodeConnect w.connectArgs = .ok bytes ∧
        TicksOk w.config.ackTimeoutMs ∧
        (pending.awaiting = .connack ∧ pending.callback = none) ∧ t = { w with
          txQueue := w.txQueue ++ [TxItem.packet ⟨.connect, bytes⟩]
          pendingResponses := w.pendingResponses ++ [pending], used := used })
      (fun _ t => t = w ∨ ∃ bytes used, encodeConnect w.connectArgs = .ok bytes ∧
        ¬ TicksOk w.config.ackTimeoutMs ∧ t = { w with
          txQueue := w.txQueue ++ [TxItem.packet ⟨.connect, bytes⟩], used := used }) w := by
  simp only [enqueueConnectPacket, wp_bind, wp_get]
  rcases hbytes : encodeConnect w.connectArgs with e | bytes
  · exact .inl rfl
  · rw [wp_lift_ok]
    refine wp_mono (enqueueUserTx_spec _) ?_ (fun _ _ h => .inl h.1)
    rintro - t ⟨rfl, -⟩
    refine wp_mono (awaitAck_spec _ _ _ _ _) ?_ ?_
    · rintro - t ⟨⟨u, d, rfl⟩, hok⟩
      exact ⟨bytes, _, u, rfl, hok, ⟨rfl, rfl⟩, rfl⟩
    · rintro e t ⟨⟨u, rfl⟩, hbad⟩
      exact .inr ⟨bytes, u, rfl, hbad, rfl⟩

/-- `_send_raw` hands the payload to the transport, which takes a part of it or nothing. -/
lemma sendRaw_spec (payload : List UInt8) :
    wp (sendRaw env payload)
      (fun n t => ∃ tr used, w.socket = some tr ∧
        ((n = 0 ∧ t = { w.record (.sent tr payload) with used := used }) ∨
          (0 < n ∧ n ≤ payload.length ∧ t = { (w.record (.sent tr payload)).onSocket
            (fun tr => { tr with written := tr.written ++ payload.take n }) with used := used })))
      (fun _ t => t = w ∨ ∃ tr used, w.socket = some tr ∧
        t = { w.record (.sent tr payload) with used := used }) w := by
  unfold sendRaw
  rw [wp_bind, wp_get]
  rcases hsocket : w.socket with _ | tr
  · exact .inl rfl
  · simp only [record, wp_bind, wp_modify]
    rcases env.send w.used.sends with errno | n
    · simp only [wp_ite, wp_pure, wp_throw]
      exact ⟨fun _ => ⟨tr, _, rfl, .inl ⟨trivial, rfl⟩⟩, fun _ => .inr ⟨tr, _, rfl, rfl⟩⟩
    · simp only [wp_bind, wp_modify, wp_pure]
      refine ⟨tr, { w.used with sends := w.used.sends + 1 }, rfl, ?_⟩
      rcases Nat.eq_zero_or_pos (min n payload.length) with hzero | hpos
      · left
        refine ⟨hzero, ?_⟩
        have htake : payload.take n = [] := by
          rw [← List.length_eq_zero_iff, List.length_take, hzero]
        simp [World.onSocket, onTransport, World.record, hsocket, htake]
      · right
        refine ⟨hpos, Nat.min_le_right _ _, ?_⟩
        have htake : payload.take (min n payload.length) = payload.take n := by
          rw [List.take_eq_take_iff]
          omega
        rw [htake]
        rfl

/-- What `_update_send_deadline` does. -/
lemma updateSendDeadline_spec (bytesSent : ℕ) :
    wp (updateSendDeadline env bytesSent)
      (fun _ t => ∃ due used, t = { w with
        timers := { w.timers with sendDeadlineTicks := due }, used := used })
      (fun _ t => ∃ used, t = { w with used := used }) w := by
  unfold updateSendDeadline
  rw [wp_bind, wp_get, wp_ite]
  refine ⟨fun _ => ⟨_, w.used, rfl⟩, fun _ => ?_⟩
  rw [wp_when]
  refine ⟨fun _ => ?_, fun _ => ⟨w.timers.sendDeadlineTicks, w.used, rfl⟩⟩
  rw [wp_bind]
  refine wp_mono (deadline_spec _ _) ?_ ?_
  · rintro d t ⟨⟨u, rfl⟩, -⟩
    exact ⟨_, u, rfl⟩
  · rintro e t ⟨⟨u, rfl⟩, -⟩
    exact ⟨u, rfl⟩

/-! ## Packet identifiers -/

/-- The candidate after `k` steps of the counter. -/
def candidateAfter (k start : ℕ) : ℕ := (start - 1 + k) % 65535 + 1

/-- The first candidate is the start. -/
lemma candidateAfter_zero {start : ℕ} (hpos : 1 ≤ start) (hle : start ≤ 65535) :
    candidateAfter 0 start = start := by
  unfold candidateAfter
  rw [Nat.add_zero, Nat.mod_eq_of_lt (by omega)]
  omega

/-- The counter goes round. -/
lemma candidateAfter_succ {k start : ℕ} (hpos : 1 ≤ start) (hle : start ≤ 65535) :
    candidateAfter k (if start + 1 > 65535 then 1 else start + 1) = candidateAfter (k + 1) start := by
  unfold candidateAfter
  split_ifs with h
  · have : start = 65535 := by omega
    subst this
    omega
  · congr 2
    omega

/-- **An identifier is found** within `attempts` candidates, unless all of them are in flight. -/
theorem allocatePacketIdLoop_spec {inFlight : List InFlightPublish} {attempts start : ℕ}
    (hpos : 1 ≤ start) (hle : start ≤ 65535) :
    match allocatePacketIdLoop inFlight attempts start with
    | some (packetId, next) => (1 ≤ packetId ∧ packetId ≤ 65535) ∧ (1 ≤ next ∧ next ≤ 65535) ∧
        ∀ e ∈ inFlight, e.packetId ≠ packetId
    | none => ∀ k < attempts, ∃ e ∈ inFlight, e.packetId = candidateAfter k start := by
  induction attempts generalizing start with
  | zero =>
    intro k hk
    omega
  | succ attempts ih =>
    rw [allocatePacketIdLoop]
    set next := if start + 1 > 65535 then 1 else start + 1 with hnext
    have hnext' : 1 ≤ next ∧ next ≤ 65535 := by
      rw [hnext]
      split_ifs <;> omega
    split_ifs with hany
    · have h := ih hnext'.1 hnext'.2
      split at h
      · exact h
      · intro k hk
        cases k with
        | zero =>
          obtain ⟨e, he, heq⟩ := List.any_eq_true.mp hany
          exact ⟨e, he, by rw [candidateAfter_zero hpos hle]; simpa using heq⟩
        | succ k =>
          obtain ⟨e, he, heq⟩ := h k (by omega)
          exact ⟨e, he, by rw [heq, hnext, candidateAfter_succ hpos hle]⟩
    · refine ⟨⟨hpos, hle⟩, hnext', fun e he heq => hany ?_⟩
      exact List.any_eq_true.mpr ⟨e, he, by simpa using heq⟩

/-- A table with fewer than 65535 entries has a free identifier. -/
lemma not_full {inFlight : List InFlightPublish} {start : ℕ}
    (h : ∀ k < 65535, ∃ e ∈ inFlight, e.packetId = candidateAfter k start) :
    65535 ≤ inFlight.length := by
  have hinj : Set.InjOn (fun k => candidateAfter k start) (Finset.range 65535 : Set ℕ) := by
    intro a ha b hb hab
    simp only [Finset.coe_range, Set.mem_Iio] at ha hb
    simp only [candidateAfter] at hab
    omega
  have hsub : (Finset.range 65535).image (fun k => candidateAfter k start) ⊆
      (inFlight.map InFlightPublish.packetId).toFinset := by
    intro id hid
    obtain ⟨k, hk, rfl⟩ := Finset.mem_image.mp hid
    obtain ⟨e, he, heq⟩ := h k (Finset.mem_range.mp hk)
    exact List.mem_toFinset.mpr (List.mem_map.mpr ⟨e, he, heq⟩)
  calc 65535 = ((Finset.range 65535).image fun k => candidateAfter k start).card := by
        rw [Finset.card_image_of_injOn hinj, Finset.card_range]
    _ ≤ (inFlight.map InFlightPublish.packetId).toFinset.card := Finset.card_le_card hsub
    _ ≤ (inFlight.map InFlightPublish.packetId).length := List.toFinset_card_le _
    _ = inFlight.length := List.length_map _

/-- The next start is a packet identifier. -/
lemma nextAfter_valid {attempts start : ℕ} (hpos : 1 ≤ start) (hle : start ≤ 65535) :
    1 ≤ nextAfter attempts start ∧ nextAfter attempts start ≤ 65535 := by
  induction attempts generalizing start with
  | zero => exact ⟨hpos, hle⟩
  | succ attempts ih =>
    rw [nextAfter]
    split_ifs
    · exact ih (by omega) (by omega)
    · exact ih (by omega) (by omega)

/-- A free identifier means that the table is not full. -/
lemma Ids.lt_of_free {inFlight : List InFlightPublish} {next packetId : ℕ} (h : Ids inFlight next)
    (hid : 1 ≤ packetId ∧ packetId ≤ 65535) (hfree : ∀ e ∈ inFlight, e.packetId ≠ packetId) :
    inFlight.length < 65535 := by
  have hsub : (inFlight.map InFlightPublish.packetId).toFinset ⊆
      (Finset.Icc 1 65535).erase packetId := by
    intro id hmem
    obtain ⟨e, he, rfl⟩ := List.mem_map.mp (List.mem_toFinset.mp hmem)
    exact Finset.mem_erase.mpr ⟨hfree e he, Finset.mem_Icc.mpr (h.range e he)⟩
  have hcard := Finset.card_le_card hsub
  rw [List.toFinset_card_of_nodup h.nodup, List.length_map,
    Finset.card_erase_of_mem (Finset.mem_Icc.mpr hid), Nat.card_Icc] at hcard
  omega

lemma Ids.setNext {inFlight : List InFlightPublish} {next next' : ℕ} (h : Ids inFlight next)
    (hpos : 1 ≤ next') (hle : next' ≤ 65535) : Ids inFlight next' :=
  { h with pos := hpos, le := hle }

/-- What `_allocate_packet_id` does: the identifier is not in flight. -/
lemma allocatePacketId_spec (hids : Ids w.inFlight w.nextPacketId) :
    wp allocatePacketId
      (fun packetId t => (1 ≤ packetId ∧ packetId ≤ 65535) ∧
        (∀ e ∈ w.inFlight, e.packetId ≠ packetId) ∧
        ∃ next, t = { w with nextPacketId := next } ∧ Ids w.inFlight next)
      (fun _ t => 65535 ≤ w.inFlight.length ∧
        ∃ next, t = { w with nextPacketId := next } ∧ Ids w.inFlight next) w := by
  have hloop := @allocatePacketIdLoop_spec w.inFlight 65535 w.nextPacketId hids.pos hids.le
  unfold allocatePacketId
  rw [wp_bind, wp_get]
  generalize allocatePacketIdLoop w.inFlight 65535 w.nextPacketId = found at hloop ⊢
  cases found with
  | some found =>
    obtain ⟨hid, hnext, hfree⟩ := hloop
    exact ⟨hid, hfree, found.2, rfl, hids.setNext hnext.1 hnext.2⟩
  | none =>
    obtain ⟨hpos, hle⟩ := @nextAfter_valid 65535 w.nextPacketId hids.pos hids.le
    exact ⟨not_full hloop, _, rfl, hids.setNext hpos hle⟩

/-! ## Publishing -/

/-- `publish` of a client that is CONNECTED works: the publish can be encoded, there is room for it
and a packet identifier. -/
structure Client.PublishFits (c : Client) (p : QueuedPublish) : Prop where
  encodes : ∃ bytes, encodePublish p.topic p.payload p.qos p.retain (some 1) = .ok bytes
  room : c.txQueue.length + c.slots p ≤ c.config.maxTxQueueSize
  free : p.qos ≠ 0 → c.inFlight.length < 65535

lemma plainItems_publish {bytes : List UInt8} {rest : List TxItem} (h : PublishBytes bytes)
    (hrest : packetsOf rest = []) : PlainItems (.packet ⟨.publish, bytes⟩ :: rest) := by
  intro p hp
  rw [packetsOf_packet, hrest, List.mem_singleton] at hp
  rw [hp]
  exact ⟨wf_publish h, .inl rfl⟩

/-- A PUBLISH, and what holds no packet. -/
lemma carries_publish {p : QueuedPublish} {bytes : List UInt8} {rest : List TxItem}
    (hrest : packetsOf rest = []) (h : ∃ packetId, encodePublish p.topic p.payload
      (if p.qos = 0 then 0 else 1) p.retain packetId = .ok bytes) :
    Carries (.packet ⟨.publish, bytes⟩ :: rest) [p] := by
  rw [Carries, packetsOf_packet, hrest]
  exact .cons ⟨rfl, h⟩ .nil

/-- A message in flight under a fresh identifier. -/
lemma Ids.append {inFlight : List InFlightPublish} {next : ℕ} (h : Ids inFlight next)
    {entry : InFlightPublish} (hwf : entry.WF) (hid : 1 ≤ entry.packetId ∧ entry.packetId ≤ 65535)
    (hfresh : ∀ e ∈ inFlight, e.packetId ≠ entry.packetId) : Ids (inFlight ++ [entry]) next where
  wf := by
    intro e he
    rcases List.mem_append.mp he with he | he
    · exact h.wf e he
    · rw [List.mem_singleton.mp he]
      exact hwf
  range := by
    intro e he
    rcases List.mem_append.mp he with he | he
    · exact h.range e he
    · rw [List.mem_singleton.mp he]
      exact hid
  nodup := by
    rw [List.map_append, List.nodup_append]
    refine ⟨h.nodup, by simp, fun a ha b hb hab => ?_⟩
    obtain ⟨e, he, rfl⟩ := List.mem_map.mp ha
    exact hfresh e he (hab.trans (by simpa using hb))
  pos := h.pos
  le := h.le

lemma Ids.filter {inFlight : List InFlightPublish} {next : ℕ} (h : Ids inFlight next)
    (f : InFlightPublish → Bool) : Ids (inFlight.filter f) next where
  wf := fun e he => h.wf e (List.mem_of_mem_filter he)
  range := fun e he => h.range e (List.mem_of_mem_filter he)
  nodup := h.nodup.sublist (List.filter_sublist.map _)
  pos := h.pos
  le := h.le

lemma Ids.map {inFlight : List InFlightPublish} {next : ℕ} (h : Ids inFlight next)
    {f : InFlightPublish → InFlightPublish} (hf : ∀ e, e.WF → (f e).WF)
    (hid : ∀ e, (f e).packetId = e.packetId) : Ids (inFlight.map f) next where
  wf := by
    intro e he
    obtain ⟨e', he', rfl⟩ := List.mem_map.mp he
    exact hf e' (h.wf e' he')
  range := by
    intro e he
    obtain ⟨e', he', rfl⟩ := List.mem_map.mp he
    rw [hid]
    exact h.range e' he'
  nodup := by
    have hmap : (inFlight.map f).map InFlightPublish.packetId =
        inFlight.map InFlightPublish.packetId := by
      rw [List.map_map]
      exact List.map_congr_left fun e _ => hid e
    rw [hmap]
    exact h.nodup
  pos := h.pos
  le := h.le

/-- What a publish that is queued changes. -/
def Published (w : World) (p : QueuedPublish) (t : World) : Prop :=
  ∃ items inFlight next used, t = { w with
      txQueue := w.txQueue ++ items, inFlight := inFlight, nextPacketId := next, used := used } ∧
    PlainItems items ∧ Carries items [p] ∧ items.length = w.slots p ∧ Ids inFlight next ∧
    inFlight.length ≤ w.inFlight.length + if p.qos = 0 then 0 else 1

/-- What a publish that is refused changes. -/
def Refused (w t : World) : Prop :=
  ∃ inFlight next used, t = { w with inFlight := inFlight, nextPacketId := next, used := used } ∧
    Ids inFlight next

/-- What `_do_publish` does with QoS 1. -/
lemma doPublishQos1_spec {p : QueuedPublish} (hqos : p.qos ≠ 0) (nowMs : Option ℤ)
    (hids : Ids w.inFlight w.nextPacketId) (hack : TicksOk w.config.ackTimeoutMs) :
    wp (doPublishQos1 env p nowMs) (fun _ => Published w p)
      (fun _ t => Refused w t ∧ ¬ w.PublishFits p) w := by
  unfold doPublishQos1
  rw [wp_bind]
  refine wp_mono (allocatePacketId_spec hids) ?_ ?_
  · rintro packetId t ⟨hid, hfresh, next, rfl, hnext⟩
    rw [wp_bind]
    rcases hbytes : encodePublish p.topic p.payload 1 p.retain (some packetId) with e | bytes
    · refine ⟨⟨_, _, _, rfl, hnext⟩, fun hfits => ?_⟩
      obtain ⟨bytes', h'⟩ := hfits.encodes
      have hone : p.qos = 1 := by
        unfold encodePublish at h'
        split at h'
        · cases h'
        · omega
      obtain ⟨bytes'', h''⟩ := encodePublish_ok (hone ▸ h') hid.2
      rw [hbytes] at h''
      cases h''
    · rw [wp_lift_ok, wp_bind, wp_get, wp_ite]
      refine ⟨fun hany => ?_, fun _ => ?_⟩
      · obtain ⟨e, he, heq⟩ := List.any_eq_true.mp hany
        exact absurd (of_decide_eq_true heq) (hfresh e he)
      rw [wp_bind]
      refine wp_mono (deadline_spec _ _) ?_ ?_
      · rintro d t ⟨⟨u, rfl⟩, -⟩
        have hpublish := publishBytes_encodePublish hbytes
        have hentry : (⟨packetId, bytes, 0, d, p.onPublish, p.topic, p.payload, none⟩ :
          InFlightPublish).WF := ⟨hpublish, by simp⟩
        have hids' := hnext.append hentry hid hfresh
        have hslots : w.slots p = 1 := by simp [Client.slots, hqos]
        rw [wp_bind, wp_modify, wp_tryCatch]
        refine wp_mono (enqueueUserTx_spec _) ?_ ?_
        · rintro - t ⟨rfl, -⟩
          have hcarries : Carries [.packet ⟨.publish, bytes⟩] [p] :=
            carries_publish rfl ⟨_, by rw [if_neg hqos]; exact hbytes⟩
          exact ⟨_, _, next, u, rfl, plainItems_publish hpublish rfl, hcarries, by simp [hslots], hids',
            by simp [hqos]⟩
        · rintro e t ⟨rfl, hfull, message, rfl⟩
          refine ⟨⟨_, next, u, rfl, hids'.filter _⟩, fun hfits => ?_⟩
          have := hfits.room
          rw [hslots] at this
          simp only [List.length_singleton] at hfull
          omega
      · rintro e t ⟨-, hbad⟩
        exact absurd hack hbad
  · rintro e t ⟨hfull, next, rfl, hnext⟩
    exact ⟨⟨_, next, w.used, rfl, hnext⟩, fun hfits => absurd (hfits.free hqos) (by omega)⟩

/-- **`_do_publish`** queues the publish, or raises when it does not fit. -/
theorem doPublish_spec (p : QueuedPublish) (nowMs : Option ℤ) (hids : Ids w.inFlight w.nextPacketId)
    (hack : TicksOk w.config.ackTimeoutMs) :
    wp (doPublish env p nowMs) (fun _ => Published w p)
      (fun _ t => Refused w t ∧ ¬ w.PublishFits p) w := by
  unfold doPublish
  rw [wp_ite]
  refine ⟨fun hqos => ?_, fun hqos => doPublishQos1_spec hqos nowMs hids hack⟩
  rw [wp_bind]
  rcases hbytes : encodePublish p.topic p.payload 0 p.retain none with e | bytes
  · refine ⟨⟨_, _, _, rfl, hids⟩, fun hfits => ?_⟩
    obtain ⟨bytes', h'⟩ := hfits.encodes
    rw [hqos, encodePublish_qos0, hbytes] at h'
    cases h'
  · have hpublish := publishBytes_encodePublish hbytes
    have hencoded : ∃ packetId, encodePublish p.topic p.payload (if p.qos = 0 then 0 else 1) p.retain
        packetId = .ok bytes := ⟨none, by rw [if_pos hqos]; exact hbytes⟩
    have henqueue : ∀ items, PlainItems items → Carries items [p] → items.length = w.slots p →
        wp (enqueueUserTx items) (fun _ => Published w p)
          (fun _ t => Refused w t ∧ ¬ w.PublishFits p) w := by
      intro items hplain hcarries hlength
      refine wp_mono (enqueueUserTx_spec _) ?_ ?_
      · rintro - t ⟨rfl, -⟩
        exact ⟨items, _, _, _, rfl, hplain, hcarries, hlength, hids, by simp⟩
      · rintro e t ⟨rfl, hfull, -⟩
        refine ⟨⟨_, _, _, rfl, hids⟩, fun hfits => ?_⟩
        have := hfits.room
        omega
    rw [wp_lift_ok, wp_bind, wp_get, wp_ite]
    refine ⟨fun hset => henqueue _ (plainItems_publish hpublish rfl) (carries_publish rfl hencoded) ?_,
      fun hset => henqueue _ (plainItems_publish hpublish rfl) (carries_publish rfl hencoded) ?_⟩
    · simp only [Client.slots, if_pos (And.intro hqos hset), List.length_cons, List.length_nil]
    · simp only [Client.slots, if_neg (fun h : p.qos = 0 ∧ _ => hset h.2), List.length_cons,
        List.length_nil]

/-! ## What is done at a CONNACK -/

/-- What the replay of `subs` adds. -/
structure Replayed (w : World) (subs : List (String × Subscription)) (items : List TxItem)
    (pendings : List PendingResponse) : Prop where
  wf : ∀ packet ∈ packetsOf items, packet.WF ∧ ∃ topic qos, packet.kind = .subscribe topic qos
  silent : ∀ pending ∈ pendings, pending.awaiting = .suback ∧ pending.callback = none
  size : items.length ≤ subs.length
  count : pendings.length ≤ subs.length
  full : w.txQueue.length ≥ w.config.txQueueHardCap → items = []
  operations : ∃ k, operations (packetsOf items) =
    ((subs.map fun s => (s.1, s.2.qos)).take k).map fun s => (s.1, some s.2)

lemma Replayed.nil (subs : List (String × Subscription)) : Replayed w subs [] [] where
  wf := by simp
  silent := by simp
  size := by simp
  count := by simp
  full := fun _ => rfl
  operations := ⟨0, rfl⟩

/-- The operations of a replay that has sent `items` for the first filter. -/
lemma Replayed.cons {subs : List (String × Subscription)} {items : List TxItem}
    {pendings : List PendingResponse} {topic : String} {entry : Subscription} {bytes : List UInt8}
    {pending : PendingResponse} {w' : World} (h : Replayed w' subs items pendings)
    (hwf : (⟨.subscribe topic entry.qos, bytes⟩ : Packet).WF)
    (hpending : pending.awaiting = .suback ∧ pending.callback = none)
    (hroom : w.txQueue.length < w.config.txQueueHardCap) :
    Replayed w ((topic, entry) :: subs) (.packet ⟨.subscribe topic entry.qos, bytes⟩ :: items)
      (pending :: pendings) where
  wf := by
    intro packet hpacket
    rcases List.mem_cons.mp hpacket with rfl | hpacket
    · exact ⟨hwf, _, _, rfl⟩
    · exact h.wf packet hpacket
  silent := by
    intro q hq
    rcases List.mem_cons.mp hq with rfl | hq
    · exact hpending
    · exact h.silent q hq
  size := by simpa using h.size
  count := by simpa using h.count
  full := fun hfull => absurd hfull (by omega)
  operations := by
    obtain ⟨k, hk⟩ := h.operations
    refine ⟨k + 1, ?_⟩
    rw [packetsOf_packet, List.map_cons, List.take_succ_cons, List.map_cons, ← hk]
    rfl

/-- A replay that finds the queue full only adds pending responses. -/
lemma Replayed.skip {subs : List (String × Subscription)} {items : List TxItem}
    {pendings : List PendingResponse} {s : String × Subscription}
    {pending : PendingResponse} {w' : World} (h : Replayed w' subs items pendings)
    (hpending : pending.awaiting = .suback ∧ pending.callback = none)
    (hfull : w'.txQueue.length ≥ w'.config.txQueueHardCap) :
    Replayed w (s :: subs) items (pending :: pendings) where
  wf := h.wf
  silent := by
    intro q hq
    rcases List.mem_cons.mp hq with rfl | hq
    · exact hpending
    · exact h.silent q hq
  size := h.size.trans (Nat.le_succ _)
  count := by simpa using h.count
  full := fun _ => h.full hfull
  operations := ⟨0, by rw [h.full hfull]; rfl⟩

/-- The filters can be encoded, and there are packet identifiers for them. -/
def Replayable (subs : List (String × Subscription)) (inFlight : List InFlightPublish) : Prop :=
  (∀ s ∈ subs, s.2.qos ≤ 1 ∧ (encodeUtf8 s.1).length ≤ 65535) ∧
    (subs ≠ [] → inFlight.length < 65535)

/-- What one subscription needs to be replayed. -/
lemma replayable_cons {topic : String} {entry : Subscription} {subs : List (String × Subscription)}
    {inFlight : List InFlightPublish} (hqos : entry.qos ≤ 1)
    (htopic : (encodeUtf8 topic).length ≤ 65535) (hfree : inFlight.length < 65535) :
    Replayable ((topic, entry) :: subs) inFlight ↔ Replayable subs inFlight := by
  constructor
  · exact fun h => ⟨fun s hs => h.1 s (List.mem_cons_of_mem _ hs), fun _ => hfree⟩
  · refine fun h => ⟨fun s hs => ?_, fun _ => hfree⟩
    rcases List.mem_cons.mp hs with rfl | hs
    · exact ⟨hqos, htopic⟩
    · exact h.1 s hs

/-- What a replay leaves behind. -/
def AfterReplay (w : World) (subs : List (String × Subscription)) (P : List PendingResponse → Prop)
    (t : World) : Prop :=
  ∃ items pendings next used, t = { w with
      txQueue := w.txQueue ++ items, pendingResponses := w.pendingResponses ++ pendings
      nextPacketId := next, used := used } ∧
    Ids w.inFlight next ∧ Replayed w subs items pendings ∧ P pendings

/-- **The replay** queues a SUBSCRIBE for each filter as far as there is room, and expects a SUBACK
for each of them. -/
theorem replayLoop_spec (nowMs : ℤ) (subs : List (String × Subscription))
    (hids : Ids w.inFlight w.nextPacketId) (hack : TicksOk w.config.ackTimeoutMs) :
    wp (replayLoop env nowMs subs)
      (fun _ => AfterReplay w subs fun pendings =>
        pendings.length = subs.length ∧ Replayable subs w.inFlight)
      (fun _ => AfterReplay w subs fun _ => ¬ Replayable subs w.inFlight) w := by
  induction subs generalizing w with
  | nil => exact ⟨[], [], w.nextPacketId, w.used, by simp, hids, .nil _, rfl, by simp [Replayable]⟩
  | cons s subs ih =>
    obtain ⟨topic, entry⟩ := s
    rw [replayLoop, wp_bind]
    refine wp_mono (allocatePacketId_spec hids) ?_ ?_
    · rintro packetId t ⟨hid, hfresh, next, rfl, hnext⟩
      rw [wp_bind]
      rcases hbytes : encodeSubscribe packetId [(topic, entry.qos)] with e | bytes
      · refine ⟨[], [], next, w.used, by simp, hnext, .nil _, fun hok => ?_⟩
        obtain ⟨hqos, htopic⟩ := hok.1 (topic, entry) List.mem_cons_self
        obtain ⟨bytes, h⟩ := encodeSubscribe_ok hid.2 hqos htopic
        rw [hbytes] at h
        cases h
      obtain ⟨hqos, htopic⟩ := of_encodeSubscribe_ok hbytes
      have hiff := @replayable_cons topic entry subs w.inFlight hqos htopic
        (hids.lt_of_free hid hfresh)
      rw [wp_lift_ok, wp_bind]
      refine wp_mono (enqueueInternalTx_spec _ _) ?_ (fun _ _ h => h.elim)
      rintro r t (⟨-, hroom, rfl⟩ | ⟨-, hfull, rfl⟩)
      · rw [wp_bind]
        refine wp_mono (awaitAck_spec _ _ _ _ _) ?_ (fun _ _ h => absurd hack h.2)
        rintro - t ⟨⟨u, d, rfl⟩, -⟩
        have hcons : ∀ {items pendings w'}, Replayed w' subs items pendings →
            Replayed w ((topic, entry) :: subs) (.packet ⟨.subscribe topic entry.qos, bytes⟩ :: items)
              (⟨.suback, d, some packetId, none, some topic⟩ :: pendings) :=
          fun h => h.cons (wf_subscribe hbytes) ⟨rfl, rfl⟩ hroom
        refine wp_mono (ih hnext hack) ?_ ?_
        · rintro - t ⟨items, pendings, next', u', rfl, hnext', h, hlength, hok⟩
          exact ⟨_, _, next', u', by simp, hnext', hcons h, by simp [hlength], hiff.mpr hok⟩
        · rintro e t ⟨items, pendings, next', u', rfl, hnext', h, hbad⟩
          exact ⟨_, _, next', u', by simp, hnext', hcons h, fun hok => hbad (hiff.mp hok)⟩
      · rw [wp_bind]
        refine wp_mono (awaitAck_spec _ _ _ _ _) ?_ (fun _ _ h => absurd hack h.2)
        rintro - t ⟨⟨u, d, rfl⟩, -⟩
        have hskip : ∀ {items pendings w'}, Replayed w' subs items pendings →
            w'.txQueue.length ≥ w'.config.txQueueHardCap →
            Replayed w ((topic, entry) :: subs) items
              (⟨.suback, d, some packetId, none, some topic⟩ :: pendings) :=
          fun h hfull => h.skip ⟨rfl, rfl⟩ hfull
        refine wp_mono (ih hnext hack) ?_ ?_
        · rintro - t ⟨items, pendings, next', u', rfl, hnext', h, hlength, hok⟩
          exact ⟨_, _, next', u', by simp, hnext', hskip h hfull, by simp [hlength], hiff.mpr hok⟩
        · rintro e t ⟨items, pendings, next', u', rfl, hnext', h, hbad⟩
          exact ⟨_, _, next', u', by simp, hnext', hskip h hfull, fun hok => hbad (hiff.mp hok)⟩
    · rintro e t ⟨hfull, next, rfl, hnext⟩
      exact ⟨[], [], next, w.used, by simp, hnext, .nil _, fun hok =>
        absurd (hok.2 (by simp)) (by omega)⟩

/-- The pre-connect queue `queue` can be drained. -/
structure QueueFits (w : World) (queue : List QueuedPublish) : Prop where
  encodes : ∀ q ∈ queue, ∃ bytes, encodePublish q.topic q.payload q.qos q.retain (some 1) = .ok bytes
  room : queue ≠ [] → w.txQueue.length + (queue.map w.slots).sum ≤ w.config.maxTxQueueSize
  free : w.inFlight.length + queue.countP (fun q => q.qos ≠ 0) ≤ 65535

lemma QueueFits.head {p : QueuedPublish} {queue : List QueuedPublish} (h : QueueFits w (p :: queue)) :
    w.PublishFits p where
  encodes := h.encodes p List.mem_cons_self
  room := by
    have := h.room (by simp)
    simp only [List.map_cons, List.sum_cons] at this
    omega
  free := by
    intro hqos
    have := h.free
    rw [List.countP_cons_of_pos (by simpa using hqos)] at this
    omega

/-- The rest of the queue fits after its head has been published. -/
lemma QueueFits.tail {p : QueuedPublish} {queue : List QueuedPublish} {t : World}
    (h : QueueFits w (p :: queue)) (hmax : t.config = w.config) (hset : t.onPublishSet = w.onPublishSet)
    (hroom : t.txQueue.length = w.txQueue.length + w.slots p)
    (hfree : t.inFlight.length ≤ w.inFlight.length + if p.qos = 0 then 0 else 1) :
    QueueFits t queue where
  encodes := fun q hq => h.encodes q (List.mem_cons_of_mem _ hq)
  room := by
    intro _
    have hslots : t.slots = w.slots := by
      funext q
      simp only [Client.slots, hset]
    have := h.room (by simp)
    simp only [List.map_cons, List.sum_cons] at this
    rw [hroom, hslots, hmax]
    omega
  free := by
    have := h.free
    rw [List.countP_cons] at this
    by_cases hqos : p.qos = 0
    · simp [hqos] at this hfree
      simp
      omega
    · simp [hqos] at this hfree
      simp
      omega

/-- What draining leaves behind: of the queue, `done` is in the tx queue, packet by packet, and
`rest` is still there. -/
def AfterDrain (w : World) (done rest : List QueuedPublish) (t : World) : Prop :=
  ∃ items inFlight next used, t = { w with
      preConnectQueue := rest, enqueued := w.enqueued ++ done, txQueue := w.txQueue ++ items
      inFlight := inFlight, nextPacketId := next, used := used } ∧
    PlainItems items ∧ Carries items done ∧ Ids inFlight next

lemma PlainItems.append {a b : List TxItem} (ha : PlainItems a) (hb : PlainItems b) :
    PlainItems (a ++ b) := by
  intro p hp
  rcases List.mem_append.mp (packetsOf_append _ _ ▸ hp) with hp | hp
  · exact ha p hp
  · exact hb p hp

lemma Carries.append {a b : List TxItem} {done more : List QueuedPublish} (ha : Carries a done)
    (hb : Carries b more) : Carries (a ++ b) (done ++ more) := by
  rw [Carries, packetsOf_append]
  exact List.rel_append ha hb

/-- **Draining the pre-connect queue** enqueues it all, or loses the publish that is refused. -/
theorem drainPreConnectLoop_spec (nowMs : ℤ) {queue : List QueuedPublish}
    (hqueue : w.preConnectQueue = queue) (hids : Ids w.inFlight w.nextPacketId)
    (hack : TicksOk w.config.ackTimeoutMs) :
    wp (drainPreConnectLoop env nowMs queue) (fun _ => AfterDrain w queue [])
      (fun _ t => ¬ QueueFits w queue ∧ ∃ done p rest, queue = done ++ p :: rest ∧
        AfterDrain w done rest t) w := by
  induction queue generalizing w with
  | nil =>
    refine ⟨[], w.inFlight, w.nextPacketId, w.used, ?_, by simp [PlainItems], .nil, hids⟩
    rw [List.append_nil, List.append_nil, ← hqueue]
  | cons p queue ih =>
    rw [drainPreConnectLoop, wp_bind, wp_modify, wp_bind]
    refine wp_mono (doPublish_spec _ _ hids hack) ?_ ?_
    · rintro - t ⟨items, inFlight, next, used, rfl, hplain, hcarries, hlength, hids', hfree⟩
      rw [wp_bind, wp_modify]
      refine wp_mono (ih rfl hids' hack) ?_ ?_
      · rintro - t ⟨items', inFlight', next', used', rfl, hplain', hcarries', hids''⟩
        exact ⟨_, _, _, used', by simp, hplain.append hplain', hcarries.append hcarries', hids''⟩
      · rintro e t ⟨hfits, done, q, rest, hsplit, items', inFlight', next', used', rfl, hplain',
          hcarries', hids''⟩
        have hlength' : items.length = w.slots p := hlength
        refine ⟨fun h => hfits (h.tail rfl rfl (by simp [hlength']) hfree), p :: done, q, rest,
          by simp [hsplit], _, _, _, used', by simp, hplain.append hplain', hcarries.append hcarries',
          hids''⟩
    · rintro e t ⟨⟨inFlight, next, used, rfl, hids'⟩, hfits⟩
      refine ⟨fun h => hfits ⟨h.head.encodes, h.head.room, h.head.free⟩, [], p, queue, rfl, [],
        inFlight, next, used, by simp, by simp [PlainItems], .nil, hids'⟩

/-- What the replay and the draining of the pre-connect queue leave behind. -/
def Accepted (w : World) (p : ParsedAck) (t : World) : Prop :=
  ∃ items pendings done lost rest inFlight next used, t = { w with
      txQueue := w.txQueue ++ items, pendingResponses := w.pendingResponses ++ pendings
      preConnectQueue := rest, enqueued := w.enqueued ++ done, inFlight := inFlight
      nextPacketId := next, used := used } ∧
    Accepts w p items pendings done lost rest ∧ Ids inFlight next

/-- Messages are no operations of the subscriptions. -/
lemma operations_plain {items : List TxItem} (h : PlainItems items) :
    operations (packetsOf items) = [] := by
  refine List.filterMap_eq_nil_iff.mpr fun p hp => ?_
  rcases (h p hp).2 with hkind | hkind
  · rw [hkind]
    rfl
  · rw [hkind]
    rfl

/-- What is published is well formed, and is neither CONNECT, PUBACK nor UNSUBSCRIBE. -/
lemma PlainItems.accepts {items : List TxItem} (h : PlainItems items) :
    ∀ packet ∈ packetsOf items, packet.WF ∧
      packet.kind ≠ .connect ∧ packet.kind ≠ .puback ∧ ∀ t, packet.kind ≠ .unsubscribe t := by
  intro packet hpacket
  obtain ⟨hwf, hkind | hkind⟩ := h packet hpacket
  · rw [hkind]
    simp [hwf]
  · rw [hkind]
    simp [hwf]

/-- So is what is replayed. -/
lemma Replayed.accepts {subs : List (String × Subscription)} {items : List TxItem}
    {pendings : List PendingResponse} (h : Replayed w subs items pendings) :
    ∀ packet ∈ packetsOf items, packet.WF ∧
      packet.kind ≠ .connect ∧ packet.kind ≠ .puback ∧ ∀ t, packet.kind ≠ .unsubscribe t := by
  intro packet hpacket
  obtain ⟨hwf, topic, qos, hkind⟩ := h.wf packet hpacket
  rw [hkind]
  simp [hwf]

lemma operations_append (a b : List Packet) : operations (a ++ b) = operations a ++ operations b :=
  List.filterMap_append

/-- The queue fits after the replay if it fits at the CONNACK. -/
lemma Client.DrainFits.queueFits {p : ParsedAck} {w t : World} (h : w.DrainFits p)
    (hconfig : t.config = w.config) (hset : t.onPublishSet = w.onPublishSet)
    (hfree : t.inFlight = w.inFlight)
    (hroom : t.txQueue.length ≤
      w.txQueue.length + (if w.replays p then w.subscriptions.length else 0)) :
    QueueFits t w.preConnectQueue where
  encodes := h.encodes
  room := by
    intro hne
    have hslots : t.slots = w.slots := by
      funext q
      simp only [Client.slots, hset]
    have := h.room hne
    rw [hslots, hconfig]
    omega
  free := by
    rw [hfree]
    exact h.free

/-- Draining the queue after the replay. -/
lemma drainPreConnectQueue_accepted {p : ParsedAck} (nowMs : ℤ) {t : World} {items : List TxItem}
    {pendings : List PendingResponse} {next : ℕ} {used : Used}
    (ht : t = { w with
      txQueue := w.txQueue ++ items, pendingResponses := w.pendingResponses ++ pendings
      nextPacketId := next, used := used })
    (hids : Ids w.inFlight next) (hack : TicksOk w.config.ackTimeoutMs)
    (hwf : ∀ packet ∈ packetsOf items, packet.WF ∧
      packet.kind ≠ .connect ∧ packet.kind ≠ .puback ∧ ∀ t, packet.kind ≠ .unsubscribe t)
    (hsilent : ∀ pending ∈ pendings, pending.awaiting = .suback ∧ pending.callback = none)
    (hsize : items.length ≤ if w.replays p then w.subscriptions.length else 0)
    (hreplay : w.replays p = true → w.ReplayOk)
    (hresumed : w.replays p = false → operations (packetsOf items) = [] ∧ pendings = [])
    (hreplayed : w.replays p = true →
      ∃ k, operations (packetsOf items) = (w.desired.take k).map (fun s => (s.1, some s.2)) ∧
        pendings.length = w.desired.length) :
    wp (drainPreConnectQueue env nowMs) (fun _ => Accepted w p) (fun _ => Accepted w p) t := by
  have haccepts : ∀ {items' : List TxItem} {done lost rest : List QueuedPublish}, PlainItems items' →
      Carries items' done → w.preConnectQueue = done ++ lost ++ rest → (w.Keeps p → lost = []) →
      Accepts w p (items ++ items') pendings done lost rest := by
    intro items' done lost rest hplain hcarries hqueue hkeeps
    refine ⟨fun packet hpacket => ?_, hsilent, hqueue, hkeeps, ⟨items, items', rfl, hcarries⟩, ?_, ?_⟩
    · rcases List.mem_append.mp (packetsOf_append _ _ ▸ hpacket) with hpacket | hpacket
      · exact hwf packet hpacket
      · exact hplain.accepts packet hpacket
    · rw [packetsOf_append, operations_append, operations_plain hplain, List.append_nil]
      exact hresumed
    · rw [packetsOf_append, operations_append, operations_plain hplain, List.append_nil]
      exact fun h _ => hreplayed h
  unfold drainPreConnectQueue
  rw [wp_bind, wp_get]
  subst ht
  refine wp_mono (drainPreConnectLoop_spec nowMs rfl hids hack) ?_ ?_
  · rintro - t ⟨items', inFlight, next', used', rfl, hplain, hcarries, hids'⟩
    exact ⟨_, _, _, [], _, _, _, _, by rw [List.append_assoc],
      haccepts hplain hcarries (by simp) fun _ => rfl, hids'⟩
  · rintro e t ⟨hfits, done, q, rest, hsplit, items', inFlight, next', used', rfl, hplain, hcarries,
      hids'⟩
    refine ⟨_, _, _, [q], _, _, _, _, by rw [List.append_assoc],
      haccepts hplain hcarries (by simpa using hsplit) fun hkeeps => ?_, hids'⟩
    exact (hfits ((hkeeps hreplay).queueFits rfl rfl rfl (by simpa using hsize))).elim

/-- The condition, as one on the client. -/
lemma replayable_iff (c : Client) : Replayable c.subscriptions c.inFlight ↔ c.ReplayOk := by
  constructor
  · refine fun h => ⟨fun s hs => ?_, h.2⟩
    obtain ⟨sub, hsub, rfl⟩ := List.mem_map.mp hs
    exact h.1 sub hsub
  · exact fun h => ⟨fun s hs => h.encodes (s.1, s.2.qos) (List.mem_map.mpr ⟨s, hs, rfl⟩), h.free⟩

/-- **The replay and the draining** at an accepting CONNACK. -/
lemma replayAndDrain_spec {p : ParsedAck} (nowMs : ℤ) (hids : Ids w.inFlight w.nextPacketId)
    (hack : TicksOk w.config.ackTimeoutMs) :
    wp (do
        when (w.config.cleanSession = true ∨ p.sessionPresent.getD false = false)
          (replaySubscriptions env nowMs)
        drainPreConnectQueue env nowMs)
      (fun _ => Accepted w p) (fun _ => Accepted w p) w := by
  have hreplays : w.replays p = true ↔
      w.config.cleanSession = true ∨ p.sessionPresent.getD false = false := by
    simp [Client.replays]
  rw [wp_bind, wp_when, ← hreplays]
  refine ⟨fun hyes => ?_, fun hno => ?_⟩
  · rw [replaySubscriptions, wp_bind, wp_get]
    have hne : ¬ w.replays p = false := by simp [hyes]
    refine wp_mono (replayLoop_spec nowMs w.subscriptions hids hack) ?_ ?_
    · rintro - t ⟨items, pendings, next, used, ht, hnext, h, hlength, hok⟩
      refine drainPreConnectQueue_accepted nowMs ht hnext hack h.accepts h.silent
        (by rw [hyes]; exact h.size) (fun _ => (replayable_iff w.toClient).mp hok)
        (fun h => absurd h hne) fun _ => ?_
      obtain ⟨k, hk⟩ := h.operations
      exact ⟨k, hk, by rw [hlength, Client.desired, List.length_map]⟩
    · rintro e t ⟨items, pendings, next, used, rfl, hnext, h, hbad⟩
      rw [replayable_iff w.toClient] at hbad
      exact ⟨items, pendings, [], [], w.preConnectQueue, w.inFlight, next, used, by simp,
        ⟨h.accepts, h.silent, rfl, fun _ => rfl, ⟨items, [], (List.append_nil _).symm, .nil⟩,
          fun h => absurd h hne, fun _ hok => absurd hok hbad⟩, hnext⟩
  · exact drainPreConnectQueue_accepted nowMs
      (show w = { w with
          txQueue := w.txQueue ++ [], pendingResponses := w.pendingResponses ++ []
          nextPacketId := w.nextPacketId, used := w.used } by simp)
      hids hack (by simp) (by simp) (by simp) (fun h => absurd h hno)
      (fun _ => ⟨rfl, rfl⟩) (fun h => absurd h hno)

end ChuMicro.Mqtt
