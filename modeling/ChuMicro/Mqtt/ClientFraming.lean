import ChuMicro.Mqtt.ClientRuns

/-!
# Framing on the wire

Three places write to the socket: the drain of the tx queue, the rest of a packet that was sent in
part, and `disconnect`, which sends its packet past the queue. The first two keep the packets apart
as long as no `handle` is called from the callback of a QoS 0 publish; the third does so only if no
packet is partly sent at that moment.

## Main definitions

* `Mqtt.Ledger` — what is known of the transports: of the one in use, of those of the past, and of
  those to come.
* `Mqtt.Transport.Framed` — whole packets in order, and at most one proper prefix.

## Main results

* `Mqtt.outbound_framed` — framing in every calm run in which `disconnect` is only called when no
  packet is partly sent.
* `Mqtt.outbound_torn` — a run in which `disconnect` tears a packet.
-/

namespace ChuMicro.Mqtt

/-! ## The transports of a run -/

/-- `current` holds of the transport in use, `past` of all others; those that are not opened yet are
empty. -/
structure Ledger (past current : Transport → Prop) (socket : Option ℕ) (opened : ℕ)
    (transports : ℕ → Transport) : Prop where
  socket_lt : ∀ s, socket = some s → s < opened
  fresh : ∀ t, opened ≤ t → transports t = {}
  past : ∀ t, socket ≠ some t → past (transports t)
  current : ∀ s, socket = some s → current (transports s)

section Ledger

variable {past current current' : Transport → Prop} {socket : Option ℕ} {opened : ℕ}
  {transports : ℕ → Transport} {f : Transport → Transport}

/-- A change of the transport in use. -/
lemma Ledger.onTransport (h : Ledger past current socket opened transports)
    (hf : ∀ tr, current tr → current' (f tr)) :
    Ledger past current' socket opened (onTransport socket f transports) := by
  rcases socket with _ | s
  · exact { h with current := by simp }
  · have hlt := h.socket_lt s rfl
    refine ⟨h.socket_lt, fun t ht => ?_, fun t ht => ?_, fun t ht => ?_⟩
    · exact (Function.update_of_ne (by omega) _ _).trans (h.fresh t ht)
    · have hne : t ≠ s := fun heq => ht (by rw [heq])
      have hupdate : Mqtt.onTransport (some s) f transports t = transports t :=
        Function.update_of_ne hne _ _
      rw [hupdate]
      exact h.past t ht
    · cases ht
      have hupdate : Mqtt.onTransport (some s) f transports s = f (transports s) :=
        Function.update_self _ _ _
      rw [hupdate]
      exact hf _ (h.current s rfl)

/-- The end of the transport in use. -/
lemma Ledger.close (h : Ledger past current socket opened transports)
    (hf : ∀ tr, current tr → past (f tr)) :
    Ledger past current' none opened (Mqtt.onTransport socket f transports) := by
  have hchanged := h.onTransport hf
  refine ⟨by simp, hchanged.fresh, fun t _ => ?_, by simp⟩
  by_cases ht : socket = some t
  · exact hchanged.current t ht
  · exact hchanged.past t ht

/-- A new transport. -/
lemma Ledger.open (h : Ledger past current none opened transports) (hcurrent : current' {}) :
    Ledger past current' (some opened) (opened + 1) transports where
  socket_lt := by
    intro s hs
    cases hs
    exact Nat.lt_succ_self _
  fresh := fun t ht => h.fresh t (by omega)
  past := fun t _ => h.past t (by simp)
  current := by
    intro s hs
    cases hs
    rw [h.fresh _ le_rfl]
    exact hcurrent

/-- The ledger of a new client. -/
lemma ledger_new (config : ClientConfig) (will : Will) (hasSocket : Bool) (hpast : past {})
    (hcurrent : current {}) :
    Ledger past current (World.new config will hasSocket).socket
      (World.new config will hasSocket).opened (World.new config will hasSocket).transports where
  socket_lt := by
    cases hasSocket
    · simp [World.new]
    · simp [World.new]
  fresh := fun _ _ => rfl
  past := fun _ _ => hpast
  current := fun _ _ => hcurrent

end Ledger

/-! ## Framing -/

/-- The bytes of packets, one after the other. -/
def wire (packets : List Packet) : List UInt8 := (packets.map Packet.bytes).flatten

@[simp] lemma wire_append (a b : List Packet) : wire (a ++ b) = wire a ++ wire b := by
  simp [wire]

@[simp] lemma wire_singleton (p : Packet) : wire [p] = p.bytes := by
  simp [wire]

/-- The bytes that a transport has accepted are complete packets, in the order in which they were
taken for it, followed by at most one proper prefix of a packet. -/
def Transport.Framed (tr : Transport) : Prop :=
  tr.written = wire tr.taken ∨ ∃ whole last n, tr.taken = whole ++ [last] ∧ n < last.bytes.length ∧
    tr.written = wire whole ++ last.bytes.take n

/-- The transport in use: the last packet taken is the one that is partly sent. -/
def Aligned (partialSend : Option (Packet × ℕ)) (tr : Transport) : Prop :=
  match partialSend with
  | none => tr.written = wire tr.taken
  | some (p, n) => ∃ whole, tr.taken = whole ++ [p] ∧ n < p.bytes.length ∧
      tr.written = wire whole ++ p.bytes.take n

/-- What is aligned is framed. -/
lemma Aligned.framed {partialSend : Option (Packet × ℕ)} {tr : Transport}
    (h : Aligned partialSend tr) : tr.Framed := by
  rcases partialSend with _ | ⟨p, n⟩
  · exact .inl h
  · obtain ⟨whole, htaken, hlt, hwritten⟩ := h
    exact .inr ⟨whole, p, n, htaken, hlt, hwritten⟩

/-- What holds of the transports in every run. -/
structure Framing (w : World) : Prop where
  ledger : Ledger Transport.Framed (Aligned w.partialSend) w.socket w.opened w.transports
  idle : w.socket = none → w.partialSend = none

/-- A call that keeps the framing: no `handle` from the callback of a marker, and no `disconnect`
while a packet is partly sent. -/
def Entry.KeepsFraming (e : Entry) : Prop :=
  (∀ nowMs, e.event = .called (.handle nowMs) → .markers ∉ e.before.frames) ∧
    (e.event = .called .disconnect → e.before.Alive → e.before.partialSend = none)

/-- A log of calls that keep the framing is calm. -/
lemma calm_of_keepsFraming {log : List Entry} (h : ∀ e ∈ log, e.KeepsFraming) : Calm log :=
  fun e he => (h e he).1

section Step

variable {w : World}

/-- A change of the transport in use that does not concern what is sent. -/
lemma Framing.touch (h : Framing w) {f : Transport → Transport}
    (hf : ∀ tr, (f tr).taken = tr.taken ∧ (f tr).written = tr.written) :
    Ledger Transport.Framed (Aligned w.partialSend) w.socket w.opened
      (onTransport w.socket f w.transports) := by
  refine h.ledger.onTransport fun tr htr => ?_
  unfold Aligned at htr ⊢
  rw [(hf tr).1, (hf tr).2]
  exact htr

/-- The transport in use is closed. -/
lemma Framing.close (h : Framing w) {current : Transport → Prop} :
    Ledger Transport.Framed current none w.opened
      (onTransport w.socket (fun tr => { tr with closed := true }) w.transports) :=
  h.ledger.close fun _ htr => htr.framed

/-- The rest of a packet. -/
lemma Aligned.resume {p : Packet} {offset n : ℕ} {tr : Transport}
    (h : Aligned (some (p, offset)) tr) :
    Aligned (if offset + n ≥ p.bytes.length then none else some (p, offset + n))
      { tr with written := tr.written ++ (p.bytes.drop offset).take n } := by
  obtain ⟨whole, htaken, hlt, hwritten⟩ := h
  have hbytes : p.bytes.take offset ++ (p.bytes.drop offset).take n = p.bytes.take (offset + n) :=
    List.take_add.symm
  split_ifs with hdone
  · have hall : p.bytes.take (offset + n) = p.bytes := List.take_of_length_le hdone
    simp only [Aligned]
    rw [hwritten, htaken, List.append_assoc, hbytes, hall, wire_append, wire_singleton]
  · refine ⟨whole, htaken, by omega, ?_⟩
    simp only
    rw [hwritten, List.append_assoc, hbytes]

/-- **The steps keep the framing.** -/
lemma Step.framing {w w' : World} (hs : Step w w') (hw : Coherent w) (h : Framing w)
    (hlog : ∀ e ∈ w'.log, e.KeepsFraming) : Framing w' := by
  cases hs with
  | halt decoder timers heal => exact ⟨h.close, fun _ => rfl⟩
  | goodbye n decoder timers heal pos alive socket called =>
    obtain ⟨e, he, hevent, hclient⟩ := called
    have hfree : w.partialSend = none := by
      have := (hlog e (List.mem_append_left _ he)).2 hevent (hclient ▸ alive)
      rw [hclient] at this
      exact this
    have hsent : Ledger Transport.Framed Transport.Framed w.socket w.opened
        (onTransport w.socket (fun tr => { tr with
          written := tr.written ++ PACKET_DISCONNECT.take n
          taken := tr.taken ++ [⟨.disconnect, PACKET_DISCONNECT⟩] }) w.transports) := by
      refine h.ledger.onTransport fun tr htr => ?_
      rw [hfree] at htr
      have htr : tr.written = wire tr.taken := htr
      by_cases hn : n < PACKET_DISCONNECT.length
      · exact .inr ⟨tr.taken, _, n, rfl, hn, by rw [htr]⟩
      · left
        rw [htr, List.take_of_length_le (by omega), wire_append, wire_singleton]
    exact ⟨hsent.close (f := fun tr => { tr with closed := true }) fun tr htr => htr, fun _ => rfl⟩
  | heal failed decoder timers inFlight nextPacketId ids => exact ⟨h.close, fun _ => rfl⟩
  | «open» awaiting dialing timers ended =>
    have hsocket := hw.dialing dialing
    have hledger := h.ledger
    rw [hsocket] at hledger
    refine ⟨hledger.open ?_, by simp⟩
    show Aligned w.partialSend {}
    rw [h.idle hsocket]
    rfl
  | resume n tick socket partly le =>
    refine ⟨h.ledger.onTransport (f := fun tr => { tr with
      written := tr.written ++ (List.drop _ _).take n }) fun tr htr => ?_, fun hnone => ?_⟩
    · rw [partly] at htr
      exact htr.resume
    · rw [show w.socket = none from hnone] at socket
      cases socket
  | sendPart n tick free socket head pos lt =>
    have hfree := free (calm_of_keepsFraming fun e he => hlog e (List.mem_append_left _ he))
    refine ⟨h.ledger.onTransport (f := fun tr => { tr with
      written := tr.written ++ List.take n _, taken := tr.taken ++ [_] }) fun tr htr => ?_,
      fun hnone => ?_⟩
    · rw [hfree] at htr
      have htr : tr.written = wire tr.taken := htr
      exact ⟨tr.taken, rfl, lt, by rw [htr]⟩
    · rw [show w.socket = none from hnone] at socket
      cases socket
  | sendAll batchQueued tick free socket head pos batch =>
    have hfree := free (calm_of_keepsFraming fun e he => hlog e (List.mem_append_left _ he))
    refine ⟨h.ledger.onTransport (f := fun tr => { tr with
      written := tr.written ++ _, taken := tr.taken ++ [_] }) fun tr htr => ?_, h.idle⟩
    rw [hfree] at htr
    have htr : tr.written = wire tr.taken := htr
    show Aligned w.partialSend _
    rw [hfree]
    simp only [Aligned]
    rw [htr, wire_append, wire_singleton]
  | owe packetId loop alive =>
    exact ⟨h.touch (f := fun tr => { tr with
      owed := if w.state = .connected then tr.owed ++ [packetId] else tr.owed }) fun tr => ⟨rfl, rfl⟩,
      h.idle⟩
  | acked p pendings loop alive settled =>
    exact ⟨h.touch (f := fun tr => { tr with acks := tr.acks ++ [p] }) fun tr => ⟨rfl, rfl⟩, h.idle⟩
  | _ => exact ⟨h.ledger, h.idle⟩

end Step

/-! ## Runs -/

/-- What the application can see of a transport only grows. -/
def Grows (m m' : Moment) : Prop :=
  ∀ t, (m.transports t).taken <+: (m'.transports t).taken ∧
    (m.transports t).written <+: (m'.transports t).written

/-- A change of the current transport that grows it. -/
lemma grows_onTransport {socket : Option ℕ} {f : Transport → Transport} {transports : ℕ → Transport}
    (hf : ∀ tr, tr.taken <+: (f tr).taken ∧ tr.written <+: (f tr).written) (t : ℕ) :
    (transports t).taken <+: (onTransport socket f transports t).taken ∧
      (transports t).written <+: (onTransport socket f transports t).written := by
  rcases socket with _ | s
  · exact ⟨List.prefix_rfl, List.prefix_rfl⟩
  · rcases eq_or_ne t s with rfl | hne
    · simpa [onTransport] using hf (transports t)
    · simp [onTransport, Function.update_of_ne hne]

lemma Grows.refl (m : Moment) : Grows m m := fun _ => ⟨List.prefix_rfl, List.prefix_rfl⟩

lemma Grows.trans {a b c : Moment} (h : Grows a b) (h' : Grows b c) : Grows a c :=
  fun t => ⟨(h t).1.trans (h' t).1, (h t).2.trans (h' t).2⟩

/-- What a transport has taken and written only grows. -/
lemma Step.grows {w w' : World} (hs : Step w w') : Grows w.toMoment w'.toMoment := by
  cases hs with
  | halt decoder timers heal =>
    exact grows_onTransport (f := fun tr => { tr with closed := true })
      fun tr => ⟨List.prefix_rfl, List.prefix_rfl⟩
  | goodbye n decoder timers heal pos alive socket called =>
    exact Grows.trans
      (b := ((w.record (.sent _ PACKET_DISCONNECT)).onSocket fun tr => { tr with
        written := tr.written ++ PACKET_DISCONNECT.take n
        taken := tr.taken ++ [⟨.disconnect, PACKET_DISCONNECT⟩] }).toMoment)
      (grows_onTransport fun tr => ⟨List.prefix_append _ _, List.prefix_append _ _⟩)
      (grows_onTransport (f := fun tr => { tr with closed := true })
        fun tr => ⟨List.prefix_rfl, List.prefix_rfl⟩)
  | heal failed decoder timers inFlight nextPacketId ids =>
    exact grows_onTransport (f := fun tr => { tr with closed := true })
      fun tr => ⟨List.prefix_rfl, List.prefix_rfl⟩
  | resume n tick socket partly le =>
    exact grows_onTransport (f := fun tr => { tr with written := tr.written ++ (List.drop _ _).take n })
      fun tr => ⟨List.prefix_rfl, List.prefix_append _ _⟩
  | sendPart n tick free socket head pos lt =>
    exact grows_onTransport (f := fun tr => { tr with
      written := tr.written ++ List.take n _, taken := tr.taken ++ [_] })
      fun tr => ⟨List.prefix_append _ _, List.prefix_append _ _⟩
  | sendAll batchQueued tick free socket head pos batch =>
    exact grows_onTransport (f := fun tr => { tr with
      written := tr.written ++ _, taken := tr.taken ++ [_] })
      fun tr => ⟨List.prefix_append _ _, List.prefix_append _ _⟩
  | owe packetId loop alive =>
    exact grows_onTransport (f := fun tr => { tr with
      owed := if w.state = .connected then tr.owed ++ [packetId] else tr.owed })
      fun tr => ⟨List.prefix_rfl, List.prefix_rfl⟩
  | acked p pendings loop alive settled =>
    exact grows_onTransport (f := fun tr => { tr with acks := tr.acks ++ [p] })
      fun tr => ⟨List.prefix_rfl, List.prefix_rfl⟩
  | _ => exact Grows.refl _

/-- The framing of a new client. -/
lemma framing_new (config : ClientConfig) (will : Will) (hasSocket : Bool) :
    Framing (World.new config will hasSocket) :=
  ⟨ledger_new config will hasSocket (.inl rfl) rfl, fun _ => rfl⟩

/-- **Outbound framing.** In every run in which no `handle` is called from the callback of a QoS 0
publish and no `disconnect` while a packet is partly sent, the bytes that each transport accepts are
at every moment complete packets in the order in which they were taken, followed by at most one
proper prefix, and what was taken and written stays in front of what comes later. -/
theorem outbound_framed (env : Env) (depth : ℕ) (config : ClientConfig) (will : Will) (hasSocket : Bool)
    (calls : List Call)
    (hkeeps : ∀ e ∈ (runCalls env depth (World.new config will hasSocket) calls).log,
      e.KeepsFraming) :
    (∀ m ∈ (runCalls env depth (World.new config will hasSocket) calls).moments, ∀ t,
      (m.transports t).Framed) ∧
    (runCalls env depth (World.new config will hasSocket) calls).moments.Pairwise Grows := by
  have hnew := coherent_new config will hasSocket
  have hr := (runCalls_reaches env depth hnew calls).reaches
  refine ⟨hr.moments hnew rfl (framing_new config will hasSocket)
    (fun _ _ hw h hlog hs => hs.framing hw h hlog) (fun w _ h t => ?_) hkeeps,
    hr.pairwise (R := Grows) (fun _ _ _ h h' => h.trans h') (fun _ _ hs => hs.grows) rfl⟩
  by_cases ht : w.socket = some t
  · exact (h.ledger.current t ht).framed
  · exact h.ledger.past t ht

instance (tr : Transport) : Decidable tr.Framed :=
  decidable_of_iff (tr.written = wire tr.taken ∨ ∃ last ∈ tr.taken.getLast?,
      ∃ n < last.bytes.length, tr.written = wire tr.taken.dropLast ++ last.bytes.take n) <| by
    refine or_congr_right ⟨?_, ?_⟩
    · rintro ⟨last, hlast, n, hn, hwritten⟩
      exact ⟨_, last, n, (List.dropLast_append_getLast? last hlast).symm, hn, hwritten⟩
    · rintro ⟨whole, last, n, htaken, hn, hwritten⟩
      exact ⟨last, by simp [htaken], n, hn, by simpa [htaken] using hwritten⟩

/-- `handle` is called. -/
def Event.isHandle : Event → Bool
  | .called (.handle _) => true
  | _ => false

/-- The calls of `handle`. -/
lemma Event.isHandle_iff {event : Event} :
    event.isHandle = true ↔ ∃ nowMs, event = .called (.handle nowMs) := by
  unfold Event.isHandle
  split
  · simp
  · rename_i hne
    simpa using hne

instance (e : Entry) : Decidable e.KeepsFraming :=
  decidable_of_iff ((e.event.isHandle = true → .markers ∉ e.before.frames) ∧
      (e.event = .called .disconnect → e.before.Alive → e.before.partialSend = none)) <| by
    rw [Entry.KeepsFraming, Event.isHandle_iff, forall_exists_index]

/-- A transport that takes one byte at first and everything later. -/
def shortEnv : Env := { Env.still with send := fun n => .ok (if n = 0 then 1 else 4096) }

/-- The rest of the CONNECT packet goes out before the DISCONNECT packet. -/
theorem outbound_framed_short :
    ((runCalls shortEnv 1 (World.new (.defaults false) {} true)
      [.connect, .handle 0, .handle 0, .disconnect]).transports 0).taken.length = 2 ∧
    (∀ m ∈ (runCalls shortEnv 1 (World.new (.defaults false) {} true)
      [.connect, .handle 0, .handle 0, .disconnect]).moments, ∀ t, (m.transports t).Framed) :=
  ⟨by decide +kernel, (outbound_framed shortEnv 1 (.defaults false) {} true
    [.connect, .handle 0, .handle 0, .disconnect] (by decide +kernel)).1⟩

/-- A `disconnect` after the first byte of the CONNECT packet puts its own packet in the middle. -/
theorem outbound_torn :
    ¬ ∀ m ∈ (runCalls shortEnv 1 (World.new (.defaults false) {} true)
      [.connect, .handle 0, .disconnect]).moments, ∀ t, (m.transports t).Framed := by
  intro h
  have hlast := h _ (List.mem_append_right _ (List.mem_singleton.mpr rfl)) 0
  revert hlast
  decide +kernel

end ChuMicro.Mqtt
