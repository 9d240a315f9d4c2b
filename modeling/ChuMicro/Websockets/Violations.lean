import ChuMicro.Websockets.Delivery

/-!
# Violations of the protocol

A session answers a violation of the protocol with a CLOSE and keeps reading until the peer answers.
There are two kinds. A frame whose header is bad makes the frame parser fail, and a parser that has
failed takes no byte any more. A frame that is whole and that the session rejects, for its mask, its
place in a message or its payload, only changes the state of the session: the parser is reset, and
what follows is read and delivered as before.

Both are proved for every session, every program that runs in the callbacks, and everything that may
happen to the session afterwards.

## Main definitions

* `Websockets.handle` — `handle` of an established session.
* `Websockets.Call` — what may happen to a session.
* `Websockets.Program` — what an application may do in a callback.
* `Websockets.Session.rejects` — the frames that a session rejects.

## Main results

* `Websockets.mute_run` — a session whose parser has failed delivers nothing.
* `Websockets.closedWith_dispatchFrame` — a rejected frame closes the session and is not delivered.
* `Websockets.silent_iff` — nothing is delivered after a violation if and only if the parser has
  detected it.
-/

namespace ChuMicro.Websockets

open Prog

/-! ## What may happen to a session -/

section Calls

variable (env : Env)

/-- `_maybe_emit_auto_ping`. -/
def maybeEmitAutoPing (nowMs : ℤ) : M Unit := do
  let s ← get
  match s.nextAutoPingTicks, s.config.pingIntervalMs with
  | some due, some interval =>
    if ticksDiff due nowMs > 0 then pure ()
    else do
      enqueueInternalFrame env OPCODE_PING []
      armPongDeadline env (some nowMs)
      let next ← deadlineAfter nowMs interval
      modify fun s => { s with nextAutoPingTicks := some next }
  | _, _ => pure ()

/-- `handle` of both sides, once the opening handshake is over. -/
def handle (nowMs : ℤ) : M Unit := do
  let s ← get
  if s.state = .closed then pure ()
  else do
    let expired ← checkTimeouts env nowMs
    if expired then pure ()
    else do
      drainInbound env nowMs
      drainOutbound env
      let s ← get
      when (s.config.isServer = false ∧ s.state = .opened) <| maybeEmitAutoPing env nowMs

/-- One round of `_drain_inbound`. -/
def receive (nowMs : ℤ) (maxBytes : ℕ) : M Unit := do
  match ← recvChunk env maxBytes with
  | none => pure ()
  | some [] => failWithError env (.protocolError "peer closed TCP without sending a CLOSE frame")
  | some chunk => feedFrameBytes env chunk nowMs

/-- One step of `next_message`: the first makes the queue, a later one takes its oldest message. -/
def nextMessage : M Unit :=
  modify fun s => { s with inboundToQueue := true, inboundQueue := s.inboundQueue.tail }

/-- What may happen to a session: bytes are fed to it, it goes through a stage of a tick or through
a whole tick, or it is called. -/
inductive Call where
  | feed (chunk : List UInt8) (nowMs : ℤ)
  | receive (nowMs : ℤ) (maxBytes : ℕ)
  | drainOutbound
  | checkTimeouts (nowMs : ℤ)
  | autoPing (nowMs : ℤ)
  | handle (nowMs : ℤ)
  | sendText (text : String)
  | sendBinary (data : List UInt8)
  | sendPing (payload : List UInt8)
  | close (code : ℕ) (reason : String)
  | nextMessage

/-- What it does. -/
def Call.run : Call → M Unit
  | .feed chunk nowMs => feedFrameBytes env chunk nowMs
  | .receive nowMs maxBytes => Websockets.receive env nowMs maxBytes
  | .drainOutbound => Websockets.drainOutbound env
  | .checkTimeouts nowMs => do
    let _ ← Websockets.checkTimeouts env nowMs
    pure ()
  | .autoPing nowMs => maybeEmitAutoPing env nowMs
  | .handle nowMs => Websockets.handle env nowMs
  | .sendText text => Websockets.sendText env text
  | .sendBinary data => Websockets.sendBinary env data
  | .sendPing payload => Websockets.sendPing env payload
  | .close code reason => Websockets.close env code reason
  | .nextMessage => Websockets.nextMessage

/-- One thing after the other; an exception goes to the caller, who goes on. -/
def runCalls (s : Session) (calls : List Call) : Session :=
  calls.foldl (fun s call => (call.run env s).2) s

end Calls

/-- **What an application may do in a callback**: look at the session, make any of its calls, act on
what a call returns or raises, and raise. A call that it makes has callbacks of its own, which may
again make calls, to any depth. -/
inductive Program : M Unit → Prop
  | done : Program (pure ())
  | raise (e : Exn) : Program (throw e)
  | look (k : Session → M Unit) (hk : ∀ s, Program (k s)) : Program (get >>= k)
  | call (env : Env) (henv : ∀ n, Program (env.callback n)) (c : Call)
      (k : Except Exn Unit → M Unit) (hk : ∀ r, Program (k r)) : Program (attempt (c.run env) k)

/-! ## A parser that has failed -/

/-- A message reaches the application. -/
def Event.delivers : Event → Bool
  | .onText _ | .onBinary _ | .queued _ => true
  | _ => false

/-- Between the two states no message was delivered. -/
abbrev Silent (s t : Session) : Prop := Shows (fun e => e.delivers = false) s t

/-- If the parser has failed, it stays so and no message is delivered. -/
def Mute (s t : Session) : Prop :=
  s.frameParser.state = .error → t.frameParser.state = .error ∧ Silent s t

instance : Std.Refl Mute where
  refl s h := ⟨h, Std.Refl.refl s⟩

instance : IsTrans Session Mute where
  trans s t u := by
    intro hst htu hs
    obtain ⟨ht, hsilent⟩ := hst hs
    obtain ⟨hu, hsilent'⟩ := htu ht
    exact ⟨hu, IsTrans.trans _ _ _ hsilent hsilent'⟩

section Mute

variable {env : Env}

/-- What is aside of receiving is mute. -/
lemma mute_of_aside {s t : Session} (h : Aside s t) : Mute s t := by
  simp only [Aside, Session.looked, Prod.mk.injEq] at h
  exact fun hs => ⟨by rwa [h.2.2.1], [], by simp [h.2.2.2.2.2.1], by simp⟩

lemma mute_of_quiet {α : Type} {m : M α} (h : Within Quiet m) : Within Mute m :=
  h.mono fun _ _ hst hs => ⟨by rwa [hst.parser_eq], [], hst.events_eq, by simp⟩

/-- A change that leaves the parser and the events alone. -/
lemma mute_modify {f : Session → Session}
    (h : ∀ s, (f s).frameParser = s.frameParser ∧ (f s).events = s.events) :
    Within Mute (modify f : M Unit) :=
  within_modify fun s hs => ⟨by rwa [(h s).1], [], by simp [(h s).2], by simp⟩

lemma mute_deadlineAfter (now delta : ℤ) : Within Mute (deadlineAfter now delta) := within_lift _

/-- The deadline of a PONG. -/
lemma mute_armPongDeadline (nowMs : Option ℤ) : Within Mute (armPongDeadline env nowMs) := by
  refine within_get fun s => ?_
  split
  · have hset : ∀ now timeout, Within Mute (do
        let deadline ← deadlineAfter now timeout
        modify fun s => { s with pendingPingDeadlineTicks := some deadline } : M Unit) :=
      fun _ _ => within_bind (mute_deadlineAfter _ _) fun _ => mute_modify fun _ => ⟨rfl, rfl⟩
    cases nowMs with
    | none => exact within_bind (aside_ticksMs.mono fun _ _ => mute_of_aside) fun _ => hset _ _
    | some now => exact within_bind (within_pure _) fun _ => hset _ _
  · exact within_pure _

/-- Sending delivers nothing. -/
lemma mute_sendOpen (call : String) (opcode : ℕ) (payload : List UInt8) :
    Within Mute (sendOpen env call opcode payload) :=
  (aside_sendOpen _ _ _).mono fun _ _ => mute_of_aside

lemma mute_sendPing (payload : List UInt8) : Within Mute (sendPing env payload) :=
  within_bind (mute_sendOpen _ _ _) fun _ => mute_armPongDeadline _

/-- Nor does `close`. -/
lemma mute_close (code : ℕ) (reason : String) : Within Mute (close env code reason) := by
  refine within_bind (mute_modify fun _ => ⟨rfl, rfl⟩) fun _ => within_get fun s => ?_
  exact within_ite (within_throw _) (mute_of_quiet (quiet_sendClose _ _ _))

lemma mute_maybeEmitAutoPing (nowMs : ℤ) : Within Mute (maybeEmitAutoPing env nowMs) := by
  refine within_get fun s => ?_
  split
  · refine within_ite (within_pure _) ?_
    refine within_bind ((aside_enqueueInternalFrame _ _).mono fun _ _ => mute_of_aside) fun _ => ?_
    refine within_bind (mute_armPongDeadline _) fun _ => ?_
    exact within_bind (mute_deadlineAfter _ _) fun _ => mute_modify fun _ => ⟨rfl, rfl⟩
  · exact within_pure _

/-- A parser that has failed takes no byte. -/
lemma mute_feedFrameBytes (chunk : List UInt8) (nowMs : ℤ) :
    Within Mute (feedFrameBytes env chunk nowMs) := by
  intro s hs
  have hskip : feedFrameBytes env chunk nowMs s = (.ok (), s) := by
    change (if s.frameParser.state = .error then pure () else _ : M Unit) s = _
    rw [if_pos hs]
    rfl
  rw [hskip]
  exact ⟨hs, Std.Refl.refl s⟩

variable (hcallback : ∀ n, Within Mute (env.callback n))

include hcallback

/-- An event that delivers no message. -/
lemma mute_fire {event : Event} (h : event.delivers = false) : Within Mute (fire env event) := by
  refine within_get fun s => within_bind (within_modify fun s hs => ?_) fun _ => hcallback _
  exact ⟨hs, [event], by simp [h]⟩

/-- The end of a session. -/
lemma mute_onClose (code : ℕ) : Within Mute (do
    dropTransport
    onFinalized
    let s ← get
    fire env (.onClose (s.lastCloseCode.getD code) s.lastCloseReason)) := by
  refine within_bind (mute_modify fun _ => ⟨rfl, rfl⟩) fun _ => ?_
  refine within_bind (mute_modify fun s => ?_) fun _ => within_get fun s => mute_fire hcallback rfl
  split_ifs
  · exact ⟨rfl, rfl⟩
  · exact ⟨rfl, rfl⟩

/-- `_fail_with_error` delivers nothing. -/
lemma mute_failWithError (error : Exn) : Within Mute (failWithError env error) := by
  have hchange : ∀ c : Prop, ∀ [Decidable c], ∀ f : Session → Session,
      (∀ s, (f s).frameParser = s.frameParser ∧ (f s).events = s.events) →
      Within Mute (when c (modify f : M Unit)) := fun _ _ _ h => within_when (mute_modify h)
  refine within_get fun s => within_bind (hchange _ _ fun _ => ⟨rfl, rfl⟩) fun _ => ?_
  exact within_bind (hchange _ _ fun _ => ⟨rfl, rfl⟩) fun _ => mute_onClose hcallback _

lemma mute_drainOutbound : Within Mute (drainOutbound env) :=
  within_get fun _ =>
    within_drainOutboundLoop (fun _ _ => mute_of_aside) (mute_failWithError hcallback) _ _

/-- Nor does `_finalize_closed`. -/
lemma mute_finalizeClosed : Within Mute (finalizeClosed env) := by
  refine within_bind (mute_modify fun _ => ⟨rfl, rfl⟩) fun _ => within_get fun s => ?_
  refine within_bind (within_when (mute_drainOutbound hcallback)) ?_
  exact fun _ => mute_onClose hcallback _

/-- Nor does a timer. -/
lemma mute_checkTimeouts (nowMs : ℤ) : Within Mute (checkTimeouts env nowMs) := by
  refine within_get fun s => within_ite ?_ (within_ite ?_ (within_ite ?_ (within_pure _)))
  · exact within_bind (mute_failWithError hcallback _) fun _ => within_pure _
  · refine within_bind (mute_modify fun _ => ⟨rfl, rfl⟩) fun _ => ?_
    exact within_bind (mute_finalizeClosed hcallback) fun _ => within_pure _
  · exact within_bind (mute_failWithError hcallback _) fun _ => within_pure _

/-- With a failed parser, receiving delivers nothing. -/
lemma mute_receive (nowMs : ℤ) (maxBytes : ℕ) : Within Mute (receive env nowMs maxBytes) := by
  have hfail := mute_failWithError hcallback
  refine within_bind (within_recvChunk (fun _ _ => mute_of_aside) hfail _) fun received => ?_
  split
  · exact within_pure _
  · exact mute_failWithError hcallback _
  · exact mute_feedFrameBytes _ _

/-- Nor does `handle`. -/
lemma mute_handle (nowMs : ℤ) : Within Mute (handle env nowMs) := by
  refine within_get fun s => within_ite (within_pure _) ?_
  refine within_bind (mute_checkTimeouts hcallback _) fun expired => within_ite (within_pure _) ?_
  refine within_bind (within_get fun s => within_drainInboundLoop (fun _ _ => mute_of_aside)
    (mute_failWithError hcallback) (fun _ => mute_feedFrameBytes _ _) _ _) fun _ => ?_
  refine within_bind (mute_drainOutbound hcallback) fun _ => ?_
  exact within_get fun s => within_when (mute_maybeEmitAutoPing _)

/-- **No call delivers anything** once the parser has failed. -/
lemma mute_call (call : Call) : Within Mute (call.run env) := by
  cases call with
  | feed chunk nowMs => exact mute_feedFrameBytes _ _
  | receive nowMs maxBytes => exact mute_receive hcallback _ _
  | drainOutbound => exact mute_drainOutbound hcallback
  | checkTimeouts nowMs =>
    exact within_bind (mute_checkTimeouts hcallback _) fun _ => within_pure _
  | autoPing nowMs => exact mute_maybeEmitAutoPing _
  | handle nowMs => exact mute_handle hcallback _
  | sendText text => exact mute_sendOpen _ _ _
  | sendBinary data => exact mute_sendOpen _ _ _
  | sendPing payload => exact mute_sendPing _
  | close code reason => exact mute_close _ _
  | nextMessage => exact mute_modify fun _ => ⟨rfl, rfl⟩

end Mute

/-- Whatever an application does in a callback, it does not make a failed parser deliver.

**Proof sketch.** Induction on the program; a call that it makes has programs for callbacks, of
which this is known. -/
lemma Program.mute {m : M Unit} (h : Program m) : Within Mute m := by
  induction h with
  | done => exact within_pure _
  | raise e => exact within_throw _
  | look k _ ih => exact within_get ih
  | call env _ c k _ hcallback ih => exact within_attempt (mute_call hcallback c) ih

/-- **A session whose parser has failed delivers nothing**, whatever happens to it. -/
theorem mute_run {env : Env} (henv : ∀ n, Program (env.callback n)) (s : Session)
    (calls : List Call) : Mute s (runCalls env s calls) := by
  induction calls generalizing s with
  | nil => exact Std.Refl.refl s
  | cons call calls ih =>
    exact IsTrans.trans _ _ _ (mute_call (fun n => (henv n).mute) call s) (ih _)

/-! ## Frames that are rejected -/

/-- The fields of reassembly with the opcode and the length of a frame counted. -/
def Inbound.counting (i : Inbound) (f : Frame) : Inbound :=
  { i with
    messageOpcode := some (i.messageOpcode.getD f.opcode)
    reportedLength := i.reportedLength + f.reportedLength }

/-- What a counted data frame completes. -/
def Inbound.completes (cap : ℕ) (i : Inbound) (f : Frame) : Option Outcome :=
  let extended := i.extend cap f.payload
  if f.fin = false then none
  else if f.oversized then some (.oversized i.reportedLength)
  else if i.messageBuffer = [] then
    if f.payload.length > cap then some (.oversized i.reportedLength)
    else some (.message (i.messageOpcode.getD 0) f.payload)
  else if extended.oversized then some (.oversized i.reportedLength)
  else some (.message (i.messageOpcode.getD 0) extended.messageBuffer)

/-- The close code for a completed message: for a text that is not UTF-8, and for a message that is
oversized under `DISCONNECT`. -/
def Outcome.closeCode (policy : WhenOversized) : Outcome → Option ℕ
  | .message opcode payload =>
    if opcode = OPCODE_TEXT ∧ (decodeUtf8 payload).toOption = none then some CLOSE_BAD_DATA
    else none
  | .oversized _ => if policy = .disconnect then some CLOSE_TOO_BIG else none

/-- **The frames that a session rejects**, with the close code: frames with the wrong masking, a
CLOSE with a bad payload, a CONTINUATION without a message and a new message within another, one
empty fragment too many, and the last frame of a message that is not acceptable. -/
def Session.rejects (s : Session) (f : Frame) : Option ℕ :=
  if f.hadMask ≠ s.config.isServer then some CLOSE_PROTOCOL_ERROR
  else if f.opcode = OPCODE_CLOSE then
    if (parseClosePayload (fun _ => "") f.payload).toOption = none then some CLOSE_PROTOCOL_ERROR
    else none
  else if f.opcode = OPCODE_PING ∨ f.opcode = OPCODE_PONG then none
  else if f.opcode = OPCODE_CONTINUATION ↔ s.inbound.messageOpcode = none then
    some CLOSE_PROTOCOL_ERROR
  else if f.reportedLength = 0 ∧ f.fin = false ∧
      s.inbound.emptyFragmentRun ≥ MAX_EMPTY_FRAGMENT_RUN then some CLOSE_PROTOCOL_ERROR
  else ((s.inbound.counting f).completes s.config.maxMessageBytes f).bind
    (Outcome.closeCode s.config.whenOversized)

/-- The session has closed with `code` after `s`: a CLOSE is queued unless the queue is full, and
nothing that concerns receiving has changed, except that the fields of reassembly may have. -/
structure ClosedWith (s : Session) (code : ℕ) (t : Session) : Prop where
  state_eq : t.state = .closing
  code_eq : s.lastCloseCode = none → t.lastCloseCode = some code
  queued : s.txQueue.length < s.config.txQueueHardCap →
    ∃ bytes, t.enqueued = s.enqueued ++ [⟨OPCODE_CLOSE, false, bytes⟩]
  silent : Silent s t
  config_eq : t.config = s.config
  toQueue_eq : t.inboundToQueue = s.inboundToQueue
  parser_eq : t.frameParser = s.frameParser

section ClosedWith

variable {env : Env} {s t : Session} {code : ℕ} {now : ℤ}

variable (hkey : ∀ n, (env.maskKey n).length = 4)

include hkey

/-- A CLOSE is queued unless the queue is full. -/
lemma enqueueClose_spec {payload : List UInt8}
    (hlen : payload.length ≤ MAX_CONTROL_PAYLOAD_BYTES) :
    wp (enqueueInternalFrame env OPCODE_CLOSE payload)
      (fun _ t => Quiet s t ∧ t.lastCloseCode = s.lastCloseCode ∧
        (s.txQueue.length < s.config.txQueueHardCap →
          ∃ bytes, t.enqueued = s.enqueued ++ [⟨OPCODE_CLOSE, false, bytes⟩]))
      (fun _ _ => False) s := by
  unfold enqueueInternalFrame appendFrame outboundMask
  rw [wp_bind, wp_get]
  dsimp only
  rw [wp_ite, wp_pure]
  refine ⟨fun hfull => ⟨takes_self s, rfl, fun hroom => ?_⟩, fun _ => ?_⟩
  · rw [if_neg (by simp)] at hfull
    exact absurd hroom (by omega)
  rw [wp_bind, wp_bind, wp_get]
  by_cases hserver : s.config.isServer = true
  · obtain ⟨b, hb⟩ := @encodeFrame_ok OPCODE_CLOSE payload true none hlen (by simp)
    rw [if_pos hserver, wp_pure, hb, wp_bind, wp_lift_ok, wp_modify]
    exact ⟨⟨rfl, rfl, rfl, rfl, (List.append_nil _).symm, id⟩, rfl, fun _ => ⟨b, rfl⟩⟩
  · obtain ⟨b, hb⟩ := @encodeFrame_ok OPCODE_CLOSE payload true (some (env.maskKey s.masks)) hlen
      (fun key hk => Option.some.inj hk ▸ hkey s.masks)
    rw [if_neg hserver, wp_bind, wp_modify, wp_pure, hb, wp_bind, wp_lift_ok, wp_modify]
    exact ⟨⟨rfl, rfl, rfl, rfl, (List.append_nil _).symm, id⟩, rfl, fun _ => ⟨b, rfl⟩⟩

/-- **Closing an open session**, also if `ticks_add` raises for its close timeout. -/
lemma closedWith_sendClose (hopen : s.state = .opened) (hcode : code < 65536) (reason : String) :
    wp (sendClose env code reason (some now)) (fun _ => ClosedWith s code)
      (fun _ => ClosedWith s code) s := by
  unfold sendClose
  rw [wp_bind, wp_get, wp_ite]
  refine ⟨fun h => by simp [hopen] at h, fun _ => ?_⟩
  have hrest : ∀ payload : List UInt8, payload.length ≤ MAX_CONTROL_PAYLOAD_BYTES →
      wp (do
        enqueueInternalFrame env OPCODE_CLOSE payload
        when (s.lastCloseCode = none) <|
          modify fun s => { s with lastCloseCode := some code, lastCloseReason := reason }
        modify fun s => { s with state := .closing, log := s.log ++ [Entry.became .closing] }
        let now ← pure now
        let deadline ← deadlineAfter now s.config.closeTimeoutMs
        modify fun s => { s with closeDeadlineTicks := some deadline } : M Unit)
        (fun _ => ClosedWith s code) (fun _ => ClosedWith s code) s := by
    intro payload hlen
    rw [wp_bind]
    refine wp_mono (enqueueClose_spec hkey hlen) (fun _ t ht => ?_) (fun _ _ h => h.elim)
    obtain ⟨hquiet, hlast, hqueued⟩ := ht
    have hclosed : ∀ u : Session, u.state = .closing →
        u.lastCloseCode = t.lastCloseCode.or (some code) → u.enqueued = t.enqueued →
        u.events = t.events → u.config = t.config →
        u.inboundToQueue = t.inboundToQueue → u.frameParser = t.frameParser →
        ClosedWith s code u := fun u hst hc hq he hcfg hto hp =>
      { state_eq := hst
        code_eq := fun hnone => by rw [hc, hlast, hnone]; rfl
        queued := fun hroom => by rw [hq]; exact hqueued hroom
        silent := ⟨[], by rw [he, hquiet.events_eq], by simp⟩
        config_eq := hcfg.trans hquiet.config_eq
        toQueue_eq := hto.trans hquiet.toQueue_eq
        parser_eq := hp.trans hquiet.parser_eq }
    rw [wp_bind, wp_when]
    rw [← hlast]
    refine ⟨fun hnone => ?_, fun hsome => ?_⟩
    · rw [wp_modify, wp_bind, wp_modify, wp_bind, wp_pure, wp_bind, deadlineAfter]
      rcases liftPy (ticksAdd now s.config.closeTimeoutMs) with e | deadline
      · rw [wp_lift_error]
        exact hclosed _ rfl (by simp [hnone]) rfl rfl rfl rfl rfl
      · rw [wp_lift_ok, wp_modify]
        exact hclosed _ rfl (by simp [hnone]) rfl rfl rfl rfl rfl
    · obtain ⟨c, hc⟩ := Option.ne_none_iff_exists'.mp hsome
      rw [wp_bind, wp_modify, wp_bind, wp_pure, wp_bind, deadlineAfter]
      rcases liftPy (ticksAdd now s.config.closeTimeoutMs) with e | deadline
      · rw [wp_lift_error]
        exact hclosed _ rfl (by simp [hc]) rfl rfl rfl rfl rfl
      · rw [wp_lift_ok, wp_modify]
        exact hclosed _ rfl (by simp [hc]) rfl rfl rfl rfl rfl
  rw [wp_bind, wp_tryCatch]
  rcases encodeClosePayload_cases hcode reason with ⟨payload, hpay, hlen⟩ | ⟨message, hpay⟩
  · rw [hpay, wp_lift_ok]
    exact hrest payload hlen
  · rw [hpay, wp_lift_error]
    exact hrest [] (Nat.zero_le _)

/-- The specification of a handler that closes the session. -/
def Closes {α : Type} (m : M α) (s : Session) (code : ℕ) : Prop :=
  wp m (fun _ => ClosedWith s code) (fun _ => ClosedWith s code) s

omit hkey in
/-- A handler in front of which the fields of reassembly were changed. -/
lemma Closes.changed {α : Type} {m : M α} {i : Inbound}
    (h : Closes m { s with inbound := i } code) :
    wp m (fun _ => ClosedWith s code) (fun _ => ClosedWith s code) { s with inbound := i } := by
  have hsame : ∀ t, ClosedWith { s with inbound := i } code t → ClosedWith s code t := fun t ht =>
    ⟨ht.state_eq, ht.code_eq, ht.queued, ht.silent, ht.config_eq, ht.toQueue_eq, ht.parser_eq⟩
  exact wp_mono h (fun _ t ht => hsame t ht) (fun _ t ht => hsame t ht)

/-- Noting a message that is not delivered, and closing for it. -/
lemma closes_note (hopen : s.state = .opened) (hcode : code < 65536) {event : Event}
    (h : event.delivers = false) (reason : String) :
    Closes (do note event; sendClose env code reason (some now)) s code := by
  have hsame : ∀ t, ClosedWith { s with events := s.events ++ [event] } code t →
      ClosedWith s code t := fun t ht =>
    ⟨ht.state_eq, ht.code_eq, ht.queued,
      IsTrans.trans _ _ _ ⟨[event], rfl, by simpa using h⟩ ht.silent, ht.config_eq, ht.toQueue_eq,
      ht.parser_eq⟩
  rw [Closes, note, wp_bind, wp_modify]
  have hclose := @closedWith_sendClose env { s with events := s.events ++ [event] } code now hkey
    hopen hcode reason
  exact wp_mono hclose (fun _ t ht => hsame t ht) (fun _ t ht => hsame t ht)

/-- An oversized message closes, by policy. -/
lemma closes_finishOversizedMessage (hopen : s.state = .opened)
    (h : Outcome.closeCode s.config.whenOversized (.oversized s.inbound.reportedLength) =
      some code) :
    Closes (finishOversizedMessage env now) s code := by
  simp only [Outcome.closeCode] at h
  split_ifs at h with hpolicy
  cases h
  unfold finishOversizedMessage
  rw [Closes, wp_bind, wp_get, resetInboundState, wp_bind, wp_modify, hpolicy]
  have hclose : ∀ reason, Closes (do
      note (.tooBig s.inbound.reportedLength)
      sendClose env CLOSE_TOO_BIG reason (some now)) { s with inbound := {} } CLOSE_TOO_BIG :=
    fun _ => closes_note (s := { s with inbound := {} }) hkey hopen (by decide) rfl _
  exact (hclose _).changed

/-- So does a message that is no text. -/
lemma closes_deliverMessage (hopen : s.state = .opened) {opcode : ℕ} {payload : List UInt8}
    (h : Outcome.closeCode s.config.whenOversized (.message opcode payload) = some code) :
    Closes (deliverMessage env opcode payload now) s code := by
  simp only [Outcome.closeCode] at h
  split_ifs at h with hbad
  cases h
  obtain ⟨htext, hbad⟩ := hbad
  unfold deliverMessage validateTextPayload
  rw [Closes, wp_bind, wp_get, if_pos htext]
  rcases hdec : decodeUtf8 payload with e | text
  · have hclose : Closes (do
        note (.badData payload)
        sendClose env CLOSE_BAD_DATA
          s!"text payload is not valid UTF-8: {env.decodeErrorText payload}" (some now)) s
        CLOSE_BAD_DATA := closes_note hkey hopen (by decide) rfl _
    rw [Closes, note, wp_bind, wp_modify] at hclose
    rw [note, wp_bind, wp_modify, wp_bind]
    refine wp_mono hclose (fun _ t ht => ?_) (fun _ _ ht => ht)
    exact ⟨ht.state_eq, ht.code_eq, ht.queued, ht.silent, ht.config_eq, ht.toQueue_eq, ht.parser_eq⟩
  · rw [hdec] at hbad
    cases hbad

/-- The end of a frame closes where its message does. -/
lemma closes_finishDataFrame (hopen : s.state = .opened)
    (h : (if s.inbound.oversized then Outcome.oversized s.inbound.reportedLength
      else .message (s.inbound.messageOpcode.getD 0) s.inbound.messageBuffer).closeCode
        s.config.whenOversized = some code) :
    Closes (finishDataFrame env true now) s code := by
  unfold finishDataFrame
  rw [Closes, wp_bind, wp_get, if_neg (by simp)]
  by_cases hover : s.inbound.oversized = true
  · rw [if_pos hover] at h ⊢
    exact closes_finishOversizedMessage hkey hopen h
  · rw [if_neg hover] at h ⊢
    rw [resetInboundState, wp_bind, wp_modify]
    exact (closes_deliverMessage (s := { s with inbound := {} }) hkey hopen h).changed

/-- A payload closes where the message that it completes does. -/
lemma closes_takeDataPayload (hopen : s.state = .opened) {p : FrameParser}
    (h : (s.inbound.completes s.config.maxMessageBytes p.frame).bind
      (Outcome.closeCode s.config.whenOversized) = some code) :
    Closes (takeDataPayload env p now) s code := by
  unfold Inbound.completes at h
  unfold takeDataPayload
  rw [Closes, wp_bind, wp_get]
  by_cases hfin : p.frame.fin = false
  · rw [if_pos hfin] at h
    cases h
  have hfin' : p.fin = true := (Bool.not_eq_false _).mp hfin
  rw [if_neg hfin] at h
  rw [hfin']
  have hmarked : Outcome.closeCode s.config.whenOversized (.oversized s.inbound.reportedLength) =
      some code → wp (do
        modify fun s => { s with inbound := { s.inbound with oversized := true } }
        finishDataFrame env true now) (fun _ => ClosedWith s code) (fun _ => ClosedWith s code)
        s := by
    intro hcode
    rw [wp_bind, wp_modify]
    exact (closes_finishDataFrame (s := { s with inbound := { s.inbound with oversized := true } })
      hkey hopen hcode).changed
  by_cases hover : p.frame.oversized = true
  · have hover' : p.oversized = true := hover
    rw [if_pos hover] at h
    rw [if_pos hover']
    exact hmarked h
  have hover' : ¬ p.oversized = true := hover
  rw [if_neg hover] at h
  rw [if_neg hover']
  by_cases hbuffer : s.inbound.messageBuffer = []
  · rw [if_pos hbuffer] at h
    rw [if_pos ⟨rfl, hbuffer⟩]
    by_cases hbig : p.frame.payload.length > s.config.maxMessageBytes
    · have hbig' : p.payload.length > s.config.maxMessageBytes := hbig
      rw [if_pos hbig] at h
      rw [if_pos hbig']
      exact hmarked h
    · have hbig' : ¬ p.payload.length > s.config.maxMessageBytes := hbig
      rw [if_neg hbig] at h
      rw [if_neg hbig', resetInboundState, wp_bind, wp_modify]
      exact (closes_deliverMessage (s := { s with inbound := {} }) hkey hopen h).changed
  · rw [if_neg hbuffer] at h
    rw [if_neg (fun hfast => hbuffer hfast.2), extendInboundBuffer, wp_bind, wp_modify]
    have hext : (if s.inbound.oversized = true then s
        else if s.inbound.messageBuffer.length + p.payload.length > s.config.maxMessageBytes then
          { s with inbound := { s.inbound with oversized := true } }
        else { s with inbound :=
          { s.inbound with messageBuffer := s.inbound.messageBuffer ++ p.payload } }) =
        { s with inbound := s.inbound.extend s.config.maxMessageBytes p.payload } := by
      unfold Inbound.extend
      split_ifs <;> rfl
    have hlength : (s.inbound.extend s.config.maxMessageBytes p.payload).reportedLength =
        s.inbound.reportedLength := by
      unfold Inbound.extend
      split_ifs <;> rfl
    have hopcode : (s.inbound.extend s.config.maxMessageBytes p.payload).messageOpcode =
        s.inbound.messageOpcode := by
      unfold Inbound.extend
      split_ifs <;> rfl
    rw [hext]
    have hfinish := @closes_finishDataFrame env
      { s with inbound := s.inbound.extend s.config.maxMessageBytes p.payload } code now hkey hopen
    refine (hfinish ?_).changed
    dsimp only
    rw [hlength, hopcode]
    have hpayload : p.frame.payload = p.payload := rfl
    rw [hpayload] at h
    by_cases hbig : (s.inbound.extend s.config.maxMessageBytes p.payload).oversized = true
    · rw [if_pos hbig] at h ⊢
      exact h
    · rw [if_neg hbig] at h ⊢
      exact h

omit hkey in
/-- What a frame completes does not depend on the run of empty fragments. -/
lemma completes_run (cap n : ℕ) (i : Inbound) (f : Frame) :
    ({ i with emptyFragmentRun := n } : Inbound).completes cap f = i.completes cap f := by
  unfold Inbound.completes Inbound.extend
  dsimp only
  split_ifs <;> rfl

/-- A run of empty fragments closes the session. -/
lemma closes_countDataFrame (hopen : s.state = .opened) {p : FrameParser}
    (hsome : s.inbound.messageOpcode ≠ none)
    (h : (if p.frame.reportedLength = 0 ∧ p.frame.fin = false ∧
        s.inbound.emptyFragmentRun ≥ MAX_EMPTY_FRAGMENT_RUN then some CLOSE_PROTOCOL_ERROR
      else ((s.inbound.counting p.frame).completes s.config.maxMessageBytes p.frame).bind
        (Outcome.closeCode s.config.whenOversized)) = some code) :
    Closes (countDataFrame env p now) s code := by
  obtain ⟨op, hop⟩ := Option.ne_none_iff_exists'.mp hsome
  have hcounting : s.inbound.counting p.frame =
      { s.inbound with reportedLength := s.inbound.reportedLength + p.reportedLength } := by
    unfold Inbound.counting
    simp only [hop, Option.getD_some]
    rfl
  have htake : ∀ n, ((s.inbound.counting p.frame).completes s.config.maxMessageBytes p.frame).bind
      (Outcome.closeCode s.config.whenOversized) = some code →
      wp (takeDataPayload env p now) (fun _ => ClosedWith s code) (fun _ => ClosedWith s code)
        { s with inbound := { s.inbound with
          reportedLength := s.inbound.reportedLength + p.reportedLength
          emptyFragmentRun := n } } := by
    intro n hcode
    rw [hcounting, ← completes_run _ n] at hcode
    exact (closes_takeDataPayload (s := { s with inbound := { s.inbound with
      reportedLength := s.inbound.reportedLength + p.reportedLength, emptyFragmentRun := n } })
      hkey hopen hcode).changed
  unfold countDataFrame
  rw [Closes, wp_bind, wp_modify]
  by_cases hpos : p.reportedLength > 0
  · rw [if_neg (fun hempty => by have : p.reportedLength = 0 := hempty.1; omega)] at h
    rw [if_pos hpos, wp_bind, wp_modify]
    exact htake 0 h
  rw [if_neg hpos]
  by_cases hfin : p.fin = false
  · rw [if_pos hfin, wp_bind, wp_modify, wp_bind, wp_get]
    dsimp only
    by_cases hrun : s.inbound.emptyFragmentRun ≥ MAX_EMPTY_FRAGMENT_RUN
    · rw [if_pos ⟨Nat.eq_zero_of_not_pos hpos, hfin, hrun⟩] at h
      cases h
      rw [if_pos (by omega)]
      exact Closes.changed (closedWith_sendClose (s := { s with inbound := { s.inbound with
        reportedLength := s.inbound.reportedLength + p.reportedLength
        emptyFragmentRun := s.inbound.emptyFragmentRun + 1 } }) hkey hopen (by decide) _)
    · rw [if_neg (fun hempty => hrun hempty.2.2)] at h
      rw [if_neg (by omega)]
      exact htake _ h
  · rw [if_neg (fun hempty => hfin hempty.2.1)] at h
    rw [if_neg hfin]
    exact htake s.inbound.emptyFragmentRun h

/-- A data frame closes where it, or its message, is refused. -/
lemma closes_handleDataFrame (hopen : s.state = .opened)
    (h : (if s.frameParser.frame.opcode = OPCODE_CONTINUATION ↔ s.inbound.messageOpcode = none then
        some CLOSE_PROTOCOL_ERROR
      else if s.frameParser.frame.reportedLength = 0 ∧ s.frameParser.frame.fin = false ∧
        s.inbound.emptyFragmentRun ≥ MAX_EMPTY_FRAGMENT_RUN then some CLOSE_PROTOCOL_ERROR
      else ((s.inbound.counting s.frameParser.frame).completes s.config.maxMessageBytes
        s.frameParser.frame).bind (Outcome.closeCode s.config.whenOversized)) = some code) :
    Closes (handleDataFrame env now) s code := by
  unfold handleDataFrame
  rw [Closes, wp_bind, wp_get]
  dsimp only
  by_cases hcont : s.frameParser.opcode = OPCODE_CONTINUATION
  · rw [if_pos hcont]
    by_cases hnone : s.inbound.messageOpcode = none
    · rw [if_pos ⟨fun _ => hnone, fun _ => hcont⟩] at h
      cases h
      rw [if_pos hnone]
      exact closedWith_sendClose hkey hopen (by decide) _
    · rw [if_neg (fun hiff => hnone (hiff.mp hcont))] at h
      rw [if_neg hnone]
      exact closes_countDataFrame hkey hopen hnone h
  · rw [if_neg hcont]
    by_cases hnone : s.inbound.messageOpcode = none
    · rw [if_neg (fun hiff => hcont (hiff.mpr hnone))] at h
      rw [if_neg (not_not.mpr hnone), wp_bind, wp_modify]
      have hcount := @closes_countDataFrame env { s with inbound :=
        { s.inbound with messageOpcode := some s.frameParser.opcode } } code now hkey hopen
      refine (hcount (by simp) ?_).changed
      rw [← h]
      unfold Inbound.counting
      rw [hnone]
      rfl
    · rw [if_pos ⟨fun hc => absurd hc hcont, fun hn => absurd hn hnone⟩] at h
      cases h
      rw [if_pos hnone]
      exact closedWith_sendClose hkey hopen (by decide) _

omit hkey in
/-- Whether a close payload is accepted does not depend on the texts of decoding errors. -/
lemma parseClosePayload_toOption (errorText : List UInt8 → String) (payload : List UInt8) :
    (parseClosePayload errorText payload).toOption =
      (parseClosePayload (fun _ => "") payload).toOption := by
  unfold parseClosePayload
  split_ifs
  · rfl
  · rfl
  · dsimp only
    split_ifs
    · rfl
    · cases decodeUtf8 (payload.drop 2) <;> rfl

/-- **A rejected frame closes the session and is not delivered**; neither the parser nor the policy
of delivery changes. -/
theorem closedWith_dispatchFrame (hopen : s.state = .opened)
    (h : s.rejects s.frameParser.frame = some code) : Closes (dispatchFrame env now) s code := by
  unfold Session.rejects at h
  unfold dispatchFrame
  rw [Closes, wp_bind, wp_get]
  dsimp only
  by_cases hmask : s.frameParser.frame.hadMask ≠ s.config.isServer
  · have hmask' : s.frameParser.hadMask ≠ s.config.isServer := hmask
    rw [if_pos hmask] at h
    cases h
    rw [if_pos hmask']
    exact closedWith_sendClose hkey hopen (by decide) _
  have hmask' : ¬ s.frameParser.hadMask ≠ s.config.isServer := hmask
  rw [if_neg hmask] at h
  rw [if_neg hmask']
  by_cases hclose : s.frameParser.frame.opcode = OPCODE_CLOSE
  · have hclose' : s.frameParser.opcode = OPCODE_CLOSE := hclose
    rw [if_pos hclose] at h
    rw [if_pos hclose']
    split_ifs at h with hbad
    cases h
    rw [← parseClosePayload_toOption env.decodeErrorText] at hbad
    unfold handleCloseFrame
    rcases hparse : parseClosePayload env.decodeErrorText s.frameParser.payload with e | r
    · rw [wp_bind]
      refine wp_mono (closedWith_sendClose hkey hopen (by decide) _) (fun _ t ht => ?_)
        (fun _ _ ht => ht)
      exact ⟨ht.state_eq, ht.code_eq, ht.queued, ht.silent, ht.config_eq, ht.toQueue_eq,
        ht.parser_eq⟩
    · rw [show s.frameParser.frame.payload = s.frameParser.payload from rfl, hparse] at hbad
      cases hbad
  have hclose' : ¬ s.frameParser.opcode = OPCODE_CLOSE := hclose
  rw [if_neg hclose] at h
  rw [if_neg hclose']
  by_cases hcontrol : s.frameParser.frame.opcode = OPCODE_PING ∨
      s.frameParser.frame.opcode = OPCODE_PONG
  · rw [if_pos hcontrol] at h
    cases h
  · have hping : ¬ s.frameParser.opcode = OPCODE_PING := fun hping => hcontrol (.inl hping)
    have hpong : ¬ s.frameParser.opcode = OPCODE_PONG := fun hpong => hcontrol (.inr hpong)
    rw [if_neg hcontrol] at h
    rw [if_neg hping, if_neg hpong]
    exact closes_handleDataFrame hkey hopen h

end ClosedWith

/-! ## One round of reading -/

open FrameParser

section Round

variable {env : Env} {s : Session} {now : ℤ} {chunk : List UInt8} {offset rounds : ℕ}

/-- A round in which the parser fails is the last one, and leaves the parser failed. -/
lemma feedFrameLoop_fail (hwait : s.frameParser.Waiting) (hrounds : 0 < rounds) {e : Exn}
    (hscan : s.frameParser.scan (chunk.drop offset) = .fail e) :
    (feedFrameLoop env chunk now rounds offset s).2.frameParser.state = .error ∧
      Silent s (feedFrameLoop env chunk now rounds offset s).2 := by
  obtain ⟨rounds, rfl⟩ : ∃ n, rounds = n + 1 := ⟨rounds - 1, by omega⟩
  have hlt : ¬ offset ≥ chunk.length := by
    intro hge
    have hmore : s.frameParser.scan [] = .more := scan_short hwait hwait.need_pos
    rw [List.drop_eq_nil_of_le hge, hmore] at hscan
    cases hscan
  refine wp_state (P := fun t => t.frameParser.state = .error ∧ Silent s t) ?_
  obtain ⟨hout, herror⟩ := (@FrameParser.feed_spec s.frameParser chunk offset hwait).fail e hscan
  rcases hfeed : s.frameParser.feed chunk offset with ⟨r, p⟩
  rw [hfeed] at hout herror
  dsimp only at hout herror
  subst hout
  rw [feedFrameLoop, if_neg hlt, wp_bind, wp_get, hfeed]
  have hclosed : ∀ m : M Unit, Within Mute m → wp m
      (fun _ t => t.frameParser.state = .error ∧ Silent s t)
      (fun _ t => t.frameParser.state = .error ∧ Silent s t) { s with frameParser := p } := by
    intro m hm
    exact wp_mono (hm.wp { s with frameParser := p }) (fun _ _ h => h herror)
      (fun _ _ h => h herror)
  cases e with
  | protocolError message =>
    rw [wp_bind, wp_modify]
    exact hclosed _ (within_bind (mute_of_quiet (quiet_sendClose _ _ _)) fun _ =>
      mute_modify fun _ => ⟨rfl, rfl⟩)
  | _ =>
    rw [wp_bind, wp_modify]
    exact hclosed _ (within_throw _)

/-- A round in which a frame is complete dispatches it and goes on behind it. -/
lemma wp_feedFrameLoop_item (hwait : s.frameParser.Waiting) {f : Frame} {n : ℕ}
    (hscan : s.frameParser.scan (chunk.drop offset) = .item f n) :
    ∃ p, FrameParser.Reads s.frameParser f p ∧
      ∀ (Q : Unit → Session → Prop) (E : Exn → Session → Prop),
      wp (feedFrameLoop env chunk now (rounds + 1) offset) Q E s ↔
        wp (tryFinally (dispatchFrame env now) resetParser)
          (fun _ t => if t.state = .closed then Q () t
            else wp (feedFrameLoop env chunk now rounds (offset + n)) Q E t)
          E { s with frameParser := p } := by
  have hpos := scan_item_pos hwait hscan
  have hle := scan_item_le (.inr hwait) hscan
  rw [List.length_drop] at hle
  obtain ⟨hout, hreads⟩ := (@FrameParser.feed_spec s.frameParser chunk offset hwait).item f n hscan
  rcases hfeed : s.frameParser.feed chunk offset with ⟨r, p⟩
  rw [hfeed] at hout hreads
  dsimp only at hout hreads
  subst hout
  refine ⟨p, hreads, fun Q E => ?_⟩
  rw [feedFrameLoop, if_neg (by omega), wp_bind, wp_get, hfeed]
  dsimp only
  rw [wp_bind, wp_modify, if_neg (by omega), if_pos hreads.ready, wp_bind]
  have hnext : ∀ t : Session, wp (do
      let s ← get
      if s.state = .closed then pure ()
      else feedFrameLoop env chunk now rounds (offset + n) : M Unit) Q E t ↔
      if t.state = .closed then Q () t
      else wp (feedFrameLoop env chunk now rounds (offset + n)) Q E t := by
    intro t
    rw [wp_bind, wp_get]
    by_cases hclosed : t.state = .closed
    · rw [if_pos hclosed, if_pos hclosed, wp_pure]
    · rw [if_neg hclosed, if_neg hclosed]
  simp only [hnext]

end Round

/-! ## A closing session reads on -/

/-- In a closing session the computation returns, and the session is closing as before. -/
def Stays {α : Type} (m : M α) : Prop :=
  ∀ s, s.state = .closing → wp m (fun _ t => t.state = .closing) (fun _ _ => False) s

section Stays

variable {env : Env} {α β : Type}

lemma stays_pure (a : α) : Stays (pure a : M α) := fun _ hs => hs

lemma stays_get {f : Session → M β} (h : ∀ s, Stays (f s)) : Stays (get >>= f) :=
  fun s hs => h s s hs

lemma stays_bind {m : M α} {f : α → M β} (hm : Stays m) (hf : ∀ a, Stays (f a)) :
    Stays (m >>= f) := by
  intro s hs
  rw [wp_bind]
  exact wp_mono (hm s hs) (fun a t ht => hf a t ht) (fun _ _ h => h)

lemma stays_ite {c : Prop} [Decidable c] {m n : M α} (hm : Stays m) (hn : Stays n) :
    Stays (if c then m else n) := by
  split
  · exact hm
  · exact hn

lemma stays_modify {f : Session → Session} (h : ∀ s, (f s).state = s.state) :
    Stays (modify f : M Unit) := fun s hs => (h s).trans hs

/-- The CLOSE has been sent already. -/
lemma stays_sendClose (code : ℕ) (reason : String) (nowMs : Option ℤ) :
    Stays (sendClose env code reason nowMs) := by
  intro s hs
  rw [sendClose, wp_bind, wp_get, if_pos (.inl hs)]
  exact hs

variable (henv : Reliable env)

include henv

/-- A callback returns. -/
lemma stays_fire (event : Event) : Stays (fire env event) := by
  refine stays_get fun s => stays_bind (stays_modify fun _ => rfl) fun _ => ?_
  rw [henv.callback]
  exact stays_pure ()

/-- A message that is complete. -/
lemma stays_deliverMessage (opcode : ℕ) (payload : List UInt8) (nowMs : ℤ) :
    Stays (deliverMessage env opcode payload nowMs) := by
  have hqueue : ∀ message, Stays (enqueueInbound message) := fun _ => stays_modify fun _ => rfl
  refine stays_get fun s => stays_ite ?_ (stays_ite (hqueue _) (stays_fire henv _))
  rcases validateTextPayload env.decodeErrorText payload with e | text
  · refine stays_bind (stays_modify fun _ => rfl) fun _ => ?_
    exact stays_bind (stays_sendClose _ _ _) fun _ => stays_modify fun _ => rfl
  · exact stays_ite (hqueue _) (stays_fire henv _)

/-- The end of a frame. -/
lemma stays_finishDataFrame (fin : Bool) (nowMs : ℤ) : Stays (finishDataFrame env fin nowMs) := by
  refine stays_get fun s => stays_ite (stays_pure _) (stays_ite ?_ ?_)
  · refine stays_get fun s => stays_bind (stays_modify fun _ => rfl) fun _ => ?_
    cases s.config.whenOversized with
    | dropSilent => exact stays_modify fun _ => rfl
    | dropWithEvent => exact stays_fire henv _
    | disconnect => exact stays_bind (stays_modify fun _ => rfl) fun _ => stays_sendClose _ _ _
  · exact stays_bind (stays_modify fun _ => rfl) fun _ => stays_deliverMessage henv _ _ _

/-- A payload. -/
lemma stays_takeDataPayload (frame : FrameParser) (nowMs : ℤ) :
    Stays (takeDataPayload env frame nowMs) := by
  have hmarked : Stays (do
      modify fun s => { s with inbound := { s.inbound with oversized := true } }
      finishDataFrame env frame.fin nowMs) :=
    stays_bind (stays_modify fun _ => rfl) fun _ => stays_finishDataFrame henv _ _
  refine stays_get fun s => stays_ite hmarked (stays_ite (stays_ite hmarked ?_) ?_)
  · exact stays_bind (stays_modify fun _ => rfl) fun _ => stays_deliverMessage henv _ _ _
  · refine stays_bind (stays_modify fun s => ?_) fun _ => stays_finishDataFrame henv _ _
    split_ifs <;> rfl

/-- A data frame. -/
lemma stays_handleDataFrame (nowMs : ℤ) : Stays (handleDataFrame env nowMs) := by
  have hcount : ∀ frame, Stays (countDataFrame env frame nowMs) := by
    intro frame
    refine stays_bind (stays_modify fun _ => rfl) fun _ => stays_ite ?_ (stays_ite ?_ ?_)
    · exact stays_bind (stays_modify fun _ => rfl) fun _ => stays_takeDataPayload henv _ _
    · refine stays_bind (stays_modify fun _ => rfl) fun _ => stays_get fun s => ?_
      exact stays_ite (stays_sendClose _ _ _) (stays_takeDataPayload henv _ _)
    · exact stays_takeDataPayload henv _ _
  refine stays_get fun s => stays_ite (stays_ite (stays_sendClose _ _ _) (hcount _)) ?_
  refine stays_ite (stays_sendClose _ _ _) ?_
  exact stays_bind (stays_modify fun _ => rfl) fun _ => hcount _

end Stays

/-- The frame without a payload that ends the message in progress, or is a message of its own. -/
def Inbound.lastFrame (i : Inbound) : DataFrame :=
  ⟨true, if i.messageOpcode = none then OPCODE_BINARY else OPCODE_CONTINUATION, []⟩

lemma admits_lastFrame (i : Inbound) : Admits i i.lastFrame := by
  unfold Inbound.lastFrame
  by_cases hnone : i.messageOpcode = none
  · rw [if_pos hnone]
    exact ⟨by decide, by simp [hnone, OPCODE_BINARY, OPCODE_CONTINUATION], fun _ h => by cases h⟩
  · rw [if_neg hnone]
    exact ⟨by decide, by simp [hnone], fun _ h => by cases h⟩

/-- The last frame of a message leaves nothing of it. -/
lemma stepData_lastFrame (cap : ℕ) (i : Inbound) : (stepData cap i i.lastFrame).1 = {} := by
  unfold stepData takeData finishData Inbound.lastFrame
  dsimp only
  split_ifs <;> simp_all

/-- A session that has sent its CLOSE and waits for the next frame. -/
structure ReadsOn (t : Session) : Prop where
  closing : t.state = .closing
  fresh : ∃ cap lastError, t.frameParser = .fresh cap lastError

section ReadsOn

variable {env : Env} {t : Session}

/-- **The last frame of a message is taken** by a session that reads on, and shows what it
completes. -/
lemma readsOn_lastFrame (henv : Reliable env) (ht : ReadsOn t) :
    ∃ b, encodeFrame t.inbound.lastFrame.opcode [] true
        (if t.config.isServer then some [0, 0, 0, 0] else none) = .ok b ∧
      ∀ u, (feedFrameBytes env b 0 t).2 = u → ReadsOn u ∧ u.inbound = {} ∧
        u.config = t.config ∧ u.inboundToQueue = t.inboundToQueue ∧
        u.events = t.events ++ t.shown (stepData t.config.maxMessageBytes t.inbound
          t.inbound.lastFrame).2 := by
  obtain ⟨cap, lastError, hparser⟩ := ht.fresh
  generalize hkey : (if t.config.isServer then some [0, 0, 0, 0] else none : Option (List UInt8)) =
    mask
  have hmask : mask.isSome = t.config.isServer := by
    rw [← hkey]
    split_ifs with hserver
    · exact hserver.symm
    · simpa using hserver
  obtain ⟨b, hb⟩ := @encodeFrame_ok t.inbound.lastFrame.opcode [] true mask (Nat.zero_le _) (by
    intro key hk
    rw [← hkey] at hk
    split_ifs at hk
    cases hk
    rfl)
  refine ⟨b, hb, ?_⟩
  rintro u rfl
  have hadm := admits_lastFrame t.inbound
  have hwait : t.frameParser.Waiting := by
    rw [hparser]
    exact waiting_fresh _ _
  have hnot : ∀ op ∈ CONTROL_OPCODES, t.inbound.lastFrame.opcode ≠ op := by
    intro op hop heq
    have := hadm.opcode_mem
    rw [heq] at this
    revert hop this
    simp only [CONTROL_OPCODES, DATA_OPCODES, OPCODE_CLOSE, OPCODE_PING, OPCODE_PONG,
      OPCODE_CONTINUATION, OPCODE_TEXT, OPCODE_BINARY, List.mem_cons, List.not_mem_nil, or_false]
    omega
  have hscan : t.frameParser.scan b =
      .item (parsedFrame cap t.inbound.lastFrame.opcode [] true mask.isSome) b.length := by
    have := @scan_encodeFrame _ cap _ _ [] _ _ lastError hb (.inr hadm.opcode_mem) (fun _ => rfl)
    rwa [List.append_nil, ← hparser] at this
  obtain ⟨rounds, hrounds⟩ : ∃ n, b.length = n + 1 := by
    have := scan_item_pos hwait hscan
    exact ⟨b.length - 1, by omega⟩
  obtain ⟨p, hreads, hloop⟩ := @wp_feedFrameLoop_item env t 0 b 0 rounds hwait _ _ hscan
  have hframe := hreads.frame_eq
  simp only [frame, parsedFrame, Frame.mk.injEq] at hframe
  obtain ⟨hfin, hop, hhad, hlen, hover, hpay⟩ := hframe
  refine wp_state (P := fun u => ReadsOn u ∧ u.inbound = {} ∧ u.config = t.config ∧
    u.inboundToQueue = t.inboundToQueue ∧ u.events = t.events ++ t.shown
      (stepData t.config.maxMessageBytes t.inbound t.inbound.lastFrame).2) ?_
  rw [feedFrameBytes, wp_bind, wp_get, if_neg hwait.not_error, hrounds, hloop, wp_tryFinally]
  have hdispatch : dispatchFrame env 0 { t with frameParser := p } =
      handleDataFrame env 0 { t with frameParser := p } := by
    change (if p.hadMask ≠ t.config.isServer then _ else if p.opcode = OPCODE_CLOSE then _
      else if p.opcode = OPCODE_PING then _ else if p.opcode = OPCODE_PONG then _
      else _ : M Unit) _ = _
    rw [hhad, hop, if_neg (by rw [hmask]; exact fun h => h rfl), if_neg (hnot _ (by decide)),
      if_neg (hnot _ (by decide)), if_neg (hnot _ (by decide))]
  have hholds : Holds p t.config.maxMessageBytes t.inbound.lastFrame :=
    { fin_eq := hfin
      length_eq := hlen
      oversized_iff := by rw [hover]; simp [Inbound.lastFrame]
      payload_eq := fun _ => by rw [hpay]; simp [Inbound.lastFrame] }
  have hhandles := @handles_handleDataFrame env { t with frameParser := p } 0 henv
    t.inbound.lastFrame hholds hop hadm
  have hstays := stays_handleDataFrame henv 0 { t with frameParser := p } ht.closing
  rw [wp_congr hdispatch]
  refine wp_mono (wp_and hhandles hstays) (fun _ u hu => ?_) (fun _ u hu => hu.2.elim)
  obtain ⟨htakes, hclosing⟩ := hu
  have hopen : ¬ u.state = .closed := by simp [hclosing]
  rw [resetParser, wp_modify, if_neg hopen, if_neg hopen, Nat.zero_add]
  -- the frame was the whole chunk
  have hdone : feedFrameLoop env b 0 rounds b.length = pure () := by
    cases rounds with
    | zero => rfl
    | succ rounds => rw [feedFrameLoop, if_pos le_rfl]
  rw [hdone, wp_pure]
  refine ⟨⟨hclosing, p.maxPayloadBytes, p.lastError, ?_⟩, ?_, htakes.config_eq, htakes.toQueue_eq,
    htakes.events_eq⟩
  · rw [htakes.parser_eq]
    rfl
  · exact htakes.inbound_eq.trans (stepData_lastFrame _ _)

end ReadsOn

/-! ## Violations -/

/-- **The session detects a violation** at the end of the bytes `b`: the parser fails on them, or
they complete a frame that the session rejects. -/
def Session.Detects (s : Session) (b : List UInt8) : Prop :=
  (∃ e, s.frameParser.scan b = .fail e) ∨
    ∃ f, s.frameParser.scan b = .item f b.length ∧ s.rejects f ≠ none

/-- A frame that is rejected is dispatched and shows nothing, and the session reads on. -/
lemma readsOn_of_rejects {s : Session} {b : List UInt8} {f : Frame} (hopen : s.state = .opened)
    (hwait : s.frameParser.Waiting) (hscan : s.frameParser.scan b = .item f b.length)
    (hrejects : s.rejects f ≠ none) :
    ReadsOn (feedFrameLoop quietEnv b 0 b.length 0 s).2 ∧
      Silent s (feedFrameLoop quietEnv b 0 b.length 0 s).2 := by
  obtain ⟨code, hcode⟩ := Option.ne_none_iff_exists'.mp hrejects
  obtain ⟨rounds, hrounds⟩ : ∃ n, b.length = n + 1 := by
    have := scan_item_pos hwait hscan
    exact ⟨b.length - 1, by omega⟩
  obtain ⟨p, hreads, hloop⟩ := @wp_feedFrameLoop_item quietEnv s 0 b 0 rounds hwait _ _ hscan
  refine wp_state (P := fun t => ReadsOn t ∧ Silent s t) ?_
  rw [hrounds, hloop, wp_tryFinally]
  have hcloses := @closedWith_dispatchFrame quietEnv { s with frameParser := p } code 0
    reliable_quietEnv.maskKey hopen (by rw [hreads.frame_eq]; exact hcode)
  have hreset : ∀ t, ClosedWith { s with frameParser := p } code t →
      ReadsOn { t with frameParser := t.frameParser.reset } ∧
        Silent s { t with frameParser := t.frameParser.reset } := fun t ht =>
    ⟨⟨ht.state_eq, p.maxPayloadBytes, p.lastError, by rw [ht.parser_eq]; rfl⟩, ht.silent⟩
  refine wp_mono hcloses (fun _ t ht => ?_) (fun _ t ht => ?_)
  · have hopen' : ¬ t.state = .closed := by simp [ht.state_eq]
    rw [resetParser, wp_modify, if_neg hopen', if_neg hopen', Nat.zero_add]
    have hdone : feedFrameLoop quietEnv b 0 rounds b.length = pure () := by
      cases rounds with
      | zero => rfl
      | succ rounds => rw [feedFrameLoop, if_pos le_rfl]
    rw [hdone, wp_pure]
    exact hreset t ht
  · have hopen' : ¬ t.state = .closed := by simp [ht.state_eq]
    rw [resetParser, wp_modify, if_neg hopen']
    exact hreset t ht

/-- A session that reads on delivers a message when the peer goes on. -/
lemma delivers_of_readsOn {t : Session} (ht : ReadsOn t) :
    ∃ calls es, (runCalls quietEnv t calls).events = t.events ++ es ∧
      ∃ e ∈ es, e.delivers = true := by
  obtain ⟨b, -, hb⟩ := readsOn_lastFrame reliable_quietEnv ht
  generalize hu : (feedFrameBytes quietEnv b 0 t).2 = u at hb
  obtain ⟨hreads, hinbound, -, -, hevents⟩ := hb u rfl
  obtain ⟨b', -, hb'⟩ := readsOn_lastFrame reliable_quietEnv hreads
  obtain ⟨-, -, -, -, hevents'⟩ := hb' _ rfl
  rw [hevents, List.append_assoc, hinbound] at hevents'
  have hrun : runCalls quietEnv t [.feed b 0, .feed b' 0] = (feedFrameBytes quietEnv b' 0 u).2 := by
    rw [← hu]
    rfl
  rw [← hrun] at hevents'
  -- nothing was left of a message, so the second frame is one
  refine ⟨_, _, hevents', deliveryEvent u.inboundToQueue OPCODE_BINARY [], ?_, ?_⟩
  · refine List.mem_append_right _ ?_
    simp [Session.shown, stepData, takeData, Inbound.lastFrame, Inbound.count, Outcome.event]
  · unfold deliveryEvent
    rw [if_neg (by decide)]
    split_ifs <;> rfl

/-- **Nothing is delivered after a violation if and only if the frame parser has detected it.**

The violation is detected by an open session at the end of the bytes `b` of any chunk; the property
is that neither the rest of that chunk nor anything that happens to the session afterwards makes it
deliver a message, for every behaviour of the socket, the clock and the application.

**Proof sketch.** A parser that fails stays failed and takes no byte. After a frame that the session
rejects, its parser is between two frames: the peer may end the message in progress, if there is
one, and send another. -/
theorem silent_iff {s : Session} {b : List UInt8} (hopen : s.state = .opened)
    (hwait : s.frameParser.Waiting) (hdetects : s.Detects b) :
    (∀ env : Env, (∀ n, Program (env.callback n)) → ∀ (before rest : List UInt8) (nowMs : ℤ)
        (rounds : ℕ) (calls : List Call), b.length + rest.length ≤ rounds →
      Silent s (runCalls env
        (feedFrameLoop env (before ++ b ++ rest) nowMs rounds before.length s).2 calls)) ↔
    ∃ e, s.frameParser.scan b = .fail e := by
  constructor
  · intro hsilent
    rcases hdetects with hfail | ⟨f, hscan, hrejects⟩
    · exact hfail
    · exfalso
      obtain ⟨hreads, -⟩ := readsOn_of_rejects hopen hwait hscan hrejects
      obtain ⟨calls, es, hevents, e, he, hdelivers⟩ := delivers_of_readsOn hreads
      have hquiet : ∀ n, Program (quietEnv.callback n) := fun _ => .done
      obtain ⟨shown, hshown, hnone⟩ := hsilent quietEnv hquiet [] [] 0 b.length calls (by simp)
      simp only [List.nil_append, List.append_nil, List.length_nil] at hshown
      obtain ⟨first, hfirst, -⟩ := (readsOn_of_rejects hopen hwait hscan hrejects).2
      rw [hevents, hfirst, List.append_assoc] at hshown
      have hmem : e ∈ shown := by
        rw [← List.append_cancel_left hshown]
        exact List.mem_append_right _ he
      rw [hnone e hmem] at hdelivers
      cases hdelivers
  · rintro ⟨e, hfail⟩ env henv before rest nowMs rounds calls hrounds
    have hpos : 0 < rounds := by
      rcases b with _ | ⟨byte, b⟩
      · have hmore : s.frameParser.scan [] = .more := scan_short hwait hwait.need_pos
        rw [hmore] at hfail
        cases hfail
      · simp only [List.length_cons] at hrounds
        omega
    have hscan : s.frameParser.scan ((before ++ b ++ rest).drop before.length) = .fail e := by
      rw [List.append_assoc, List.drop_left,
        scan_append (.inr hwait) rest (by rw [hfail]; simp), hfail]
    obtain ⟨herror, hsilent⟩ := @feedFrameLoop_fail env _ nowMs _ _ _ hwait hpos _ hscan
    exact IsTrans.trans _ _ _ hsilent (mute_run henv _ calls herror).2

/-- A frame with a reserved bit, and a good frame behind it and another later: nothing is
delivered. -/
theorem silent_iff_reservedBit :
    Silent (Session.opening fourByteClient)
      (runCalls quietEnv (feedFrameLoop quietEnv ([] ++ [0xC2, 0] ++ [0x82, 1, 5]) 0 5 0
        (Session.opening fourByteClient)).2 [.feed [0x82, 1, 6] 10, .handle 20]) := by
  have hwait : (Session.opening fourByteClient).frameParser.Waiting := waiting_fresh _ _
  have hfail : ∃ e, (Session.opening fourByteClient).frameParser.scan [0xC2, 0] = .fail e :=
    ⟨_, scan_failed hwait (by decide) (by rfl)⟩
  exact (silent_iff rfl hwait (.inl hfail)).mpr hfail quietEnv (fun _ => .done) [] [0x82, 1, 5] 0 5
    [.feed [0x82, 1, 6] 10, .handle 20] (by decide)

/-- A CONTINUATION without a message closes the session with 1002, and the message behind it in the
same chunk is delivered. -/
theorem delivered_after_violation :
    (feedFrameBytes quietEnv [0x80, 0] 0 (Session.opening fourByteClient)).2.state = .closing ∧
    (feedFrameBytes quietEnv [0x80, 0] 0 (Session.opening fourByteClient)).2.lastCloseCode =
      some CLOSE_PROTOCOL_ERROR ∧
    (feedFrameBytes quietEnv [0x80, 0] 0 (Session.opening fourByteClient)).2.enqueued.map
      Enqueued.opcode = [OPCODE_CLOSE] ∧
    (feedFrameBytes quietEnv [0x80, 0] 0 (Session.opening fourByteClient)).2.events = [] ∧
    (feedFrameBytes quietEnv [0x80, 0, 0x82, 1, 5] 0 (Session.opening fourByteClient)).2.events =
      [.onBinary [5]] := by
  decide +kernel

end ChuMicro.Websockets
