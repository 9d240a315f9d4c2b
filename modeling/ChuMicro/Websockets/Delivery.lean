import ChuMicro.Websockets.FrameCodec
import ChuMicro.Websockets.Reassembly
import ChuMicro.Websockets.Traversal
import Mathlib.Tactic.FinCases

/-!
# Delivery of messages by a session

A session that is fed a stream of well-formed frames, in any pieces, shows for each message what
reassembly makes of it. Control frames between the fragments change nothing, and neither does the
cut. Only a CLOSE of its own, for a text that is not UTF-8 or under the policy `DISCONNECT`, may
make the session lose its place in the stream; what it has shown by then stays.

## Main definitions

* `Websockets.WellFormed` — the streams of frames that carry given messages.
* `Websockets.feedAll` — a session that is fed a stream piece by piece.
* `Websockets.Exact` — messages are delivered or reported exactly.

## Main results

* `Websockets.feedAll_follows` — a session shows what reassembly makes of the frames.
* `Websockets.reassembly_exact_iff` — delivery is exact if and only if no message has a drained
  head.
-/

namespace ChuMicro.Websockets

open Prog

/-! ## Sending -/

/-- `t` is `s` with `i` as the fields of reassembly and the events `shown` added. The fields that
only sending uses may have changed, and the session may be closing but is not closed. -/
structure Takes (s : Session) (i : Inbound) (shown : List Event) (t : Session) : Prop where
  config_eq : t.config = s.config
  toQueue_eq : t.inboundToQueue = s.inboundToQueue
  parser_eq : t.frameParser = s.frameParser
  inbound_eq : t.inbound = i
  events_eq : t.events = s.events ++ shown
  not_closed : s.state ≠ .closed → t.state ≠ .closed

lemma takes_self (s : Session) : Takes s s.inbound [] s :=
  ⟨rfl, rfl, rfl, rfl, (List.append_nil _).symm, id⟩

lemma Takes.trans {s t u : Session} {i j : Inbound} {shown shown' : List Event}
    (h : Takes s i shown t) (h' : Takes t j shown' u) : Takes s j (shown ++ shown') u where
  config_eq := h'.config_eq.trans h.config_eq
  toQueue_eq := h'.toQueue_eq.trans h.toQueue_eq
  parser_eq := h'.parser_eq.trans h.parser_eq
  inbound_eq := h'.inbound_eq
  events_eq := by rw [h'.events_eq, h.events_eq, List.append_assoc]
  not_closed hs := h'.not_closed (h.not_closed hs)

/-- Nothing that concerns receiving has changed. -/
def Quiet (s t : Session) : Prop := Takes s s.inbound [] t

instance : Std.Refl Quiet where
  refl := takes_self

instance : IsTrans Session Quiet where
  trans s t u hst htu := by
    have hin : t.inbound = s.inbound := hst.inbound_eq
    have := Takes.trans hst htu
    rwa [hin] at this

section Quiet

variable {env : Env}

/-- What is aside of receiving is quiet. -/
lemma quiet_of_aside {α : Type} {m : M α} (h : Within Aside m) : Within Quiet m := by
  refine h.mono fun s t hst => ?_
  simp only [Aside, Session.looked, Prod.mk.injEq] at hst
  obtain ⟨hc, hs, hp, hi, hq, he, -⟩ := hst
  exact ⟨hc, hq, hp, hi, by rw [he, List.append_nil], fun hne => by rwa [hs]⟩

/-- A CLOSE of the session itself is quiet. -/
lemma quiet_sendClose (code : ℕ) (reason : String) (nowMs : Option ℤ) :
    Within Quiet (sendClose env code reason nowMs) := by
  have harm : ∀ now delta, Within Quiet (do
      let deadline ← deadlineAfter now delta
      modify fun s => { s with closeDeadlineTicks := some deadline } : M Unit) := fun now delta =>
    within_bind (within_lift _) fun _ => within_modify fun s =>
      ⟨rfl, rfl, rfl, rfl, (List.append_nil _).symm, id⟩
  refine within_get fun s => within_ite (within_pure _) ?_
  refine within_bind (within_tryCatch (within_lift _) ?_) fun payload => ?_
  · intro e
    cases e <;> first | exact within_pure _ | exact within_throw _
  refine within_bind (quiet_of_aside (aside_enqueueInternalFrame _ _)) fun _ => ?_
  refine within_bind (within_when (quiet_of_aside (aside_modify fun _ => rfl))) fun _ => ?_
  refine within_bind (within_modify fun s => ?_) fun _ => ?_
  · exact ⟨rfl, rfl, rfl, rfl, (List.append_nil _).symm, by simp⟩
  cases nowMs with
  | none => exact within_bind (quiet_of_aside aside_ticksMs) fun _ => harm _ _
  | some now => exact within_bind (within_pure _) fun _ => harm _ _

end Quiet

/-! ## Closing -/

/-- What the session relies on: the callbacks of the application return and leave the session alone
(one that sends or closes from within is not covered), and the keys of its own masks have four
bytes. -/
structure Reliable (env : Env) : Prop where
  callback : ∀ n, env.callback n = pure ()
  maskKey : ∀ n, (env.maskKey n).length = 4

/-- The close timeout is one that `ticks_add` accepts, so that closing does not raise. -/
def Config.CloseTimeoutOk (c : Config) : Prop :=
  -(TICKS_HALFPERIOD : ℤ) < c.closeTimeoutMs ∧ c.closeTimeoutMs < TICKS_HALFPERIOD

instance (c : Config) : Decidable c.CloseTimeoutOk := inferInstanceAs (Decidable (_ ∧ _))

section Closing

variable {env : Env} {s : Session} {now : ℤ}

/-- A control frame that a peer could send can be sent. -/
lemma encodeFrame_ok {opcode : ℕ} {payload : List UInt8} {fin : Bool} {mask : Option (List UInt8)}
    (hlen : payload.length ≤ MAX_CONTROL_PAYLOAD_BYTES)
    (hkey : ∀ key, mask = some key → key.length = 4) :
    ∃ b, encodeFrame opcode payload fin mask = .ok b := by
  have hlen' : payload.length < 126 := by
    unfold MAX_CONTROL_PAYLOAD_BYTES at hlen
    omega
  unfold encodeFrame lengthField
  rw [if_neg (by omega)]
  cases mask with
  | none => simp [hlen']
  | some key => simp [hlen', hkey key rfl]

/-- Answering a PING changes nothing that concerns receiving, and does not raise. -/
lemma enqueueInternalFrame_spec (henv : Reliable env) {opcode : ℕ} {payload : List UInt8}
    (hlen : payload.length ≤ MAX_CONTROL_PAYLOAD_BYTES) :
    wp (enqueueInternalFrame env opcode payload) (fun _ => Quiet s) (fun _ _ => False) s := by
  unfold enqueueInternalFrame appendFrame outboundMask
  rw [wp_bind, wp_get]
  dsimp only
  rw [wp_ite, wp_pure]
  refine ⟨fun _ => takes_self s, fun _ => ?_⟩
  rw [wp_bind, wp_bind, wp_get]
  by_cases hserver : s.config.isServer = true
  · obtain ⟨b, hb⟩ := @encodeFrame_ok opcode payload true none hlen (by simp)
    rw [if_pos hserver, wp_pure, hb, wp_bind, wp_lift_ok, wp_modify]
    exact ⟨rfl, rfl, rfl, rfl, (List.append_nil _).symm, id⟩
  · obtain ⟨b, hb⟩ := @encodeFrame_ok opcode payload true (some (env.maskKey s.masks)) hlen
      (fun key hk => Option.some.inj hk ▸ henv.maskKey s.masks)
    rw [if_neg hserver, wp_bind, wp_modify, wp_pure, hb, wp_bind, wp_lift_ok, wp_modify]
    exact ⟨rfl, rfl, rfl, rfl, (List.append_nil _).symm, id⟩

/-- The payload of a CLOSE frame fits a control frame. -/
lemma encodeClosePayload_cases {code : ℕ} (hcode : code < 65536) (reason : String) :
    (∃ payload, encodeClosePayload (some code) reason = .ok payload ∧
      payload.length ≤ MAX_CONTROL_PAYLOAD_BYTES) ∨
    ∃ message, encodeClosePayload (some code) reason = .error (.protocolError message) := by
  unfold encodeClosePayload
  dsimp only
  split_ifs with hreserved hlong
  · exact .inr ⟨_, rfl⟩
  · exact .inr ⟨_, rfl⟩
  · left
    have hpack : pack 2 code = .ok (Bytes.be 2 code) := if_pos (by norm_num; omega)
    rw [hpack]
    refine ⟨_, rfl, ?_⟩
    rw [List.length_append, Bytes.length_be]
    omega

/-- Closing raises only for a close timeout that `ticks_add` does not accept. -/
lemma sendClose_spec (henv : Reliable env) {code : ℕ} (hcode : code < 65536) (reason : String) :
    wp (sendClose env code reason (some now)) (fun _ => Quiet s)
      (fun _ t => Quiet s t ∧ ¬ s.config.CloseTimeoutOk) s := by
  by_cases hok : s.config.CloseTimeoutOk
  · have hreturns : wp (sendClose env code reason (some now)) (fun _ _ => True) (fun _ _ => False) s := by
      unfold sendClose
      rw [wp_bind, wp_get, wp_ite, wp_pure]
      refine ⟨fun _ => trivial, fun _ => ?_⟩
      have hrest : ∀ payload : List UInt8, payload.length ≤ MAX_CONTROL_PAYLOAD_BYTES →
          wp (do
            enqueueInternalFrame env OPCODE_CLOSE payload
            when (s.lastCloseCode = none) <|
              modify fun s => { s with lastCloseCode := some code, lastCloseReason := reason }
            modify fun s => { s with state := .closing, log := s.log ++ [Entry.became .closing] }
            let now ← pure now
            let deadline ← deadlineAfter now s.config.closeTimeoutMs
            modify fun s => { s with closeDeadlineTicks := some deadline } : M Unit)
            (fun _ _ => True) (fun _ _ => False) s := by
        intro payload hlen
        have hdeadline : liftPy (ticksAdd now s.config.closeTimeoutMs) =
            .ok ((now + s.config.closeTimeoutMs) % TICKS_PERIOD) := by
          unfold Config.CloseTimeoutOk at hok
          rw [ticksAdd, if_pos hok]
          rfl
        rw [wp_bind]
        refine wp_mono (enqueueInternalFrame_spec henv hlen) (fun _ t _ => ?_) (fun _ _ h => h)
        simp [deadlineAfter, hdeadline]
      rw [wp_bind, wp_tryCatch]
      rcases encodeClosePayload_cases hcode reason with ⟨payload, hpay, hlen⟩ | ⟨message, hpay⟩
      · rw [hpay, wp_lift_ok]
        exact hrest payload hlen
      · rw [hpay, wp_lift_error]
        exact hrest [] (Nat.zero_le _)
    exact wp_mono (wp_and ((quiet_sendClose _ _ _).wp s) hreturns) (fun _ _ h => h.1)
      (fun _ _ h => h.2.elim)
  · exact wp_mono ((quiet_sendClose _ _ _).wp s) (fun _ _ h => h) (fun _ _ h => ⟨h, hok⟩)

end Closing

/-! ## What a computation shows -/

/-- Between the two states the session has shown only events in `P`, and taken back none. -/
def Shows (P : Event → Prop) (s t : Session) : Prop :=
  ∃ es, t.events = s.events ++ es ∧ ∀ e ∈ es, P e

instance (P : Event → Prop) : Std.Refl (Shows P) where
  refl s := ⟨[], by simp⟩

instance (P : Event → Prop) : IsTrans Session (Shows P) where
  trans s t u := by
    rintro ⟨es, hst, hes⟩ ⟨fs, htu, hfs⟩
    refine ⟨es ++ fs, by simp [htu, hst], ?_⟩
    intro e he
    rcases List.mem_append.mp he with he | he
    · exact hes e he
    · exact hfs e he

section Shows

variable {env : Env} {P : Event → Prop} (henv : Reliable env)

/-- A change that leaves the events alone shows nothing. -/
lemma shows_modify {f : Session → Session} (h : ∀ s, (f s).events = s.events) :
    Within (Shows P) (modify f : M Unit) :=
  within_modify fun s => ⟨[], by simp [h]⟩

/-- What is aside of receiving shows nothing. -/
lemma shows_of_aside {s t : Session} (h : Aside s t) : Shows P s t := by
  simp only [Aside, Session.looked, Prod.mk.injEq] at h
  exact ⟨[], by simp [h.2.2.2.2.2.1], by simp⟩

/-- What does not concern receiving shows nothing. -/
lemma shows_of_quiet {α : Type} {m : M α} (h : Within Quiet m) : Within (Shows P) m :=
  h.mono fun _ _ hst => ⟨[], hst.events_eq, by simp⟩

lemma shows_sendClose (code : ℕ) (reason : String) (nowMs : Option ℤ) :
    Within (Shows P) (sendClose env code reason nowMs) := shows_of_quiet (quiet_sendClose _ _ _)

lemma shows_note {event : Event} (h : P event) : Within (Shows P) (note event) :=
  within_modify fun s => ⟨[event], by simp [h]⟩

include henv in
lemma shows_fire {event : Event} (h : P event) : Within (Shows P) (fire env event) := by
  refine within_get fun s => within_bind (within_modify fun s => ⟨[event], by simp [h]⟩) fun _ => ?_
  rw [henv.callback]
  exact within_pure ()

lemma shows_onFinalized : Within (Shows P) onFinalized := by
  refine shows_modify fun s => ?_
  split_ifs <;> rfl

include henv in
lemma shows_failWithError (hclose : ∀ code reason, P (.onClose code reason)) (error : Exn) :
    Within (Shows P) (failWithError env error) := by
  refine within_get fun s => within_bind (within_when (shows_modify fun _ => rfl)) fun _ => ?_
  refine within_bind (within_when (shows_modify fun _ => rfl)) fun _ => ?_
  refine within_bind (shows_modify fun _ => rfl) fun _ => ?_
  refine within_bind shows_onFinalized fun _ => ?_
  exact within_get fun s => shows_fire henv (hclose _ _)

include henv in
lemma shows_finalizeClosed (hclose : ∀ code reason, P (.onClose code reason)) :
    Within (Shows P) (finalizeClosed env) := by
  refine within_bind (shows_modify fun _ => rfl) fun _ => ?_
  refine within_get fun s => within_bind (within_when (within_get fun s => ?_)) fun _ => ?_
  · exact within_drainOutboundLoop (fun _ _ => shows_of_aside) (shows_failWithError henv hclose) _ _
  refine within_bind (shows_modify fun _ => rfl) fun _ => ?_
  refine within_bind shows_onFinalized fun _ => ?_
  exact within_get fun s => shows_fire henv (hclose _ _)

include henv in
/-- No frame makes the session take an event back. -/
lemma shows_receives (hP : ∀ e, P e) (nowMs : ℤ) : Receives (Shows P) env nowMs where
  aside _ _ := shows_of_aside
  reading s _ _ := ⟨[], by simp⟩
  note _ := shows_note (hP _)
  queue message := within_modify fun s => ⟨[.queued message], rfl, fun e _ => hP e⟩
  fire _ := shows_fire henv (hP _)
  disarm := shows_modify fun _ => rfl
  sendClose code reason := shows_sendClose code reason _
  finalizeClosed := shows_finalizeClosed henv fun _ _ => hP _

end Shows

/-! ## Data frames -/

/-- The events after which the session closes the connection. -/
def Event.closes : Event → Bool
  | .badData _ | .tooBig _ => true
  | _ => false

/-- The session has shown one event that closes the connection, and could not close it. -/
def Breaks (s : Session) (shown : List Event) (t : Session) : Prop :=
  (∃ e, shown = [e] ∧ e.closes = true ∧ t.events = s.events ++ [e]) ∧ ¬ s.config.CloseTimeoutOk

/-- The specification of a handler that takes a session to `i` and shows `shown`. It may raise only
if what it shows closes the connection. -/
def Handles {α : Type} (m : M α) (s : Session) (i : Inbound) (shown : List Event) : Prop :=
  wp m (fun _ => Takes s i shown) (fun _ => Breaks s shown) s

section Data

variable {env : Env} {s : Session} {now : ℤ}

/-- A callback that returns. -/
lemma handles_fire (henv : Reliable env) (event : Event) :
    Handles (fire env event) s s.inbound [event] := by
  simp only [Handles, fire, wp_bind, wp_get, wp_modify, henv.callback, wp_pure]
  exact ⟨rfl, rfl, rfl, rfl, rfl, id⟩

/-- Showing an event and then closing the connection for it. -/
lemma handles_close {e : Event} (he : e.closes = true) {m : M Unit}
    (hm : ∀ t, wp m (fun _ => Quiet t) (fun _ u => Quiet t u ∧ ¬ t.config.CloseTimeoutOk) t) :
    Handles (do note e; m) s s.inbound [e] := by
  simp only [Handles, note, wp_bind, wp_modify]
  refine wp_mono (hm _) (fun _ t ht => ?_) (fun _ t ht => ⟨⟨e, rfl, he, ?_⟩, ht.2⟩)
  · exact ⟨ht.config_eq, ht.toQueue_eq, ht.parser_eq, ht.inbound_eq, by simpa using ht.events_eq,
      ht.not_closed⟩
  · simpa using ht.1.events_eq

lemma handles_deliverMessage (henv : Reliable env) (opcode : ℕ)
    (payload : List UInt8) :
    Handles (deliverMessage env opcode payload now) s s.inbound
      [deliveryEvent s.inboundToQueue opcode payload] := by
  have hqueue : ∀ message, Handles (enqueueInbound message) s s.inbound [.queued message] :=
    fun message => ⟨rfl, rfl, rfl, rfl, rfl, id⟩
  unfold deliverMessage deliveryEvent
  rw [Handles, wp_bind, wp_get]
  by_cases htext : opcode = OPCODE_TEXT
  · rw [if_pos htext, if_pos htext]
    unfold validateTextPayload
    rcases hdec : decodeUtf8 payload with e | text
    · refine handles_close rfl fun t => ?_
      rw [wp_bind]
      refine wp_mono (sendClose_spec henv (by decide) _) (fun _ u hu => ?_) (fun _ _ hu => hu)
      exact ⟨hu.config_eq, hu.toQueue_eq, hu.parser_eq, hu.inbound_eq, hu.events_eq, hu.not_closed⟩
    · by_cases hq : s.inboundToQueue = true
      · simp only [hq, if_true]
        exact hqueue _
      · simp only [hq, if_false, Bool.false_eq_true]
        exact handles_fire henv _
  · rw [if_neg htext, if_neg htext]
    by_cases hq : s.inboundToQueue = true
    · simp only [hq, if_true]
      exact hqueue _
    · simp only [hq, if_false, Bool.false_eq_true]
      exact handles_fire henv _

/-- A handler in front of which the fields of reassembly were changed. -/
lemma Handles.changed {α : Type} {m : M α} {i j : Inbound} {shown : List Event}
    (h : Handles m { s with inbound := j } i shown) :
    wp m (fun _ => Takes s i shown) (fun _ => Breaks s shown) { s with inbound := j } :=
  wp_mono h (fun _ _ ht => ⟨ht.config_eq, ht.toQueue_eq, ht.parser_eq, ht.inbound_eq,
    ht.events_eq, ht.not_closed⟩) (fun _ _ ht => ht)

/-- The events of an outcome in a session. -/
def Session.shown (s : Session) (o : Option Outcome) : List Event :=
  (o.map (Outcome.event s.config s.inboundToQueue)).toList

lemma handles_finishOversizedMessage (henv : Reliable env) :
    Handles (finishOversizedMessage env now) s {}
      (s.shown (some (.oversized s.inbound.reportedLength))) := by
  simp only [Session.shown, Option.map_some, Option.toList_some, Outcome.event]
  unfold finishOversizedMessage oversizedEvent
  rw [Handles, wp_bind, wp_get, resetInboundState, wp_bind, wp_modify]
  cases s.config.whenOversized with
  | dropSilent => exact ⟨rfl, rfl, rfl, rfl, rfl, id⟩
  | dropWithEvent => exact (handles_fire henv _).changed
  | disconnect => exact (handles_close rfl fun t => sendClose_spec henv (by decide) _).changed

lemma handles_finishDataFrame (henv : Reliable env) (fin : Bool) :
    Handles (finishDataFrame env fin now) s (finishData s.inbound fin).1
      (s.shown (finishData s.inbound fin).2) := by
  unfold finishDataFrame finishData
  rw [Handles, wp_bind, wp_get]
  by_cases hfin : fin = false
  · rw [if_pos hfin, if_pos hfin]
    exact takes_self s
  · rw [if_neg hfin, if_neg hfin]
    by_cases hover : s.inbound.oversized = true
    · rw [if_pos hover, if_pos hover]
      exact handles_finishOversizedMessage henv
    · rw [if_neg hover, if_neg hover, resetInboundState, wp_bind, wp_modify]
      exact (handles_deliverMessage henv _ _).changed

/-- The frame that the parser holds is the data frame `f`. -/
structure Holds (p : FrameParser) (cap : ℕ) (f : DataFrame) : Prop where
  fin_eq : p.fin = f.fin
  length_eq : p.reportedLength = f.payload.length
  oversized_iff : p.oversized = true ↔ f.payload.length > cap
  payload_eq : f.payload.length ≤ cap → p.payload = f.payload

lemma handles_takeDataPayload (henv : Reliable env) {p : FrameParser} {f : DataFrame}
    (hp : Holds p s.config.maxMessageBytes f) :
    Handles (takeDataPayload env p now) s (takeData s.config.maxMessageBytes s.inbound f).1
      (s.shown (takeData s.config.maxMessageBytes s.inbound f).2) := by
  unfold takeDataPayload takeData
  rw [Handles, wp_bind, wp_get, hp.fin_eq]
  by_cases hbig : f.payload.length > s.config.maxMessageBytes
  · rw [if_pos (hp.oversized_iff.mpr hbig), if_pos hbig, wp_bind, wp_modify]
    exact (handles_finishDataFrame henv _).changed
  · rw [if_neg (fun h => hbig (hp.oversized_iff.mp h)), if_neg hbig, hp.payload_eq (by omega)]
    by_cases hfast : f.fin = true ∧ s.inbound.messageBuffer = []
    · -- the check of the fast path repeats that of the parser
      rw [if_pos hfast, if_pos hfast, if_neg hbig, resetInboundState, wp_bind, wp_modify]
      exact (handles_deliverMessage henv _ _).changed
    · rw [if_neg hfast, if_neg hfast, extendInboundBuffer, wp_bind, wp_modify]
      have hext : (if s.inbound.oversized = true then s
          else if s.inbound.messageBuffer.length + f.payload.length > s.config.maxMessageBytes then
            { s with inbound := { s.inbound with oversized := true } }
          else { s with inbound :=
            { s.inbound with messageBuffer := s.inbound.messageBuffer ++ f.payload } }) =
          { s with inbound := s.inbound.extend s.config.maxMessageBytes f.payload } := by
        unfold Inbound.extend
        split_ifs <;> rfl
      rw [hext]
      exact (handles_finishDataFrame henv _).changed

lemma handles_countDataFrame (henv : Reliable env) {p : FrameParser} {f : DataFrame}
    (hp : Holds p s.config.maxMessageBytes f) (hop : s.inbound.messageOpcode ≠ none)
    (hfew : f.payload = [] → f.fin = false →
      s.inbound.emptyFragmentRun + 1 ≤ MAX_EMPTY_FRAGMENT_RUN) :
    Handles (countDataFrame env p now) s (stepData s.config.maxMessageBytes s.inbound f).1
      (s.shown (stepData s.config.maxMessageBytes s.inbound f).2) := by
  obtain ⟨op, hop⟩ := Option.ne_none_iff_exists'.mp hop
  have htake : Handles (takeDataPayload env p now) { s with inbound := s.inbound.count f }
      (stepData s.config.maxMessageBytes s.inbound f).1
      (s.shown (stepData s.config.maxMessageBytes s.inbound f).2) :=
    handles_takeDataPayload henv hp
  unfold countDataFrame
  rw [Handles, wp_bind, wp_modify, hp.length_eq, hp.fin_eq]
  by_cases hpos : f.payload.length > 0
  · have hcount : s.inbound.count f = { s.inbound with
        reportedLength := s.inbound.reportedLength + f.payload.length, emptyFragmentRun := 0 } := by
      simp [Inbound.count, hop, hpos]
    rw [hcount] at htake
    rw [if_pos hpos, wp_bind, wp_modify]
    exact htake.changed
  · rw [if_neg hpos]
    by_cases hfin : f.fin = false
    · have hcount : s.inbound.count f = { s.inbound with
          reportedLength := s.inbound.reportedLength + f.payload.length
          emptyFragmentRun := s.inbound.emptyFragmentRun + 1 } := by
        simp [Inbound.count, hop, hpos, hfin]
      rw [hcount] at htake
      have hrun := hfew (List.length_eq_zero_iff.mp (by omega)) hfin
      rw [if_pos hfin, wp_bind, wp_modify, wp_bind, wp_get, if_neg (by dsimp only; omega)]
      exact htake.changed
    · have hcount : s.inbound.count f = { s.inbound with
          reportedLength := s.inbound.reportedLength + f.payload.length } := by
        simp [Inbound.count, hop, hpos, hfin]
      rw [hcount] at htake
      rw [if_neg hfin]
      exact htake.changed

/-- **A data frame** that the session takes is handled as `stepData` says. -/
lemma handles_handleDataFrame (henv : Reliable env) {f : DataFrame}
    (hp : Holds s.frameParser s.config.maxMessageBytes f) (hop : s.frameParser.opcode = f.opcode)
    (hadm : Admits s.inbound f) :
    Handles (handleDataFrame env now) s (stepData s.config.maxMessageBytes s.inbound f).1
      (s.shown (stepData s.config.maxMessageBytes s.inbound f).2) := by
  unfold handleDataFrame
  rw [Handles, wp_bind, wp_get]
  dsimp only
  rw [hop]
  by_cases hcont : f.opcode = OPCODE_CONTINUATION
  · have hsome := hadm.starts.mp hcont
    rw [if_pos hcont, if_neg hsome]
    exact handles_countDataFrame henv hp hsome hadm.fewEmpty
  · have hnone : s.inbound.messageOpcode = none := by
      by_contra hne
      exact hcont (hadm.starts.mpr hne)
    have hstep : stepData s.config.maxMessageBytes s.inbound f =
        stepData s.config.maxMessageBytes { s.inbound with messageOpcode := some f.opcode } f := by
      simp [stepData, Inbound.count, hnone]
    have hnot : ¬ s.inbound.messageOpcode ≠ none := not_not.mpr hnone
    rw [if_neg hcont, if_neg hnot, wp_bind, wp_modify, hstep]
    refine (handles_countDataFrame (s := { s with inbound :=
      { s.inbound with messageOpcode := some f.opcode } }) henv hp ?_ hadm.fewEmpty).changed
    simp

end Data

/-! ## Frames of a peer -/

namespace WireFrame

/-- The data frame that it is, if it is one. -/
def data? (f : WireFrame) : Option DataFrame :=
  if f.opcode ∈ DATA_OPCODES then some ⟨f.fin, f.opcode, f.payload⟩ else none

/-- What a session with these settings expects of every frame. -/
structure Legal (c : Config) (f : WireFrame) : Prop where
  opcode_mem : f.opcode ∈ CONTROL_OPCODES ∨ f.opcode ∈ DATA_OPCODES
  fin_of_control : f.opcode ∈ CONTROL_OPCODES → f.fin = true
  masked : f.mask.isSome = c.isServer

end WireFrame

/-- The data frames of a stream. -/
def dataFrames (fs : List WireFrame) : List DataFrame := fs.filterMap WireFrame.data?

/-- The parser `p` is about to read the frames `fs` from `bytes`, the first of which it may have
read in part. -/
def Aligned (c : Config) (p : FrameParser) (bytes : List UInt8) : List WireFrame → Prop
  | [] => bytes = []
  | f :: fs =>
    (∃ b, encodeFrame f.opcode f.payload f.fin f.mask = .ok b) ∧
    ∃ n, p.scan bytes =
        .item (parsedFrame c.maxMessageBytes f.opcode f.payload f.fin f.mask.isSome) n ∧
      encodeFrames fs = .ok (bytes.drop n)

section Aligned

variable {c : Config} {bytes data later : List UInt8} {f : WireFrame} {fs : List WireFrame}
  {p p' : FrameParser}

/-- Between two frames the parser is about to read what the peer has encoded. -/
lemma aligned_fresh (lastError : Option String) (hlegal : ∀ f ∈ fs, f.Legal c)
    (h : encodeFrames fs = .ok bytes) :
    Aligned c (.fresh c.maxMessageBytes lastError) bytes fs := by
  cases fs with
  | nil =>
    cases h
    rfl
  | cons f fs =>
    obtain ⟨b, hb, h⟩ := bind_eq_ok.mp h
    obtain ⟨bs, hbs, h⟩ := bind_eq_ok.mp h
    cases h
    have hf := hlegal f List.mem_cons_self
    refine ⟨⟨b, hb⟩, b.length, scan_encodeFrame hb hf.opcode_mem hf.fin_of_control, ?_⟩
    rw [hbs, List.drop_left]

/-- A parser that has taken a part of the bytes goes on with the rest. -/
lemma Aligned.resumes (h : Aligned c p (data ++ later) fs) (hr : FrameParser.Resumes p data p')
    (hdata : data ≠ []) : Aligned c p' later fs := by
  cases fs with
  | nil =>
    have : data ++ later = [] := h
    simp [hdata] at this
  | cons f fs =>
    obtain ⟨henc, n, hscan, hfs⟩ := h
    rw [hr.scan_append] at hscan
    obtain ⟨m, hm, rfl⟩ := shift_eq_item.mp hscan
    refine ⟨henc, m, hm, ?_⟩
    rw [hfs, List.drop_append]
    simp

end Aligned

/-! ## One frame -/

/-- The parser holds the frame `f` of the peer. -/
def HoldsWire (c : Config) (p : FrameParser) (f : WireFrame) : Prop :=
  p.frame = parsedFrame c.maxMessageBytes f.opcode f.payload f.fin f.mask.isSome

open FrameParser

section Dispatch

variable {env : Env} {c : Config} {q : Bool} {s : Session} {now : ℤ} {f : WireFrame}
  {fs : List WireFrame}

/-- The events of outcomes are events of messages. -/
lemma isData_shown (o : Option Outcome) : (s.shown o).filter Event.isData = s.shown o := by
  rw [List.filter_eq_self]
  intro e he
  obtain ⟨o, rfl, rfl⟩ : ∃ o', o = some o' ∧ e = o'.event s.config s.inboundToQueue := by
    cases o with
    | none => simp [Session.shown] at he
    | some o => exact ⟨o, rfl, by simpa [Session.shown] using he⟩
  cases o with
  | message opcode payload =>
    simp only [Outcome.event, deliveryEvent]
    repeat' split
    all_goals rfl
  | oversized n =>
    simp only [Outcome.event, oversizedEvent]
    split <;> rfl

/-- **One frame** other than a CLOSE: a data frame is handled as reassembly says, and a control
frame shows no event of a message. -/
lemma handles_dispatchFrame (henv : Reliable env) (hc : s.config = c)
    (hq : s.inboundToQueue = q) (hlegal : f.Legal c) (hclose : f.opcode ≠ OPCODE_CLOSE)
    (hf : HoldsWire c s.frameParser f) (henc : ∃ b, encodeFrame f.opcode f.payload f.fin f.mask = .ok b)
    (hadm : AdmitsAll c.maxMessageBytes s.inbound (dataFrames (f :: fs))) :
    ∃ i shown, Handles (dispatchFrame env now) s i shown ∧
      AdmitsAll c.maxMessageBytes i (dataFrames fs) ∧
      (runData c q s.inbound (dataFrames (f :: fs))).2 =
        shown.filter Event.isData ++ (runData c q i (dataFrames fs)).2 := by
  have hframe := hf
  simp only [HoldsWire, frame, parsedFrame, Frame.mk.injEq] at hframe
  obtain ⟨hfin, hop, hmask, hlen, hover, hpay⟩ := hframe
  have hmask' : ¬ s.frameParser.hadMask ≠ s.config.isServer := by
    rw [hmask, hlegal.masked, hc]
    exact fun h => h rfl
  have hpaylen : f.opcode ∈ CONTROL_OPCODES →
      s.frameParser.payload.length ≤ MAX_CONTROL_PAYLOAD_BYTES := by
    intro hctl
    obtain ⟨b, hb⟩ := henc
    have := (encodeFrame_shape hb).1 hctl
    rw [hpay]
    split_ifs
    · exact Nat.zero_le _
    · exact this
  unfold dispatchFrame
  simp only [Handles, wp_bind, wp_get]
  rw [if_neg hmask', hop, if_neg hclose]
  by_cases hdata : f.opcode ∈ DATA_OPCODES
  · have hping : f.opcode ≠ OPCODE_PING ∧ f.opcode ≠ OPCODE_PONG := by
      constructor <;> (rintro h; rw [h] at hdata; revert hdata; decide)
    have hcons : dataFrames (f :: fs) = ⟨f.fin, f.opcode, f.payload⟩ :: dataFrames fs := by
      simp [dataFrames, WireFrame.data?, hdata]
    rw [hcons] at hadm ⊢
    rw [if_neg hping.1, if_neg hping.2]
    have hhandle := @handles_handleDataFrame env s now henv ⟨f.fin, f.opcode, f.payload⟩
      ⟨hfin, hlen, by rw [hover, hc]; simp,
        fun hle => by rw [hpay, if_neg (by rw [← hc]; dsimp only at hle; omega)]⟩
      hop hadm.1
    refine ⟨_, _, hhandle, ?_, ?_⟩
    · rw [hc]
      exact hadm.2
    · rw [isData_shown, Session.shown, hc, hq]
      rfl
  · have hctl : f.opcode ∈ CONTROL_OPCODES := hlegal.opcode_mem.resolve_right hdata
    have hcons : dataFrames (f :: fs) = dataFrames fs := by
      simp [dataFrames, WireFrame.data?, hdata]
    rw [hcons] at hadm ⊢
    by_cases hping : f.opcode = OPCODE_PING
    · rw [if_pos hping]
      refine ⟨s.inbound, [.onPing s.frameParser.payload], ?_, hadm, by simp [Event.isData]⟩
      rw [handlePingFrame, wp_bind]
      refine wp_mono (enqueueInternalFrame_spec henv (hpaylen hctl)) (fun _ t ht => ?_)
        (fun _ _ h => h.elim)
      refine wp_mono (handles_fire henv _) (fun _ u hu => ?_) (fun _ u hu => ?_)
      · have := Takes.trans ht hu
        rwa [show t.inbound = s.inbound from ht.inbound_eq] at this
      · obtain ⟨⟨e, he, hcl, -⟩, -⟩ := hu
        cases he
        cases hcl
    · have hpong : f.opcode = OPCODE_PONG := by
        revert hctl hclose hping
        simp only [CONTROL_OPCODES, List.mem_cons, List.not_mem_nil, or_false]
        tauto
      rw [if_neg hping, if_pos hpong]
      refine ⟨s.inbound, [.onPong s.frameParser.payload], ?_, hadm, by simp [Event.isData]⟩
      rw [handlePongFrame, wp_bind, wp_modify]
      refine wp_mono (handles_fire henv _) (fun _ u hu => ?_) (fun _ u hu => ?_)
      · exact ⟨hu.config_eq, hu.toQueue_eq, hu.parser_eq, hu.inbound_eq, hu.events_eq, hu.not_closed⟩
      · obtain ⟨⟨e, he, hcl, -⟩, -⟩ := hu
        cases he
        cases hcl

end Dispatch

/-! ## A whole stream -/

/-- A session that has read the stream up to `bytes`, which hold the frames `fs`; with what they
complete it will have shown `expected`. -/
structure Live (c : Config) (q : Bool) (expected : List Event) (s : Session) (bytes : List UInt8)
    (fs : List WireFrame) : Prop where
  config_eq : s.config = c
  toQueue_eq : s.inboundToQueue = q
  not_closed : s.state ≠ .closed
  waiting : s.frameParser.Waiting
  cap : s.frameParser.maxPayloadBytes = c.maxMessageBytes
  aligned : Aligned c s.frameParser bytes fs
  legal : ∀ f ∈ fs, f.Legal c
  closeLast : ∀ f ∈ fs.dropLast, f.opcode ≠ OPCODE_CLOSE
  admits : AdmitsAll c.maxMessageBytes s.inbound (dataFrames fs)
  outcomes : s.outcomes ++ (runData c q s.inbound (dataFrames fs)).2 = expected

/-- The session has shown the expected events up to one that closes the connection, and could not
close it. -/
def Cut (c : Config) (expected : List Event) (s : Session) : Prop :=
  (∃ pre e post, expected = pre ++ e :: post ∧ e.closes = true ∧ pre ++ [e] <+: s.outcomes) ∧
    ¬ c.CloseTimeoutOk

/-- The session is at its end: nothing is left to read, and it has shown what was expected. -/
def Ended (expected : List Event) (s : Session) (bytes : List UInt8) : Prop :=
  bytes = [] ∧ s.outcomes = expected

/-- **The session follows the stream**: it is live, at its end, or has cut the connection. -/
def Follows (c : Config) (q : Bool) (expected : List Event) (s : Session) (bytes : List UInt8) :
    Prop :=
  (∃ fs, Live c q expected s bytes fs) ∨ Ended expected s bytes ∨ Cut c expected s

section Stream

variable {env : Env} {c : Config} {q : Bool} {expected : List Event} {s t : Session} {now : ℤ}
  {bytes later : List UInt8} {f : WireFrame} {fs : List WireFrame}

/-- Whatever the session goes on to show, what it has shown up to the cut stays. -/
lemma Cut.shows (h : Cut c expected s) (hst : Shows (fun _ => True) s t) : Cut c expected t := by
  obtain ⟨⟨pre, e, post, hexp, he, hpre⟩, hok⟩ := h
  obtain ⟨es, hev, -⟩ := hst
  refine ⟨⟨pre, e, post, hexp, he, hpre.trans ?_⟩, hok⟩
  rw [Session.outcomes, Session.outcomes, hev, List.filter_append]
  exact List.prefix_append _ _

/-- A CLOSE frame, whatever becomes of it, shows no event of a message. -/
lemma outcomes_dispatch_close (henv : Reliable env) (hlegal : f.Legal c) (hc : s.config = c)
    (hclose : f.opcode = OPCODE_CLOSE) (hf : HoldsWire c s.frameParser f) :
    (tryFinally (dispatchFrame env now) resetParser s).2.outcomes = s.outcomes := by
  simp only [HoldsWire, frame, parsedFrame, Frame.mk.injEq] at hf
  obtain ⟨-, hop, hmask, -⟩ := hf
  have hmask' : ¬ s.frameParser.hadMask ≠ s.config.isServer := by
    rw [hmask, hlegal.masked, hc]
    exact fun h => h rfl
  have hdispatch : dispatchFrame env now s = handleCloseFrame env s.frameParser.payload now s := by
    change (if s.frameParser.hadMask ≠ s.config.isServer then _ else _ : M Unit) s = _
    rw [if_neg hmask', if_pos (hop.trans hclose)]
  have hshows : Shows (fun e => e.isData = false) s
      (tryFinally (dispatchFrame env now) resetParser s).2 := by
    have hclose' : Within (Shows fun e => e.isData = false)
        (handleCloseFrame env s.frameParser.payload now) :=
      within_handleCloseFrame (fun _ _ => shows_of_aside) (fun _ _ => shows_sendClose _ _ _)
        (shows_finalizeClosed henv fun _ _ => rfl) _
    have hreset : Within (Shows fun e => e.isData = false) resetParser :=
      shows_modify fun s => by split_ifs <;> rfl
    have h := within_tryFinally hclose' hreset s
    simpa only [Prog.tryFinally, hdispatch] using h
  obtain ⟨es, hev, hes⟩ := hshows
  have hnil : es.filter Event.isData = [] := by
    rw [List.filter_eq_nil_iff]
    intro e he
    simp [hes e he]
  rw [Session.outcomes, Session.outcomes, hev, List.filter_append, hnil, List.append_nil]

/-- **One frame of the stream**: the session goes on to the next one, ends, or has cut the
connection. It raises only in the last two cases. -/
lemma follows_dispatch (henv : Reliable env) (h : Live c q expected s bytes (f :: fs))
    {p : FrameParser} (hreads : FrameParser.Reads s.frameParser
      (parsedFrame c.maxMessageBytes f.opcode f.payload f.fin f.mask.isSome) p)
    (hrest : encodeFrames fs = .ok later) :
    wp (tryFinally (dispatchFrame env now) resetParser)
      (fun _ t => Follows c q expected t later)
      (fun _ t => Ended expected t later ∨ Cut c expected t) { s with frameParser := p } := by
  have hlegal := h.legal f List.mem_cons_self
  obtain ⟨henc, -⟩ := h.aligned
  by_cases hclose : f.opcode = OPCODE_CLOSE
  · have hnil : fs = [] := by
      by_contra hne
      refine h.closeLast f ?_ hclose
      rw [List.dropLast_cons_of_ne_nil hne]
      exact List.mem_cons_self
    subst hnil
    cases hrest
    have hout := @outcomes_dispatch_close env c { s with frameParser := p } now f henv hlegal
      h.config_eq hclose hreads.frame_eq
    have hcons : dataFrames [f] = [] := by
      simp [dataFrames, WireFrame.data?, hclose, DATA_OPCODES, OPCODE_CLOSE, OPCODE_CONTINUATION,
        OPCODE_TEXT, OPCODE_BINARY]
    have hexp : s.outcomes = expected := by
      have := h.outcomes
      rw [hcons] at this
      simpa [runData] using this
    have hended : Ended expected
        (tryFinally (dispatchFrame env now) resetParser { s with frameParser := p }).2 [] :=
      ⟨rfl, hout.trans hexp⟩
    simp only [wp]
    rcases hm : tryFinally (dispatchFrame env now) resetParser { s with frameParser := p }
      with ⟨_ | _, t⟩
    · rw [hm] at hended
      exact .inl hended
    · rw [hm] at hended
      exact .inr (.inl hended)
  · obtain ⟨i, shown, hhandles, hadm, hrun⟩ := @handles_dispatchFrame env c q
      { s with frameParser := p } now f fs henv h.config_eq h.toQueue_eq hlegal hclose
      hreads.frame_eq henc h.admits
    rw [wp_tryFinally]
    refine wp_mono hhandles (fun _ t ht => ?_) (fun _ t ht => ?_)
    · have hst := ht.not_closed h.not_closed
      have hparser : t.frameParser.reset = .fresh c.maxMessageBytes s.frameParser.lastError := by
        rw [ht.parser_eq]
        simp [reset, fresh, hreads.cap, hreads.lastError, h.cap]
      rw [resetParser, wp_modify, if_neg hst]
      refine .inl ⟨fs, ht.config_eq.trans h.config_eq, ht.toQueue_eq.trans h.toQueue_eq, hst, ?_, ?_,
        ?_, fun g hg => h.legal g (List.mem_cons_of_mem _ hg), ?_, ?_, ?_⟩
      · rw [hparser]
        exact waiting_fresh _ _
      · rw [hparser]
        rfl
      · rw [hparser]
        exact aligned_fresh _ (fun g hg => h.legal g (List.mem_cons_of_mem _ hg)) hrest
      · intro g hg
        cases fs with
        | nil => simp at hg
        | cons g' fs => exact h.closeLast g (List.mem_cons_of_mem _ hg)
      · rw [ht.inbound_eq]
        exact hadm
      · rw [← h.outcomes, hrun, ht.inbound_eq]
        simp only [Session.outcomes, ht.events_eq, List.filter_append, List.append_assoc]
    · obtain ⟨⟨e, rfl, he, hev⟩, hok⟩ := ht
      have hcut : Cut c expected t := by
        have hdata : e.isData = true := by
          cases e <;> first | rfl | cases he
        refine ⟨⟨s.outcomes, e, (runData c q i (dataFrames fs)).2, ?_, he, ?_⟩, h.config_eq ▸ hok⟩
        · rw [← h.outcomes, hrun]
          simp [hdata]
        · rw [Session.outcomes, Session.outcomes, hev, List.filter_append]
          simp [hdata]
      rw [resetParser, wp_modify]
      right
      split_ifs
      · exact hcut
      · exact hcut

/-- **Feeding a piece** of the stream.

**Proof sketch.** By induction on the rounds of the loop. As long as the session is live, the parser
either takes the whole piece and waits for more, or reads the next frame, which is then dispatched.
-/
lemma follows_feedFrameLoop (henv : Reliable env) {chunk : List UInt8} {rounds offset : ℕ}
    (hrounds : chunk.length - offset ≤ rounds)
    (h : Follows c q expected s (chunk.drop offset ++ later)) :
    wp (feedFrameLoop env chunk now rounds offset) (fun _ t => Follows c q expected t later)
      (fun _ t => Follows c q expected t later) s := by
  have hdone : offset ≥ chunk.length → Follows c q expected s later := by
    intro hge
    rwa [List.drop_eq_nil_of_le hge, List.nil_append] at h
  induction rounds generalizing offset s with
  | zero => exact hdone (by omega)
  | succ rounds ih =>
    rcases h with ⟨fs, hlive⟩ | hended | hcut
    · rw [feedFrameLoop]
      by_cases hge : offset ≥ chunk.length
      · rw [if_pos hge]
        exact hdone hge
      have hdata : chunk.drop offset ≠ [] := by
        simpa using hge
      rw [if_neg hge, wp_bind, wp_get]
      have hfeed := @FrameParser.feed_spec s.frameParser chunk offset hlive.waiting
      rcases hout : s.frameParser.feed chunk offset with ⟨r, p⟩
      rw [hout] at hfeed
      rcases hscan : s.frameParser.scan (chunk.drop offset) with _ | e | ⟨fr, n⟩
      · -- the piece ends inside a frame
        obtain ⟨hr, hres⟩ := hfeed.more hscan
        dsimp only at hr hres
        rw [hr]
        have hpos : (chunk.drop offset).length ≠ 0 := (List.length_pos_of_ne_nil hdata).ne'
        have hlive' : Live c q expected { s with frameParser := p } later fs :=
          { hlive with
            waiting := hres.waiting
            cap := hres.cap.trans hlive.cap
            aligned := hlive.aligned.resumes hres hdata }
        rw [wp_bind, wp_modify, if_neg hpos, if_neg hres.waiting.not_ready]
        have hend : (chunk.drop (offset + (chunk.drop offset).length)) = [] := by
          apply List.drop_eq_nil_of_le
          rw [List.length_drop]
          omega
        refine ih ?_ (.inl ⟨fs, ?_⟩) (fun _ => .inl ⟨fs, hlive'⟩)
        · rw [List.length_drop]
          omega
        · rwa [hend, List.nil_append]
      · -- the parser does not fail on what the peer has sent
        have happ := scan_append (.inr hlive.waiting) later
          (show s.frameParser.scan (chunk.drop offset) ≠ .more by rw [hscan]; simp)
        have hal := hlive.aligned
        cases fs with
        | nil =>
          have : chunk.drop offset ++ later = [] := hal
          simp [hdata] at this
        | cons f fs =>
          obtain ⟨-, n, hitem, -⟩ := hal
          rw [happ, hscan] at hitem
          cases hitem
      · -- a frame is complete
        have happ := scan_append (.inr hlive.waiting) later
          (show s.frameParser.scan (chunk.drop offset) ≠ .more by rw [hscan]; simp)
        have hle := scan_item_le (.inr hlive.waiting) hscan
        have hpos := scan_item_pos hlive.waiting hscan
        have hal := hlive.aligned
        cases fs with
        | nil =>
          have : chunk.drop offset ++ later = [] := hal
          simp [hdata] at this
        | cons f fs =>
          obtain ⟨-, m, hitem, hrest⟩ := hal
          rw [happ, hscan] at hitem
          cases hitem
          obtain ⟨hr, hreads⟩ := hfeed.item _ _ hscan
          dsimp only at hr hreads
          rw [hr]
          rw [wp_bind, wp_modify, if_neg (by omega), if_pos hreads.ready, wp_bind]
          have hsplit : (chunk.drop offset ++ later).drop n = chunk.drop (offset + n) ++ later := by
            rw [List.drop_append_of_le_length hle, List.drop_drop]
          rw [hsplit] at hrest
          refine wp_mono (follows_dispatch henv hlive hreads hrest) (fun _ t ht => ?_) (fun _ t ht => ?_)
          · rw [wp_bind, wp_get]
            have hdone' : offset + n ≥ chunk.length → Follows c q expected t later := by
              intro hge'
              rwa [List.drop_eq_nil_of_le hge', List.nil_append] at ht
            rw [wp_ite, wp_pure]
            refine ⟨fun hclosed => ?_, fun _ => ih (by omega) ht hdone'⟩
            rcases ht with ⟨fs', hl⟩ | hended | hcut
            · exact absurd hclosed hl.not_closed
            · exact .inr (.inl ⟨(List.append_eq_nil_iff.mp hended.1).2, hended.2⟩)
            · exact .inr (.inr hcut)
          · rcases ht with hended | hcut
            · exact .inr (.inl ⟨(List.append_eq_nil_iff.mp hended.1).2, hended.2⟩)
            · exact .inr (.inr hcut)
    · have hnil := List.append_eq_nil_iff.mp hended.1
      have hge : offset ≥ chunk.length := by
        simpa using hnil.1
      rw [feedFrameLoop, if_pos hge]
      exact hdone hge
    · exact wp_mono (((shows_receives henv (fun _ => trivial) now).feedFrameLoop _ _ _).wp s)
        (fun _ t ht => .inr (.inr (hcut.shows ht))) (fun _ t ht => .inr (.inr (hcut.shows ht)))

lemma follows_feedFrameBytes (henv : Reliable env) {chunk : List UInt8}
    (h : Follows c q expected s (chunk ++ later)) :
    Follows c q expected (feedFrameBytes env chunk now s).2 later := by
  refine wp_state (P := fun t => Follows c q expected t later) ?_
  rw [feedFrameBytes, wp_bind, wp_get, wp_ite, wp_pure]
  constructor
  · intro herror
    rcases h with ⟨fs, hlive⟩ | hended | hcut
    · exact absurd herror hlive.waiting.not_error
    · exact .inr (.inl ⟨(List.append_eq_nil_iff.mp hended.1).2, hended.2⟩)
    · exact .inr (.inr hcut)
  · intro _
    exact follows_feedFrameLoop henv (by simp) (by simpa using h)

end Stream

/-- A session that is fed the pieces of a stream, each with the time of its tick. An exception that
leaves the handler ends the tick. -/
def feedAll (env : Env) (s : Session) (pieces : List (List UInt8 × ℤ)) : Session :=
  pieces.foldl (fun s piece => (feedFrameBytes env piece.1 piece.2 s).2) s

/-- The bytes of all pieces. -/
def streamOf (pieces : List (List UInt8 × ℤ)) : List UInt8 := (pieces.map Prod.fst).flatten

/-- **Well-formed streams**: the data frames are the fragments of the messages in order, with
control frames anywhere between them and nothing behind a CLOSE. -/
structure WellFormed (c : Config) (messages : List Message) (frames : List WireFrame) : Prop where
  data : dataFrames frames = messages.flatMap Message.frames
  legal : ∀ f ∈ frames, f.Legal c
  closeLast : ∀ f ∈ frames.dropLast, f.opcode ≠ OPCODE_CLOSE
  fewEmpty : ∀ m ∈ messages, m.FewEmpty
  utf8 : ∀ m ∈ messages, m.isText = true → ∃ text, decodeUtf8 m.payload = .ok text

/-- The event that the session shows for a message. -/
def Message.event (c : Config) (q : Bool) (m : Message) : Event :=
  (m.outcome c.maxMessageBytes).event c q

section Runs

variable {env : Env} {c : Config} {q : Bool} {messages : List Message} {frames : List WireFrame}
  {pieces : List (List UInt8 × ℤ)}

lemma follows_feedAll (henv : Reliable env) {expected : List Event} {s : Session}
    (h : Follows c q expected s (streamOf pieces)) :
    Follows c q expected (feedAll env s pieces) [] := by
  induction pieces generalizing s with
  | nil => exact h
  | cons piece pieces ih => exact ih (follows_feedFrameBytes henv h)

/-- A stream that has been read to its end leaves no frame. -/
lemma Follows.at_end {expected : List Event} {s : Session} (h : Follows c q expected s []) :
    s.outcomes = expected ∨ Cut c expected s := by
  rcases h with ⟨fs, hlive⟩ | hended | hcut
  · left
    cases fs with
    | nil => simpa [dataFrames, runData] using hlive.outcomes
    | cons f fs =>
      obtain ⟨-, n, hscan, -⟩ := hlive.aligned
      have hpos := scan_item_pos hlive.waiting hscan
      have hle := scan_item_le (.inr hlive.waiting) hscan
      rw [List.length_nil] at hle
      omega
  · exact .inl hended.2
  · exact .inr hcut

/-- **A session shows what reassembly makes of the frames**, however the stream is cut, unless it
could not close the connection. -/
theorem feedAll_follows (henv : Reliable env) (hw : WellFormed c messages frames)
    (hbytes : encodeFrames frames = .ok (streamOf pieces)) :
    (feedAll env { Session.opening c with inboundToQueue := q } pieces).outcomes =
        messages.map (Message.event c q) ∨
      Cut c (messages.map (Message.event c q))
        (feedAll env { Session.opening c with inboundToQueue := q } pieces) := by
  obtain ⟨hadm, hrun⟩ := @runData_messages c q messages hw.fewEmpty
  have hlive : Live c q (messages.map (Message.event c q))
      { Session.opening c with inboundToQueue := q } (streamOf pieces) frames :=
    { config_eq := rfl
      toQueue_eq := rfl
      not_closed := by simp [Session.opening]
      waiting := waiting_fresh _ _
      cap := rfl
      aligned := aligned_fresh none hw.legal hbytes
      legal := hw.legal
      closeLast := hw.closeLast
      admits := by rw [hw.data]; exact hadm
      outcomes := by rw [hw.data]; exact hrun }
  exact (follows_feedAll henv (.inl ⟨_, hlive⟩)).at_end

end Runs

/-! ## Exact delivery -/

/-- The session goes on after a message that is too big: under the drop policies always, and under
`DISCONNECT` until the peer answers its CLOSE, if the deadline for that can be computed. -/
def Config.Steady (c : Config) : Prop := c.whenOversized ≠ .disconnect ∨ c.CloseTimeoutOk

instance (c : Config) : Decidable c.Steady := inferInstanceAs (Decidable (_ ∨ _))

/-- The messages up to the one at which the session stops, if there is one. -/
def promised (c : Config) : List Message → List Message
  | [] => []
  | m :: messages =>
    if ¬ c.Steady ∧ c.maxMessageBytes < m.payload.length then [m] else m :: promised c messages

/-- **Exact delivery**: the session has shown, in order, each message that fits the cap with its
payload and each other one as oversized with its length, and nothing else. Where the session stops
at an oversized message, nothing is said about what comes after that. -/
def Exact (c : Config) (q : Bool) (messages : List Message) (outcomes : List Event) : Prop :=
  (promised c messages).map (Message.expected c q) <+: outcomes ∧
  (c.Steady ∨ (∀ m ∈ messages, m.payload.length ≤ c.maxMessageBytes) →
    outcomes = messages.map (Message.expected c q))

section Exact

variable {c : Config} {q : Bool} {m : Message} {messages : List Message} {outcomes : List Event}

/-- With a drained head the session delivers a message that it should report as oversized. -/
lemma event_eq_expected_iff : m.event c q = m.expected c q ↔ ¬ m.HeadDrained c.maxMessageBytes := by
  constructor
  · intro heq hhead
    have hbig : ¬ m.payload.length ≤ c.maxMessageBytes := by
      obtain ⟨⟨head, hfind, hlt⟩, -⟩ := hhead
      have hsub := (List.sublist_flatten_of_mem (List.mem_of_find?_eq_some hfind)).length_le
      rw [Message.payload, List.length_append]
      omega
    rw [Message.event, Message.outcome, if_pos hhead, Message.expected, if_neg hbig] at heq
    simp only [Outcome.event, deliveryEvent, oversizedEvent] at heq
    revert heq
    repeat' split
    all_goals simp
  · intro hhead
    rw [Message.event, Message.outcome, if_neg hhead, Message.expected]
    split_ifs <;> rfl

/-- Only an oversized message under `DISCONNECT` should close the connection. -/
lemma closes_expected (hutf8 : m.isText = true → ∃ text, decodeUtf8 m.payload = .ok text)
    (h : (m.expected c q).closes = true) :
    c.whenOversized = .disconnect ∧ c.maxMessageBytes < m.payload.length := by
  unfold Message.expected at h
  split_ifs at h with hle
  · unfold deliveryEvent at h
    split at h
    · rename_i htext
      obtain ⟨text, hdec⟩ := hutf8 (by
        by_contra hne
        simp [Message.opcode, hne, OPCODE_TEXT, OPCODE_BINARY] at htext)
      rw [hdec] at h
      dsimp only at h
      split at h <;> cases h
    · split at h <;> cases h
  · refine ⟨?_, by omega⟩
    unfold oversizedEvent at h
    split at h
    · cases h
    · cases h
    · assumption

lemma promised_initial : promised c messages <+: messages := by
  induction messages with
  | nil => exact List.prefix_rfl
  | cons m messages ih =>
    rw [promised]
    split_ifs
    · exact ⟨messages, rfl⟩
    · exact List.prefix_cons_inj m |>.mpr ih

lemma promised_eq_self
    (h : c.Steady ∨ ∀ m ∈ messages, m.payload.length ≤ c.maxMessageBytes) :
    promised c messages = messages := by
  induction messages with
  | nil => rfl
  | cons m messages ih =>
    rw [promised, if_neg, ih]
    · exact h.imp id fun h m hm => h m (List.mem_cons_of_mem _ hm)
    · rintro ⟨hns, hlt⟩
      rcases h with h | h
      · exact hns h
      · have := h m List.mem_cons_self
        omega

/-- Up to the cut the session has shown what it should if and only if no message has a drained
head.

**Proof sketch.** By induction on the messages. The first message of the stream is promised, and the
session has shown its event. If that is also the event of the cut, then it is that of an oversized
message, and no further message is promised. -/
lemma promised_prefix_iff (hutf8 : ∀ m ∈ messages, m.isText = true →
      ∃ text, decodeUtf8 m.payload = .ok text) (hok : ¬ c.CloseTimeoutOk)
    {pre post : List Event} {e : Event} (hsplit : messages.map (Message.event c q) = pre ++ e :: post)
    (he : e.closes = true) (hpre : pre ++ [e] <+: outcomes) :
    (promised c messages).map (Message.expected c q) <+: outcomes ↔
      ∀ m ∈ promised c messages, ¬ m.HeadDrained c.maxMessageBytes := by
  induction messages generalizing pre outcomes with
  | nil => simp at hsplit
  | cons m messages ih =>
    have hclosing : m.expected c q = e → ¬ c.Steady ∧ c.maxMessageBytes < m.payload.length := by
      intro heq
      obtain ⟨hd, hlt⟩ := closes_expected (hutf8 m List.mem_cons_self) (heq ▸ he)
      exact ⟨fun hs => hs.elim (fun hne => hne hd) hok, hlt⟩
    have hhead : ∃ outcomes', outcomes = m.event c q :: outcomes' := by
      cases pre with
      | nil =>
        obtain ⟨rest, rfl⟩ := hpre
        exact ⟨rest, by simp [(List.cons.inj hsplit).1]⟩
      | cons x pre =>
        obtain ⟨rest, rfl⟩ := hpre
        exact ⟨pre ++ [e] ++ rest, by simp [(List.cons.inj hsplit).1]⟩
    obtain ⟨outcomes', rfl⟩ := hhead
    rw [promised]
    split_ifs with hstop
    · simp [← event_eq_expected_iff (q := q), eq_comm]
    · rw [List.map_cons, List.cons_prefix_cons, List.forall_mem_cons,
        ← event_eq_expected_iff (q := q), eq_comm]
      refine and_congr_right fun heq => ?_
      cases pre with
      | nil => exact absurd (hclosing (heq ▸ (List.cons.inj hsplit).1)) hstop
      | cons x pre =>
        exact ih (fun m hm => hutf8 m (List.mem_cons_of_mem _ hm)) (List.cons.inj hsplit).2
          (List.cons_prefix_cons.mp hpre).2

end Exact

/-- **Exactness of reassembly.** A session that is fed a well-formed stream, in any pieces and at
any times, delivers or reports its messages exactly if and only if no message has a drained head. -/
theorem reassembly_exact_iff {env : Env} {c : Config} {q : Bool} {messages : List Message}
    {frames : List WireFrame} {pieces : List (List UInt8 × ℤ)} (henv : Reliable env)
    (hw : WellFormed c messages frames) (hbytes : encodeFrames frames = .ok (streamOf pieces)) :
    Exact c q messages
        (feedAll env { Session.opening c with inboundToQueue := q } pieces).outcomes ↔
      ∀ m ∈ promised c messages, ¬ m.HeadDrained c.maxMessageBytes := by
  have hpre := @promised_initial c messages
  rcases feedAll_follows (q := q) henv hw hbytes with hout | ⟨⟨pre, e, post, hsplit, he, hcut⟩, hok⟩
  · rw [hout, Exact]
    constructor
    · rintro ⟨hpref, -⟩ m hm
      have heq : (promised c messages).map (Message.expected c q) =
          (promised c messages).map (Message.event c q) :=
        (List.prefix_of_prefix_length_le hpref (hpre.map _) (by simp)).eq_of_length (by simp)
      rw [← event_eq_expected_iff (q := q)]
      exact (List.map_inj_left.mp heq m hm).symm
    · intro hall
      have heq : (promised c messages).map (Message.expected c q) =
          (promised c messages).map (Message.event c q) :=
        List.map_congr_left fun m hm => (event_eq_expected_iff.mpr (hall m hm)).symm
      refine ⟨heq ▸ hpre.map _, fun hsteady => ?_⟩
      rw [promised_eq_self hsteady] at heq
      exact heq.symm
  · rw [Exact, promised_prefix_iff hw.utf8 hok hsplit he hcut]
    refine ⟨fun h => h.1, fun hall => ⟨hall, fun hsteady => ?_⟩⟩
    -- the cut was made for an oversized message under `DISCONNECT`
    exfalso
    rw [promised_eq_self hsteady] at hall
    have hmem : e ∈ messages.map (Message.event c q) := by
      rw [hsplit]
      simp
    obtain ⟨m, hm, rfl⟩ := List.mem_map.mp hmem
    rw [event_eq_expected_iff.mpr (hall m hm)] at he
    obtain ⟨hd, hlt⟩ := closes_expected (hw.utf8 m hm) he
    rcases hsteady with (hne | hok') | hfits
    · exact hne hd
    · exact hok hok'
    · have := hfits m hm
      omega

/-- A client that keeps at most four bytes of a message. -/
def fourByteClient : Config where
  isServer := false
  maxMessageBytes := 4
  recvBudgetPerTick := 512
  sendBudgetPerTick := 512
  maxTxQueueSize := 8
  whenOversized := .dropWithEvent
  pongTimeoutMs := none
  handshakeTimeoutMs := 10000
  closeTimeoutMs := 5000
  maxInboundQueueSize := 8

/-- An application whose callbacks return, on a socket that never has anything. -/
def quietEnv : Env where
  callback _ := pure ()
  send _ := .ok none
  recv _ := .ok none
  maskKey _ := [1, 2, 3, 4]
  ticksMs _ := 0
  decodeErrorText _ := ""
  osErrorRepr _ := ""
  codecs :=
    { sha1 _ := [], b2aBase64 _ := [], a2bBase64 _ := .ok [], lower t := t, decodeErrorText _ := ""
      encodeErrorText _ := "" }
  websocketKey _ := []
  connectorTick _ := .pending
  factory := none
  exnRepr _ := ""

lemma reliable_quietEnv : Reliable quietEnv := ⟨fun _ => rfl, fun _ => rfl⟩

/-- A message of few fragments has few empty ones. -/
lemma fewEmpty_of_length_le {m : Message} (h : m.init.length ≤ MAX_EMPTY_FRAGMENT_RUN) :
    m.FewEmpty := by
  intro before run after hsplit _
  have := congrArg List.length hsplit
  simp only [List.length_append] at this
  omega

/-- The text "hi" in two fragments, and five bytes in two fragments, with a PING between them. -/
def helloFrames : List WireFrame :=
  [⟨false, OPCODE_TEXT, [104], none⟩, ⟨true, OPCODE_PING, [7], none⟩,
    ⟨true, OPCODE_CONTINUATION, [105], none⟩, ⟨false, OPCODE_BINARY, [1, 2, 3], none⟩,
    ⟨true, OPCODE_CONTINUATION, [4, 5], none⟩]

/-- A stream whose messages are delivered and reported, cut inside its second frame. -/
theorem reassembly_exact_hello :
    Exact fourByteClient false [⟨true, [[104]], [105]⟩, ⟨false, [[1, 2, 3]], [4, 5]⟩]
      (feedAll quietEnv { Session.opening fourByteClient with inboundToQueue := false }
        [([1, 1, 104, 137], 0), ([1, 7, 128, 1, 105, 2, 3, 1, 2, 3, 128, 2, 4, 5], 10)]).outcomes := by
  refine (@reassembly_exact_iff _ _ _ _ helloFrames _ reliable_quietEnv ?_ ?_).mpr ?_
  · refine ⟨by decide, ?_, by decide, ?_, ?_⟩
    · intro f hf
      fin_cases hf <;> exact ⟨by decide, by decide, by decide⟩
    · intro m hm
      fin_cases hm <;> exact fewEmpty_of_length_le (by decide)
    · intro m hm
      fin_cases hm
      · exact fun _ => ⟨"hi", by decide +kernel⟩
      · simp
  · decide +kernel
  · decide +kernel

/-- The head of a message is drained, and its last fragment is delivered in its place: five bytes
and one more byte arrive as the one byte. -/
theorem reassembly_drained_head :
    Reliable quietEnv ∧ fourByteClient.whenOversized = .dropWithEvent ∧
    WellFormed fourByteClient [⟨false, [[1, 2, 3, 4, 5]], [9]⟩]
      [⟨false, OPCODE_BINARY, [1, 2, 3, 4, 5], none⟩, ⟨true, OPCODE_CONTINUATION, [9], none⟩] ∧
    encodeFrames [⟨false, OPCODE_BINARY, [1, 2, 3, 4, 5], none⟩,
      ⟨true, OPCODE_CONTINUATION, [9], none⟩] = .ok (streamOf [([2, 5, 1, 2, 3, 4, 5, 128, 1, 9], 0)]) ∧
    (feedAll quietEnv { Session.opening fourByteClient with inboundToQueue := false }
      [([2, 5, 1, 2, 3, 4, 5, 128, 1, 9], 0)]).outcomes = [.onBinary [9]] ∧
    ¬ Exact fourByteClient false [⟨false, [[1, 2, 3, 4, 5]], [9]⟩]
      (feedAll quietEnv { Session.opening fourByteClient with inboundToQueue := false }
        [([2, 5, 1, 2, 3, 4, 5, 128, 1, 9], 0)]).outcomes := by
  have hrun : (feedAll quietEnv { Session.opening fourByteClient with inboundToQueue := false }
      [([2, 5, 1, 2, 3, 4, 5, 128, 1, 9], 0)]).outcomes = [.onBinary [9]] := by decide +kernel
  refine ⟨reliable_quietEnv, rfl, ⟨by decide, ?_, by decide, ?_, by simp⟩, by decide +kernel, hrun, ?_⟩
  · intro f hf
    fin_cases hf <;> exact ⟨by decide, by decide, by decide⟩
  · intro m hm
    fin_cases hm
    exact fewEmpty_of_length_le (by decide)
  · rw [hrun]
    rintro ⟨-, heq⟩
    have := heq (.inl (.inl (by decide)))
    revert this
    decide +kernel

end ChuMicro.Websockets
