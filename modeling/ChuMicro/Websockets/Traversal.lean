import ChuMicro.Websockets.Session

/-!
# Relations that a session keeps

Whether a computation of a session stays within a relation is shown along its program text. Where
the text asks for the same of every relation, it is followed here once: the loops of sending and of
receiving, and the way of a frame through `_dispatch_frame`.

## Main definitions

* `Websockets.Aside` — only what sending and counting use has changed.
* `Websockets.Receives` — what a relation has to keep for every frame to keep it.

## Main results

* `Websockets.within_drainOutboundLoop`, `Websockets.within_drainInboundLoop` — the loops stay
  within it.
* `Websockets.Receives.dispatchFrame`, `Websockets.Receives.feedFrameLoop` — frames do.
-/

namespace ChuMicro.Websockets

open Prog

/-! ## Sending and counting -/

/-- The fields that receiving, the timers and the application look at. -/
def Session.looked (s : Session) : Config × WebSocketState × FrameParser × Inbound × Bool ×
    List Event × Handshake × Option ℤ × Option ℤ × Option ℤ × Option ℤ :=
  (s.config, s.state, s.frameParser, s.inbound, s.inboundToQueue, s.events, s.handshake,
    s.handshakeDeadlineTicks, s.closeDeadlineTicks, s.pendingPingDeadlineTicks, s.nextAutoPingTicks)

/-- Only what sending and counting use has changed. -/
def Aside (s t : Session) : Prop := t.looked = s.looked

instance : Std.Refl Aside where
  refl _ := rfl

instance : IsTrans Session Aside where
  trans _ _ _ hst htu := Eq.trans htu hst

section Aside

variable {env : Env}

/-- A change of such fields. -/
lemma aside_modify {f : Session → Session} (h : ∀ s, (f s).looked = s.looked) :
    Within Aside (modify f : M Unit) := within_modify h

/-- Reading the clock counts. -/
lemma aside_ticksMs : Within Aside (ticksMs env) :=
  within_get fun _ => within_bind (aside_modify fun _ => rfl) fun _ => within_pure _

/-- A frame goes to the tx queue. -/
lemma aside_appendFrame (byUser : Bool) (opcode : ℕ) (payload : List UInt8) :
    Within Aside (appendFrame env byUser opcode payload) := by
  refine within_bind ?_ fun mask => within_bind (within_lift _) fun _ => aside_modify fun _ => rfl
  refine within_get fun s => within_ite (within_pure _) ?_
  exact within_bind (aside_modify fun _ => rfl) fun _ => within_pure _

@[inherit_doc aside_appendFrame]
lemma aside_enqueueInternalFrame (opcode : ℕ) (payload : List UInt8) :
    Within Aside (enqueueInternalFrame env opcode payload) :=
  within_get fun _ => within_ite (within_pure _) (aside_appendFrame _ _ _)

@[inherit_doc aside_appendFrame]
lemma aside_sendOpen (call : String) (opcode : ℕ) (payload : List UInt8) :
    Within Aside (sendOpen env call opcode payload) := by
  refine within_get fun s => within_ite (within_throw _) (within_get fun s => ?_)
  exact within_ite (within_throw _) (aside_appendFrame _ _ _)

/-- A send is logged and counted. -/
lemma aside_socketSend (chunk : List UInt8) : Within Aside (socketSend env chunk) := by
  have hlog : ∀ entry, Within Aside (record entry) := fun _ => aside_modify fun _ => rfl
  refine within_get fun s => ?_
  rcases env.send s.sends with errno | _ | n
  · exact within_bind (hlog _) fun _ => within_bind (aside_modify fun _ => rfl) fun _ => within_pure _
  · exact within_bind (hlog _) fun _ => within_bind (aside_modify fun _ => rfl) fun _ => within_pure _
  · exact within_bind (hlog _) fun _ => within_bind (aside_modify fun _ => rfl) fun _ => within_pure _

end Aside

/-! ## The loops -/

section Loops

variable {R : Session → Session → Prop} [Std.Refl R] [IsTrans Session R] {env : Env} {nowMs : ℤ}
  (haside : ∀ s t, Aside s t → R s t) (hfail : ∀ error, Within R (failWithError env error))

include haside hfail

/-- The loop of `_drain_outbound` sends, or fails. -/
lemma within_drainOutboundLoop (rounds budget : ℕ) :
    Within R (drainOutboundLoop env rounds budget) := by
  have hmodify : ∀ {f : Session → Session}, (∀ s, (f s).looked = s.looked) →
      Within R (modify f : M Unit) := fun h => (aside_modify h).mono haside
  induction rounds generalizing budget with
  | zero => exact within_pure _
  | succ rounds ih =>
    refine within_ite (within_pure _) (within_get fun s => ?_)
    split
    · exact within_pure _
    · refine within_bind (within_when (hmodify fun _ => rfl)) fun _ => ?_
      refine within_get fun s => within_bind ((aside_socketSend _).mono haside) fun answer => ?_
      rcases answer with errno | _ | sent
      · exact within_ite (within_pure _) (hfail _)
      · exact within_pure _
      · exact within_ite (within_pure _) (within_bind (hmodify fun _ => rfl) fun _ => ih _)

/-- A recv is logged and counted, and may fail. -/
lemma within_recvChunk (maxBytes : ℕ) : Within R (recvChunk env maxBytes) := by
  have hmodify : ∀ {f : Session → Session}, (∀ s, (f s).looked = s.looked) →
      Within R (modify f : M Unit) := fun h => (aside_modify h).mono haside
  refine within_get fun s => within_bind (hmodify fun _ => rfl) fun _ => ?_
  refine within_bind (hmodify fun _ => rfl) fun _ => ?_
  split
  · exact within_ite (within_pure _) (within_bind (hfail _) fun _ => within_pure _)
  · exact within_pure _
  · exact within_pure _

/-- The loop of `_drain_inbound` receives and feeds, or fails. -/
lemma within_drainInboundLoop (hfeed : ∀ chunk, Within R (feedFrameBytes env chunk nowMs))
    (rounds remaining : ℕ) : Within R (drainInboundLoop env nowMs rounds remaining) := by
  induction rounds generalizing remaining with
  | zero => exact within_pure _
  | succ rounds ih =>
    refine within_ite (within_pure _)
      (within_bind (within_recvChunk haside hfail _) fun received => ?_)
    split
    · exact within_pure _
    · exact hfail _
    · refine within_bind (hfeed _) fun _ => within_get fun s => ?_
      exact within_ite (within_pure _) (ih _)

end Loops

/-! ## Frames -/

section Frames

variable {R : Session → Session → Prop} [Std.Refl R] [IsTrans Session R] {env : Env} {nowMs : ℤ}

/-- A CLOSE frame: the codes are stored, and the session closes. -/
lemma within_handleCloseFrame (haside : ∀ s t, Aside s t → R s t)
    (hclose : ∀ code reason, Within R (sendClose env code reason (some nowMs)))
    (hfinal : Within R (finalizeClosed env)) (payload : List UInt8) :
    Within R (handleCloseFrame env payload nowMs) := by
  have hmodify : ∀ {f : Session → Session}, (∀ s, (f s).looked = s.looked) →
      Within R (modify f : M Unit) := fun h => (aside_modify h).mono haside
  unfold handleCloseFrame
  rcases parseClosePayload env.decodeErrorText payload with e | ⟨code, reason⟩
  · exact within_bind (hclose _ _) fun _ => hmodify fun _ => rfl
  · refine within_get fun s => within_ite ?_ ?_
    · exact within_bind (within_when (hmodify fun _ => rfl)) fun _ => hfinal
    · refine within_bind (hmodify fun _ => rfl) fun _ => ?_
      exact within_bind (hclose _ _) fun _ => hfinal

/-- What a relation has to keep for every frame to keep it: changes of the frame parser and of the
fields of reassembly, what the session shows, and closing. -/
structure Receives (R : Session → Session → Prop) (env : Env) (nowMs : ℤ) : Prop where
  aside : ∀ s t, Aside s t → R s t
  reading : ∀ (s : Session) parser inbound, R s { s with frameParser := parser, inbound := inbound }
  note : ∀ event, Within R (note event)
  queue : ∀ message, Within R (enqueueInbound message)
  fire : ∀ event, Within R (fire env event)
  disarm : Within R (modify fun s => { s with pendingPingDeadlineTicks := none } : M Unit)
  sendClose : ∀ code reason, Within R (sendClose env code reason (some nowMs))
  finalizeClosed : Within R (finalizeClosed env)

namespace Receives

variable (h : Receives R env nowMs)

include h

omit [Std.Refl R] [IsTrans Session R] in
/-- A change of the fields of sending. -/
lemma modify {f : Session → Session} (hf : ∀ s, (f s).looked = s.looked) :
    Within R (Prog.modify f : M Unit) := (aside_modify hf).mono h.aside

omit [Std.Refl R] [IsTrans Session R] in
/-- A change of the frame parser and of the fields of reassembly. -/
lemma modify_reading {f : Session → Session}
    (hf : ∀ s, f s = { s with frameParser := (f s).frameParser, inbound := (f s).inbound }) :
    Within R (Prog.modify f : M Unit) :=
  within_modify fun s => by rw [hf s]; exact h.reading s _ _

omit [Std.Refl R] in
/-- A message that is complete. -/
lemma deliverMessage (opcode : ℕ) (payload : List UInt8) :
    Within R (deliverMessage env opcode payload nowMs) := by
  refine within_get fun s => within_ite ?_ (within_ite (h.queue _) (h.fire _))
  rcases validateTextPayload env.decodeErrorText payload with e | text
  · refine within_bind (h.note _) fun _ => ?_
    exact within_bind (h.sendClose _ _) fun _ => h.modify fun _ => rfl
  · exact within_ite (h.queue _) (h.fire _)

/-- The end of a frame that may complete a message. -/
lemma finishDataFrame (fin : Bool) : Within R (finishDataFrame env fin nowMs) := by
  refine within_get fun s => within_ite (within_pure _) (within_ite ?_ ?_)
  · refine within_get fun s => within_bind (h.modify_reading fun _ => rfl) fun _ => ?_
    cases s.config.whenOversized with
    | dropSilent => exact h.note _
    | dropWithEvent => exact h.fire _
    | disconnect => exact within_bind (h.note _) fun _ => h.sendClose _ _
  · exact within_bind (h.modify_reading fun _ => rfl) fun _ => h.deliverMessage _ _

/-- The three ways to take a payload. -/
lemma takeDataPayload (frame : FrameParser) : Within R (takeDataPayload env frame nowMs) := by
  have hmark : Within R (do
      Prog.modify fun s => { s with inbound := { s.inbound with oversized := true } }
      Websockets.finishDataFrame env frame.fin nowMs) :=
    within_bind (h.modify_reading fun _ => rfl) fun _ => h.finishDataFrame _
  refine within_get fun s => within_ite hmark (within_ite (within_ite hmark ?_) ?_)
  · exact within_bind (h.modify_reading fun _ => rfl) fun _ => h.deliverMessage _ _
  · refine within_bind (h.modify_reading fun s => ?_) fun _ => h.finishDataFrame _
    split_ifs <;> rfl

/-- The counting of lengths and empty fragments. -/
lemma countDataFrame (frame : FrameParser) : Within R (countDataFrame env frame nowMs) := by
  have htake := h.takeDataPayload frame
  refine within_bind (h.modify_reading fun _ => rfl) fun _ => within_ite ?_ (within_ite ?_ htake)
  · exact within_bind (h.modify_reading fun _ => rfl) fun _ => htake
  · refine within_bind (h.modify_reading fun _ => rfl) fun _ => within_get fun s => ?_
    exact within_ite (h.sendClose _ _) htake

/-- **A frame keeps the relation.** -/
lemma dispatchFrame : Within R (dispatchFrame env nowMs) := by
  refine within_get fun s => within_ite (h.sendClose _ _) (within_ite ?_ ?_)
  · exact within_handleCloseFrame h.aside h.sendClose h.finalizeClosed _
  · refine within_ite ?_ (within_ite ?_ (within_get fun s => within_ite ?_ (within_ite ?_ ?_)))
    · exact within_bind ((aside_enqueueInternalFrame _ _).mono h.aside) fun _ => h.fire _
    · exact within_bind h.disarm fun _ => h.fire _
    · exact within_ite (h.sendClose _ _) (h.countDataFrame _)
    · exact h.sendClose _ _
    · exact within_bind (h.modify_reading fun _ => rfl) fun _ => h.countDataFrame _

/-- **The bytes of frames keep it**, also when an exception leaves the loop. -/
lemma feedFrameLoop (chunk : List UInt8) (rounds offset : ℕ) :
    Within R (feedFrameLoop env chunk nowMs rounds offset) := by
  have hreset : Within R resetParser := h.modify_reading fun s => by split_ifs <;> rfl
  induction rounds generalizing offset with
  | zero => exact within_pure _
  | succ rounds ih =>
    refine within_ite (within_pure _) (within_get fun s => ?_)
    split
    · refine within_bind (h.modify_reading fun _ => rfl) fun _ => ?_
      exact within_bind (h.sendClose _ _) fun _ => h.modify fun _ => rfl
    · exact within_bind (h.modify_reading fun _ => rfl) fun _ => within_throw _
    · refine within_bind (h.modify_reading fun _ => rfl) fun _ => ?_
      refine within_ite (within_pure _) (within_ite ?_ (ih _))
      refine within_bind (within_tryFinally h.dispatchFrame hreset) fun _ => ?_
      exact within_get fun s => within_ite (within_pure _) (ih _)

end Receives

end Frames

end ChuMicro.Websockets
