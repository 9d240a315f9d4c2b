import ChuMicro.Websockets.Violations

/-!
# Callbacks that raise

An exception of a callback leaves the handler of the frame, resets the parser on its way and ends
the tick. What it has done before stays. The next tick reads on with the next received chunk; what
was left of the chunk that was being read is gone.

A session whose callbacks raise is compared with the same session whose callbacks do the same and
then return.

## Main definitions

* `Websockets.Env.swallowing` — the callbacks do what they do, and return.
* `Websockets.undisturbed` — no callback raises for a frame that further bytes of the same chunk
  follow.

## Main results

* `Websockets.same_dispatchFrame` — dispatching a frame leaves the same session, whether its
  callback raises or returns.
* `Websockets.runCalls_swallowing` — an undisturbed run leaves the session as if no callback had
  raised.
-/

namespace ChuMicro.Websockets

open Prog

/-- The environment in which the callbacks do what they do in `env`, and then return. -/
def Env.swallowing (env : Env) : Env :=
  { env with callback := fun n => attempt (env.callback n) fun _ => pure () }

/-- `on_close` returns. -/
def CloseReturns (env : Env) : Prop :=
  ∀ n s code reason, s.events.getLast? = some (.onClose code reason) →
    ∃ t, env.callback n s = (.ok (), t)

/-! ## One frame -/

/-- From every state the two computations lead to the same state, with the same result, or the first
one raises and the second one returns. -/
def Same (m n : M Unit) : Prop :=
  ∀ s, (m s).2 = (n s).2 ∧ ((m s).1 = (n s).1 ∨ ∃ e, (m s).1 = .error e ∧ (n s).1 = .ok ())

lemma same_refl (m : M Unit) : Same m m := fun _ => ⟨rfl, .inl rfl⟩

/-- What comes in front of the callback is the same. -/
lemma same_bind {α : Type} (m : M α) {f g : α → M Unit} (h : ∀ a, Same (f a) (g a)) :
    Same (m >>= f) (m >>= g) := by
  intro s
  simp only [Bind.bind]
  rcases m s with ⟨e | a, t⟩
  · exact ⟨rfl, .inl rfl⟩
  · exact h a t

/-- A branch on either side. -/
lemma same_ite {c : Prop} [Decidable c] {m m' n n' : M Unit} (hm : Same m m') (hn : Same n n') :
    Same (if c then m else n) (if c then m' else n') := by
  split
  · exact hm
  · exact hn

section Frame

variable {env : Env}

/-- A callback, which may raise on one side. -/
lemma same_fire (event : Event) : Same (fire env event) (fire env.swallowing event) := by
  refine same_bind get fun s => same_bind _ fun _ => ?_
  intro t
  change _ ∧ (_ = (attempt (env.callback s.callbacks) (fun _ => pure ()) t).1 ∨ _)
  rcases h : env.callback s.callbacks t with ⟨e | u, v⟩
  · refine ⟨?_, .inr ⟨e, rfl, ?_⟩⟩
    · simp only [Env.swallowing, attempt, h]
      rfl
    · simp only [Env.swallowing, attempt, h]
      rfl
  · refine ⟨?_, .inl ?_⟩
    · simp only [Env.swallowing, attempt, h]
      rfl
    · simp only [attempt, h]
      rfl

/-- Masks and clock are those of `env`. -/
lemma appendFrame_swallowing (byUser : Bool) (opcode : ℕ) (payload : List UInt8) :
    appendFrame env.swallowing byUser opcode payload = appendFrame env byUser opcode payload := by
  have hmask : env.swallowing.maskKey = env.maskKey := rfl
  simp only [appendFrame, outboundMask, hmask]

lemma ticksMs_swallowing : ticksMs env.swallowing = ticksMs env := by
  have hticks : env.swallowing.ticksMs = env.ticksMs := rfl
  simp only [Websockets.ticksMs, hticks]

/-- What calls no callback is the same. -/
lemma enqueueInternalFrame_swallowing (opcode : ℕ) (payload : List UInt8) :
    enqueueInternalFrame env.swallowing opcode payload = enqueueInternalFrame env opcode payload := by
  simp only [enqueueInternalFrame, appendFrame_swallowing]

lemma sendClose_swallowing (code : ℕ) (reason : String) (nowMs : Option ℤ) :
    sendClose env.swallowing code reason nowMs = sendClose env code reason nowMs := by
  simp only [sendClose, enqueueInternalFrame_swallowing, ticksMs_swallowing]

lemma sendOpen_swallowing (call : String) (opcode : ℕ) (payload : List UInt8) :
    sendOpen env.swallowing call opcode payload = sendOpen env call opcode payload := by
  simp only [sendOpen, enqueueUserFrame, appendFrame_swallowing]

lemma armPongDeadline_swallowing (nowMs : Option ℤ) :
    armPongDeadline env.swallowing nowMs = armPongDeadline env nowMs := by
  simp only [armPongDeadline, ticksMs_swallowing]

/-- Closing runs no callback. -/
lemma same_sendClose (code : ℕ) (reason : String) (nowMs : Option ℤ) :
    Same (sendClose env code reason nowMs) (sendClose env.swallowing code reason nowMs) := by
  rw [sendClose_swallowing]
  exact same_refl _

/-- A message that is complete. -/
lemma same_deliverMessage (opcode : ℕ) (payload : List UInt8) (nowMs : ℤ) :
    Same (deliverMessage env opcode payload nowMs)
      (deliverMessage env.swallowing opcode payload nowMs) := by
  refine same_bind get fun s => same_ite ?_ (same_ite (same_refl _) (same_fire _))
  have htexts : env.swallowing.decodeErrorText = env.decodeErrorText := rfl
  rw [htexts]
  rcases validateTextPayload env.decodeErrorText payload with e | text
  · exact same_refl _
  · exact same_ite (same_refl _) (same_fire _)

/-- The end of a frame. -/
lemma same_finishDataFrame (fin : Bool) (nowMs : ℤ) :
    Same (finishDataFrame env fin nowMs) (finishDataFrame env.swallowing fin nowMs) := by
  refine same_bind get fun s => same_ite (same_refl _) (same_ite ?_ ?_)
  · refine same_bind get fun s => same_bind _ fun _ => ?_
    cases s.config.whenOversized with
    | dropSilent => exact same_refl _
    | dropWithEvent => exact same_fire _
    | disconnect => exact same_bind _ fun _ => same_sendClose _ _ _
  · exact same_bind _ fun _ => same_deliverMessage _ _ _

/-- A payload. -/
lemma same_takeDataPayload (frame : FrameParser) (nowMs : ℤ) :
    Same (takeDataPayload env frame nowMs) (takeDataPayload env.swallowing frame nowMs) := by
  refine same_bind get fun s => same_ite ?_ (same_ite (same_ite ?_ ?_) ?_)
  · exact same_bind _ fun _ => same_finishDataFrame _ _
  · exact same_bind _ fun _ => same_finishDataFrame _ _
  · exact same_bind _ fun _ => same_deliverMessage _ _ _
  · exact same_bind _ fun _ => same_finishDataFrame _ _

/-- A data frame. -/
lemma same_handleDataFrame (nowMs : ℤ) :
    Same (handleDataFrame env nowMs) (handleDataFrame env.swallowing nowMs) := by
  have hcount : ∀ frame, Same (countDataFrame env frame nowMs)
      (countDataFrame env.swallowing frame nowMs) := by
    intro frame
    unfold countDataFrame
    refine same_bind _ fun _ => same_ite ?_ (same_ite ?_ (same_takeDataPayload _ _))
    · exact same_bind _ fun _ => same_takeDataPayload _ _
    · refine same_bind _ fun _ => same_bind get fun s => ?_
      exact same_ite (same_sendClose _ _ _) (same_takeDataPayload _ _)
  unfold handleDataFrame
  refine same_bind get fun s => same_ite (same_ite (same_sendClose _ _ _) (hcount _)) ?_
  exact same_ite (same_sendClose _ _ _) (same_bind _ fun _ => hcount _)

variable (hclose : CloseReturns env)

include hclose

/-- `on_close` is called alike. -/
lemma fire_onClose_swallowing (code : ℕ) (reason : String) :
    fire env.swallowing (.onClose code reason) = fire env (.onClose code reason) := by
  funext s
  obtain ⟨t, ht⟩ := hclose s.callbacks
    { s with events := s.events ++ [Event.onClose code reason], callbacks := s.callbacks + 1 }
    code reason (by simp)
  change attempt (env.callback s.callbacks) (fun _ => pure ()) _ = env.callback s.callbacks _
  rw [attempt, ht]
  rfl

lemma failWithError_swallowing (error : Exn) :
    failWithError env.swallowing error = failWithError env error := by
  simp only [failWithError, fire_onClose_swallowing hclose]

lemma drainOutboundLoop_swallowing (rounds budget : ℕ) :
    drainOutboundLoop env.swallowing rounds budget = drainOutboundLoop env rounds budget := by
  induction rounds generalizing budget with
  | zero => rfl
  | succ rounds ih =>
    have hsend : ∀ chunk, socketSend env.swallowing chunk = socketSend env chunk := fun _ => rfl
    have htext : env.swallowing.osErrorRepr = env.osErrorRepr := rfl
    simp only [drainOutboundLoop, failWithError_swallowing hclose, ih, hsend, htext]

lemma finalizeClosed_swallowing : finalizeClosed env.swallowing = finalizeClosed env := by
  simp only [finalizeClosed, drainOutbound, drainOutboundLoop_swallowing hclose,
    fire_onClose_swallowing hclose]

lemma handleCloseFrame_swallowing (payload : List UInt8) (nowMs : ℤ) :
    handleCloseFrame env.swallowing payload nowMs = handleCloseFrame env payload nowMs := by
  have htext : env.swallowing.decodeErrorText = env.decodeErrorText := rfl
  simp only [handleCloseFrame, finalizeClosed_swallowing hclose, sendClose_swallowing, htext]

/-- **Dispatching a frame** leaves the same session, whether its callback raises or returns: calling
it is the last thing that the handler does. -/
theorem same_dispatchFrame (nowMs : ℤ) :
    Same (dispatchFrame env nowMs) (dispatchFrame env.swallowing nowMs) := by
  unfold dispatchFrame
  refine same_bind get fun s => same_ite (same_sendClose _ _ _) (same_ite ?_ ?_)
  · rw [handleCloseFrame_swallowing hclose]
    exact same_refl _
  · refine same_ite ?_ (same_ite ?_ (same_handleDataFrame _))
    · exact same_bind _ fun _ => same_fire _
    · exact same_bind _ fun _ => same_fire _

end Frame

/-! ## One chunk -/

section Chunk

variable (env : Env)

/-- A callback raises when the frame that the parser holds is dispatched. -/
def callbackRaises (nowMs : ℤ) (s : Session) : Bool :=
  match (dispatchFrame env nowMs s).1, (dispatchFrame env.swallowing nowMs s).1 with
  | .error _, .ok _ => true
  | _, _ => false

/-- While the chunk is read from `offset` on, no callback raises for a frame that further bytes of
the chunk follow. -/
def undisturbed (chunk : List UInt8) (nowMs : ℤ) : ℕ → ℕ → Session → Bool
  | 0, _, _ => true
  | rounds + 1, offset, s =>
    if offset ≥ chunk.length then true
    else
      match s.frameParser.feed chunk offset with
      | (.error _, _) => true
      | (.ok consumed, parser) =>
        let held := { s with frameParser := parser }
        if consumed = 0 then true
        else if parser.state = .frameReady then
          let next := (tryFinally (dispatchFrame env nowMs) resetParser held).2
          (!callbackRaises env nowMs held || offset + consumed ≥ chunk.length) &&
            (next.state = .closed || undisturbed chunk nowMs rounds (offset + consumed) next)
        else undisturbed chunk nowMs rounds (offset + consumed) held

variable {env} {s : Session} {now : ℤ} {chunk : List UInt8}

/-- Dispatching a frame and resetting the parser leaves the same session; the results differ only if
a callback raises. -/
lemma tryFinally_dispatchFrame_swallowing (hclose : CloseReturns env) :
    (tryFinally (dispatchFrame env.swallowing now) resetParser s).2 =
        (tryFinally (dispatchFrame env now) resetParser s).2 ∧
      ((tryFinally (dispatchFrame env.swallowing now) resetParser s).1 =
          (tryFinally (dispatchFrame env now) resetParser s).1 ∨
        callbackRaises env now s = true ∧
          ∃ e, (tryFinally (dispatchFrame env now) resetParser s).1 = .error e ∧
            (tryFinally (dispatchFrame env.swallowing now) resetParser s).1 = .ok ()) := by
  obtain ⟨hstate, hresult⟩ := same_dispatchFrame hclose now s
  unfold callbackRaises
  simp only [Prog.tryFinally]
  rcases hd : dispatchFrame env now s with ⟨r, t⟩
  rcases hd' : dispatchFrame env.swallowing now s with ⟨r', t'⟩
  rw [hd, hd'] at hstate hresult
  dsimp only at hstate hresult
  subst hstate
  simp only [resetParser, Prog.modify]
  refine ⟨trivial, ?_⟩
  rcases hresult with rfl | ⟨e, rfl, rfl⟩
  · exact .inl rfl
  · exact .inr ⟨rfl, e, rfl, rfl⟩

/-- **An undisturbed chunk** leaves the session as if no callback had raised.

**Proof sketch.** By induction on the rounds of the loop. As long as no callback raises, both
sessions go on alike; a callback that raises does so behind the last byte of the chunk. -/
lemma feedFrameLoop_swallowing (hclose : CloseReturns env) {rounds offset : ℕ}
    (h : undisturbed env chunk now rounds offset s = true) :
    (feedFrameLoop env.swallowing chunk now rounds offset s).2 =
      (feedFrameLoop env chunk now rounds offset s).2 := by
  induction rounds generalizing offset s with
  | zero => rfl
  | succ rounds ih =>
    rw [feedFrameLoop, feedFrameLoop]
    rw [undisturbed] at h
    by_cases hge : offset ≥ chunk.length
    · rw [if_pos hge, if_pos hge]
    rw [if_neg hge] at h
    rw [if_neg hge, if_neg hge, get_bind_apply, get_bind_apply]
    rcases hfeed : s.frameParser.feed chunk offset with ⟨e | consumed, p⟩
    · cases e with
      | protocolError message =>
        dsimp only
        rw [modify_bind_apply, modify_bind_apply, sendClose_swallowing]
      | _ => rfl
    rw [hfeed] at h
    dsimp only at h ⊢
    rw [modify_bind_apply, modify_bind_apply]
    by_cases hzero : consumed = 0
    · rw [if_pos hzero, if_pos hzero]
    rw [if_neg hzero] at h
    rw [if_neg hzero, if_neg hzero]
    by_cases hready : p.state = .frameReady
    · rw [if_pos hready] at h
      rw [if_pos hready, if_pos hready]
      obtain ⟨hlast, hnext⟩ := Bool.and_eq_true_iff.mp h
      obtain ⟨hstate, hresult⟩ :=
        @tryFinally_dispatchFrame_swallowing env { s with frameParser := p } now hclose
      simp only [Bind.bind]
      rcases hd : tryFinally (dispatchFrame env now) resetParser { s with frameParser := p }
        with ⟨r, t⟩
      rcases hd' : tryFinally (dispatchFrame env.swallowing now) resetParser
        { s with frameParser := p } with ⟨r', t'⟩
      rw [hd, hd'] at hstate hresult
      rw [hd] at hnext
      dsimp only at hstate hresult hnext
      subst hstate
      rcases hresult with rfl | ⟨hraises, e, rfl, rfl⟩
      · cases r' with
        | error e => rfl
        | ok u =>
          change ((if t'.state = .closed then pure () else _ : M Unit) t').2 =
            ((if t'.state = .closed then pure () else _ : M Unit) t').2
          by_cases hclosed : t'.state = .closed
          · rw [if_pos hclosed, if_pos hclosed]
          · rw [if_neg hclosed, if_neg hclosed]
            exact ih (by simpa [hclosed] using hnext)
      · -- nothing of the chunk is left
        have hend : offset + consumed ≥ chunk.length := by simpa [hraises] using hlast
        change ((if t'.state = .closed then pure () else _ : M Unit) t').2 = t'
        have hdone :
            feedFrameLoop env.swallowing chunk now rounds (offset + consumed) = pure () := by
          cases rounds with
          | zero => rfl
          | succ rounds => rw [feedFrameLoop, if_pos hend]
        rw [hdone]
        split_ifs <;> rfl
    · rw [if_neg hready] at h
      rw [if_neg hready, if_neg hready]
      exact ih h

end Chunk

/-! ## Ticks and calls -/

section Stages

variable (env : Env)

/-- The rounds of `_drain_inbound`, up to the one that ends it or raises. -/
def receiveStages (nowMs : ℤ) : ℕ → ℕ → Session → List Call
  | 0, _, _ => []
  | rounds + 1, remaining, s =>
    if remaining = 0 then []
    else
      .receive nowMs remaining ::
        match recvChunk env remaining s with
        | (.ok (some (byte :: bytes)), t) =>
          match feedFrameBytes env (byte :: bytes) nowMs t with
          | (.ok _, u) =>
            if u.state = .closed then []
            else receiveStages nowMs rounds (remaining - (byte :: bytes).length) u
          | (.error _, _) => []
        | _ => []

/-- The stages of a tick behind `_check_timeouts`, up to one that raises. -/
def drainStages (nowMs : ℤ) (s : Session) : List Call :=
  receiveStages env nowMs s.config.recvBudgetPerTick s.config.recvBudgetPerTick s ++
    match drainInbound env nowMs s with
    | (.ok _, t) =>
      .drainOutbound ::
        match drainOutbound env t with
        | (.ok _, u) =>
          if u.config.isServer = false ∧ u.state = .opened then [.autoPing nowMs] else []
        | (.error _, _) => []
    | (.error _, _) => []

/-- The stages of a call: those of a tick, up to one that raises, and any other call itself. -/
def Call.stages (s : Session) : Call → List Call
  | .handle nowMs =>
    if s.state = .closed then []
    else
      .checkTimeouts nowMs ::
        match Websockets.checkTimeouts env nowMs s with
        | (.ok false, t) => drainStages env nowMs t
        | _ => []
  | call => [call]

/-- The stages of a run. -/
def stagesOf (s : Session) : List Call → List Call
  | [] => []
  | call :: calls => call.stages env s ++ stagesOf (call.run env s).2 calls

/-- In a call no callback raises for a frame that further bytes of its chunk follow. -/
def undisturbedCall (s : Session) : Call → Bool
  | .feed chunk nowMs => undisturbed env chunk nowMs chunk.length 0 s
  | .receive nowMs maxBytes =>
    match recvChunk env maxBytes s with
    | (.ok (some chunk), t) => undisturbed env chunk nowMs chunk.length 0 t
    | _ => true
  | _ => true

/-- So in every call of a run. -/
def undisturbedRun (s : Session) : List Call → Bool
  | [] => true
  | call :: calls => undisturbedCall env s call && undisturbedRun (call.run env s).2 calls

end Stages

section Runs

variable {env : Env} {s : Session}

lemma runCalls_nil : runCalls env s [] = s := rfl

lemma runCalls_cons (call : Call) (calls : List Call) :
    runCalls env s (call :: calls) = runCalls env (call.run env s).2 calls := rfl

/-- Calls after calls. -/
lemma runCalls_append (calls calls' : List Call) :
    runCalls env s (calls ++ calls') = runCalls env (runCalls env s calls) calls' :=
  List.foldl_append

/-- `_drain_inbound` is its rounds. -/
lemma runCalls_receiveStages (nowMs : ℤ) (rounds remaining : ℕ) :
    runCalls env s (receiveStages env nowMs rounds remaining s) =
      (drainInboundLoop env nowMs rounds remaining s).2 := by
  induction rounds generalizing remaining s with
  | zero => rfl
  | succ rounds ih =>
    rw [receiveStages, drainInboundLoop]
    by_cases hzero : remaining = 0
    · rw [if_pos hzero, if_pos hzero]
      rfl
    rw [if_neg hzero, if_neg hzero, runCalls_cons]
    simp only [Call.run, receive, Bind.bind]
    rcases recvChunk env remaining s with ⟨e | received, t⟩
    · rfl
    rcases received with _ | _ | ⟨byte, bytes⟩
    · rfl
    · rfl
    dsimp only
    rcases feedFrameBytes env (byte :: bytes) nowMs t with ⟨e | u, v⟩
    · rfl
    change runCalls env v (if v.state = .closed then [] else _) =
      ((if v.state = .closed then pure () else _ : M Unit) v).2
    by_cases hclosed : v.state = .closed
    · rw [if_pos hclosed, if_pos hclosed]
      rfl
    · rw [if_neg hclosed, if_neg hclosed]
      exact ih _

/-- The stages of the end of `handle`. -/
lemma runCalls_drainStages (nowMs : ℤ) :
    runCalls env s (drainStages env nowMs s) =
      ((do
        drainInbound env nowMs
        drainOutbound env
        let s ← get
        when (s.config.isServer = false ∧ s.state = .opened) <|
          maybeEmitAutoPing env nowMs : M Unit) s).2 := by
  rw [drainStages, runCalls_append, runCalls_receiveStages]
  change runCalls env (drainInbound env nowMs s).2 _ = _
  simp only [Bind.bind]
  rcases drainInbound env nowMs s with ⟨e | u, v⟩
  · rfl
  dsimp only
  rw [runCalls_cons]
  simp only [Call.run]
  rcases Websockets.drainOutbound env v with ⟨e | u, w⟩
  · rfl
  change _ = ((Prog.when _ _ : M Unit) w).2
  unfold Prog.when
  dsimp only
  split_ifs <;> rfl

/-- A tick is its stages. -/
lemma runCalls_stages (call : Call) :
    runCalls env s (call.stages env s) = (call.run env s).2 := by
  cases call with
  | handle nowMs =>
    rw [Call.stages]
    change _ = ((if s.state = .closed then pure () else _ : M Unit) s).2
    by_cases hclosed : s.state = .closed
    · rw [if_pos hclosed, if_pos hclosed]
      rfl
    rw [if_neg hclosed, if_neg hclosed, runCalls_cons]
    simp only [Call.run, Bind.bind]
    rcases Websockets.checkTimeouts env nowMs s with ⟨e | expired, t⟩
    · rfl
    cases expired with
    | true => rfl
    | false => exact runCalls_drainStages nowMs
  | _ => rfl

/-- **A run is the run of its stages.** -/
lemma runCalls_stagesOf (calls : List Call) :
    runCalls env s (stagesOf env s calls) = runCalls env s calls := by
  induction calls generalizing s with
  | nil => rfl
  | cons call calls ih => rw [stagesOf, runCalls_append, runCalls_stages, runCalls_cons, ih]

/-- A whole tick is not a stage. -/
def Call.isStage : Call → Bool
  | .handle _ => false
  | _ => true

lemma isStage_receiveStages {nowMs : ℤ} {rounds remaining : ℕ} :
    ∀ call ∈ receiveStages env nowMs rounds remaining s, call.isStage = true := by
  induction rounds generalizing remaining s with
  | zero => simp [receiveStages]
  | succ rounds ih =>
    intro call hcall
    rw [receiveStages] at hcall
    split_ifs at hcall
    · simp at hcall
    rcases List.mem_cons.mp hcall with rfl | hcall
    · rfl
    split at hcall
    · split at hcall
      · split_ifs at hcall
        · simp at hcall
        · exact ih _ hcall
      · simp at hcall
    · simp at hcall

lemma isStage_stages {call : Call} : ∀ stage ∈ call.stages env s, stage.isStage = true := by
  intro stage hstage
  cases call with
  | handle nowMs =>
    rw [Call.stages] at hstage
    split_ifs at hstage
    · simp at hstage
    rcases List.mem_cons.mp hstage with rfl | hstage
    · rfl
    split at hstage
    · rw [drainStages] at hstage
      rcases List.mem_append.mp hstage with hstage | hstage
      · exact isStage_receiveStages _ hstage
      split at hstage
      · rcases List.mem_cons.mp hstage with rfl | hstage
        · rfl
        split at hstage
        · split_ifs at hstage
          · rw [List.mem_singleton.mp hstage]
            rfl
          · simp at hstage
        · simp at hstage
      · simp at hstage
    · simp at hstage
  | _ =>
    rw [List.mem_singleton.mp hstage]
    rfl

/-- All of them are stages. -/
lemma isStage_stagesOf {calls : List Call} :
    ∀ stage ∈ stagesOf env s calls, stage.isStage = true := by
  induction calls generalizing s with
  | nil => simp [stagesOf]
  | cons call calls ih =>
    intro stage hstage
    rcases List.mem_append.mp hstage with hstage | hstage
    · exact isStage_stages _ hstage
    · exact ih _ hstage

section Swallowing

variable (hclose : CloseReturns env)

include hclose

/-- Bytes that raise in no callback. -/
lemma feedFrameBytes_swallowing {chunk : List UInt8} {nowMs : ℤ}
    (h : undisturbed env chunk nowMs chunk.length 0 s = true) :
    (feedFrameBytes env.swallowing chunk nowMs s).2 = (feedFrameBytes env chunk nowMs s).2 := by
  rw [feedFrameBytes, feedFrameBytes, get_bind_apply, get_bind_apply]
  by_cases herror : s.frameParser.state = .error
  · rw [if_pos herror, if_pos herror]
  · rw [if_neg herror, if_neg herror]
    exact feedFrameLoop_swallowing hclose h

lemma recvChunk_swallowing (maxBytes : ℕ) :
    recvChunk env.swallowing maxBytes = recvChunk env maxBytes := by
  have hrecv : env.swallowing.recv = env.recv := rfl
  have htext : env.swallowing.osErrorRepr = env.osErrorRepr := rfl
  simp only [recvChunk, failWithError_swallowing hclose, hrecv, htext]

lemma checkTimeouts_swallowing (nowMs : ℤ) :
    checkTimeouts env.swallowing nowMs = checkTimeouts env nowMs := by
  simp only [checkTimeouts, failWithError_swallowing hclose, finalizeClosed_swallowing hclose]

/-- A stage of receiving in which no callback raises. -/
lemma receive_swallowing {nowMs : ℤ} {maxBytes : ℕ}
    (h : undisturbedCall env s (.receive nowMs maxBytes) = true) :
    (receive env.swallowing nowMs maxBytes s).2 = (receive env nowMs maxBytes s).2 := by
  rw [undisturbedCall] at h
  unfold receive
  rw [recvChunk_swallowing hclose, failWithError_swallowing hclose]
  simp only [Bind.bind]
  rcases hrecv : recvChunk env maxBytes s with ⟨e | received, t⟩
  · rfl
  rcases received with _ | _ | ⟨byte, bytes⟩
  · rfl
  · rfl
  rw [hrecv] at h
  exact feedFrameBytes_swallowing hclose h

/-- A stage, undisturbed, leaves the session as if no callback had raised. -/
lemma stage_swallowing {stage : Call} (hstage : stage.isStage = true)
    (h : undisturbedCall env s stage = true) :
    (stage.run env.swallowing s).2 = (stage.run env s).2 := by
  cases stage with
  | feed chunk nowMs => exact feedFrameBytes_swallowing hclose h
  | receive nowMs maxBytes => exact receive_swallowing hclose h
  | drainOutbound =>
    rw [Call.run, Call.run, drainOutbound, drainOutbound]
    simp only [drainOutboundLoop_swallowing hclose]
  | checkTimeouts nowMs => rw [Call.run, Call.run, checkTimeouts_swallowing hclose]
  | autoPing nowMs =>
    rw [Call.run, Call.run, maybeEmitAutoPing, maybeEmitAutoPing]
    simp only [enqueueInternalFrame_swallowing, armPongDeadline_swallowing]
  | handle nowMs => cases hstage
  | sendText text => rw [Call.run, Call.run, sendText, sendText, sendOpen_swallowing]
  | sendBinary data => rw [Call.run, Call.run, sendBinary, sendBinary, sendOpen_swallowing]
  | sendPing payload =>
    rw [Call.run, Call.run, sendPing, sendPing, sendOpen_swallowing, armPongDeadline_swallowing]
  | close code reason =>
    rw [Call.run, Call.run, close, close]
    simp only [sendClose_swallowing]
  | nextMessage => rw [Call.run, Call.run]

/-- **An undisturbed run of stages** leaves the session as if no callback had raised. -/
lemma runCalls_swallowing_of_stages {stages : List Call}
    (hstages : ∀ stage ∈ stages, stage.isStage = true) (h : undisturbedRun env s stages = true) :
    runCalls env.swallowing s stages = runCalls env s stages := by
  induction stages generalizing s with
  | nil => rw [runCalls_nil, runCalls_nil]
  | cons stage stages ih =>
    rw [undisturbedRun] at h
    obtain ⟨hstage, hrest⟩ := Bool.and_eq_true_iff.mp h
    rw [runCalls_cons, runCalls_cons,
      stage_swallowing hclose (hstages stage List.mem_cons_self) hstage]
    exact ih (fun stage hmem => hstages stage (List.mem_cons_of_mem _ hmem)) hrest

/-- **Frames stay aligned when callbacks raise.** A run of ticks and calls, in which exceptions
leave `handle` and end their ticks, leaves the session as the same stages leave it if the callbacks
do what they do and then return, provided that no callback raises for a frame that further bytes of
the same received chunk follow. -/
theorem runCalls_swallowing (calls : List Call)
    (h : undisturbedRun env s (stagesOf env s calls) = true) :
    runCalls env.swallowing s (stagesOf env s calls) = runCalls env s calls := by
  rw [runCalls_swallowing_of_stages hclose isStage_stagesOf h, runCalls_stagesOf]

end Swallowing

end Runs

/-- An application whose callbacks raise, except `on_close`, on a socket that has these chunks. -/
def raisingEnv (chunks : List (List UInt8)) : Env :=
  { quietEnv with
    recv := fun n => .ok chunks[n]?
    callback := fun _ s =>
      match s.events.getLast? with
      | some (.onClose _ _) => (.ok (), s)
      | _ => (.error (.webSocketError "callback"), s) }

/-- In the example every CLOSE can be sent. -/
lemma closeReturns_raisingEnv (chunks : List (List UInt8)) :
    CloseReturns (raisingEnv chunks) := by
  intro n s code reason h
  exact ⟨s, by simp only [raisingEnv, h]⟩

/-- Two messages in two chunks, for each of which the callback raises: both are delivered. -/
theorem runCalls_swallowing_apart :
    runCalls (raisingEnv [[0x82, 1, 5], [0x82, 1, 6]]).swallowing (Session.opening fourByteClient)
        (stagesOf (raisingEnv [[0x82, 1, 5], [0x82, 1, 6]]) (Session.opening fourByteClient)
          [.handle 0, .handle 10]) =
      runCalls (raisingEnv [[0x82, 1, 5], [0x82, 1, 6]]) (Session.opening fourByteClient)
        [.handle 0, .handle 10] ∧
    (runCalls (raisingEnv [[0x82, 1, 5], [0x82, 1, 6]]) (Session.opening fourByteClient)
      [.handle 0, .handle 10]).events = [.onBinary [5], .onBinary [6]] :=
  ⟨runCalls_swallowing (closeReturns_raisingEnv _) _ (by decide +kernel), by decide +kernel⟩

/-- Two messages in one chunk: when the callback raises for the first, the second is lost. -/
theorem lost_behind_raising :
    CloseReturns (raisingEnv [[0x82, 1, 5, 0x82, 1, 6]]) ∧
    (runCalls (raisingEnv [[0x82, 1, 5, 0x82, 1, 6]]) (Session.opening fourByteClient)
      [.handle 0, .handle 10]).events = [.onBinary [5]] ∧
    (runCalls (raisingEnv [[0x82, 1, 5, 0x82, 1, 6]]).swallowing (Session.opening fourByteClient)
      [.handle 0, .handle 10]).events = [.onBinary [5], .onBinary [6]] :=
  ⟨closeReturns_raisingEnv _, by decide +kernel, by decide +kernel⟩

end ChuMicro.Websockets
