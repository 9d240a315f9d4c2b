import ChuMicro.HttpServer.RequestStream
import ChuMicro.HttpServer.Server

/-!
# What reaches `handle`

In a tick of a connection exceptions of many kinds arise. As long as the handlers are calm,
everything that reaches the end of the tick is of a kind that is caught there: the errors of the
parser, of the stream and of the socket. So `handle` returns, and what it does to a connection is
the tick of that connection alone.

A handler that closes the server, raises what cannot be encoded, or streams chunks through a window
that is too small makes `handle` raise, and so does a source that closes the server, or that spoils
the bounds or the view of what is sent next.

## Main definitions

* `HttpServer.StreamState.Sliceable` — a stream of which what is framed can be sliced.
* `HttpServer.Connection.Ready` — what a connection is in between ticks.
* `HttpServer.Server.Kept` — what every calm run keeps.

## Main results

* `HttpServer.Connection.tick_calm` — a calm tick raises nothing.
* `HttpServer.Server.handle_calm` — a calm call of `handle` ticks every connection on its own.
* `HttpServer.handle_returns` — the same after every calm run.
-/

namespace ChuMicro.HttpServer

open Http

/-! ## Text -/

lemma buildErrorResponse_ok (statusCode : ℤ) (message : String) :
    ∃ response, buildErrorResponse statusCode (pyStr message) = .ok response := by
  rw [buildErrorResponse, encodeStr_pyStr]
  exact ⟨_, rfl⟩

/-! ## The parser -/

/-- A parser that has failed has an error. -/
def RequestFields.Sound (f : RequestFields) : Prop := f.state = .error → ∃ e, f.error = some e

lemma sound_fail (f : RequestFields) (e : ServerError) : (f.fail e).Sound := fun _ => ⟨e, rfl⟩

open RequestFields

lemma sound_absorbBodyBytes {f : RequestFields} (h : f.Sound) (chunk : List UInt8) :
    (f.absorbBodyBytes chunk).Sound := by
  unfold absorbBodyBytes
  dsimp only
  split_ifs
  · exact h
  · intro herror
    cases herror
  · exact h

lemma sound_stepLive {lower : Str → Str} {f g : RequestFields} {l r : List UInt8} {progress : Progress}
    (hf : f.Sound) (hstep : f.stepLive lower l = (progress, g, r)) : g.Sound := by
  by_cases hlines : f.ReadsLines
  · rcases hlines with hs | hs
    · rw [stepLive_requestLine lower hs] at hstep
      rcases stepRequestLine_cases f l with ⟨-, -, heq⟩ | ⟨-, heq⟩ | ⟨i, -, -, heq⟩
      · cases heq.symm.trans hstep
        exact hf
      · cases heq.symm.trans hstep
        exact sound_fail _ _
      · rcases parseRequestLine_cases f (l.take i) with ⟨_, _, -, hp⟩ | ⟨_, _, _, hp⟩
        · rw [hp] at heq
          cases heq.symm.trans hstep
          exact sound_fail _ _
        · rw [hp] at heq
          cases heq.symm.trans hstep
          intro herror
          cases herror
    · rw [stepLive_headers lower hs] at hstep
      rcases stepHeaders_cases lower f l with ⟨-, heq⟩ | ⟨-, ⟨-, heq⟩ | ⟨-, heq⟩ | ⟨i, -, heq⟩⟩
      · cases heq.symm.trans hstep
        exact sound_fail _ _
      · cases heq.symm.trans hstep
        exact hf
      · rcases stepBlankLine_cases lower f with ⟨e, -, hblank⟩ | ⟨n, hblank⟩ | ⟨n, hblank⟩
        · rw [hblank] at heq
          cases heq.symm.trans hstep
          exact sound_fail _ _
        · rw [hblank] at heq
          cases heq.symm.trans hstep
          intro herror
          cases herror
        · rw [hblank] at heq
          cases heq.symm.trans hstep
          exact sound_absorbBodyBytes (fun herror => by cases herror) _
      · rcases parseHeaderLine_cases lower (f.counted (i + 3)) (l.take (i + 1)) with
          ⟨_, _, -, hp⟩ | ⟨_, _, hp⟩
        · rw [hp] at heq
          cases heq.symm.trans hstep
          exact sound_fail _ _
        · rw [hp] at heq
          cases heq.symm.trans hstep
          intro herror
          have : f.state = .error := herror
          rw [hs] at this
          cases this
  · rw [stepLive_of_not_readsLines lower l hlines] at hstep
    cases hstep
    exact hf

lemma sound_feed (lower : Str → Str) {p : RequestParser} (h : p.Sound) (chunk : List UInt8) :
    (p.feed lower chunk).2.Sound := by
  have habs : (p.feed lower chunk).2.toRequestFields = (p.abs.feed lower chunk).1 :=
    congrArg Prod.fst (abs_feed p chunk)
  have hfeed := @Live.foldl_feed_induction lower p.abs RequestFields.Sound
    (fun f l progress g r hf hstep => sound_stepLive hf hstep)
    (fun f chunk hf => sound_absorbBodyBytes hf chunk) [chunk] h
  rw [habs]
  exact hfeed

lemma sound_feedEof {p : RequestParser} (h : p.Sound) : p.feedEof.Sound := by
  unfold RequestParser.feedEof
  split_ifs
  · exact h
  · exact sound_fail _ _
  · exact sound_fail _ _

/-! ## The stream -/

namespace StreamState

/-- A stream whose source is calm, and of which what is framed can be sliced. -/
structure Sliceable (size : ℤ) (env : StreamEnv) (s : StreamState) : Prop where
  calm : env.Calm size s.contentLength
  capacity : (s.fillCapacity : ℤ) ≤ size
  outEndIsInt : s.outEndIsInt = true
  viewReleased : s.contentLength.isSome = true → s.viewReleased = false

variable {size : ℤ} {env : StreamEnv} {s t : StreamState}

lemma Sliceable.sliceError (h : s.Sliceable size env) (room : ℕ) : s.sliceError room = none := by
  rw [StreamState.sliceError,
    if_neg (by rintro ⟨hreleased, hlength⟩; simp [h.viewReleased hlength] at hreleased),
    if_neg (by simp [h.outEndIsInt])]

/-- A window that fits is taken, and its stream is sliceable. -/
lemma sliceable_new {contentLength : Option ℕ} (h : WindowFits size contentLength)
    (henv : env.Calm size contentLength) :
    ∃ stream, StreamState.new contentLength (List.replicate size.toNat 0) = .ok stream ∧
      stream.Sliceable size env := by
  obtain ⟨hpos, hfits⟩ := h
  unfold StreamState.new
  cases contentLength with
  | none =>
    have hfits := hfits rfl
    rw [List.length_replicate]
    dsimp only
    rw [if_neg (by omega)]
    exact ⟨_, rfl, henv, by dsimp only; omega, rfl, nofun⟩
  | some length => exact ⟨_, rfl, henv, by simp [hpos], rfl, fun _ => rfl⟩

/-- What a poll leaves as it is, where it does not raise. -/
structure SameKind (s t : StreamState) : Prop where
  contentLength : t.contentLength = s.contentLength
  fillCapacity : t.fillCapacity = s.fillCapacity
  viewReleased : t.viewReleased = s.viewReleased

lemma frameData_sameKind {count : ℕ} (h : s.frameData count = .ok t) :
    SameKind s t ∧ t.outEndIsInt = s.outEndIsInt := by
  unfold frameData at h
  split at h
  · next hlength =>
    split at h
    · next u hframe =>
      unfold frameChunk at hframe
      obtain ⟨⟨buffer, headerLen⟩, -, hframe⟩ := bind_eq_ok.mp hframe
      obtain ⟨buffer', -, hframe⟩ := bind_eq_ok.mp hframe
      obtain ⟨buffer'', -, hframe⟩ := bind_eq_ok.mp hframe
      cases hframe
      cases h
      exact ⟨⟨rfl, rfl, rfl⟩, rfl⟩
    · cases h
  · next hlength =>
    split at h
    · cases h
    · cases h
      exact ⟨⟨rfl, rfl, rfl⟩, rfl⟩

lemma onEof_sameKind (h : s.onEof = .ok t) : SameKind s t ∧ t.outEndIsInt = s.outEndIsInt := by
  unfold onEof at h
  split at h
  · cases h
    exact ⟨⟨rfl, rfl, rfl⟩, rfl⟩
  · split at h
    · cases h
    · cases h
      exact ⟨⟨rfl, rfl, rfl⟩, rfl⟩

/-- **A poll leaves a sliceable stream.** The only answer that would not is one that ends in a
number which is no `int`. -/
lemma Sliceable.pull (h : s.Sliceable size env) {k : ℕ} {progressed : Bool}
    (hpull : s.pull (env.source k) = .ok (progressed, t)) : t.Sliceable size env := by
  have hkept : ∀ {written u},
      SameKind (s.fill written) u ∧ u.outEndIsInt = (s.fill written).outEndIsInt →
      u.Sliceable size env := by
    rintro written u ⟨hkept, hint⟩
    have hlength : u.contentLength = s.contentLength := hkept.contentLength
    have hcapacity : u.fillCapacity = s.fillCapacity := hkept.fillCapacity
    exact ⟨hlength ▸ h.calm, hcapacity ▸ h.capacity, hint.trans h.outEndIsInt,
      fun hsome => hkept.viewReleased.trans (h.viewReleased (hlength ▸ hsome))⟩
  have hmap : ∀ {x : Except StreamError StreamState},
      x.map ((true, ·) : StreamState → Bool × StreamState) = .ok (progressed, t) → x = .ok t := by
    rintro (e | u) heq
    · cases heq
    · cases heq
      rfl
  cases hanswer : env.source k with
  | raised e => rw [hanswer] at hpull; cases hpull
  | returnedOther => rw [hanswer] at hpull; cases hpull
  | returned written count =>
    rw [hanswer, StreamState.pull] at hpull
    split_ifs at hpull
    · exact hkept (onEof_sameKind (hmap hpull))
    · cases hpull
      exact @hkept written _ ⟨⟨rfl, rfl, rfl⟩, rfl⟩
    · exact hkept (frameData_sameKind (hmap hpull))
  | returnedFloat written count =>
    rw [hanswer, StreamState.pull] at hpull
    split_ifs at hpull with heof hzero hrange
    · exact hkept (onEof_sameKind (hmap hpull))
    · cases hpull
      exact @hkept written _ ⟨⟨rfl, rfl, rfl⟩, rfl⟩
    · -- the end of what is sent would be no `int`
      have hframe := hmap hpull
      unfold frameFloat at hframe
      split at hframe
      · cases hframe
      · next length hlength =>
        split at hframe
        · cases hframe
        · next hover =>
          refine absurd ?_ (h.calm.source length hlength k)
          rw [hanswer, Polled.EndsInFloat]
          rw [not_or, not_lt, not_lt] at hrange
          have hcapacity : (s.fillCapacity : ℚ) ≤ size := by exact_mod_cast h.capacity
          have hsent : (0 : ℚ) ≤ (s.fill written).bodyBytesSent := Nat.cast_nonneg _
          exact ⟨lt_of_le_of_ne hrange.1 (Ne.symm hzero), hrange.2.trans hcapacity, by linarith⟩

end StreamState

namespace StreamConn

/-- A connection that has its socket and a sliceable stream. -/
structure Steady (size : ℤ) (env : StreamEnv) (conn : StreamConn) : Prop where
  socketOpen : conn.socketOpen = true
  serverOpen : conn.serverClosed = false
  stream : conn.stream.Sliceable size env

variable {size : ℤ} {env : StreamEnv} {conn : StreamConn}

lemma Steady.polled (h : conn.Steady size env) : (conn.polled env).Steady size env where
  socketOpen := by simp [StreamConn.polled, h.socketOpen, h.stream.calm.closesServer]
  serverOpen := by simp [StreamConn.polled, h.serverOpen, h.stream.calm.closesServer]
  stream := by
    refine ⟨h.stream.calm, h.stream.capacity, h.stream.outEndIsInt, fun hsome => ?_⟩
    obtain ⟨length, hlength⟩ := Option.isSome_iff_exists.mp hsome
    simp [StreamConn.polled, h.stream.viewReleased hsome, h.stream.calm.releasesView length hlength]

/-- **A round of a steady connection** raises what `tick` catches, and leaves it steady. -/
lemma Steady.round (h : conn.Steady size env) (room : ℕ) :
    (∀ e, (conn.round env room).1 ≠ .error (.other e)) ∧ (conn.round env room).2.Steady size env := by
  unfold StreamConn.round
  split_ifs
  · unfold sendRound
    dsimp only
    split
    · next hslice => rw [h.stream.sliceError] at hslice; cases hslice
    · next hclosed => rw [h.socketOpen] at hclosed; cases hclosed
    · have hsent : ∀ {conn' : StreamConn}, conn'.socketOpen = conn.socketOpen →
          conn'.serverClosed = conn.serverClosed →
          (∃ count, conn'.stream = conn.stream.advanceSent count ∨ conn'.stream = conn.stream) →
          conn'.Steady size env := by
        rintro conn' hopen hclosed ⟨count, hstream | hstream⟩
        · exact ⟨hopen.trans h.socketOpen, hclosed.trans h.serverOpen, hstream ▸
            ⟨h.stream.calm, h.stream.capacity, h.stream.outEndIsInt, h.stream.viewReleased⟩⟩
        · exact ⟨hopen.trans h.socketOpen, hclosed.trans h.serverOpen, hstream ▸ h.stream⟩
      split
      · split_ifs
        · exact ⟨nofun, hsent rfl rfl ⟨0, .inr rfl⟩⟩
        · exact ⟨nofun, hsent rfl rfl ⟨0, .inr rfl⟩⟩
      · exact ⟨nofun, hsent rfl rfl ⟨0, .inr rfl⟩⟩
      · next count _ _ => exact ⟨nofun, hsent rfl rfl ⟨count, .inl rfl⟩⟩
  · exact ⟨nofun, h.socketOpen, h.serverOpen, h.stream⟩
  · have hpolled := h.polled
    dsimp only
    split
    · exact ⟨nofun, hpolled⟩
    · next progressed stream hpull =>
      exact ⟨nofun, hpolled.socketOpen, hpolled.serverOpen, hpolled.stream.pull hpull⟩

lemma Steady.driveLoop (h : conn.Steady size env) (rounds consumed : ℕ) :
    (∀ e, (driveLoop env rounds consumed conn).1 ≠ .error (.other e)) ∧
      (driveLoop env rounds consumed conn).2.Steady size env := by
  induction rounds generalizing conn consumed with
  | zero => exact ⟨nofun, h⟩
  | succ rounds ih =>
    rw [StreamConn.driveLoop]
    split_ifs
    · have hround := h.round (conn.sendBudget - consumed)
      rcases hresult : conn.round env (conn.sendBudget - consumed) with ⟨result, conn'⟩
      rw [hresult] at hround
      match result with
      | .error e => exact ⟨fun e' he' => hround.1 e' (congrArg _ (Except.error.inj he')), hround.2⟩
      | .ok none => exact ⟨nofun, hround.2⟩
      | .ok (some count) => exact ih hround.2 (consumed + count)
    · exact ⟨nofun, h⟩

end StreamConn

/-! ## Parts of a tick -/

/-- What is raised is of a kind that `tick` catches. -/
def Mild {α : Type} (result : Except TickError α) : Prop := ∀ e, result ≠ .error (.other e)

lemma mild_ok {α : Type} (a : α) : Mild (.ok a : Except TickError α) := fun e he => by cases he

lemma mild_server {α : Type} (e : ServerError) : Mild (.error (.server e) : Except TickError α) :=
  fun e' he => by cases he

lemma mild_os {α : Type} (errno : ℕ) : Mild (.error (.os errno) : Except TickError α) :=
  fun e he => by cases he

namespace Connection

/-- The connection is the same one and has the same socket. -/
structure Same (c c' : Connection) : Prop where
  id_eq : c'.id = c.id
  socket_eq : c'.socket = c.socket

lemma Same.refl (c : Connection) : Same c c := ⟨rfl, rfl⟩

lemma Same.trans {c c' c'' : Connection} (h : Same c c') (h' : Same c' c'') : Same c c'' :=
  ⟨h'.id_eq.trans h.id_eq, h'.socket_eq.trans h.socket_eq⟩

/-- What is framed of the body of a connection, if it streams one, can be sliced. -/
def Sliceable (config : ServerConfig) (env : ConnEnv) (c : Connection) : Prop :=
  ∀ stream, c.stream = some stream → stream.Sliceable config.streamBufferSize env.toStreamEnv

/-- What a connection is in between ticks. -/
structure Ready (config : ServerConfig) (env : ConnEnv) (c : Connection) : Prop where
  parser : c.receiving = true → ∃ parser, c.parser = some parser ∧ parser.Sound
  stream : c.state = .wantSendBody → c.stream.isSome = true
  settled : c.state ≠ .dispatching
  sliceable : c.Sliceable config env

section Parts

variable {lower : Str → Str} {config : ServerConfig} {env : ConnEnv} {c : Connection}
  {parser : RequestParser} {budget : ℕ}

/-- The connection has received something, or nothing. -/
structure Received (c c' : Connection) : Prop extends Same c c' where
  state_eq : c'.state = c.state
  stream_eq : c'.stream = c.stream
  parser : ∃ parser, c'.parser = some parser ∧ parser.Sound

/-- The loop of `_drive_recv` raises errors of the parser and of the socket only. -/
lemma recvLoop_mild (hsocket : c.socket = true) (hparser : c.parser = some parser) (hsound : parser.Sound)
    (rounds consumed : ℕ) :
    Mild (recvLoop lower budget env rounds consumed c).1 ∧
      Received c (recvLoop lower budget env rounds consumed c).2 := by
  induction rounds generalizing c consumed parser with
  | zero => exact ⟨mild_ok _, ⟨rfl, rfl⟩, rfl, rfl, parser, hparser, hsound⟩
  | succ rounds ih =>
    rw [recvLoop, hparser]
    dsimp only
    split_ifs with hmore
    · split
      · split_ifs
        · exact ⟨mild_ok _, ⟨rfl, rfl⟩, rfl, rfl, parser, rfl, hsound⟩
        · exact ⟨mild_os _, ⟨rfl, rfl⟩, rfl, rfl, parser, rfl, hsound⟩
      · next data _ =>
        split_ifs
        · exact ⟨mild_ok _, ⟨rfl, rfl⟩, rfl, rfl, _, rfl, sound_feedEof hsound⟩
        · have hfed := sound_feed lower hsound (data.take (min (min budget 512) (budget - consumed)))
          split
          · next e parser' hfeed =>
            rw [hfeed] at hfed
            exact ⟨mild_server _, ⟨rfl, rfl⟩, rfl, rfl, _, rfl, hfed⟩
          · next parser' hfeed =>
            rw [hfeed] at hfed
            obtain ⟨hmild, hreceived⟩ := @ih
              { c with recvs := c.recvs + 1, parser := some parser' } parser' hsocket rfl hfed
              (consumed + (data.take (min (min budget 512) (budget - consumed))).length)
            exact ⟨hmild, ⟨hreceived.id_eq, hreceived.socket_eq⟩, hreceived.state_eq, hreceived.stream_eq,
              hreceived.parser⟩
    · exact ⟨mild_ok _, ⟨rfl, rfl⟩, rfl, rfl, parser, hparser, hsound⟩

/-- `_drive_recv` leaves a connection that receives, or one whose request is complete. -/
lemma driveRecv_mild (hready : c.Ready config env) (hreceiving : c.receiving = true)
    (hsocket : c.socket = true) :
    Mild (c.driveRecv lower budget env).1 ∧ Same c (c.driveRecv lower budget env).2 ∧
      (c.driveRecv lower budget env).2.stream = c.stream ∧
      (∃ parser, (c.driveRecv lower budget env).2.parser = some parser ∧ parser.Sound) ∧
      ((c.driveRecv lower budget env).2.receiving = true ∨
        (c.driveRecv lower budget env).2.state = .dispatching) := by
  obtain ⟨parser, hparser, hsound⟩ := hready.parser hreceiving
  obtain ⟨hmild, hreceived⟩ := @recvLoop_mild lower env c parser budget hsocket hparser hsound
    (budget + 1) 0
  unfold driveRecv
  rcases hloop : recvLoop lower budget env (budget + 1) 0 c with ⟨result, c'⟩
  rw [hloop] at hmild hreceived
  dsimp only at hmild hreceived
  obtain ⟨parser', hparser', hsound'⟩ := hreceived.parser
  have hreceiving' : c'.receiving = true := by
    rw [receiving, hreceived.state_eq]
    exact hreceiving
  match result with
  | .error e =>
    exact ⟨fun e' he' => hmild e' (congrArg _ (Except.error.inj he')), hreceived.toSame,
      hreceived.stream_eq, ⟨parser', hparser', hsound'⟩, .inl hreceiving'⟩
  | .ok false =>
    exact ⟨mild_ok _, hreceived.toSame, hreceived.stream_eq, ⟨parser', hparser', hsound'⟩,
      .inl hreceiving'⟩
  | .ok true =>
    dsimp only
    rw [hparser']
    dsimp only
    split
    · next herror =>
      obtain ⟨e, he⟩ := hsound' herror
      rw [he]
      exact ⟨mild_server _, hreceived.toSame, hreceived.stream_eq, ⟨parser', hparser', hsound'⟩,
        .inl hreceiving'⟩
    · exact ⟨mild_ok _, ⟨hreceived.id_eq, hreceived.socket_eq⟩, hreceived.stream_eq,
        ⟨parser', rfl, hsound'⟩, .inr rfl⟩
    · exact ⟨mild_ok _, ⟨hreceived.id_eq, hreceived.socket_eq⟩, hreceived.stream_eq,
        ⟨parser', rfl, hsound'⟩, .inl rfl⟩
    · exact ⟨mild_ok _, ⟨hreceived.id_eq, hreceived.socket_eq⟩, hreceived.stream_eq,
        ⟨parser', rfl, hsound'⟩, .inl rfl⟩
    · exact ⟨mild_ok _, hreceived.toSame, hreceived.stream_eq, ⟨parser', hparser', hsound'⟩,
        .inl hreceiving'⟩

/-! ## Answers -/

lemma ready_stageBytes (h : c.Sliceable config env) (data : List UInt8) :
    (c.stageBytes data).Ready config env where
  parser := fun h => by cases h
  stream := fun h => by cases h
  settled := fun h => by cases h
  sliceable := h

lemma stageResponse_eq (lower : Str → Str) (c : Connection) (response : Response) :
    ∃ data, c.stageResponse lower response = c.stageBytes data := by
  unfold stageResponse
  split
  · exact ⟨_, rfl⟩
  · exact ⟨_, rfl⟩

/-- **The answer of a calm handler** can be staged. -/
lemma stageAnswer_calm {handled : Handled} (h : handled.Calm lower config env.toStreamEnv)
    (hsliceable : c.Sliceable config env) :
    Mild (c.stageAnswer lower config.streamBufferSize handled).1 ∧
      Same c (c.stageAnswer lower config.streamBufferSize handled).2 ∧
      (c.stageAnswer lower config.streamBufferSize handled).2.Sliceable config env ∧
      ((c.stageAnswer lower config.streamBufferSize handled).1 = .ok () →
        (c.stageAnswer lower config.streamBufferSize handled).2.Ready config env) := by
  obtain ⟨-, hanswer⟩ := h
  have hbytes : ∀ data, Mild (.ok () : Except TickError Unit) ∧ Same c (c.stageBytes data) ∧
      (c.stageBytes data).Sliceable config env ∧
      ((.ok () : Except TickError Unit) = .ok () → (c.stageBytes data).Ready config env) :=
    fun data => ⟨mild_ok _, ⟨rfl, rfl⟩, hsliceable, fun _ => ready_stageBytes hsliceable data⟩
  have hstaged : ∀ response, Mild (.ok () : Except TickError Unit) ∧
      Same c (c.stageResponse lower response) ∧
      (c.stageResponse lower response).Sliceable config env ∧
      ((.ok () : Except TickError Unit) = .ok () →
        (c.stageResponse lower response).Ready config env) := by
    intro response
    obtain ⟨data, hdata⟩ := stageResponse_eq lower c response
    rw [hdata]
    exact hbytes data
  unfold stageAnswer
  split
  · next heq =>
    rw [heq] at hanswer
    obtain ⟨message, hmem, -⟩ := hanswer
    cases hmem
  · next text heq =>
    rw [heq] at hanswer
    obtain ⟨message, hmem, data, hdata⟩ := hanswer
    cases hmem
    rw [buildErrorResponse, hdata]
    exact hstaged _
  · exact hstaged _
  · exact hbytes _
  · next response heq =>
    rw [heq] at hanswer
    unfold stageStreamingResponse
    split
    · exact hbytes _
    · next headerBytes hencode =>
      have hfits := hanswer.resolve_left fun ⟨e, he⟩ => by
        rw [hencode] at he
        cases he
      obtain ⟨hwindow, hallocation, hcalm⟩ := hfits
      obtain ⟨stream, hstream, hslice⟩ := StreamState.sliceable_new hwindow hcalm
      have hbuffer : newStreamBuffer config.streamBufferSize handled.allocation =
          .ok (List.replicate config.streamBufferSize.toNat 0) := by
        simp only [newStreamBuffer, if_neg (not_lt.mpr hwindow.1), hallocation]
      rw [hbuffer]
      dsimp only
      rw [hstream]
      have hnew : ({ c with stream := some stream } : Connection).Sliceable config env := by
        rintro stream' ⟨⟩
        exact hslice
      exact ⟨mild_ok _, ⟨rfl, rfl⟩, hnew, fun _ => ready_stageBytes hnew _⟩
  · exact hbytes _
  · exact ⟨mild_os _, .refl c, hsliceable, nofun⟩
  · next e hnot heq =>
    rw [heq] at hanswer
    obtain ⟨errno, he⟩ := hanswer
    exact (hnot errno he).elim
  · next typeName heq =>
    rw [heq] at hanswer
    obtain ⟨message, hmem, data, hdata⟩ := hanswer
    cases hmem
    obtain ⟨data', hdata'⟩ := encodeStr_append (encodeStr_pyStr "handler returned ") hdata
    obtain ⟨data'', hdata''⟩ := encodeStr_append hdata' (encodeStr_pyStr ", expected Response")
    rw [buildErrorResponse, hdata'']
    exact hstaged _

/-! ## Sending -/

/-- The connection has sent something, or nothing. -/
structure Sent (c c' : Connection) : Prop extends Same c c' where
  state_eq : c'.state = c.state
  stream_eq : c'.stream = c.stream

lemma sendLoop_mild (hsocket : c.socket = true) (rounds consumed : ℕ) :
    Mild (sendLoop budget env rounds consumed c).1 ∧ Sent c (sendLoop budget env rounds consumed c).2 := by
  induction rounds generalizing c consumed with
  | zero => exact ⟨mild_ok _, ⟨rfl, rfl⟩, rfl, rfl⟩
  | succ rounds ih =>
    rw [sendLoop]
    dsimp only
    split_ifs with hmore
    · split
      · split_ifs
        · exact ⟨mild_ok _, ⟨rfl, rfl⟩, rfl, rfl⟩
        · exact ⟨mild_os _, ⟨rfl, rfl⟩, rfl, rfl⟩
      · exact ⟨mild_ok _, ⟨rfl, rfl⟩, rfl, rfl⟩
      · next count _ _ =>
        obtain ⟨hmild, hsent⟩ := @ih
          { c with
            sends := c.sends + 1
            responseOffset := c.responseOffset + count
            wire := c.wire ++ ((c.responseBytes.drop c.responseOffset).take
              (min (c.responseBytes.length - c.responseOffset) (budget - consumed))).take count }
          hsocket (consumed + count)
        exact ⟨hmild, ⟨hsent.id_eq, hsent.socket_eq⟩, hsent.state_eq, hsent.stream_eq⟩
    · exact ⟨mild_ok _, ⟨rfl, rfl⟩, rfl, rfl⟩

/-- `_drive_send` leaves a connection that can go on. -/
lemma driveSend_mild (hready : c.Ready config env) (hsocket : c.socket = true)
    (hstate : c.state = .wantSendHeaders) :
    Mild (c.driveSend budget env).1 ∧ Same c (c.driveSend budget env).2 ∧
      (c.driveSend budget env).2.Ready config env := by
  obtain ⟨hmild, hsent⟩ := @sendLoop_mild env c budget hsocket (budget + 1) 0
  unfold driveSend
  rcases hloop : sendLoop budget env (budget + 1) 0 c with ⟨result, c'⟩
  rw [hloop] at hmild hsent
  dsimp only at hmild hsent
  have hsliceable : c'.Sliceable config env := fun stream hstream =>
    hready.sliceable stream (hsent.stream_eq.symm.trans hstream)
  have hready : c'.Ready config env := by
    have hstate' := hsent.state_eq.trans hstate
    exact ⟨by simp [receiving, hstate'], by simp [hstate'], by simp [hstate'], hsliceable⟩
  match result with
  | .error e => exact ⟨fun e' he' => hmild e' (congrArg _ (Except.error.inj he')), hsent.toSame, hready⟩
  | .ok false => exact ⟨mild_ok _, hsent.toSame, hready⟩
  | .ok true =>
    dsimp only
    split_ifs with hend hstream
    · refine ⟨mild_ok _, ⟨hsent.id_eq, hsent.socket_eq⟩, ⟨by simp [receiving], fun _ => hstream, by simp,
        hsliceable⟩⟩
    · refine ⟨mild_ok _, ⟨hsent.id_eq, hsent.socket_eq⟩, ⟨by simp [receiving], by simp, by simp,
        hsliceable⟩⟩
    · exact ⟨mild_ok _, hsent.toSame, hready⟩

/-- The loop of `drive_stream_body` goes on, or is done. -/
lemma state_driveLoop (streamEnv : StreamEnv) (rounds consumed : ℕ) (conn : StreamConn) :
    (StreamConn.driveLoop streamEnv rounds consumed conn).2.state = conn.state ∨
      (StreamConn.driveLoop streamEnv rounds consumed conn).2.state = .done := by
  have hround : ∀ (conn : StreamConn) room, (conn.round streamEnv room).2.state = conn.state ∨
      (conn.round streamEnv room).1 = .ok none ∧ (conn.round streamEnv room).2.state = .done := by
    intro conn room
    unfold StreamConn.round StreamConn.sendRound
    dsimp only
    split_ifs
    · split
      · exact .inl rfl
      · exact .inl rfl
      · split
        · split_ifs <;> exact .inl rfl
        · exact .inl rfl
        · exact .inl rfl
    · exact .inr ⟨rfl, rfl⟩
    · split <;> exact .inl rfl
  induction rounds generalizing consumed conn with
  | zero => exact .inl rfl
  | succ rounds ih =>
    rw [StreamConn.driveLoop]
    split_ifs
    · have hstate := hround conn (conn.sendBudget - consumed)
      rcases hresult : conn.round streamEnv (conn.sendBudget - consumed) with ⟨result, conn'⟩
      rw [hresult] at hstate
      match result with
      | .error e => exact hstate.imp_right And.right
      | .ok none => exact hstate.imp_right And.right
      | .ok (some count) =>
        rcases hstate with hsame | ⟨habsurd, -⟩
        · rw [← hsame]
          exact ih (consumed + count) conn'
        · cases habsurd
    · exact .inl rfl

/-- `_drive_stream_body` leaves a connection that can go on, and the server open. -/
lemma driveStreamBody_mild (hready : c.Ready config env) (hsocket : c.socket = true)
    (hstate : c.state = .wantSendBody) :
    Mild (c.driveStreamBody budget env).1 ∧ Same c (c.driveStreamBody budget env).2.1 ∧
      (c.driveStreamBody budget env).2.1.Ready config env ∧
      (c.driveStreamBody budget env).2.2 = false := by
  obtain ⟨stream, hstream⟩ := Option.isSome_iff_exists.mp (hready.stream hstate)
  unfold driveStreamBody
  rw [hstream]
  dsimp only
  have hsteady : (c.streamConn budget stream).Steady config.streamBufferSize env.toStreamEnv :=
    ⟨hsocket, rfl, hready.sliceable stream hstream⟩
  obtain ⟨hmild, hsteady'⟩ := hsteady.driveLoop (2 * (c.streamConn budget stream).sendBudget + 1) 0
  have hstate' := state_driveLoop env.toStreamEnv (2 * (c.streamConn budget stream).sendBudget + 1) 0
    (c.streamConn budget stream)
  rw [← StreamConn.driveStreamBody] at hmild hsteady' hstate'
  rcases hdrive : (c.streamConn budget stream).driveStreamBody env.toStreamEnv with ⟨result, conn⟩
  rw [hdrive] at hmild hsteady' hstate'
  have hcases : (c.withStreamConn conn).state = .wantSendBody ∨ (c.withStreamConn conn).state = .done :=
    hstate'.imp_left fun h => h.trans hstate
  refine ⟨fun e he => ?_, ⟨rfl, hsteady'.socketOpen.trans hsocket.symm⟩, ⟨fun hr => ?_, fun _ => rfl,
    fun hd => ?_, ?_⟩, hsteady'.serverOpen⟩
  · match result with
    | .ok () => cases he
    | .error (.os errno) => cases he
    | .error (.stream e) => cases he
    | .error (.other e) => exact hmild e rfl
  · rcases hcases with h | h <;> simp [receiving, h] at hr
  · rcases hcases with h | h <;> simp [h] at hd
  · rintro stream' ⟨⟩
    exact hsteady'.stream

/-- The part of `tick` that sends. -/
lemma tickSend_mild (hready : c.Ready config env) (hsocket : c.socket = true) :
    Mild (c.tickSend config env).1 ∧ Same c (c.tickSend config env).2.1 ∧
      (c.tickSend config env).2.1.Ready config env ∧ (c.tickSend config env).2.2 = false := by
  have hbody : ∀ c' : Connection, c'.Ready config env → c'.socket = true →
      let out := if c'.state = .wantSendBody then c'.driveStreamBody config.sendBudgetPerTick env
        else (.ok (), c', false)
      Mild out.1 ∧ Same c' out.2.1 ∧ out.2.1.Ready config env ∧ out.2.2 = false := by
    intro c' hready' hsocket'
    dsimp only
    split_ifs with hstate
    · exact driveStreamBody_mild hready' hsocket' hstate
    · exact ⟨mild_ok _, .refl c', hready', rfl⟩
  unfold tickSend
  split_ifs with hstate
  · obtain ⟨hmild, hsame, hready'⟩ :=
      @driveSend_mild config env c config.sendBudgetPerTick hready hsocket hstate
    rcases hsend : c.driveSend config.sendBudgetPerTick env with ⟨result, c'⟩
    rw [hsend] at hmild hsame hready'
    match result with
    | .error e => exact ⟨hmild, hsame, hready', rfl⟩
    | .ok () =>
      obtain ⟨hmild'', hsame'', hready'', hopen⟩ := hbody c' hready' (hsame.socket_eq.trans hsocket)
      exact ⟨hmild'', hsame.trans hsame'', hready'', hopen⟩
  · exact hbody c hready hsocket

/-! ## A tick -/

lemma ready_fail (h : c.Sliceable config env) : c.fail.Ready config env where
  parser := fun h => by cases h
  stream := fun h => by cases h
  settled := fun h => by cases h
  sliceable := h

/-- Mild errors are caught. -/
lemma rescue_mild (h : c.Sliceable config env) {e : TickError}
    (he : Mild (.error e : Except TickError Unit)) :
    ∃ c', c.rescue lower e = (.ok (), c') ∧ Same c c' ∧ c'.Ready config env := by
  unfold rescue
  match e with
  | .server e =>
    dsimp only
    split
    · obtain ⟨response, hresponse⟩ := buildErrorResponse_ok (e.limitStatus.getD 0) e.message
      next statusCode hstatus =>
        rw [hstatus] at hresponse
        obtain ⟨data, hdata⟩ := stageResponse_eq lower c response
        rw [Option.getD_some] at hresponse
        rw [hresponse]
        exact ⟨_, rfl, hdata ▸ ⟨rfl, rfl⟩, hdata ▸ ready_stageBytes h data⟩
    · exact ⟨_, rfl, ⟨rfl, rfl⟩, ready_fail h⟩
  | .stream _ => exact ⟨_, rfl, ⟨rfl, rfl⟩, ready_fail h⟩
  | .os _ => exact ⟨_, rfl, ⟨rfl, rfl⟩, ready_fail h⟩
  | .other e => exact absurd rfl (he e)

/-- The end of a tick in which the server stayed open. -/
lemma settle_mild {result : Except TickError Unit} (hmild : Mild result)
    (hsliceable : c.Sliceable config env) (hready : result = .ok () → c.Ready config env) :
    ∃ c', settle lower false (result, c, false) = (.ok (), c', false) ∧ Same c c' ∧
      c'.Ready config env := by
  match result with
  | .ok () => exact ⟨c, rfl, .refl c, hready rfl⟩
  | .error e =>
    obtain ⟨c', hrescue, hsame, hready'⟩ := @rescue_mild lower config env c hsliceable e hmild
    refine ⟨c', ?_, hsame, hready'⟩
    rw [settle, hrescue]
    rfl

/-- The end of a tick that has come to the part that sends. -/
lemma settle_tickSend (hready : c.Ready config env) (hsocket : c.socket = true) :
    ∃ c', settle lower false (c.tickSend config env) = (.ok (), c', false) ∧ Same c c' ∧
      c'.Ready config env := by
  obtain ⟨hmild, hsame, hready', hopen⟩ := tickSend_mild hready hsocket
  rcases hsend : c.tickSend config env with ⟨result, c₁, closes⟩
  rw [hsend] at hmild hsame hready' hopen
  obtain rfl : closes = false := hopen
  obtain ⟨c', hsettle, hsame', hready''⟩ :=
    @settle_mild lower config env c₁ result hmild hready'.sliceable fun _ => hready'
  exact ⟨c', hsettle, hsame.trans hsame', hready''⟩

/-- **A calm tick raises nothing**, and leaves a connection that has its socket and can go on. -/
theorem tick_calm {nowMs : ℤ} (hready : c.Ready config env) (hsocket : c.socket = true)
    (hcalm : ∀ request, c.dispatched lower config env nowMs = some request →
      (env.handler request).Calm lower config env.toStreamEnv) :
    ∃ c', c.tick lower config env nowMs = (.ok (), c', false) ∧ Same c c' ∧ c'.Ready config env := by
  unfold dispatched at hcalm
  unfold tick
  split_ifs with hdone hdeadline
  · exact ⟨c, rfl, .refl c, hready⟩
  · exact ⟨c.fail, rfl, ⟨rfl, rfl⟩, ready_fail hready.sliceable⟩
  rw [if_neg (by simp [hdone, hdeadline])] at hcalm
  -- what is received
  have hrecv : Mild (c.tickRecv lower config env).1 ∧ Same c (c.tickRecv lower config env).2 ∧
      (c.tickRecv lower config env).2.Sliceable config env ∧
      ((c.tickRecv lower config env).2.Ready config env ∨
        (c.tickRecv lower config env).2.state = .dispatching ∧
        ∃ parser, (c.tickRecv lower config env).2.parser = some parser) := by
    unfold tickRecv
    split_ifs with hreceiving
    · obtain ⟨hmild, hsame, hstream, ⟨parser, hparser, hsound⟩, hcases⟩ :=
        @driveRecv_mild lower config env c config.recvBudgetPerTick hready hreceiving hsocket
      have hsliceable : (c.driveRecv lower config.recvBudgetPerTick env).2.Sliceable config env :=
        fun stream hsome => hready.sliceable stream (hstream.symm.trans hsome)
      refine ⟨hmild, hsame, hsliceable, hcases.imp (fun hreceiving' => ?_)
        fun hdispatching => ⟨hdispatching, parser, hparser⟩⟩
      refine ⟨fun _ => ⟨parser, hparser, hsound⟩, fun hbody => ?_, fun hdispatching => ?_, hsliceable⟩
      · simp [receiving, hbody] at hreceiving'
      · simp [receiving, hdispatching] at hreceiving'
    · exact ⟨mild_ok _, .refl c, hready.sliceable, .inl hready⟩
  obtain ⟨hmild, hsame, hsliceable, hcases⟩ := hrecv
  rcases hout : c.tickRecv lower config env with ⟨result, c₁⟩
  rw [hout] at hmild hsame hsliceable hcases hcalm
  dsimp only at hmild hsame hsliceable hcases
  have hsocket₁ := hsame.socket_eq.trans hsocket
  match result with
  | .error e =>
    -- whatever state the connection is in, the error ends it or is answered
    obtain ⟨c', hsettle, hsame', hready'⟩ := @settle_mild lower config env c₁ _ hmild hsliceable nofun
    exact ⟨c', hsettle, hsame.trans hsame', hready'⟩
  | .ok () =>
    dsimp only at hcalm ⊢
    unfold tickDispatch
    split_ifs with hdispatching
    · -- the handler is called
      obtain ⟨parser, hparser⟩ : ∃ parser, c₁.parser = some parser :=
        hcases.elim (fun hready₁ => absurd hdispatching hready₁.settled) And.right
      rw [if_pos hdispatching, hparser] at hcalm
      have hcalm' := hcalm _ rfl
      unfold dispatchHandler
      rw [hparser]
      dsimp only
      rw [hcalm'.1, Bool.not_false, Bool.and_true]
      obtain ⟨hmild₂, hsame₂, hsliceable₂, hready₂⟩ := @stageAnswer_calm lower config env
        { c₁ with parser := none } _ hcalm' hsliceable
      rcases hstage : ({ c₁ with parser := none } : Connection).stageAnswer lower
        config.streamBufferSize (env.handler (.new lower parser)) with ⟨result₂, c₂⟩
      rw [hstage] at hmild₂ hsame₂ hsliceable₂ hready₂
      have hsame₁₂ : Same c₁ c₂ := ⟨hsame₂.id_eq, hsame₂.socket_eq⟩
      match result₂ with
      | .error e =>
        obtain ⟨c', hsettle, hsame', hready'⟩ :=
          @settle_mild lower config env c₂ _ hmild₂ hsliceable₂ nofun
        exact ⟨c', hsettle, (hsame.trans hsame₁₂).trans hsame', hready'⟩
      | .ok () =>
        obtain ⟨c', hsettle, hsame', hready'⟩ := @settle_tickSend lower config env c₂ (hready₂ rfl)
          (hsame₂.socket_eq.trans hsocket₁)
        exact ⟨c', hsettle, (hsame.trans hsame₁₂).trans hsame', hready'⟩
    · have hready₁ : c₁.Ready config env := hcases.resolve_right fun h => hdispatching h.1
      obtain ⟨c', hsettle, hsame', hready'⟩ := @settle_tickSend lower config env c₁ hready₁ hsocket₁
      exact ⟨c', hsettle, hsame.trans hsame', hready'⟩

end Parts

end Connection

/-! ## The walk -/

/-- A connection after its own tick. -/
def Connection.ticked (lower : Str → Str) (config : ServerConfig) (env : ServerEnv) (nowMs : ℤ)
    (c : Connection) : Connection :=
  (c.tick lower config (env.conn c.id) nowMs).2.1

/-- A connection of a server between calls of `handle`. -/
structure Connection.Live (config : ServerConfig) (env : ServerEnv) (c : Connection) : Prop
    extends c.Ready config (env.conn c.id) where
  socket_eq : c.socket = true

section Walk

variable {lower : Str → Str} {config : ServerConfig} {env : ServerEnv} {nowMs : ℤ}

/-- The handler that a connection calls is calm. -/
def CalmAt (lower : Str → Str) (config : ServerConfig) (env : ServerEnv) (nowMs : ℤ) (c : Connection) :
    Prop :=
  ∀ request, c.dispatched lower config (env.conn c.id) nowMs = some request →
    ((env.conn c.id).handler request).Calm lower config (env.conn c.id).toStreamEnv

lemma tick_eq_ticked {c : Connection} (h : c.Live config env) (hcalm : CalmAt lower config env nowMs c) :
    c.tick lower config (env.conn c.id) nowMs = (.ok (), c.ticked lower config env nowMs, false) ∧
      Connection.Same c (c.ticked lower config env nowMs) ∧
      (c.ticked lower config env nowMs).Live config env := by
  obtain ⟨c', htick, hsame, hready⟩ := Connection.tick_calm h.toReady h.socket_eq hcalm
  have hticked : c.ticked lower config env nowMs = c' := by rw [Connection.ticked, htick]
  rw [hticked]
  exact ⟨htick, hsame, hsame.id_eq ▸ hready, hsame.socket_eq.trans h.socket_eq⟩

lemma openSockets_singleton {c : Connection} (h : c.socket = true) : openSockets [c] = [c.id] := by
  simp [openSockets, h]

/-- **A calm walk** ticks every connection on its own, and closes those that are done. -/
lemma walk_calm {connections : List Connection} (hlive : ∀ c ∈ connections, c.Live config env)
    (hcalm : ∀ c ∈ connections, CalmAt lower config env nowMs c) (w : Walk) (hw : w.shut = false) :
    Walk.run lower config env nowMs connections w = (.ok (), [],
      { kept := ((connections.map (·.ticked lower config env nowMs)).filter (!·.isDone)).reverse ++ w.kept
        closed := w.closed ++
          ((connections.map (·.ticked lower config env nowMs)).filter (·.isDone)).map Connection.id
        shut := false }) := by
  induction connections generalizing w with
  | nil =>
    obtain ⟨kept, closed, shut⟩ := w
    cases hw
    simp [Walk.run]
  | cons c connections ih =>
    have hc := hlive c List.mem_cons_self
    obtain ⟨htick, hsame, hready⟩ := tick_eq_ticked hc (hcalm c List.mem_cons_self)
    have hsocket : ({ c with socket := c.socket && !w.shut } : Connection) = c := by
      rw [hw, Bool.not_false, Bool.and_true]
    have ih' := @ih (fun c' hc' => hlive c' (List.mem_cons_of_mem _ hc'))
      (fun c' hc' => hcalm c' (List.mem_cons_of_mem _ hc'))
    rw [Walk.run, hsocket, htick]
    dsimp only
    simp only [Bool.false_and, Bool.false_eq_true, if_false, List.map_cons]
    cases hdone : (c.ticked lower config env nowMs).isDone with
    | true =>
      rw [if_pos rfl, openSockets_singleton hready.socket_eq, ih' _ (by exact hw), hsame.id_eq]
      simp [hdone, hsame.id_eq]
    | false =>
      rw [if_neg Bool.false_ne_true, ih' _ (by exact hw)]
      simp [hdone]

end Walk

/-! ## Calls of `handle` -/

namespace Server

/-- What every calm run keeps: the connections have their sockets, and every socket that was
accepted is that of a connection or was closed, once. -/
structure Kept (env : ServerEnv) (s : Server) : Prop where
  live : ∀ c ∈ s.connections, c.Live s.config env ∧ c.isDone = false
  sockets : (s.connections.map Connection.id ++ s.closed).Perm (List.range s.accepted)

lemma kept_new (config : ServerConfig) (env : ServerEnv) : Kept env { config } := ⟨by simp, by simp⟩

variable {lower : Str → Str} {env : ServerEnv} {nowMs : ℤ} {s : Server}

/-- Opening the listener changes no connection. -/
lemma openListener_cases (hcalm : ∀ k errno, env.factory k ≠ .opened (some errno)) :
    (∃ e, env.factory s.factoryCalls = .failed e ∧
      s.openListener env = (some (.factoryFailed e), { s with factoryCalls := s.factoryCalls + 1 })) ∨
    ∃ calls, s.openListener env = (none, { s with listening := true, factoryCalls := calls }) := by
  unfold openListener
  split_ifs with hlistening
  · refine .inr ⟨s.factoryCalls, ?_⟩
    rw [← hlistening]
  · cases hfactory : env.factory s.factoryCalls with
    | failed e => exact .inl ⟨e, rfl, rfl⟩
    | opened errno =>
      cases errno with
      | none => exact .inr ⟨_, rfl⟩
      | some errno => exact absurd hfactory (hcalm _ errno)

lemma live_new (config : ServerConfig) (id : ℕ) (deadlineTicks : ℤ) :
    (Connection.new config id deadlineTicks).Live config env where
  parser := fun _ => ⟨_, rfl, fun herror => by cases herror⟩
  stream := fun h => by cases h
  settled := fun h => by cases h
  sliceable := nofun
  socket_eq := rfl

/-- Accepting a connection keeps the invariant. -/
lemma acceptOne_calm (h : s.Kept env) (haccept : ∀ k errno, env.accept k ≠ .client (some errno))
    (htimeout : |s.config.requestTimeoutMs| < TICKS_HALFPERIOD) :
    ∃ s', s.acceptOne env nowMs = (.ok (), s') ∧ s'.Kept env ∧ s'.config = s.config ∧
      s'.closed = s.closed := by
  unfold acceptOne
  split_ifs
  · unfold tryAccept
    cases hresult : env.accept s.accepts with
    | failed errno =>
      dsimp only
      split_ifs
      · exact ⟨_, rfl, ⟨h.live, h.sockets⟩, rfl, rfl⟩
      · exact ⟨_, rfl, ⟨h.live, h.sockets⟩, rfl, rfl⟩
    | nothing => exact ⟨_, rfl, ⟨h.live, h.sockets⟩, rfl, rfl⟩
    | client errno =>
      cases errno with
      | some errno => exact absurd hresult (haccept _ errno)
      | none =>
        dsimp only
        have hdeadline : ticksAdd nowMs s.config.requestTimeoutMs =
            .ok ((nowMs + s.config.requestTimeoutMs) % TICKS_PERIOD) := by
          unfold ticksAdd
          rw [if_pos (abs_lt.mp htimeout)]
        rw [hdeadline]
        refine ⟨_, rfl, ⟨fun c hc => ?_, ?_⟩, rfl, rfl⟩
        · rcases List.mem_append.mp hc with hc | hc
          · exact h.live c hc
          · rw [List.mem_singleton.mp hc]
            exact ⟨live_new _ _ _, rfl⟩
        · rw [List.map_append, List.range_succ, List.append_assoc]
          refine (List.Perm.append_left _ List.perm_append_comm).trans ?_
          rw [← List.append_assoc]
          exact h.sockets.append_right _
  · exact ⟨s, rfl, h, rfl, rfl⟩

/-- What a call of `handle` does when it has a listener: every connection has its own tick, those
that are done are closed and removed. -/
structure Advanced (lower : Str → Str) (env : ServerEnv) (nowMs : ℤ) (s s' : Server) : Prop where
  connections_eq : s'.connections =
    ((s.walked env nowMs).map (·.ticked lower s.config env nowMs)).filter (!·.isDone)
  closed_eq : s'.closed = s.closed ++
    (((s.walked env nowMs).map (·.ticked lower s.config env nowMs)).reverse.filter (·.isDone)).map
      Connection.id

/-- **A calm call of `handle`** returns, unless the transport factory fails, and ticks every
connection on its own. -/
theorem handle_calm (h : s.Kept env) (hcalm : s.Calm lower env nowMs) :
    (∃ e, env.factory s.factoryCalls = .failed e ∧
      s.handle lower env nowMs = (.factoryFailed e, { s with factoryCalls := s.factoryCalls + 1 })) ∨
    ∃ s', s.handle lower env nowMs = (.returned, s') ∧ Advanced lower env nowMs s s' ∧ s'.Kept env ∧
      s'.config = s.config := by
  rcases @openListener_cases env s hcalm.factory with ⟨e, hfactory, hopen⟩ | ⟨calls, hopen⟩
  · refine .inl ⟨e, hfactory, ?_⟩
    rw [handle, hopen]
  · refine .inr ?_
    obtain ⟨s₁, haccept, hkept, hconfig, hclosed⟩ := @acceptOne_calm env nowMs
      { s with listening := true, factoryCalls := calls } ⟨h.live, h.sockets⟩ hcalm.accept hcalm.timeout
    have hwalked : s.walked env nowMs = s₁.connections := by
      rw [walked, hopen]
      dsimp only
      rw [haccept]
    have hhandlers := hcalm.handlers
    rw [hwalked] at hhandlers
    have hlive₁ : ∀ c ∈ s₁.connections, c.Live s.config env := fun c hc =>
      hconfig ▸ (hkept.live c hc).1
    have hwalk := walk_calm (fun c hc => hlive₁ c (List.mem_reverse.mp hc))
      (fun c hc => hhandlers c (List.mem_reverse.mp hc)) {} rfl
    set ticked := s₁.connections.map (·.ticked lower s.config env nowMs) with hticked
    have hids : ticked.map Connection.id = s₁.connections.map Connection.id := by
      rw [hticked, List.map_map]
      refine List.map_congr_left fun c hc => ?_
      exact (tick_eq_ticked (hlive₁ c hc) (hhandlers c hc)).2.1.id_eq
    have hlive : ∀ c ∈ ticked, c.Live s.config env := by
      intro c hc
      obtain ⟨c₀, hc₀, rfl⟩ := List.mem_map.mp hc
      exact (tick_eq_ticked (hlive₁ c₀ hc₀) (hhandlers c₀ hc₀)).2.2
    have hhandle : s.handle lower env nowMs = (.returned, { s₁ with
        connections := ticked.filter (!·.isDone)
        listening := s₁.listening
        closed := s₁.closed ++ (ticked.reverse.filter (·.isDone)).map Connection.id }) := by
      rw [handle, hopen]
      dsimp only
      rw [haccept]
      dsimp only
      rw [advanceAll, hconfig, hwalk]
      simp [hticked]
    refine ⟨_, hhandle, ⟨?_, ?_⟩, ⟨?_, ?_⟩, hconfig⟩
    · rw [hwalked]
    · rw [hwalked, hclosed]
    · intro c hc
      obtain ⟨hmem, hdone⟩ := List.mem_filter.mp hc
      have hlive' : c.Live s₁.config env := hconfig.symm ▸ hlive c hmem
      exact ⟨hlive', by simpa using hdone⟩
    · -- the sockets of the connections are those that are left and those that are closed now
      have hperm : ((ticked.filter (!·.isDone)).map Connection.id ++
          (ticked.reverse.filter (·.isDone)).map Connection.id).Perm
            (s₁.connections.map Connection.id) := by
        rw [← List.map_append, ← hids]
        refine List.Perm.map _ (List.Perm.trans ?_ (List.filter_append_perm (·.isDone) ticked))
        refine List.perm_append_comm.trans (List.Perm.append_right _ ?_)
        exact (List.reverse_perm ticked).filter _
      refine List.Perm.trans ?_ hkept.sockets
      refine List.Perm.trans ?_ (hperm.append_right _)
      rw [List.append_assoc]
      exact List.Perm.append_left _ List.perm_append_comm

/-! ## Whole runs -/

/-- Closing the server closes the sockets of its connections. -/
lemma kept_close (h : s.Kept env) : s.close.Kept env := by
  refine ⟨by simp [close], ?_⟩
  have hopen : openSockets s.connections = s.connections.map Connection.id := by
    rw [openSockets, List.filter_eq_self.mpr fun c hc => (h.live c hc).1.socket_eq]
  rw [close, hopen]
  exact (@List.perm_append_comm _ s.closed _).trans h.sockets

/-- **One calm step.** -/
lemma Kept.apply {op : Op} (h : s.Kept env) (hcalm : ∀ nowMs, op = .handle nowMs → s.Calm lower env nowMs) :
    (s.apply lower env op).Kept env := by
  cases op with
  | handle nowMs =>
    rcases handle_calm h (hcalm nowMs rfl) with ⟨e, -, hhandle⟩ | ⟨s', hhandle, -, hkept, -⟩
    · rw [Server.apply, hhandle]
      exact ⟨h.live, h.sockets⟩
    · rw [Server.apply, hhandle]
      exact hkept
  | close => exact kept_close h

/-- **A calm run** keeps the invariant. -/
lemma Kept.run {ops : List Op} (h : s.Kept env) (hcalm : s.CalmRun lower env ops) :
    (s.run lower env ops).Kept env := by
  induction ops generalizing s with
  | nil => exact h
  | cons op ops ih =>
    cases op with
    | handle nowMs =>
      refine ih (h.apply fun nowMs' heq => ?_) hcalm.2
      cases heq
      exact hcalm.1
    | close => exact ih (h.apply fun nowMs' heq => by cases heq) hcalm

end Server

end ChuMicro.HttpServer
