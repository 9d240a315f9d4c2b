import ChuMicro.Requests.ResponseStream

/-!
# What a response parser makes of a stream

In buffered mode two parsers that are fed the same bytes end alike, however the bytes are cut, as
long as no cut trips the cap on unparsed bytes. What they store never exceeds the cap on bodies.

## Main definitions

* `Requests.ResponseFields.WithinBody` — what is stored and still expected fits the cap.
* `Requests.EndsLike` — two parsers that tell the same.

## Main results

* `Requests.ResponseParser.withinBody_feedAll` — feeding stays within the cap.
* `Requests.ResponseParser.feedAll_endsLike` — how a stream is cut cannot be seen.
-/

namespace ChuMicro.Requests

open Buffers Http Streaming

/-! ## Bodies within the cap -/

/-- What is stored and what is still expected fit the cap. -/
structure ResponseFields.WithinBody (f : ResponseFields) : Prop where
  stored : f.body.length ≤ f.maxBodyBytes
  remaining : f.state = .body → ∀ r, f.bodyRemaining = some r → f.body.length + r ≤ f.maxBodyBytes
  chunk : f.state = .chunkData → f.body.length + f.chunkRemaining ≤ f.maxBodyBytes

namespace ResponseFields

variable {f : ResponseFields}

/-- Outside of bodies nothing is expected. -/
lemma WithinBody.of_state {g : ResponseFields} (h : f.WithinBody) (hbody : g.body = f.body)
    (hmax : g.maxBodyBytes = f.maxBodyBytes) (hstate : g.state ≠ .body ∧ g.state ≠ .chunkData) :
    g.WithinBody :=
  ⟨by rw [hbody, hmax]; exact h.stored, fun hb => absurd hb hstate.1, fun hc => absurd hc hstate.2⟩

/-- A failure keeps the body. -/
lemma WithinBody.fail (h : f.WithinBody) (e : HttpError) : (f.fail e).WithinBody :=
  h.of_state rfl rfl ⟨by simp [ResponseFields.fail], by simp [ResponseFields.fail]⟩

/-- The status line leaves the body alone. -/
lemma withinBody_parseStatusLine (h : f.WithinBody) (text : Str) :
    (f.parseStatusLine text).WithinBody := by
  unfold parseStatusLine
  split
  · split_ifs
    · split
      · exact h.fail _
      · exact h.of_state rfl rfl ⟨by simp, by simp⟩
    · exact h.fail _
  · exact h.fail _

/-- So does a header. -/
lemma withinBody_parseHeaderLine (lower : Str → Str) (h : f.WithinBody) (text : Str) :
    (f.parseHeaderLine lower text).WithinBody := by
  unfold parseHeaderLine
  split
  · exact h.fail _
  · exact ⟨h.stored, h.remaining, h.chunk⟩

/-- The size of a chunk is checked against the cap. -/
lemma withinBody_parseChunkSize (h : f.WithinBody) (hmode : f.streamBody = false) (text : Str) :
    (f.parseChunkSize text).WithinBody := by
  unfold parseChunkSize
  dsimp only
  split_ifs
  · exact h.fail _
  · split
    · exact h.fail _
    · next size _ =>
      split_ifs with hneg hlarge hzero
      · exact h.fail _
      · exact h.fail _
      · exact h.of_state rfl rfl ⟨by simp, by simp⟩
      · refine ⟨h.stored, fun hb => by simp at hb, fun _ => ?_⟩
        have hfits : ¬ (f.body.length + size > f.maxBodyBytes) := fun hlt => hlarge ⟨hmode, hlt⟩
        dsimp only
        omega

/-- So is the declared length. -/
lemma withinBody_frameBody (lower : Str → Str) (h : f.WithinBody) (hmode : f.streamBody = false) :
    (f.frameBody lower).WithinBody := by
  have hplain : ({ f with headersComplete := true } : ResponseFields).WithinBody :=
    ⟨h.stored, h.remaining, h.chunk⟩
  unfold frameBody
  dsimp only
  split_ifs
  · exact h.of_state rfl rfl ⟨by simp, by simp⟩
  · exact h.of_state rfl rfl ⟨by simp, by simp⟩
  · split
    · split_ifs
      · exact hplain.fail _
      · exact h.of_state rfl rfl ⟨by simp, by simp⟩
    · split
      · split
        · exact hplain.fail _
        · next length _ =>
          split_ifs with hneg hlarge hzero
          · exact hplain.fail _
          · exact hplain.fail _
          · exact h.of_state rfl rfl ⟨by simp, by simp⟩
          all_goals
            have hfits : ¬ (length > f.maxBodyBytes) := fun hlt => hlarge ⟨hlt, hmode⟩
            refine ⟨Nat.zero_le _, fun _ r hr => ?_, fun hc => by simp at hc⟩
            cases hr
            simp only [List.length_nil]
            omega
      · exact ⟨h.stored, fun _ r hr => (by simp at hr), fun hc => by simp at hc⟩

/-- Bytes that fit are stored. -/
lemma withinBody_absorbBodyChunk (chunk : List UInt8) (hmode : f.streamBody = false)
    (hstored : f.body.length + chunk.length ≤ f.maxBodyBytes) :
    (f.absorbBodyChunk chunk).body = f.body ++ chunk ∧
      (f.absorbBodyChunk chunk).maxBodyBytes = f.maxBodyBytes ∧
      (f.absorbBodyChunk chunk).state = f.state ∧
      (f.absorbBodyChunk chunk).body.length ≤ f.maxBodyBytes := by
  obtain ⟨capacity, habs⟩ := absorbBodyChunk_eq (f := f) chunk fun hstream => by
    rw [hmode] at hstream
    cases hstream
  rw [habs]
  refine ⟨rfl, rfl, rfl, ?_⟩
  rw [List.length_append]
  exact hstored

/-- Bytes of the body. -/
lemma withinBody_absorbBodyBytes (h : f.WithinBody) (hmode : f.streamBody = false)
    (hs : f.state = .body) (chunk : List UInt8) : (f.absorbBodyBytes chunk).WithinBody := by
  unfold absorbBodyBytes
  split
  · exact h
  · next remaining _ hr =>
    have hroom := h.remaining hs _ hr
    obtain ⟨hbody, hmax, hstate, hlen⟩ := withinBody_absorbBodyChunk
      (chunk.take (min remaining chunk.length)) hmode (by rw [List.length_take]; omega)
    dsimp only
    split_ifs
    · refine ⟨?_, fun hb => by simp at hb, fun hc => by simp at hc⟩
      dsimp only
      rw [hmax]
      exact hlen
    · refine ⟨?_, fun _ r hrem => ?_, fun hc => ?_⟩
      · dsimp only
        rw [hmax]
        exact hlen
      · cases hrem
        simp only [hbody, hmax, List.length_append, List.length_take]
        omega
      · dsimp only at hc
        rw [hstate, hs] at hc
        cases hc
  · next hr =>
    split_ifs with hlarge
    · exact h.fail _
    · have hfits : ¬ (f.body.length + chunk.length > f.maxBodyBytes) := fun hlt =>
        hlarge ⟨hmode, hlt⟩
      obtain ⟨hbody, hmax, hstate, hlen⟩ := withinBody_absorbBodyChunk chunk hmode (by omega)
      have hrem : (f.absorbBodyChunk chunk).bodyRemaining = f.bodyRemaining := by
        unfold absorbBodyChunk
        dsimp only
        split_ifs <;> rfl
      refine ⟨by rw [hmax]; exact hlen, fun _ r hr' => ?_, fun hc => ?_⟩
      · rw [hrem, hr] at hr'
        cases hr'
      · rw [hstate, hs] at hc
        cases hc

end ResponseFields

namespace ResponseParser

open ResponseFields

variable {p : ResponseParser} {lower : Str → Str}

/-- A line is taken. -/
lemma withinBody_takeAsciiLine (h : p.WithinBody) (label : String)
    {use : ResponseParser → Str → ResponseParser}
    (huse : ∀ q text, q.toResponseFields = p.toResponseFields → (use q text).WithinBody) :
    (p.takeAsciiLine label use).2.WithinBody := by
  unfold takeAsciiLine
  split
  · exact h
  · dsimp only
    split
    · exact huse _ _ rfl
    · exact WithinBody.fail (f := p.toResponseFields) h _

lemma withinBody_endChunk (h : p.WithinBody) :
    p.endChunk.2.WithinBody := by
  unfold endChunk
  split_ifs
  · exact h
  · dsimp only
    split_ifs
    · exact WithinBody.fail (f := p.toResponseFields) h _
    · exact h.of_state rfl rfl ⟨by simp, by simp⟩

/-- Bytes of a chunk. -/
lemma withinBody_tryConsumeChunkData (h : p.WithinBody) (hmode : p.streamBody = false)
    (hs : p.state = .chunkData) : p.tryConsumeChunkData.2.WithinBody := by
  have hchunk := h.chunk hs
  have htaken : ({ (p.withFields (p.absorbBodyChunk
      (p.buffer.liveSlice 0 (min p.chunkRemaining p.buffer.liveLen)))).consume
        (min p.chunkRemaining p.buffer.liveLen) with
      chunkRemaining := ((p.withFields (p.absorbBodyChunk (p.buffer.liveSlice 0
        (min p.chunkRemaining p.buffer.liveLen)))).consume (min p.chunkRemaining
          p.buffer.liveLen)).chunkRemaining - min p.chunkRemaining p.buffer.liveLen } :
        ResponseParser).WithinBody := by
    have hlen : (p.buffer.liveSlice 0 (min p.chunkRemaining p.buffer.liveLen)).length =
        min p.chunkRemaining p.buffer.liveLen := by
      rw [LiveBuffer.liveSlice_zero, LiveBuffer.liveLen_eq, List.length_take]
      omega
    obtain ⟨capacity, habs⟩ := absorbBodyChunk_eq (f := p.toResponseFields)
      (p.buffer.liveSlice 0 (min p.chunkRemaining p.buffer.liveLen)) fun hstream => by
        rw [hmode] at hstream
        cases hstream
    rw [habs]
    refine ⟨?_, fun hb => ?_, fun _ => ?_⟩
    · simp only [consume, withFields, List.length_append, hlen]
      omega
    · have hs' : p.state = .body := hb
      rw [hs] at hs'
      cases hs'
    · simp only [consume, withFields, List.length_append, hlen]
      omega
  unfold tryConsumeChunkData
  dsimp only
  split_ifs
  · exact h
  · exact htaken
  · exact withinBody_endChunk htaken
  · exact withinBody_endChunk h

/-- A step stays within the cap. -/
lemma withinBody_step (lower : Str → Str) (h : p.WithinBody) (hmode : p.streamBody = false) :
    (p.step lower).2.WithinBody := by
  unfold step
  cases hs : p.state with
  | status =>
    refine withinBody_takeAsciiLine h _ fun q text hq => withinBody_parseStatusLine ?_ text
    rw [hq]
    exact h
  | headers =>
    refine withinBody_takeAsciiLine h _ fun q text hq => ?_
    have hq' : q.toResponseFields.WithinBody := by
      rw [hq]
      exact h
    have hmode' : q.streamBody = false := by
      rw [hq]
      exact hmode
    split_ifs
    · have hframe := withinBody_frameBody lower hq' hmode'
      unfold enterBodyState absorbTrailingBytes
      dsimp only
      split_ifs with hbody
      · exact hframe
      · exact withinBody_absorbBodyBytes hframe
          ((sameWindow_frameBody lower q.toResponseFields).mode.trans hmode') hbody _
      · exact hframe
    · exact withinBody_parseHeaderLine lower hq' text
  | chunkSize =>
    refine withinBody_takeAsciiLine h _ fun q text hq => ?_
    refine withinBody_parseChunkSize ?_ ?_ text
    · rw [hq]
      exact h
    · rw [hq]
      exact hmode
  | chunkData => exact withinBody_tryConsumeChunkData h hmode hs
  | chunkTrailer =>
    dsimp only
    unfold tryParseChunkTrailer
    split
    · exact h
    · exact h.of_state rfl rfl ⟨by simp, by simp⟩
    · exact ⟨h.stored, h.remaining, h.chunk⟩
  | body => exact h
  | done => exact h
  | error => exact h

/-- The loop of `feed`. -/
lemma withinBody_advanceLoop (lower : Str → Str) (h : p.WithinBody) (hmode : p.streamBody = false)
    (rounds : ℕ) : (p.advanceLoop lower rounds).WithinBody := by
  induction rounds generalizing p with
  | zero => exact h
  | succ rounds ih =>
    have hstep := withinBody_step lower h hmode
    have hwindow := sameWindow_step lower p
    unfold advanceLoop
    split
    · next q heq =>
      rw [heq] at hstep
      exact hstep
    · next q heq =>
      rw [heq] at hstep hwindow
      exact ih hstep (hwindow.mode.trans hmode)

/-- **Feeding stays within the cap.** -/
lemma withinBody_feed (lower : Str → Str) (h : p.WithinBody) (hmode : p.streamBody = false)
    (chunk : List UInt8) : (p.feed lower chunk).WithinBody := by
  unfold feed
  split_ifs with hend hnil hbody
  · exact h
  · exact withinBody_advanceLoop lower h hmode _
  · refine withinBody_advanceLoop lower ?_ ?_ _
    · exact withinBody_absorbBodyBytes h hmode hbody chunk
    · exact (sameWindow_absorbBodyBytes p.toResponseFields chunk).mode.trans hmode
  · exact WithinBody.fail (f := p.toResponseFields) h _
  · exact withinBody_advanceLoop lower (by exact h) (by exact hmode) _

/-- **The body stays within its cap** in every cut of the stream. -/
theorem withinBody_feedAll (lower : Str → Str) (h : p.WithinBody) (hmode : p.streamBody = false)
    (chunks : List (List UInt8)) : (p.feedAll lower chunks).WithinBody := by
  induction chunks generalizing p with
  | nil => exact h
  | cons chunk chunks ih =>
    exact ih (withinBody_feed lower h hmode chunk) ((sameWindow_feed lower p chunk).mode.trans hmode)

end ResponseParser

/-! ## Outcomes -/

/-- Two parsers that tell the same: the state, what the head says and, at the end, the body or the
error, up to the length that an oversize reports. -/
structure EndsLike (p q : ResponseParser) : Prop where
  state_eq : p.state = q.state
  told_eq : (p.statusCode, p.reason, p.httpVersion, p.headers) =
    (q.statusCode, q.reason, q.httpVersion, q.headers)
  body_eq : p.state = .done → p.body = q.body
  error_like : p.error = q.error ∨ ∃ message length length',
    p.error = some (.oversizedError message length) ∧
      q.error = some (.oversizedError message length')

namespace ResponseParser

open ResponseFields

variable {lower : Str → Str} {s : ResponseFields × List UInt8} {p q : ResponseParser}

/-- Parsers with the same fields. -/
lemma endsLike_of_core (h : p.core = q.core) : EndsLike p q where
  state_eq := congrArg (·.state) h
  told_eq := @congrArg _ _ p.core q.core
    (fun f => (f.statusCode, f.reason, f.httpVersion, f.headers)) h
  body_eq := fun _ => congrArg (·.body) h
  error_like := .inl (congrArg (·.error) h)

/-- Parsers that have failed alike. -/
lemma endsLike_of_failsLike (h : FailsLike p.core q.core) : EndsLike p q where
  state_eq := Eq.trans (b := ParseState.error) h.left h.right.symm
  told_eq := h.told_eq
  body_eq := fun hdone => by
    have herror : p.state = .error := h.left
    rw [hdone] at herror
    cases herror
  error_like := h.error_like

/-- Two parsers where the machine is have the same fields, or have failed alike. -/
lemma Meets.core_or_failsLike (hp : p.Meets [] s) (hq : q.Meets [] s) :
    p.core = q.core ∨ FailsLike p.core q.core := by
  have hp' : p.core = s.1 ∨ FailsLike p.core s.1 := hp.fields.imp_right (·.2)
  have hq' : q.core = s.1 ∨ FailsLike q.core s.1 := hq.fields.imp_right (·.2)
  rcases hp' with hp' | hp' <;> rcases hq' with hq' | hq'
  · exact .inl (hp'.trans hq'.symm)
  · exact .inr (hp' ▸ hq'.symm)
  · exact .inr (hq' ▸ hp')
  · exact .inr (hp'.trans hq'.symm)

/-- The end of the stream looks at the fields only. -/
lemma core_feedEof (h : p.core = q.core) : p.feedEof.core = q.feedEof.core := by
  have hstate : p.state = q.state := congrArg (·.state) h
  have hremaining : p.bodyRemaining = q.bodyRemaining := congrArg (·.bodyRemaining) h
  have hfail : ∀ e, (p.fail e).core = (q.fail e).core := fun e => congrArg (·.fail e) h
  unfold feedEof
  rw [hstate, hremaining]
  split
  · exact h
  · exact h
  · split
    · exact congrArg (fun f : ResponseFields =>
        { f with state := .done, bodyRemaining := q.bodyRemaining }) h
    · exact hfail _
    · exact hfail _
  · exact hfail _
  · exact hfail _
  · exact hfail _
  · exact hfail _

/-- A failed parser does not hear of the end of the stream. -/
lemma feedEof_of_error (h : p.state = .error) : p.feedEof = p := by
  rw [feedEof, h]

/-- What a parser has made of its bytes, when the peer has closed or not. -/
def outcome (closed : Bool) (p : ResponseParser) : ResponseParser :=
  if closed then p.feedEof else p

/-- Parsers where the machine is end alike. -/
lemma Meets.endsLike (hp : p.Meets [] s) (hq : q.Meets [] s) (closed : Bool) :
    EndsLike (p.outcome closed) (q.outcome closed) := by
  unfold outcome
  rcases hp.core_or_failsLike hq with heq | hlike
  · cases closed
    · exact endsLike_of_core heq
    · exact endsLike_of_core (core_feedEof heq)
  · rw [feedEof_of_error hlike.left, feedEof_of_error hlike.right, ite_self, ite_self]
    exact endsLike_of_failsLike hlike

/-- **How a stream is cut cannot be seen.** Two parsers in buffered mode with the same caps,
whatever the sizes of their body buffers, that are fed the same bytes without tripping the cap on
unparsed bytes, end alike, when the peer closes then or does not; and no cut makes a parser store
more than the cap on bodies. -/
theorem feedAll_endsLike (lower : Str → Str) (maxBodyBytes maxHeaderBytes bodyCapacity bodyCapacity' : ℕ)
    {chunks chunks' : List (List UInt8)} (hsame : chunks.flatten = chunks'.flatten)
    (hcap : ({ maxBodyBytes, maxHeaderBytes, bodyCapacity } : ResponseParser).WithinCap lower chunks)
    (hcap' : ({ maxBodyBytes, maxHeaderBytes, bodyCapacity := bodyCapacity' } :
      ResponseParser).WithinCap lower chunks') (closed : Bool) :
    EndsLike
        ((feedAll lower { maxBodyBytes, maxHeaderBytes, bodyCapacity } chunks).outcome closed)
        ((feedAll lower { maxBodyBytes, maxHeaderBytes, bodyCapacity := bodyCapacity' }
          chunks').outcome closed) ∧
      ∀ chunks, (feedAll lower { maxBodyBytes, maxHeaderBytes, bodyCapacity } chunks).body.length ≤
        maxBodyBytes := by
  have hstart : ∀ capacity, Meets [] ({ maxBodyBytes, maxHeaderBytes, bodyCapacity := capacity } :
      ResponseParser) (({ maxBodyBytes, maxHeaderBytes } : ResponseFields), []) := fun capacity =>
    ⟨fun _ => rfl, .inl rfl, .inl rfl⟩
  have hmeets := feedAll_meets (hstart bodyCapacity) rfl (step_nil _) hcap
  have hmeets' := feedAll_meets (hstart bodyCapacity') rfl (step_nil _) hcap'
  rw [← hsame] at hmeets'
  refine ⟨hmeets.endsLike hmeets' closed, fun chunks => ?_⟩
  have hwithin := withinBody_feedAll lower
    (p := { maxBodyBytes, maxHeaderBytes, bodyCapacity })
    ⟨Nat.zero_le _, fun hb => by simp at hb, fun hc => by simp at hc⟩ rfl chunks
  exact hwithin.stored.trans_eq (sameWindow_feedAll lower _ chunks).cap

/-- The cuts that stay within the cap, chunk by chunk. -/
lemma withinCap_of_take {chunks : List (List UInt8)}
    (h : ∀ n, (hn : n < chunks.length) →
      (p.feedAll lower (chunks.take n)).state ∉ [.body, .done, .error] →
        (p.feedAll lower (chunks.take n)).buffer.liveLen + chunks[n].length ≤
          (p.feedAll lower (chunks.take n)).maxHeaderBytes) : p.WithinCap lower chunks := by
  rintro before chunk after rfl hstate
  have hfirst := h before.length (by simp)
  rw [List.take_left] at hfirst
  simpa using hfirst hstate

/-- A body without a length that is one byte too large: the parsers report two lengths, and agree in
everything else. -/
theorem feedAll_endsLike_oversized :
    let head := "HTTP/1.1 200 OK\r\n\r\n".toList.map asciiByte
    let whole := feedAll lowerAscii { maxBodyBytes := 2, maxHeaderBytes := 80 } [head ++ [1, 2, 3, 4]]
    let cut := feedAll lowerAscii { maxBodyBytes := 2, maxHeaderBytes := 80, bodyCapacity := 7 }
      [head.take 5, head.drop 5, [1, 2], [3], [4]]
    whole.state = .error ∧ whole.error ≠ cut.error ∧ EndsLike whole cut := by
  intro head whole cut
  have hends := (@feedAll_endsLike lowerAscii 2 80 0 7
    [head ++ [1, 2, 3, 4]] [head.take 5, head.drop 5, [1, 2], [3], [4]]
    (by decide +kernel) (withinCap_of_take (by decide +kernel)) (withinCap_of_take (by decide +kernel))
    false).1
  exact ⟨by decide +kernel, by decide +kernel, hends⟩

end ResponseParser

end ChuMicro.Requests
