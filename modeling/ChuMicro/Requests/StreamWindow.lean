import ChuMicro.Requests.Client
import ChuMicro.Requests.ResponseStream

/-!
# The window of a streamed body

A parser in streaming mode holds the part of the body that has arrived and has not been drained.
What has been taken from its window and what is in it are together a beginning of the decoded body,
as long as every chunk fits what is free.

The decoded body is that of the machine of the parser, which has no window: it reads all bytes of
the response at once.

## Main definitions

* `Requests.ResponseFields.Shaped` — what the machine keeps in streaming mode.
* `Requests.decodedBody` — the body of a response.
* `Requests.ResponseParser.Tracks` — a parser that holds its part of the body.

## Main results

* `Requests.ResponseParser.Tracks.feed`, `Requests.ResponseParser.Tracks.feedEof`,
  `Requests.ResponseParser.Tracks.readBodyInto` — the calls of a parser.
-/

namespace ChuMicro.Requests

open Buffers Http Streaming

/-! ## Machines in streaming mode -/

namespace ResponseFields

variable {lower : Str → Str} {f g h : ResponseFields} {l r : List UInt8}

/-- In streaming mode there is no body before the end of the headers, and no way back behind it; and
the failures are those of the protocol. -/
structure Shaped (f : ResponseFields) : Prop where
  mode : f.streamBody = true
  early : f.headersComplete = false →
    (f.state = .status ∨ f.state = .headers ∨ f.state = .error) ∧ f.body = []
  late : f.headersComplete = true → f.state ≠ .status ∧ f.state ≠ .headers
  told : ∀ e, f.error = some e → ∃ message, e = .protocolError message

/-- The head of a response is kept once it is complete. -/
def KeepsHead (f g : ResponseFields) : Prop :=
  f.headersComplete = true →
    g.headersComplete = true ∧ g.statusCode = f.statusCode ∧ g.headers = f.headers

lemma KeepsHead.refl (f : ResponseFields) : f.KeepsHead f := fun h => ⟨h, rfl, rfl⟩

lemma KeepsHead.trans (hfg : f.KeepsHead g) (hgh : g.KeepsHead h) : f.KeepsHead h := by
  intro hf
  obtain ⟨hg, hcode, hheaders⟩ := hfg hf
  obtain ⟨hh, hcode', hheaders'⟩ := hgh hg
  exact ⟨hh, hcode'.trans hcode, hheaders'.trans hheaders⟩

/-- Before the end of the headers there is nothing to keep. -/
lemma KeepsHead.of_early (hf : f.headersComplete = false) : f.KeepsHead g := fun h => by
  rw [hf] at h
  cases h

/-- The headers are complete in every later state. -/
lemma Shaped.headersComplete_iff (h : f.Shaped) (hs : f.state ≠ .error) :
    f.headersComplete = true ↔ f.state ≠ .status ∧ f.state ≠ .headers := by
  refine ⟨h.late, fun hlate => ?_⟩
  by_contra hc
  rcases (h.early (by simpa using hc)).1 with hs' | hs' | hs'
  · exact hlate.1 hs'
  · exact hlate.2 hs'
  · exact hs hs'

/-- A protocol failure. -/
lemma Shaped.fail (h : f.Shaped) (message : String) : (f.fail (.protocolError message)).Shaped where
  mode := h.mode
  early := fun hc => ⟨.inr (.inr rfl), (h.early hc).2⟩
  late := fun _ => ⟨by simp [ResponseFields.fail], by simp [ResponseFields.fail]⟩
  told := fun e he => ⟨message, (Option.some.inj he).symm⟩

lemma keepsHead_fail (f : ResponseFields) (e : HttpError) : f.KeepsHead (f.fail e) :=
  fun h => ⟨h, rfl, rfl⟩

lemma shaped_parseStatusLine (h : f.Shaped) (hearly : f.headersComplete = false) (text : Str) :
    (f.parseStatusLine text).Shaped := by
  unfold parseStatusLine
  split
  · split_ifs
    · split
      · exact h.fail _
      · exact ⟨h.mode, fun _ => ⟨.inr (.inl rfl), (h.early hearly).2⟩, fun hc => by
          simp [hearly] at hc, h.told⟩
    · exact h.fail _
  · exact h.fail _

lemma shaped_parseHeaderLine (lower : Str → Str) (h : f.Shaped) (text : Str) :
    (f.parseHeaderLine lower text).Shaped := by
  unfold parseHeaderLine
  split
  · exact h.fail _
  · exact ⟨h.mode, h.early, h.late, h.told⟩

/-- The blank line behind the headers. -/
lemma shaped_frameBody (lower : Str → Str) (h : f.Shaped) (hearly : f.headersComplete = false) :
    (f.frameBody lower).core.Shaped := by
  have hnil := (h.early hearly).2
  have hframed : ∀ g : ResponseFields, g.streamBody = f.streamBody → g.error = f.error →
      g.headersComplete = true → g.state ≠ .status ∧ g.state ≠ .headers → g.Shaped :=
    fun g hmode herror hc hs =>
      ⟨hmode.trans h.mode, fun hc' => by simp [hc] at hc', fun _ => hs, by rw [herror]; exact h.told⟩
  have hfailed : ∀ message, (({ f with headersComplete := true } : ResponseFields).fail
      (.protocolError message)).core.Shaped := fun message =>
    ⟨h.mode, fun hc => by simp [core, fail] at hc, fun _ => by simp [core, fail],
      fun e he => ⟨message, (Option.some.inj he).symm⟩⟩
  unfold frameBody
  dsimp only
  split_ifs
  · exact ⟨h.mode, fun _ => ⟨.inl rfl, hnil⟩, fun hc => by simp [core, hearly] at hc, h.told⟩
  · exact hframed _ rfl rfl rfl (by simp [core])
  · split
    · split_ifs
      · exact hfailed _
      · exact hframed _ rfl rfl rfl (by simp [core])
    · split
      · split
        · exact hfailed _
        · split_ifs with hneg hlarge
          · exact hfailed _
          · rw [h.mode] at hlarge
            exact absurd hlarge.2 (by simp)
          all_goals exact hframed _ rfl rfl rfl (by simp [core])
      · exact hframed _ rfl rfl rfl (by simp [core])

/-- Behind the headers the shape depends on few fields. -/
lemma Shaped.of_late (h : f.Shaped) (hc : f.headersComplete = true) (hmode : g.streamBody = f.streamBody)
    (hhead : g.headersComplete = f.headersComplete) (herror : g.error = f.error)
    (hs : g.state ≠ .status ∧ g.state ≠ .headers) : g.Shaped :=
  ⟨hmode.trans h.mode, fun hc' => by simp [hhead, hc] at hc', fun _ => hs, by
    rw [herror]
    exact h.told⟩

lemma shaped_parseChunkSize (h : f.Shaped) (hc : f.headersComplete = true) (text : Str) :
    (f.parseChunkSize text).Shaped ∧ f.KeepsHead (f.parseChunkSize text) := by
  unfold parseChunkSize
  dsimp only
  split_ifs with hempty
  · exact ⟨h.fail _, keepsHead_fail f _⟩
  · split
    · exact ⟨h.fail _, keepsHead_fail f _⟩
    · split_ifs with hneg hlarge
      · exact ⟨h.fail _, keepsHead_fail f _⟩
      · rw [h.mode] at hlarge
        exact absurd hlarge.1 (by simp)
      · exact ⟨h.of_late hc rfl rfl rfl (by simp), fun _ => ⟨hc, rfl, rfl⟩⟩
      · exact ⟨h.of_late hc rfl rfl rfl (by simp), fun _ => ⟨hc, rfl, rfl⟩⟩

/-- A line keeps the shape. -/
lemma shaped_readLine (lower : Str → Str) (h : f.Shaped) (line : List UInt8) :
    (f.readLine lower line).Shaped ∧ f.KeepsHead (f.readLine lower line) := by
  have hearly : f.state = .status ∨ f.state = .headers → f.headersComplete = false := by
    intro hs
    by_contra hc
    have := h.late (by simpa using hc)
    rcases hs with hs | hs
    · exact this.1 hs
    · exact this.2 hs
  have hlate : f.state = .chunkSize ∨ f.state = .chunkTrailer → f.headersComplete = true := by
    rintro (hs | hs)
    · exact (h.headersComplete_iff (by simp [hs])).mpr (by simp [hs])
    · exact (h.headersComplete_iff (by simp [hs])).mpr (by simp [hs])
  unfold readLine
  split
  · next hs _ => exact ⟨shaped_parseStatusLine h (hearly (.inl hs)) _, .of_early (hearly (.inl hs))⟩
  · next hs _ => exact ⟨h.fail _, keepsHead_fail f _⟩
  · next hs _ =>
    split_ifs
    · exact ⟨shaped_frameBody lower h (hearly (.inr hs)), .of_early (hearly (.inr hs))⟩
    · exact ⟨shaped_parseHeaderLine lower h _, .of_early (hearly (.inr hs))⟩
  · next hs _ => exact ⟨h.fail _, keepsHead_fail f _⟩
  · next hs _ => exact shaped_parseChunkSize h (hlate (.inl hs)) _
  · next hs _ => exact ⟨h.fail _, keepsHead_fail f _⟩
  · next hs =>
    have hc := hlate (.inr hs)
    split_ifs
    · exact ⟨h.of_late hc rfl rfl rfl (by simp), fun _ => ⟨hc, rfl, rfl⟩⟩
    · exact ⟨h, .refl f⟩
  · exact ⟨h, .refl f⟩

/-- **A step keeps the shape**, and the head once it is complete. -/
lemma shaped_stepLive (h : f.Shaped) (hstep : f.stepLive lower l = some (g, r)) :
    g.Shaped ∧ f.KeepsHead g := by
  rcases stepLive_cases hstep with ⟨-, index, -, rfl, -⟩ | ⟨hs, byte, -, rfl⟩ |
    ⟨hs, -, byte, -, rfl⟩ | ⟨hs, -, a, b, -, rfl⟩
  · exact shaped_readLine lower h _
  · have hc := (h.headersComplete_iff (by simp [hs])).mpr (by simp [hs])
    have hstate := state_absorb hs [byte]
    have hstate' : (f.absorb [byte]).state ≠ .status ∧ (f.absorb [byte]).state ≠ .headers := by
      rcases hstate with hs' | hs' | hs' <;> simp [hs']
    unfold absorb at hstate' ⊢
    split
    · exact ⟨h, .refl f⟩
    · next heq =>
      rw [heq] at hstate'
      exact ⟨h.of_late hc rfl rfl rfl hstate', fun _ => ⟨hc, rfl, rfl⟩⟩
    · split_ifs with hlarge
      · rw [h.mode] at hlarge
        exact absurd hlarge.1 (by simp)
      · exact ⟨h.of_late hc rfl rfl rfl (by simp [hs]), fun _ => ⟨hc, rfl, rfl⟩⟩
  · have hc := (h.headersComplete_iff (by simp [hs])).mpr (by simp [hs])
    exact ⟨h.of_late hc rfl rfl rfl (by simp [absorbChunkData, hs]), fun _ => ⟨hc, rfl, rfl⟩⟩
  · have hc := (h.headersComplete_iff (by simp [hs])).mpr (by simp [hs])
    unfold readChunkEnd
    split_ifs
    · exact ⟨h.of_late hc rfl rfl rfl (by simp), fun _ => ⟨hc, rfl, rfl⟩⟩
    · exact ⟨h.fail _, keepsHead_fail f _⟩

/-- **A run keeps the shape**, and the head once it is complete. -/
lemma shaped_settle (lower : Str → Str) (h : f.Shaped) (l : List UInt8) :
    ((responseMachine lower).settle f l).1.Shaped ∧
      f.KeepsHead ((responseMachine lower).settle f l).1 :=
  LocalMachine.settle_preserves (M := responseMachine lower) (P := fun g _ => g.Shaped ∧ f.KeepsHead g)
    (fun _ _ _ _ ⟨hshaped, hkeeps⟩ hstep =>
      ⟨(shaped_stepLive hshaped hstep).1, hkeeps.trans (shaped_stepLive hshaped hstep).2⟩)
    ⟨h, .refl f⟩

/-- Before the blank line there is no body. -/
lemma Shaped.body_early (h : f.Shaped) : f.Early := by
  intro hs
  by_cases hc : f.headersComplete = true
  · rcases hs with hs | hs
    · exact absurd hs (h.late hc).1
    · exact absurd hs (h.late hc).2
  · exact (h.early (by simpa using hc)).2

end ResponseFields

/-! ## Decoded bodies -/

/-- The machine behind the bytes of a streamed response. -/
def decode (lower : Str → Str) (config : Config) (bytes : List UInt8) : ResponseFields × List UInt8 :=
  (responseMachine lower).settle (hopParser config true).core bytes

/-- The body that the bytes of a streamed response decode to. -/
def decodedBody (lower : Str → Str) (config : Config) (bytes : List UInt8) : List UInt8 :=
  (decode lower config bytes).1.body

/-- The bytes are those of a complete response: it ends with them, or with the close of the peer
behind them. -/
def Whole (lower : Str → Str) (config : Config) (bytes : List UInt8) (closed : Prop) : Prop :=
  (decode lower config bytes).1.state = .done ∨
    (decode lower config bytes).1.state = .body ∧
      (decode lower config bytes).1.bodyRemaining = none ∧ closed

section Decode

open ResponseFields

variable {lower : Str → Str} {config : Config} {bytes : List UInt8}

lemma shaped_decode (lower : Str → Str) (config : Config) (bytes : List UInt8) :
    (decode lower config bytes).1.Shaped :=
  (shaped_settle lower ⟨rfl, fun _ => ⟨.inl rfl, rfl⟩, fun h => by simp [hopParser, core] at h,
    fun e h => by simp [hopParser, core] at h⟩ bytes).1

/-- The machine waits for more bytes. -/
lemma step_decode (lower : Str → Str) (config : Config) (bytes : List UInt8) :
    (responseMachine lower).step (decode lower config bytes).1 (decode lower config bytes).2 = none :=
  LocalMachine.step_settle _ _

/-- Bytes that come later are decoded from where the machine is. -/
lemma decode_append (lower : Str → Str) (config : Config) (bytes more : List UInt8) :
    decode lower config (bytes ++ more) = (responseMachine lower).settle (decode lower config bytes).1
      ((decode lower config bytes).2 ++ more) :=
  LocalMachine.settle_append _ _ _

/-- **The decoded body grows** with the bytes. -/
lemma decodedBody_append (lower : Str → Str) (config : Config) (bytes more : List UInt8) :
    decodedBody lower config bytes <+: decodedBody lower config (bytes ++ more) := by
  rw [decodedBody, decodedBody, decode_append]
  exact (body_settle lower (shaped_decode lower config bytes).body_early _).2.1

end Decode

/-! ## Parsers -/

namespace ResponseParser

open ResponseFields

variable {lower : Str → Str} {config : Config} {base bytes chunk : List UInt8} {closed : Prop}
  {p : ResponseParser}

/-- A streaming parser that has been given `bytes`, and from whose window `base` has been drained.
-/
structure Tracks (lower : Str → Str) (config : Config) (base bytes : List UInt8) (closed : Prop)
    (p : ResponseParser) : Prop where
  mode : p.streamBody = true
  offset_le : p.bodyReadOffset ≤ p.body.length
  early : p.headersComplete = false → base ++ p.body = []
  begins : base ++ p.body <+: decodedBody lower config bytes
  told : ∀ e, p.error = some e → ∃ message, e = .protocolError message
  meets : p.state ≠ .done → p.state ≠ .error → p.Meets base (decode lower config bytes)
  whole : p.state = .done →
    base ++ p.body = decodedBody lower config bytes ∧ Whole lower config bytes closed

/-- What has been read from the window of a parser and what was drained before. -/
def drained (base : List UInt8) (p : ResponseParser) : List UInt8 :=
  base ++ p.body.take p.bodyReadOffset

/-- In streaming mode a parser that meets the machine has its fields. -/
lemma Meets.atop_eq {s : ResponseFields × List UInt8} (h : p.Meets base s)
    (hmode : p.streamBody = true) : p.atop base = s.1 :=
  h.fields.resolve_right fun hlike => by
    rw [hlike.1] at hmode
    cases hmode

/-- A parser where the machine is holds its part of the body. -/
lemma Meets.tracks (h : p.Meets base (decode lower config bytes)) (hmode : p.streamBody = true)
    (hoffset : p.bodyReadOffset ≤ p.body.length) : p.Tracks lower config base bytes closed := by
  have hfields := h.atop_eq hmode
  have hshaped := shaped_decode lower config bytes
  rw [← hfields] at hshaped
  have hbody : base ++ p.body = decodedBody lower config bytes := congrArg (·.body) hfields
  exact
    { mode := hmode
      offset_le := hoffset
      early := fun hc => (hshaped.early hc).2
      begins := hbody ▸ List.prefix_rfl
      told := hshaped.told
      meets := fun _ _ => h
      whole := fun hdone => ⟨hbody, .inl ((congrArg (·.state) hfields).symm.trans hdone)⟩ }

/-- The parser of a new hop. -/
lemma tracks_hopParser (lower : Str → Str) (config : Config) (closed : Prop) :
    (hopParser config true).Tracks lower config [] [] closed := by
  refine Meets.tracks ⟨fun _ => rfl, .inl ?_, .inl ?_⟩ rfl le_rfl
  · rw [decode, settle_nil]
    rfl
  · rw [decode, settle_nil]
    rfl

/-- A parser that fails keeps what it holds. -/
lemma Tracks.fail (h : p.Tracks lower config base bytes closed) (message : String)
    (more : List UInt8) (closed' : Prop) :
    (p.withFields (p.fail (.protocolError message))).Tracks lower config base (bytes ++ more)
      closed' where
  mode := h.mode
  offset_le := h.offset_le
  early := h.early
  begins := h.begins.trans (decodedBody_append lower config bytes more)
  told := fun e he => ⟨message, (Option.some.inj he).symm⟩
  meets := fun _ herror => absurd rfl herror
  whole := fun hdone => by cases hdone

/-- **A chunk that fits the window** is decoded, or refused for the cap on unparsed bytes. What has
been drained is kept, and the head once it is complete. -/
theorem Tracks.feed (h : p.Tracks lower config base bytes closed) (hne : chunk ≠ [])
    (hdone : p.state ≠ .done) (herror : p.state ≠ .error) (hroom : chunk.length ≤ p.bodyFree) :
    (p.feed lower chunk).Tracks lower config base (bytes ++ chunk) closed ∧
      drained base (p.feed lower chunk) = drained base p ∧
      KeepsHead p.toResponseFields (p.feed lower chunk).toResponseFields := by
  have hmeets := h.meets hdone herror
  have hshaped := shaped_decode lower config bytes
  have hfields := hmeets.atop_eq h.mode
  have hstate := hmeets.state_eq
  have hpos := List.length_pos_of_ne_nil hne
  by_cases hcap : (decode lower config bytes).1.state ∉ [.body, .done, .error] →
      (decode lower config bytes).2.length + chunk.length ≤ (decode lower config bytes).1.maxHeaderBytes
  · have hfed := feed_meets hmeets (step_decode lower config bytes) hcap (fun _ => hshaped.body_early)
      fun _ => by
        unfold bodyFree at hroom
        omega
    rw [← decode_append] at hfed
    have hwindow := sameWindow_feed lower p chunk
    have hmode := hwindow.mode.trans h.mode
    have hover := hfed.atop_eq hmode
    have hgrown : p.body <+: (p.feed lower chunk).body := by
      have hbody : base ++ (p.feed lower chunk).body = decodedBody lower config (bytes ++ chunk) :=
        congrArg (·.body) hover
      rw [← List.prefix_append_right_inj base, hbody]
      exact h.begins.trans (decodedBody_append lower config bytes chunk)
    refine ⟨hfed.tracks hmode ?_, ?_, ?_⟩
    · rw [hwindow.offset]
      exact h.offset_le.trans hgrown.length_le
    · obtain ⟨more, hmore⟩ := hgrown
      rw [drained, drained, hwindow.offset, ← hmore, List.take_append_of_le_length h.offset_le]
    · have hkeeps := (shaped_settle lower hshaped ((decode lower config bytes).2 ++ chunk)).2
      rw [← decode_append, ← hover, ← hfields] at hkeeps
      exact hkeeps
  · -- the unparsed bytes exceed the cap
    obtain ⟨hmem, hover⟩ := Classical.not_imp.mp hcap
    have hlive : p.buffer.live = (decode lower config bytes).2 := by
      rcases hmeets.live with heq | ⟨hend, -⟩ | hend
      · exact heq
      · exact absurd (hstate.trans hend) hdone
      · exact absurd (hstate.trans hend) herror
    have hmax : p.maxHeaderBytes = (decode lower config bytes).1.maxHeaderBytes :=
      congrArg (·.maxHeaderBytes) hfields
    have hbody : p.state ≠ .body := fun hb => hmem (by simp [← hstate, hb])
    have hfeed : p.feed lower chunk = p.withFields (p.fail (.protocolError
        s!"unparsed response bytes exceeded {p.maxHeaderBytes} (state={p.state.text})")) := by
      rw [ResponseParser.feed, if_neg (by simp [hdone, herror]), if_neg hne, if_neg hbody,
        if_pos (by rw [LiveBuffer.liveLen_eq, hlive, hmax]; omega)]
    rw [hfeed]
    exact ⟨h.fail _ chunk closed, rfl, keepsHead_fail _ _⟩

/-- **The close of the peer** ends a body that is not delimited otherwise, and fails the others. -/
theorem Tracks.feedEof (h : p.Tracks lower config base bytes closed) (hdone : p.state ≠ .done)
    (herror : p.state ≠ .error) :
    p.feedEof.Tracks lower config base bytes True ∧ drained base p.feedEof = drained base p ∧
      KeepsHead p.toResponseFields p.feedEof.toResponseFields := by
  have hfields := (h.meets hdone herror).atop_eq h.mode
  have hfail : ∀ message, (p.withFields (p.fail (.protocolError message))).Tracks lower config base
      bytes True := fun message => by
    have := h.fail message [] True
    rwa [List.append_nil] at this
  unfold ResponseParser.feedEof
  split
  · next hs => exact absurd hs hdone
  · next hs => exact absurd hs herror
  · next hs =>
    split
    · next hremaining =>
      refine ⟨⟨h.mode, h.offset_le, h.early, h.begins, h.told, fun hnot => absurd rfl hnot, fun _ => ?_⟩,
        rfl, fun hc => ⟨hc, rfl, rfl⟩⟩
      exact ⟨congrArg (·.body) hfields, .inr ⟨(congrArg (·.state) hfields).symm.trans hs,
        (congrArg (·.bodyRemaining) hfields).symm.trans hremaining, trivial⟩⟩
    · exact ⟨hfail _, rfl, keepsHead_fail _ _⟩
    · exact ⟨hfail _, rfl, keepsHead_fail _ _⟩
  · exact ⟨hfail _, rfl, keepsHead_fail _ _⟩
  · exact ⟨hfail _, rfl, keepsHead_fail _ _⟩
  · exact ⟨hfail _, rfl, keepsHead_fail _ _⟩
  · exact ⟨hfail _, rfl, keepsHead_fail _ _⟩

/-- The window is emptied. -/
lemma Tracks.empty (h : p.Tracks lower config base bytes closed) :
    ({ p with body := [], bodyReadOffset := 0 } : ResponseParser).Tracks lower config (base ++ p.body)
      bytes closed := by
  have hsame : (base ++ p.body) ++ [] = base ++ p.body := List.append_nil _
  refine ⟨h.mode, le_rfl, fun hc => hsame.trans (h.early hc), by rw [hsame]; exact h.begins, h.told,
    fun hdone herror => ?_, fun hdone => by rw [hsame]; exact h.whole hdone⟩
  have hmeets := h.meets hdone herror
  refine ⟨fun hs => ?_, .inl ?_, hmeets.live⟩
  · have hmode : p.streamBody = false := hs
    rw [h.mode] at hmode
    cases hmode
  · rw [← hmeets.atop_eq h.mode, atop, atop, hsame]
    rfl

/-- **Reading** gives what comes next. -/
theorem Tracks.readBodyInto (h : p.Tracks lower config base bytes closed) (size : ℕ) :
    ∃ base', (p.readBodyInto size).2.Tracks lower config base' bytes closed ∧
      drained base' (p.readBodyInto size).2 = drained base p ++ (p.readBodyInto size).1 := by
  have hoffset := h.offset_le
  unfold ResponseParser.readBodyInto
  dsimp only
  split_ifs with hnone hall
  · exact ⟨base, h, (List.append_nil _).symm⟩
  · refine ⟨base ++ p.body, h.empty, ?_⟩
    have htake : min size (p.body.length - p.bodyReadOffset) = (p.body.drop p.bodyReadOffset).length := by
      rw [List.length_drop]
      omega
    rw [drained, drained, List.take_nil, List.append_nil, htake, List.take_length, List.append_assoc,
      List.take_append_drop]
  · refine ⟨base, ⟨h.mode, ?_, h.early, h.begins, h.told, fun hdone herror => ?_, h.whole⟩, ?_⟩
    · show p.bodyReadOffset + _ ≤ p.body.length
      omega
    · obtain ⟨hmode, hfields, hlive⟩ := h.meets hdone herror
      exact ⟨hmode, hfields, hlive⟩
    · rw [drained, drained, List.append_assoc, ← List.take_add]

end ResponseParser

end ChuMicro.Requests
