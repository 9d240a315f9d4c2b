import ChuMicro.Lib.LocalMachine
import ChuMicro.Requests.Wire

/-!
# Responses that arrive in pieces

The response parser as a machine that reads its input from the front, line by line and, in a body,
byte by byte. The machine does not know how large the body buffer is. In buffered mode that cannot
be seen, and in streaming mode it cannot as long as every chunk fits what is free in the buffer;
there the machine keeps the whole body, of which the beginning may have been taken from the buffer.

The parser does what the machine does, as long as the unparsed bytes fit the cap; so what it makes
of a stream does not depend on how the stream is cut. Only the length that an oversize reports may
differ: the machine stops at the first byte too many.

## Main definitions

* `Requests.responseMachine` — the machine.
* `Requests.ResponseParser.Meets` — a parser is where the machine is.
* `Requests.ResponseParser.WithinCap` — the cuts for which the unparsed bytes always fit the cap.

## Main results

* `Requests.ResponseFields.length_body_settle` — bytes that arrive add to the body themselves at
  most.
* `Requests.ResponseParser.feed_meets` — feeding the parser is running the machine.
* `Requests.ResponseParser.feedAll_meets` — the same for all chunks, in buffered mode.
-/

namespace ChuMicro.Requests

open Buffers Http Streaming

/-! ## The machine -/

namespace ResponseFields

/-- The fields without the size of the body buffer and how far it has been read. -/
def core (f : ResponseFields) : ResponseFields := { f with bodyCapacity := 0, bodyReadOffset := 0 }

/-- The error for a line that is not ASCII. -/
def nonAsciiLine (label : String) (line : List UInt8) : HttpError :=
  .protocolError s!"non-ASCII {label}: {reprBytes line}"

/-- What a line does to the fields. The lines of the trailer are not read. -/
def readLine (lower : Str → Str) (f : ResponseFields) (line : List UInt8) : ResponseFields :=
  match f.state, decodeAscii line with
  | .status, .ok text => f.parseStatusLine text
  | .status, .error _ => f.fail (nonAsciiLine "status line" line)
  | .headers, .ok text =>
    if text = [] then (f.frameBody lower).core else f.parseHeaderLine lower text
  | .headers, .error _ => f.fail (nonAsciiLine "header line" line)
  | .chunkSize, .ok text => f.parseChunkSize text
  | .chunkSize, .error _ => f.fail (nonAsciiLine "chunk-size line" line)
  | .chunkTrailer, _ => if line = [] then { f with state := .done } else f
  | _, _ => f

/-- What bytes of the body do to the fields. -/
def absorb (f : ResponseFields) (chunk : List UInt8) : ResponseFields :=
  match f.bodyRemaining with
  | some 0 => f
  | some (r + 1) =>
    let take := min (r + 1) chunk.length
    { f with
      body := f.body ++ chunk.take take
      bodyRemaining := some (r + 1 - take)
      state := if r + 1 - take = 0 then .done else f.state }
  | none =>
    if f.streamBody = false ∧ f.body.length + chunk.length > f.maxBodyBytes then
      f.fail (.oversizedError s!"response body exceeded cap {f.maxBodyBytes}"
        ((f.body.length + chunk.length : ℕ) : ℤ))
    else { f with body := f.body ++ chunk }

/-- What bytes of a chunk do to the fields. -/
def absorbChunkData (f : ResponseFields) (chunk : List UInt8) : ResponseFields :=
  { f with body := f.body ++ chunk, chunkRemaining := f.chunkRemaining - chunk.length }

/-- What the two bytes behind a chunk do to the fields. -/
def readChunkEnd (f : ResponseFields) (tail : List UInt8) : ResponseFields :=
  if tail = CRLF then { f with state := .chunkSize }
  else f.fail (.protocolError s!"missing CRLF after chunk data: {reprBytes tail}")

/-- One step of the machine. -/
def stepLive (lower : Str → Str) (f : ResponseFields) (l : List UInt8) :
    Option (ResponseFields × List UInt8) :=
  match f.state with
  | .status | .headers | .chunkSize | .chunkTrailer =>
    match findSlice CRLF l with
    | none => none
    | some index => some (f.readLine lower (l.take index), l.drop (index + 2))
  | .body =>
    match l with
    | [] => none
    | byte :: l => some (f.absorb [byte], l)
  | .chunkData =>
    if f.chunkRemaining > 0 then
      match l with
      | [] => none
      | byte :: l => some (f.absorbChunkData [byte], l)
    else
      match l with
      | a :: b :: l => some (f.readChunkEnd [a, b], l)
      | _ => none
  | .done | .error => none

/-- The states in which the next bytes are a line. -/
def ReadsLine (f : ResponseFields) : Prop :=
  f.state = .status ∨ f.state = .headers ∨ f.state = .chunkSize ∨ f.state = .chunkTrailer

section Steps

variable {lower : Str → Str} {f g : ResponseFields} {l r : List UInt8}

variable {text : Str}

/-- A status line. -/
lemma readLine_status (h : f.state = .status) (hdec : decodeAscii l = .ok text) :
    f.readLine lower l = f.parseStatusLine text := by
  rw [readLine, h, hdec]

/-- A header line. -/
lemma readLine_headers (h : f.state = .headers) (hdec : decodeAscii l = .ok text) :
    f.readLine lower l =
      if text = [] then (f.frameBody lower).core else f.parseHeaderLine lower text := by
  rw [readLine, h, hdec]

/-- A chunk size. -/
lemma readLine_chunkSize (h : f.state = .chunkSize) (hdec : decodeAscii l = .ok text) :
    f.readLine lower l = f.parseChunkSize text := by
  rw [readLine, h, hdec]

/-- A step where the next bytes are a line. -/
lemma stepLive_line (h : f.ReadsLine) (l : List UInt8) :
    f.stepLive lower l = (findSlice CRLF l).map fun index =>
      (f.readLine lower (l.take index), l.drop (index + 2)) := by
  unfold stepLive
  rcases h with h | h | h | h <;> rw [h] <;> cases findSlice CRLF l <;> rfl

/-- A step in the body reads a byte. -/
lemma stepLive_body (h : f.state = .body) (byte : UInt8) (l : List UInt8) :
    f.stepLive lower (byte :: l) = some (f.absorb [byte], l) := by
  unfold stepLive
  rw [h]

/-- A step in a chunk reads a byte. -/
lemma stepLive_chunkData (h : f.state = .chunkData) (hpos : 0 < f.chunkRemaining) (byte : UInt8)
    (l : List UInt8) : f.stepLive lower (byte :: l) = some (f.absorbChunkData [byte], l) := by
  unfold stepLive
  rw [h]
  dsimp only
  rw [if_pos hpos]

/-- A step behind a chunk reads two bytes. -/
lemma stepLive_chunkEnd (lower : Str → Str) (h : f.state = .chunkData)
    (hzero : f.chunkRemaining = 0) (a b : UInt8) (l : List UInt8) :
    f.stepLive lower (a :: b :: l) = some (f.readChunkEnd [a, b], l) := by
  unfold stepLive
  rw [h]
  dsimp only
  rw [if_neg (by omega)]

/-- What a step can do: read a line, a byte of the body, a byte of a chunk, or the end of a
chunk. -/
lemma stepLive_cases (h : f.stepLive lower l = some (g, r)) :
    (f.ReadsLine ∧ ∃ index, findSlice CRLF l = some index ∧
      g = f.readLine lower (l.take index) ∧ r = l.drop (index + 2)) ∨
    (f.state = .body ∧ ∃ byte, l = byte :: r ∧ g = f.absorb [byte]) ∨
    (f.state = .chunkData ∧ 0 < f.chunkRemaining ∧
      ∃ byte, l = byte :: r ∧ g = f.absorbChunkData [byte]) ∨
    (f.state = .chunkData ∧ f.chunkRemaining = 0 ∧
      ∃ a b, l = a :: b :: r ∧ g = f.readChunkEnd [a, b]) := by
  by_cases hline : f.ReadsLine
  · rw [stepLive_line hline] at h
    obtain ⟨index, hindex, heq⟩ := Option.map_eq_some_iff.mp h
    cases heq
    exact .inl ⟨hline, index, hindex, rfl, rfl⟩
  · unfold stepLive at h
    unfold ReadsLine at hline
    cases hs : f.state with
    | status | headers | chunkSize | chunkTrailer => simp [hs] at hline
    | done | error => simp [hs] at h
    | body =>
      rw [hs] at h
      cases l with
      | nil => cases h
      | cons byte l =>
        cases h
        exact .inr (.inl ⟨rfl, byte, rfl, rfl⟩)
    | chunkData =>
      rw [hs] at h
      dsimp only at h
      split_ifs at h with hpos
      · cases l with
        | nil => cases h
        | cons byte l =>
          cases h
          exact .inr (.inr (.inl ⟨rfl, hpos, byte, rfl, rfl⟩))
      · rcases l with _ | ⟨a, _ | ⟨b, l⟩⟩
        · cases h
        · cases h
        · cases h
          exact .inr (.inr (.inr ⟨rfl, by omega, a, b, rfl, rfl⟩))

/-- Every step consumes bytes. -/
lemma length_lt_of_stepLive (h : f.stepLive lower l = some (g, r)) : r.length < l.length := by
  rcases stepLive_cases h with ⟨-, index, hindex, -, rfl⟩ | ⟨-, byte, rfl, -⟩ |
    ⟨-, -, byte, rfl, -⟩ | ⟨-, -, a, b, rfl, -⟩
  · have hle := findSlice_le hindex
    have hcrlf : CRLF.length = 2 := rfl
    rw [List.length_drop]
    omega
  · simp
  · simp
  · simp only [List.length_cons]
    omega

/-- A step does not look at the bytes behind the ones it consumes. -/
lemma stepLive_append (h : f.stepLive lower l = some (g, r)) (t : List UInt8) :
    f.stepLive lower (l ++ t) = some (g, r ++ t) := by
  rcases stepLive_cases h with ⟨hline, index, hindex, rfl, rfl⟩ | ⟨hs, byte, rfl, rfl⟩ |
    ⟨hs, hpos, byte, rfl, rfl⟩ | ⟨hs, hzero, a, b, rfl, rfl⟩
  · have hle := findSlice_le hindex
    have hcrlf : CRLF.length = 2 := rfl
    rw [stepLive_line hline, findSlice_append hindex, Option.map_some,
      List.take_append_of_le_length (by omega), List.drop_append_of_le_length (by omega)]
  · exact stepLive_body hs byte _
  · exact stepLive_chunkData hs hpos byte _
  · exact stepLive_chunkEnd lower hs hzero a b _

end Steps

end ResponseFields

/-- The response parser as a machine that reads its input from the front. -/
def responseMachine (lower : Str → Str) : LocalMachine ResponseFields UInt8 where
  step := ResponseFields.stepLive lower
  decreasing := ResponseFields.length_lt_of_stepLive
  append := ResponseFields.stepLive_append

/-! ## Bodies -/

open LocalMachine

namespace ResponseFields

variable {lower : Str → Str} {f : ResponseFields}

/-- Bytes of the body leave the machine in the body, or end it. -/
lemma state_absorb (h : f.state = .body) (x : List UInt8) :
    (f.absorb x).state = .body ∨ (f.absorb x).state = .done ∨ (f.absorb x).state = .error := by
  unfold absorb
  split
  · exact .inl h
  · dsimp only
    split_ifs
    · exact .inr (.inl rfl)
    · exact .inl h
  · split_ifs
    · exact .inr (.inr rfl)
    · exact .inl h

/-- The byte that completes the body, and the ones behind it, which are ignored. -/
lemma absorb_cons_of_done {byte : UInt8} (h : f.state = .body)
    (hdone : (f.absorb [byte]).state = .done) (l : List UInt8) :
    f.absorb (byte :: l) = f.absorb [byte] := by
  unfold absorb at *
  split at hdone
  · rfl
  · next r hr =>
    dsimp only at hdone
    split_ifs at hdone with hzero
    · rw [List.length_singleton] at hzero
      obtain rfl : r = 0 := by omega
      simp
    · rw [h] at hdone
      cases hdone
  · split_ifs at hdone
    · cases hdone
    · rw [h] at hdone
      cases hdone

/-- The bytes behind a byte that does not complete the body. -/
lemma absorb_absorb {byte : UInt8} {l : List UInt8} (hbody : (f.absorb [byte]).state = .body)
    (hok : ((f.absorb [byte]).absorb l).state ≠ .error) :
    (f.absorb [byte]).absorb l = f.absorb (byte :: l) := by
  cases hr : f.bodyRemaining with
  | none =>
    have hbyte : f.absorb [byte] = { f with body := f.body ++ [byte] } := by
      unfold absorb at hbody ⊢
      rw [hr] at hbody ⊢
      dsimp only at hbody ⊢
      split_ifs at hbody with hcap
      · cases hbody
      · exact if_neg hcap
    have hlen : (f.body ++ [byte]).length + l.length = f.body.length + (byte :: l).length := by
      simp only [List.length_append, List.length_cons, List.length_nil]
      omega
    rw [hbyte] at hok ⊢
    unfold absorb at hok ⊢
    rw [hr] at hok ⊢
    dsimp only at hok ⊢
    rw [hlen] at hok ⊢
    split_ifs at hok with hcap
    · exact absurd rfl hok
    · rw [if_neg hcap, if_neg hcap]
      simp
  | some r =>
    rcases r with _ | _ | r
    · have hall : ∀ x, f.absorb x = f := fun x => by rw [absorb, hr]
      rw [hall, hall, hall]
    · exfalso
      simp [absorb, hr] at hbody
    · have hbyte : f.absorb [byte] =
          { f with body := f.body ++ [byte], bodyRemaining := some (r + 1) } := by
        rw [absorb, hr]
        simp
      have hmin : min (r + 1 + 1) (l.length + 1) = min (r + 1) l.length + 1 := by omega
      have hsub : r + 1 + 1 - (min (r + 1) l.length + 1) = r + 1 - min (r + 1) l.length := by omega
      rw [hbyte, absorb, absorb]
      simp only [hr, List.length_cons, hmin, hsub]
      simp

/-- At its end the machine does not read on. -/
lemma settle_of_terminal (h : f.state = .done ∨ f.state = .error) (l : List UInt8) :
    (responseMachine lower).settle f l = (f, l) := by
  apply settle_of_none
  show f.stepLive lower l = none
  unfold stepLive
  rcases h with h | h <;> rw [h]

/-- Without bytes the machine takes no step. -/
lemma step_nil (f : ResponseFields) : (responseMachine lower).step f [] = none := by
  show f.stepLive lower [] = none
  unfold stepLive
  split
  · rfl
  · rfl
  · rfl
  · rfl
  · rfl
  · split_ifs <;> rfl
  · rfl
  · rfl

/-- Without bytes the machine does nothing. -/
lemma settle_nil (f : ResponseFields) : (responseMachine lower).settle f [] = (f, []) :=
  settle_of_none (step_nil f)

/-- **The bytes of a body are read as one chunk**, unless they make the machine fail.

**Proof sketch.** Induction on the bytes. The first one completes the body, and the others are left,
or it is followed by the others. -/
lemma settle_body {l : List UInt8} (h : f.state = .body) (hne : l ≠ [])
    (hok : ((responseMachine lower).settle f l).1.state ≠ .error) :
    ((responseMachine lower).settle f l).1 = f.absorb l ∧
      (((responseMachine lower).settle f l).2 = [] ∨
        ((responseMachine lower).settle f l).1.state = .done) := by
  induction l generalizing f with
  | nil => exact absurd rfl hne
  | cons byte l ih =>
    have hstep : (responseMachine lower).step f (byte :: l) = some (f.absorb [byte], l) :=
      stepLive_body h byte l
    rw [settle_of_some hstep] at hok ⊢
    rcases state_absorb h [byte] with hs | hs | hs
    · by_cases hl : l = []
      · subst hl
        rw [settle_nil]
        exact ⟨rfl, .inl rfl⟩
      · obtain ⟨heq, hleft⟩ := ih hs hl hok
        rw [heq] at hok
        exact ⟨heq.trans (absorb_absorb hs hok), hleft⟩
    · rw [settle_of_terminal (.inl hs)]
      exact ⟨(absorb_cons_of_done h hs l).symm, .inr hs⟩
    · rw [settle_of_terminal (.inr hs)] at hok
      exact absurd hs hok

/-- **The bytes of a chunk are read as one.** -/
lemma settle_chunkData (lower : Str → Str) {x : List UInt8} (h : f.state = .chunkData)
    (hx : x.length ≤ f.chunkRemaining) (l : List UInt8) :
    (responseMachine lower).settle f (x ++ l) =
      (responseMachine lower).settle (f.absorbChunkData x) l := by
  induction x generalizing f with
  | nil => simp [absorbChunkData]
  | cons byte x ih =>
    have hstep : (responseMachine lower).step f (byte :: (x ++ l)) =
        some (f.absorbChunkData [byte], x ++ l) :=
      stepLive_chunkData h (by rw [List.length_cons] at hx; omega) byte _
    rw [List.cons_append, settle_of_some hstep, ih (by exact h)]
    · simp only [absorbChunkData, List.append_assoc, List.length_cons, List.length_nil,
        List.cons_append, List.nil_append]
      rw [Nat.sub_sub, show 0 + 1 + x.length = x.length + 1 by omega]
    · rw [List.length_cons] at hx
      simp only [absorbChunkData, List.length_cons, List.length_nil]
      omega

end ResponseFields

/-! ## Failures -/

/-- Two failed parsers that tell the same, up to the length that an oversize reports. -/
structure ResponseFields.FailsLike (f g : ResponseFields) : Prop where
  left : f.state = .error
  right : g.state = .error
  told_eq : (f.statusCode, f.reason, f.httpVersion, f.headers) =
    (g.statusCode, g.reason, g.httpVersion, g.headers)
  error_like : f.error = g.error ∨ ∃ message length length',
    f.error = some (.oversizedError message length) ∧
      g.error = some (.oversizedError message length')

namespace ResponseFields

variable {lower : Str → Str} {f g h : ResponseFields}

lemma FailsLike.symm (hfg : FailsLike f g) : FailsLike g f := by
  refine ⟨hfg.right, hfg.left, hfg.told_eq.symm, ?_⟩
  rcases hfg.error_like with heq | ⟨message, length, length', hf, hg⟩
  · exact .inl heq.symm
  · exact .inr ⟨message, length', length, hg, hf⟩

lemma FailsLike.trans (hfg : FailsLike f g) (hgh : FailsLike g h) : FailsLike f h := by
  refine ⟨hfg.left, hgh.right, hfg.told_eq.trans hgh.told_eq, ?_⟩
  rcases hfg.error_like with heq | ⟨message, length, length', hf, hg⟩
  · rw [heq]
    exact hgh.error_like
  · rcases hgh.error_like with heq | ⟨message', k, k', hg', hh⟩
    · exact .inr ⟨message, length, length', hf, heq ▸ hg⟩
    · rw [hg] at hg'
      cases hg'
      exact .inr ⟨message, length, k', hf, hh⟩

/-- Bytes of the body fail when there is no length and the cap is exceeded. -/
lemma absorb_error (hs : f.state = .body) {x : List UInt8} (herr : (f.absorb x).state = .error) :
    f.bodyRemaining = none ∧ f.streamBody = false ∧ f.body.length + x.length > f.maxBodyBytes ∧
      f.absorb x = f.fail (.oversizedError s!"response body exceeded cap {f.maxBodyBytes}"
        ((f.body.length + x.length : ℕ) : ℤ)) := by
  unfold absorb at herr ⊢
  split at herr
  · rw [hs] at herr
    cases herr
  · dsimp only at herr
    rw [hs] at herr
    split_ifs at herr
  · next hr =>
    rw [hr]
    split_ifs at herr with hcap
    · exact ⟨rfl, hcap.1, hcap.2, if_pos hcap⟩
    · rw [hs] at herr
      cases herr

/-- A body that exceeds the cap. -/
lemma absorb_of_over (hr : f.bodyRemaining = none) (hmode : f.streamBody = false)
    {x : List UInt8} (hcap : f.body.length + x.length > f.maxBodyBytes) :
    f.absorb x = f.fail (.oversizedError s!"response body exceeded cap {f.maxBodyBytes}"
      ((f.body.length + x.length : ℕ) : ℤ)) := by
  rw [absorb, hr]
  exact if_pos ⟨hmode, hcap⟩

/-- **A body that is too large is refused**, as one chunk or byte by byte.

**Proof sketch.** Induction on the bytes. The byte that exceeds the cap fails as all of them do, and
so do the bytes behind one that does not. -/
lemma settle_body_error {l : List UInt8} (hs : f.state = .body)
    (herr : ((responseMachine lower).settle f l).1.state = .error) :
    FailsLike ((responseMachine lower).settle f l).1 (f.absorb l) := by
  induction l generalizing f with
  | nil =>
    rw [settle_nil, hs] at herr
    cases herr
  | cons byte l ih =>
    have hstep : (responseMachine lower).step f (byte :: l) = some (f.absorb [byte], l) :=
      stepLive_body hs byte l
    rw [settle_of_some hstep] at herr ⊢
    rcases state_absorb hs [byte] with hbyte | hbyte | hbyte
    · have hlike := ih hbyte herr
      obtain ⟨hr, hmode, hcap, hfail⟩ := absorb_error hbyte hlike.right
      have hr' : f.bodyRemaining = none := by
        by_contra hne
        obtain ⟨r, hr'⟩ := Option.ne_none_iff_exists'.mp hne
        rw [absorb, hr'] at hr
        cases r <;> simp [hr'] at hr
      have hmode' : f.streamBody = false := by
        rw [absorb, hr'] at hmode
        dsimp only at hmode
        split_ifs at hmode <;> exact hmode
      have hplain : f.absorb [byte] = { f with body := f.body ++ [byte] } := by
        rw [absorb, hr'] at hbyte ⊢
        dsimp only at hbyte ⊢
        split_ifs at hbyte with hover
        · cases hbyte
        · exact if_neg hover
      rw [hplain] at hcap hfail
      have hlen : (f.body ++ [byte]).length + l.length = f.body.length + (byte :: l).length := by
        simp only [List.length_append, List.length_cons, List.length_nil]
        omega
      dsimp only at hcap
      rw [hlen] at hcap
      refine hlike.trans ?_
      rw [hplain, hfail, absorb_of_over hr' hmode' hcap]
      exact ⟨rfl, rfl, rfl, .inr ⟨_, _, _, rfl, rfl⟩⟩
    · rw [settle_of_terminal (.inl hbyte), hbyte] at herr
      cases herr
    · rw [settle_of_terminal (.inr hbyte)]
      obtain ⟨hr, hmode, hcap, hfail⟩ := absorb_error hs hbyte
      rw [hfail, absorb_of_over hr hmode
        (by rw [List.length_singleton] at hcap; rw [List.length_cons]; omega)]
      exact ⟨rfl, rfl, rfl, .inr ⟨_, _, _, rfl, rfl⟩⟩

end ResponseFields

/-! ## Bodies that grow -/

namespace ResponseFields

variable {lower : Str → Str} {f g : ResponseFields} {l r t : List UInt8}

/-- Before the blank line there is no body. -/
def Early (f : ResponseFields) : Prop := f.state = .status ∨ f.state = .headers → f.body = []

/-- A line adds nothing to the body. -/
lemma body_readLine (lower : Str → Str) (hearly : f.Early) (line : List UInt8) :
    (f.readLine lower line).Early ∧ (f.readLine lower line).body = f.body := by
  unfold readLine
  split
  · unfold parseStatusLine
    split
    · split_ifs
      · split <;> exact ⟨fun _ => hearly (.inl ‹_›), rfl⟩
      · exact ⟨fun _ => hearly (.inl ‹_›), rfl⟩
    · exact ⟨fun _ => hearly (.inl ‹_›), rfl⟩
  · exact ⟨fun _ => hearly (.inl ‹_›), rfl⟩
  · have hnil := hearly (.inr ‹_›)
    split_ifs
    · unfold frameBody
      dsimp only
      split_ifs
      · exact ⟨fun _ => hnil, rfl⟩
      · exact ⟨fun _ => hnil, rfl⟩
      · split
        · split_ifs <;> exact ⟨fun _ => hnil, rfl⟩
        · split
          · split
            · exact ⟨fun _ => hnil, rfl⟩
            · split_ifs
              · exact ⟨fun _ => hnil, rfl⟩
              · exact ⟨fun _ => hnil, rfl⟩
              · exact ⟨fun _ => hnil, rfl⟩
              all_goals exact ⟨fun _ => rfl, hnil.symm⟩
          · exact ⟨fun _ => hnil, rfl⟩
    · unfold parseHeaderLine
      split <;> exact ⟨fun _ => hnil, rfl⟩
  · exact ⟨fun _ => hearly (.inr ‹_›), rfl⟩
  · have hnot : ∀ {s : ParseState}, s = .error ∨ s = .chunkTrailer ∨ s = .chunkData →
        ¬ (s = .status ∨ s = .headers) := by
      rintro s (rfl | rfl | rfl) <;> simp
    unfold parseChunkSize
    dsimp only
    split_ifs
    · exact ⟨fun h => absurd h (hnot (.inl rfl)), rfl⟩
    · split
      · exact ⟨fun h => absurd h (hnot (.inl rfl)), rfl⟩
      · split_ifs
        · exact ⟨fun h => absurd h (hnot (.inl rfl)), rfl⟩
        · exact ⟨fun h => absurd h (hnot (.inl rfl)), rfl⟩
        · exact ⟨fun h => absurd h (hnot (.inr (.inl rfl))), rfl⟩
        · exact ⟨fun h => absurd h (hnot (.inr (.inr rfl))), rfl⟩
  · exact ⟨fun h => by simp [fail] at h, rfl⟩
  · split_ifs
    · exact ⟨fun h => by simp at h, rfl⟩
    · exact ⟨hearly, rfl⟩
  · exact ⟨hearly, rfl⟩

/-- Bytes of the body add themselves at most. -/
lemma body_absorb (hs : f.state = .body) (x : List UInt8) :
    (f.absorb x).Early ∧ f.body <+: (f.absorb x).body ∧
      (f.absorb x).body.length ≤ f.body.length + x.length := by
  have hearly : (f.absorb x).Early := by
    intro h
    rcases state_absorb hs x with h' | h' | h' <;> simp [h'] at h
  refine ⟨hearly, ?_⟩
  unfold absorb
  split
  · exact ⟨List.prefix_rfl, Nat.le_add_right _ _⟩
  · refine ⟨List.prefix_append _ _, ?_⟩
    rw [List.length_append, List.length_take]
    omega
  · split_ifs
    · exact ⟨List.prefix_rfl, Nat.le_add_right _ _⟩
    · exact ⟨List.prefix_append _ _, by rw [List.length_append]⟩

/-- **A step adds to the body** at most what it consumes. -/
lemma body_stepLive (hearly : f.Early) (h : f.stepLive lower l = some (g, r)) :
    g.Early ∧ f.body <+: g.body ∧ g.body.length + r.length ≤ f.body.length + l.length := by
  have hlt := length_lt_of_stepLive h
  rcases stepLive_cases h with ⟨-, index, -, rfl, -⟩ | ⟨hs, byte, rfl, rfl⟩ |
    ⟨hs, -, byte, rfl, rfl⟩ | ⟨-, -, a, b, rfl, rfl⟩
  · obtain ⟨hearly', hbody⟩ := body_readLine lower hearly (l.take index)
    refine ⟨hearly', hbody ▸ List.prefix_rfl, ?_⟩
    rw [hbody]
    omega
  · obtain ⟨hearly', hprefix, hlen⟩ := body_absorb hs [byte]
    refine ⟨hearly', hprefix, ?_⟩
    rw [List.length_cons, List.length_nil] at hlen
    rw [List.length_cons]
    omega
  · refine ⟨fun h => ?_, List.prefix_append _ _, ?_⟩
    · have hs' : (f.absorbChunkData [byte]).state = .chunkData := hs
      rw [hs'] at h
      simp at h
    · simp only [absorbChunkData, List.length_append, List.length_cons, List.length_nil]
      omega
  · unfold readChunkEnd
    split_ifs
    · exact ⟨fun h => by simp at h, List.prefix_rfl, by dsimp only; omega⟩
    · exact ⟨fun h => by simp [fail] at h, List.prefix_rfl, by dsimp only [fail]; omega⟩

/-- **A run adds to the body** at most what it consumes. -/
lemma body_settle (lower : Str → Str) (hearly : f.Early) (l : List UInt8) :
    ((responseMachine lower).settle f l).1.Early ∧
      f.body <+: ((responseMachine lower).settle f l).1.body ∧
      ((responseMachine lower).settle f l).1.body.length ≤ f.body.length + l.length := by
  have hrun := settle_preserves (M := responseMachine lower) (s := f) (l := l)
    (P := fun g r => g.Early ∧ f.body <+: g.body ∧ g.body.length + r.length ≤ f.body.length + l.length)
    (fun g r g' r' ⟨hearly, hprefix, hlen⟩ hstep => by
      obtain ⟨hearly', hprefix', hlen'⟩ := body_stepLive hearly hstep
      exact ⟨hearly', hprefix.trans hprefix', by omega⟩)
    ⟨hearly, List.prefix_rfl, le_rfl⟩
  exact ⟨hrun.1, hrun.2.1, by omega⟩

/-- In the body the machine waits only when there are no bytes. -/
lemma nil_of_step_none (hs : f.state = .body) (hnone : (responseMachine lower).step f l = none) :
    l = [] := by
  cases l with
  | nil => rfl
  | cons byte l =>
    have hstep : (responseMachine lower).step f (byte :: l) = some (f.absorb [byte], l) :=
      stepLive_body hs byte l
    rw [hstep] at hnone
    cases hnone

/-- **Bytes that arrive at a waiting machine** add to the body themselves at most: what has waited
belongs to a line, or to the end of a chunk. -/
theorem length_body_settle (hearly : f.Early) (hwait : (responseMachine lower).step f l = none)
    (t : List UInt8) :
    ((responseMachine lower).settle f (l ++ t)).1.body.length ≤ f.body.length + t.length := by
  by_cases hl : l = []
  · subst hl
    exact (body_settle lower hearly t).2.2
  · cases hstep : (responseMachine lower).step f (l ++ t) with
    | none =>
      rw [settle_of_none hstep]
      exact Nat.le_add_right _ _
    | some next =>
      obtain ⟨g, r⟩ := next
      have hfirst : g.Early ∧ g.body.length ≤ f.body.length ∧ r.length ≤ t.length := by
        rcases stepLive_cases hstep with ⟨hline, index, hindex, rfl, rfl⟩ | ⟨hs, -⟩ |
          ⟨hs, hpos, -⟩ | ⟨hs, hzero, a, b, heq, rfl⟩
        · obtain ⟨hearly', hbody⟩ := body_readLine lower hearly ((l ++ t).take index)
          refine ⟨hearly', by rw [hbody], ?_⟩
          have hnone : findSlice CRLF l = none := by
            have hwait' : f.stepLive lower l = none := hwait
            rw [stepLive_line hline] at hwait'
            exact Option.map_eq_none_iff.mp hwait'
          have hlt := lt_of_findSlice_append hnone hindex
          have hcrlf : CRLF.length = 2 := rfl
          rw [List.length_drop, List.length_append]
          omega
        · exact absurd (nil_of_step_none hs hwait) hl
        · obtain ⟨byte, l', rfl⟩ := List.exists_cons_of_ne_nil hl
          have hwait' : f.stepLive lower (byte :: l') = none := hwait
          rw [stepLive_chunkData hs hpos] at hwait'
          cases hwait'
        · have hshort : l.length ≤ 1 := by
            by_contra hlong
            obtain ⟨x, y, l', rfl⟩ : ∃ x y l', l = x :: y :: l' := by
              rcases l with _ | ⟨x, _ | ⟨y, l'⟩⟩
              · simp at hlong
              · simp at hlong
              · exact ⟨x, y, l', rfl⟩
            have hwait' : f.stepLive lower (x :: y :: l') = none := hwait
            rw [stepLive_chunkEnd lower hs hzero] at hwait'
            cases hwait'
          have hlen := congrArg List.length heq
          rw [List.length_append, List.length_cons, List.length_cons] at hlen
          obtain ⟨hearly', -, -⟩ := body_stepLive hearly hstep
          refine ⟨hearly', ?_, by omega⟩
          unfold readChunkEnd
          split_ifs <;> exact le_rfl
      rw [settle_of_some hstep]
      have hrest := (body_settle lower hfirst.1 r).2.2
      omega

end ResponseFields

/-! ## The parser and the machine -/

namespace ResponseFields

variable {lower : Str → Str} {f : ResponseFields} {base : List UInt8}

/-- What the machine sees of a parser from whose body buffer `base` has been taken. -/
def atop (base : List UInt8) (f : ResponseFields) : ResponseFields :=
  { f.core with body := base ++ f.body }

/-- A status line does not look at the body buffer. -/
lemma atop_parseStatusLine (base : List UInt8) (f : ResponseFields) (text : Str) :
    (f.parseStatusLine text).atop base = (f.atop base).parseStatusLine text := by
  unfold parseStatusLine
  split
  · split_ifs
    · split <;> rfl
    · rfl
  · rfl

/-- A header line does not look at the body buffer. -/
lemma atop_parseHeaderLine (base : List UInt8) (f : ResponseFields) (text : Str) :
    (f.parseHeaderLine lower text).atop base = (f.atop base).parseHeaderLine lower text := by
  unfold parseHeaderLine
  split <;> rfl

/-- A chunk size looks at the body in buffered mode only, and nothing is taken from it there. -/
lemma atop_parseChunkSize (hmode : f.streamBody = false → base = []) (text : Str) :
    (f.parseChunkSize text).atop base = (f.atop base).parseChunkSize text := by
  have hcap : ∀ size : ℤ, ((f.atop base).streamBody = false ∧
      (f.atop base).body.length + size > (f.atop base).maxBodyBytes) ↔
        (f.streamBody = false ∧ f.body.length + size > f.maxBodyBytes) := by
    refine fun size => and_congr_right fun hbuffered => ?_
    rw [hmode hbuffered]
    rfl
  unfold parseChunkSize
  dsimp only
  split_ifs
  · rfl
  · cases pyInt 16 (strip (text.takeWhile (· ≠ ';'))) with
    | none => rfl
    | some size =>
      dsimp only
      by_cases hneg : size < 0
      · rw [if_pos hneg, if_pos hneg]
        rfl
      · rw [if_neg hneg, if_neg hneg]
        by_cases hlarge : f.streamBody = false ∧ f.body.length + size > f.maxBodyBytes
        · rw [if_pos hlarge, if_pos ((hcap size).mpr hlarge), hmode hlarge.1]
          rfl
        · rw [if_neg hlarge, if_neg fun h => hlarge ((hcap size).mp h)]
          by_cases hzero : size = 0
          · rw [if_pos hzero, if_pos hzero]
            rfl
          · rw [if_neg hzero, if_neg hzero]
            rfl

/-- The blank line makes the body buffer larger at most. -/
lemma core_frameBody (f : ResponseFields) :
    (f.frameBody lower).core = (f.core.frameBody lower).core := by
  have hget : ∀ name, f.core.headers.get lower name = f.headers.get lower name := fun _ => rfl
  unfold frameBody
  dsimp only
  simp only [hget, apply_ite core]
  cases f.headers.get lower "Transfer-Encoding".toList with
  | some encoding =>
    simp only [apply_ite core]
    rfl
  | none =>
    cases f.headers.get lower "Content-Length".toList with
    | none => rfl
    | some text =>
      dsimp only
      cases pyInt 10 text with
      | none => rfl
      | some length =>
        simp only [apply_ite core]
        rfl

/-- There is room for a part of the body in buffered mode, and in a window that is large enough. -/
lemma absorbBodyChunk_eq (chunk : List UInt8)
    (hroom : f.streamBody = true → f.body.length + chunk.length ≤ f.bodyCapacity) :
    ∃ capacity, f.absorbBodyChunk chunk =
      { f with body := f.body ++ chunk, bodyCapacity := capacity } := by
  unfold absorbBodyChunk
  dsimp only
  by_cases hfits : f.body.length + chunk.length ≤ f.bodyCapacity
  · rw [if_pos hfits]
    exact ⟨f.bodyCapacity, rfl⟩
  · rw [if_neg hfits, if_neg fun hstream => hfits (hroom hstream)]
    exact ⟨_, rfl⟩

/-- Where there is room, the machine knows what a chunk of the body does. -/
lemma atop_absorbBodyBytes (hmode : f.streamBody = false → base = []) {chunk : List UInt8}
    (hroom : f.streamBody = true →
      ((f.atop base).absorb chunk).body.length ≤ base.length + f.bodyCapacity) :
    (f.absorbBodyBytes chunk).atop base = (f.atop base).absorb chunk := by
  have hover : (f.atop base).bodyRemaining = f.bodyRemaining := rfl
  unfold absorbBodyBytes
  unfold absorb at hroom ⊢
  rcases hr : f.bodyRemaining with _ | _ | r
  · rw [hover, hr] at hroom ⊢
    dsimp only at hroom ⊢
    have hcap : (f.atop base).streamBody = false ∧
        (f.atop base).body.length + chunk.length > (f.atop base).maxBodyBytes ↔
        f.streamBody = false ∧ f.body.length + chunk.length > f.maxBodyBytes := by
      refine and_congr_right fun hbuffered => ?_
      rw [hmode hbuffered]
      rfl
    by_cases hlarge : f.streamBody = false ∧ f.body.length + chunk.length > f.maxBodyBytes
    · rw [if_pos hlarge, if_pos (hcap.mpr hlarge), hmode hlarge.1]
      rfl
    · rw [if_neg fun h => hlarge (hcap.mp h)] at hroom
      obtain ⟨capacity, habs⟩ := absorbBodyChunk_eq (f := f) chunk fun hstream => by
        have hlen := hroom hstream
        simp only [atop, List.length_append] at hlen
        omega
      rw [if_neg hlarge, if_neg fun h => hlarge (hcap.mp h), habs]
      simp only [atop, core, List.append_assoc]
      rw [hr]
  · rw [hover, hr]
    rfl
  · rw [hover, hr] at hroom ⊢
    dsimp only at hroom
    obtain ⟨capacity, habs⟩ := absorbBodyChunk_eq (f := f)
      (chunk.take (min (r + 1) chunk.length)) fun hstream => by
        have hlen := hroom hstream
        simp only [atop, List.length_append] at hlen
        omega
    split
    · next heq => cases heq
    · next heq =>
      cases heq
      dsimp only
      rw [habs]
      by_cases hzero : r + 1 - min (r + 1) chunk.length = 0
      · rw [if_pos hzero, if_pos hzero]
        simp only [atop, core, List.append_assoc]
      · rw [if_neg hzero, if_neg hzero]
        simp only [atop, core, List.append_assoc]
    · next heq => cases heq

end ResponseFields

/-! ## The window of a streamed body -/

/-- The mode, the cap on bodies and how far the body has been read are the same, and in streaming
mode the size of the body buffer. -/
structure ResponseFields.SameWindow (f g : ResponseFields) : Prop where
  mode : g.streamBody = f.streamBody
  cap : g.maxBodyBytes = f.maxBodyBytes
  offset : g.bodyReadOffset = f.bodyReadOffset
  capacity : f.streamBody = true → g.bodyCapacity = f.bodyCapacity

namespace ResponseFields

variable {f g h : ResponseFields}

lemma SameWindow.of_eq (hmode : g.streamBody = f.streamBody)
    (hcap : g.maxBodyBytes = f.maxBodyBytes) (hoffset : g.bodyReadOffset = f.bodyReadOffset)
    (hcapacity : g.bodyCapacity = f.bodyCapacity) : f.SameWindow g :=
  ⟨hmode, hcap, hoffset, fun _ => hcapacity⟩

lemma SameWindow.refl (f : ResponseFields) : f.SameWindow f := .of_eq rfl rfl rfl rfl

lemma SameWindow.trans (hfg : f.SameWindow g) (hgh : g.SameWindow h) : f.SameWindow h :=
  ⟨hgh.mode.trans hfg.mode, hgh.cap.trans hfg.cap, hgh.offset.trans hfg.offset, fun hs =>
    (hgh.capacity (hfg.mode.trans hs)).trans (hfg.capacity hs)⟩

lemma sameWindow_parseStatusLine (f : ResponseFields) (text : Str) :
    f.SameWindow (f.parseStatusLine text) := by
  unfold parseStatusLine
  split
  · split_ifs
    · split <;> exact .of_eq rfl rfl rfl rfl
    · exact .of_eq rfl rfl rfl rfl
  · exact .of_eq rfl rfl rfl rfl

lemma sameWindow_parseHeaderLine (lower : Str → Str) (f : ResponseFields) (text : Str) :
    f.SameWindow (f.parseHeaderLine lower text) := by
  unfold parseHeaderLine
  split <;> exact .of_eq rfl rfl rfl rfl

lemma sameWindow_parseChunkSize (f : ResponseFields) (text : Str) :
    f.SameWindow (f.parseChunkSize text) := by
  unfold parseChunkSize
  dsimp only
  split_ifs
  · exact .of_eq rfl rfl rfl rfl
  · split
    · exact .of_eq rfl rfl rfl rfl
    · split_ifs <;> exact .of_eq rfl rfl rfl rfl

lemma sameWindow_frameBody (lower : Str → Str) (f : ResponseFields) :
    f.SameWindow (f.frameBody lower) := by
  unfold frameBody
  dsimp only
  split_ifs
  · exact .of_eq rfl rfl rfl rfl
  · exact .of_eq rfl rfl rfl rfl
  · split
    · split_ifs <;> exact .of_eq rfl rfl rfl rfl
    · split
      · split
        · exact .of_eq rfl rfl rfl rfl
        · split_ifs with hneg hlarge hzero hgrow
          · exact .of_eq rfl rfl rfl rfl
          · exact .of_eq rfl rfl rfl rfl
          · exact .of_eq rfl rfl rfl rfl
          · exact ⟨rfl, rfl, rfl, fun hs => absurd (hgrow.2.symm.trans hs) (by simp)⟩
          · exact .of_eq rfl rfl rfl rfl
      · exact .of_eq rfl rfl rfl rfl

lemma sameWindow_absorbBodyChunk (f : ResponseFields) (chunk : List UInt8) :
    f.SameWindow (f.absorbBodyChunk chunk) := by
  unfold absorbBodyChunk
  dsimp only
  split_ifs with hfits hstream
  · exact .of_eq rfl rfl rfl rfl
  · exact .of_eq rfl rfl rfl rfl
  · exact ⟨rfl, rfl, rfl, fun hs => absurd hs hstream⟩

lemma sameWindow_absorbBodyBytes (f : ResponseFields) (chunk : List UInt8) :
    f.SameWindow (f.absorbBodyBytes chunk) := by
  unfold absorbBodyBytes
  split
  · exact .refl f
  · have hchunk := sameWindow_absorbBodyChunk f
    dsimp only
    split_ifs <;> exact ⟨(hchunk _).mode, (hchunk _).cap, (hchunk _).offset, (hchunk _).capacity⟩
  · split_ifs
    · exact .of_eq rfl rfl rfl rfl
    · exact sameWindow_absorbBodyChunk f chunk

end ResponseFields

namespace ResponseParser

open ResponseFields

variable {lower : Str → Str} {p : ResponseParser}

lemma sameWindow_takeAsciiLine (p : ResponseParser) (label : String)
    {use : ResponseParser → Str → ResponseParser}
    (huse : ∀ q text, SameWindow q.toResponseFields (use q text).toResponseFields) :
    SameWindow p.toResponseFields (p.takeAsciiLine label use).2.toResponseFields := by
  unfold takeAsciiLine
  split
  · exact .refl _
  · dsimp only
    split
    · exact huse (p.consume _) _
    · exact .of_eq rfl rfl rfl rfl

lemma sameWindow_enterBodyState (lower : Str → Str) (p : ResponseParser) :
    SameWindow p.toResponseFields (p.enterBodyState lower).toResponseFields := by
  have hframe := sameWindow_frameBody lower p.toResponseFields
  unfold enterBodyState absorbTrailingBytes
  dsimp only
  split_ifs
  · exact hframe
  · exact hframe.trans (sameWindow_absorbBodyBytes _ _)
  · exact hframe

lemma sameWindow_endChunk (p : ResponseParser) :
    SameWindow p.toResponseFields p.endChunk.2.toResponseFields := by
  unfold endChunk
  split_ifs
  · exact .refl _
  · dsimp only
    split_ifs <;> exact .of_eq rfl rfl rfl rfl

lemma sameWindow_tryConsumeChunkData (p : ResponseParser) :
    SameWindow p.toResponseFields p.tryConsumeChunkData.2.toResponseFields := by
  have hchunk := sameWindow_absorbBodyChunk p.toResponseFields
  unfold tryConsumeChunkData
  dsimp only
  split_ifs
  · exact .refl _
  · exact ⟨(hchunk _).mode, (hchunk _).cap, (hchunk _).offset, (hchunk _).capacity⟩
  · refine SameWindow.trans ?_ (sameWindow_endChunk _)
    exact ⟨(hchunk _).mode, (hchunk _).cap, (hchunk _).offset, (hchunk _).capacity⟩
  · exact sameWindow_endChunk p

/-- A step keeps the window. -/
lemma sameWindow_step (lower : Str → Str) (p : ResponseParser) :
    SameWindow p.toResponseFields (p.step lower).2.toResponseFields := by
  unfold step
  split
  · exact sameWindow_takeAsciiLine p _ fun q text => sameWindow_parseStatusLine q.toResponseFields text
  · refine sameWindow_takeAsciiLine p _ fun q text => ?_
    split_ifs
    · exact sameWindow_enterBodyState lower q
    · exact sameWindow_parseHeaderLine lower q.toResponseFields text
  · exact sameWindow_takeAsciiLine p _ fun q text => sameWindow_parseChunkSize q.toResponseFields text
  · exact sameWindow_tryConsumeChunkData p
  · unfold tryParseChunkTrailer
    split
    · exact .refl _
    · exact .of_eq rfl rfl rfl rfl
    · exact .of_eq rfl rfl rfl rfl
  · exact .refl _
  · exact .refl _
  · exact .refl _

lemma sameWindow_advanceLoop (lower : Str → Str) (p : ResponseParser) (rounds : ℕ) :
    SameWindow p.toResponseFields (p.advanceLoop lower rounds).toResponseFields := by
  induction rounds generalizing p with
  | zero => exact .refl _
  | succ rounds ih =>
    have hstep := sameWindow_step lower p
    unfold advanceLoop
    split
    · next q heq =>
      rw [heq] at hstep
      exact hstep
    · next q heq =>
      rw [heq] at hstep
      exact hstep.trans (ih q)

/-- **Feeding keeps the window.** -/
lemma sameWindow_feed (lower : Str → Str) (p : ResponseParser) (chunk : List UInt8) :
    SameWindow p.toResponseFields (p.feed lower chunk).toResponseFields := by
  unfold feed
  split_ifs
  · exact .refl _
  · exact sameWindow_advanceLoop lower p _
  · refine SameWindow.trans ?_ (sameWindow_advanceLoop lower _ _)
    exact sameWindow_absorbBodyBytes p.toResponseFields chunk
  · exact .of_eq rfl rfl rfl rfl
  · refine SameWindow.trans ?_ (sameWindow_advanceLoop lower _ _)
    exact .of_eq rfl rfl rfl rfl

end ResponseParser

open LiveBuffer

namespace ResponseParser

open ResponseFields

variable {lower : Str → Str} {p : ResponseParser} {base : List UInt8}

/-- The machine run from the state of a parser. -/
def run (lower : Str → Str) (base : List UInt8) (p : ResponseParser) : ResponseFields × List UInt8 :=
  (responseMachine lower).settle (p.atop base) p.buffer.live

/-- A parser is where the machine is, when `base` has been taken from its body buffer. At the end
bytes may have been dropped, and in buffered mode the failure may differ in what it reports. -/
structure Meets (base : List UInt8) (p : ResponseParser) (s : ResponseFields × List UInt8) : Prop where
  mode : p.streamBody = false → base = []
  fields : p.atop base = s.1 ∨ p.streamBody = false ∧ FailsLike (p.atop base) s.1
  live : p.buffer.live = s.2 ∨ s.1.state = .done ∧ p.buffer.live <+: s.2 ∨ s.1.state = .error

/-- A parser with enough room for what the machine does with its bytes. -/
structure Fits (lower : Str → Str) (base : List UInt8) (p : ResponseParser) : Prop where
  mode : p.streamBody = false → base = []
  early : p.streamBody = true → (p.atop base).Early
  room : p.streamBody = true → (p.run lower base).1.body.length ≤ base.length + p.bodyCapacity

variable {s : ResponseFields × List UInt8} {index : ℕ}

lemma Meets.state_eq (h : p.Meets base s) : p.state = s.1.state := by
  rcases h.fields with heq | hlike
  · exact congrArg (·.state) heq
  · exact Eq.trans (b := ParseState.error) hlike.2.left hlike.2.right.symm

/-- What has room keeps it where the machine comes to the same end. -/
lemma Fits.of_run {q : ResponseParser} (h : p.Fits lower base)
    (hwindow : SameWindow p.toResponseFields q.toResponseFields)
    (hearly : p.streamBody = true → (q.atop base).Early) (hrun : q.run lower base = p.run lower base) :
    q.Fits lower base := by
  refine ⟨fun hs => h.mode (hwindow.mode.symm.trans hs), fun hs => ?_, fun hs => ?_⟩
  · exact hearly (hwindow.mode.symm.trans hs)
  · have hs' := hwindow.mode.symm.trans hs
    rw [hrun, hwindow.capacity hs']
    exact h.room hs'

/-- A parser in the body or at its end does nothing by itself. -/
lemma advanceLoop_of_state (h : p.state = .body ∨ p.state = .done ∨ p.state = .error)
    (rounds : ℕ) : p.advanceLoop lower rounds = p := by
  cases rounds with
  | zero => rfl
  | succ rounds =>
    have hstep : p.step lower = (false, p) := by
      unfold step
      rcases h with h | h | h <;> rw [h]
    rw [advanceLoop, hstep]

/-- A parser that has absorbed bytes of the body is where the machine is. -/
lemma meets_absorb {f : ResponseFields} {l : List UInt8} (hmode : f.streamBody = false → base = [])
    (hs : f.state = .body) (hne : l ≠ [])
    (hroom : f.streamBody = true →
      ((responseMachine lower).settle (f.atop base) l).1.body.length ≤ base.length + f.bodyCapacity)
    {q : ResponseParser} (hq : q.toResponseFields = f.absorbBodyBytes l)
    (hlive : q.buffer.live = []) :
    q.Meets base ((responseMachine lower).settle (f.atop base) l) ∧
      (q.state = .body ∨ q.state = .done ∨ q.state = .error) := by
  have hs' : (f.atop base).state = .body := hs
  have hwindow : q.streamBody = f.streamBody := by
    rw [hq]
    exact (sameWindow_absorbBodyBytes f l).mode
  have hmode' : q.streamBody = false → base = [] := fun h => hmode (hwindow.symm.trans h)
  have hstate : q.atop base = (f.atop base).absorb l →
      (q.state = .body ∨ q.state = .done ∨ q.state = .error) := by
    intro hcore
    have heq : q.state = ((f.atop base).absorb l).state := congrArg (·.state) hcore
    rw [heq]
    exact state_absorb hs' l
  by_cases herr : ((responseMachine lower).settle (f.atop base) l).1.state = .error
  · -- only buffered bodies are refused
    have hlike := settle_body_error hs' herr
    obtain ⟨-, hbuffered, -, -⟩ := absorb_error hs' hlike.right
    have hcore : q.atop base = (f.atop base).absorb l := by
      rw [hq]
      exact atop_absorbBodyBytes hmode fun hstream => absurd (hbuffered.symm.trans hstream) (by simp)
    refine ⟨⟨hmode', .inr ⟨hwindow.trans hbuffered, ?_⟩, .inr (.inr herr)⟩, hstate hcore⟩
    rw [hcore]
    exact hlike.symm
  · obtain ⟨heq, hleft⟩ := settle_body hs' hne herr
    have hcore : q.atop base = (f.atop base).absorb l := by
      rw [hq]
      exact atop_absorbBodyBytes hmode fun hstream => heq ▸ hroom hstream
    refine ⟨⟨hmode', .inl (hcore.trans heq.symm), ?_⟩, hstate hcore⟩
    rcases hleft with hnil | hdone
    · exact .inl (hlive.trans hnil.symm)
    · exact .inr (.inl ⟨hdone, by rw [hlive]; exact List.nil_prefix⟩)

/-- The blank line, with the bytes behind it. -/
lemma enterBodyState_meets
    (hroom : p.streamBody = true → ((responseMachine lower).settle (p.frameBody lower).core
      p.buffer.live).1.body.length ≤ p.bodyCapacity) :
    ((p.frameBody lower).state ≠ .body ∧
      p.enterBodyState lower = p.withFields (p.frameBody lower)) ∨
    ((p.enterBodyState lower).Meets []
        ((responseMachine lower).settle (p.frameBody lower).core p.buffer.live) ∧
      ((p.enterBodyState lower).state = .body ∨ (p.enterBodyState lower).state = .done ∨
        (p.enterBodyState lower).state = .error)) := by
  have hwindow := sameWindow_frameBody lower p.toResponseFields
  unfold enterBodyState
  dsimp only
  by_cases hs : (p.frameBody lower).state = .body
  · right
    have hs' : (p.withFields (p.frameBody lower)).state = .body := hs
    have hlive : (p.withFields (p.frameBody lower)).buffer.live = p.buffer.live := rfl
    rw [if_pos hs', absorbTrailingBytes, liveLen_eq, hlive]
    by_cases hnil : p.buffer.live = []
    · rw [if_pos (by simp [hnil]), hnil, settle_nil]
      exact ⟨⟨fun _ => rfl, .inl rfl, .inl hnil⟩, .inl hs⟩
    · rw [if_neg (by simp [hnil])]
      refine meets_absorb (f := p.frameBody lower) (fun _ => rfl) hs hnil (fun hstream => ?_) rfl rfl
      have hstream' := hwindow.mode.symm.trans hstream
      rw [hwindow.capacity hstream', List.length_nil, Nat.zero_add]
      exact hroom hstream'
  · exact .inl ⟨hs, if_neg hs⟩

/-- The fields and live bytes behind a line. -/
structure AfterLine (lower : Str → Str) (base : List UInt8) (p q : ResponseParser) (index : ℕ) :
    Prop where
  fields : q.atop base = (p.atop base).readLine lower (p.buffer.live.take index)
  live : q.buffer.live = p.buffer.live.drop (index + 2)
  state : q.state ≠ .body

/-- A line in which the parser does not enter the body, if its fields become what the machine says.
-/
lemma afterLine_withFields {f : ResponseFields}
    (hover : f.atop base = (p.atop base).readLine lower (p.buffer.live.take index))
    (hstate : f.state ≠ .body) :
    AfterLine lower base p ((p.consume (index + 2)).withFields f) index where
  fields := hover
  live := live_consume _ _
  state := hstate

/-- A failure is not the body. -/
lemma afterLine_fail {e : HttpError}
    (hread : (p.atop base).readLine lower (p.buffer.live.take index) = (p.atop base).fail e) :
    AfterLine lower base p ((p.consume (index + 2)).withFields ((p.consume (index + 2)).fail e))
      index :=
  afterLine_withFields (by rw [hread]; rfl) (by simp [fail])

/-- A status line leads to the headers. -/
lemma parseStatusLine_state (f : ResponseFields) (text : Str) :
    (f.parseStatusLine text).state = .headers ∨ (f.parseStatusLine text).state = .error := by
  unfold parseStatusLine
  split
  · split_ifs
    · split
      · exact .inr rfl
      · exact .inl rfl
    · exact .inr rfl
  · exact .inr rfl

/-- A header line keeps the state. -/
lemma parseHeaderLine_state (lower : Str → Str) (f : ResponseFields) (text : Str) :
    (f.parseHeaderLine lower text).state = f.state ∨
      (f.parseHeaderLine lower text).state = .error := by
  unfold parseHeaderLine
  split
  · exact .inr rfl
  · exact .inl rfl

/-- A chunk size does not lead to the body. -/
lemma parseChunkSize_state (f : ResponseFields) (text : Str) :
    (f.parseChunkSize text).state ≠ .body := by
  unfold parseChunkSize
  dsimp only
  split_ifs
  · simp [fail]
  · split
    · simp [fail]
    · split_ifs <;> simp [fail]

/-- A line that has arrived is taken. -/
lemma takeAsciiLine_eq (hfind : findSlice CRLF p.buffer.live = some index) (label : String)
    (use : ResponseParser → Str → ResponseParser) :
    p.takeAsciiLine label use = (true,
      match decodeAscii (p.buffer.live.take index) with
      | .ok text => use (p.consume (index + 2)) text
      | .error _ => (p.consume (index + 2)).withFields ((p.consume (index + 2)).fail
          (nonAsciiLine label (p.buffer.live.take index)))) := by
  rw [takeAsciiLine, liveFind_eq, hfind]
  dsimp only
  rw [liveSlice_zero]
  cases decodeAscii (p.buffer.live.take index) <;> rfl

/-- In the headers nothing has been taken from the body buffer. -/
lemma Fits.base_nil (h : p.Fits lower base) (hs : p.state = .headers) : base = [] := by
  by_cases hstream : p.streamBody = true
  · exact (List.append_eq_nil_iff.mp (h.early hstream (.inr hs))).1
  · exact h.mode (by simpa using hstream)

/-- **A line is read by the parser as by the machine**, up to a body that starts behind it. -/
lemma step_line (h : p.ReadsLine) (hfits : p.Fits lower base)
    (hfind : findSlice CRLF p.buffer.live = some index)
    (hrun : p.run lower base = (responseMachine lower).settle
      ((p.atop base).readLine lower (p.buffer.live.take index)) (p.buffer.live.drop (index + 2))) :
    (p.step lower).1 = true ∧ (AfterLine lower base p (p.step lower).2 index ∨
      ((p.step lower).2.Meets base (p.run lower base) ∧
        ((p.step lower).2.state = .body ∨ (p.step lower).2.state = .done ∨
          (p.step lower).2.state = .error))) := by
  unfold ResponseFields.ReadsLine at h
  rcases h with hs | hs | hs | hs
  · have hs' : (p.atop base).state = .status := hs
    have hstep : p.step lower = p.tryParseStatusLine := by rw [step, hs]
    rw [hstep, tryParseStatusLine, takeAsciiLine_eq hfind]
    refine ⟨rfl, .inl ?_⟩
    cases hdec : decodeAscii (p.buffer.live.take index) with
    | error e =>
      refine afterLine_fail ?_
      rw [readLine, hs', hdec]
    | ok text =>
      refine afterLine_withFields ?_ ?_
      · rw [readLine_status hs' hdec, atop_parseStatusLine]
        rfl
      · rcases parseStatusLine_state (p.consume (index + 2)).toResponseFields text with h | h <;>
          simp [h]
  · obtain rfl := hfits.base_nil hs
    have hs' : (p.atop []).state = .headers := hs
    have hstep : p.step lower = p.tryParseHeaders lower := by rw [step, hs]
    rw [hstep, tryParseHeaders, takeAsciiLine_eq hfind]
    refine ⟨rfl, ?_⟩
    cases hdec : decodeAscii (p.buffer.live.take index) with
    | error e =>
      refine .inl (afterLine_fail ?_)
      rw [readLine, hs', hdec]
    | ok text =>
      dsimp only
      by_cases hblank : text = []
      · rw [if_pos hblank]
        have hread : (p.atop []).readLine lower (p.buffer.live.take index) =
            ((p.consume (index + 2)).frameBody lower).core := by
          rw [readLine_headers hs' hdec, if_pos hblank]
          exact (core_frameBody p.toResponseFields).symm
        have hlive : (p.consume (index + 2)).buffer.live = p.buffer.live.drop (index + 2) :=
          live_consume _ _
        have hroom := hfits.room
        rw [hrun, hread, ← hlive] at hroom ⊢
        rcases enterBodyState_meets (p := p.consume (index + 2)) (fun hstream => by
          have hlen := hroom hstream
          rwa [List.length_nil, Nat.zero_add] at hlen) with ⟨hstate, heq⟩ | hmeets
        · refine .inl ?_
          rw [heq]
          exact afterLine_withFields hread.symm hstate
        · exact .inr hmeets
      · rw [if_neg hblank]
        refine .inl (afterLine_withFields ?_ ?_)
        · rw [readLine_headers hs' hdec, if_neg hblank, atop_parseHeaderLine]
          rfl
        · have hs'' : (p.consume (index + 2)).state = .headers := hs
          rcases parseHeaderLine_state lower (p.consume (index + 2)).toResponseFields text with h | h
          · rw [h, hs'']
            simp
          · simp [h]
  · have hs' : (p.atop base).state = .chunkSize := hs
    have hstep : p.step lower = p.tryParseChunkSize := by rw [step, hs]
    rw [hstep, tryParseChunkSize, takeAsciiLine_eq hfind]
    refine ⟨rfl, .inl ?_⟩
    cases hdec : decodeAscii (p.buffer.live.take index) with
    | error e =>
      refine afterLine_fail ?_
      rw [readLine, hs', hdec]
    | ok text =>
      refine afterLine_withFields ?_ (parseChunkSize_state _ text)
      rw [readLine_chunkSize hs' hdec]
      exact atop_parseChunkSize (f := p.toResponseFields) hfits.mode text
  · have hs' : (p.atop base).state = .chunkTrailer := hs
    have hstep : p.step lower = p.tryParseChunkTrailer := by rw [step, hs]
    have hread : (p.atop base).readLine lower (p.buffer.live.take index) =
        if p.buffer.live.take index = [] then { p.atop base with state := .done }
        else p.atop base := by
      rw [readLine, hs']
    rw [hstep, tryParseChunkTrailer, liveFind_eq, hfind]
    cases index with
    | zero =>
      refine ⟨rfl, .inl ⟨?_, live_consume _ _, by simp⟩⟩
      rw [hread, if_pos (List.take_zero)]
      rfl
    | succ index =>
      refine ⟨rfl, .inl ⟨?_, live_consume _ _, ?_⟩⟩
      · have hne : p.buffer.live.take (index + 1) ≠ [] := by
          have hle := findSlice_le hfind
          intro hnil
          have hlen := congrArg List.length hnil
          rw [List.length_take, List.length_nil] at hlen
          omega
        rw [hread, if_neg hne]
        rfl
      · have hs'' : (p.consume (index + 1 + 2)).state = .chunkTrailer := hs
        exact fun hbody => absurd (hs''.symm.trans hbody) (by simp)

/-- Behind the headers there is nothing that a body would have to be empty for. -/
lemma early_of_chunked (hs : p.state = .chunkData ∨ p.state = .chunkSize) :
    (p.atop base).Early := by
  intro h
  have hstate : (p.atop base).state = p.state := rfl
  rw [hstate] at h
  rcases hs with hs | hs <;> rw [hs] at h <;> simp at h

/-- Bytes of a chunk that have arrived are taken, and the rest of the chunk is read behind them. -/
lemma step_chunkData (hs : p.state = .chunkData) (hfits : p.Fits lower base) :
    ∃ q : ResponseParser, SameWindow p.toResponseFields q.toResponseFields ∧ q.state = .chunkData ∧
      q.buffer.live.length ≤ p.buffer.live.length ∧ q.run lower base = p.run lower base ∧
      ((p.step lower = (false, q) ∧
          (responseMachine lower).step (q.atop base) q.buffer.live = none) ∨
        (q.chunkRemaining = 0 ∧ p.step lower = q.endChunk)) := by
  have hstep : p.step lower = p.tryConsumeChunkData := by rw [step, hs]
  rw [hstep, tryConsumeChunkData]
  by_cases hpos : p.chunkRemaining > 0
  · rw [if_pos hpos, liveLen_eq]
    dsimp only
    by_cases hnone : min p.chunkRemaining p.buffer.live.length = 0
    · rw [if_pos hnone]
      have hnil : p.buffer.live = [] := List.length_eq_zero_iff.mp (by omega)
      refine ⟨p, .refl _, hs, le_rfl, rfl, .inl ⟨rfl, ?_⟩⟩
      rw [hnil]
      exact step_nil (p.atop base)
    · rw [if_neg hnone, liveSlice_zero]
      generalize hn : min p.chunkRemaining p.buffer.live.length = n at *
      have hlen : (p.buffer.live.take n).length = n := by
        rw [List.length_take]
        omega
      have hsplit := settle_chunkData lower (f := p.atop base) (x := p.buffer.live.take n) hs
        (by rw [hlen]; exact hn ▸ Nat.min_le_left _ _) (p.buffer.live.drop n)
      rw [List.take_append_drop] at hsplit
      -- the bytes taken are a part of the body in the end, for which there is room
      obtain ⟨capacity, habs⟩ := absorbBodyChunk_eq (f := p.toResponseFields)
        (p.buffer.live.take n) fun hstream => by
          have hroom := hfits.room hstream
          have hearly : ((p.atop base).absorbChunkData (p.buffer.live.take n)).Early := by
            intro h
            have hstate : ((p.atop base).absorbChunkData (p.buffer.live.take n)).state =
              .chunkData := hs
            rw [hstate] at h
            simp at h
          have hprefix := (body_settle lower hearly (p.buffer.live.drop n)).2.1.length_le
          rw [← hsplit] at hprefix
          simp only [absorbChunkData, atop, List.length_append] at hprefix
          unfold run at hroom
          simp only [atop] at hroom
          omega
      -- the parser with the bytes taken
      generalize hq : ({ (p.withFields (p.absorbBodyChunk (p.buffer.live.take n))).consume n with
        chunkRemaining := p.chunkRemaining - n } : ResponseParser) = q
      have hfields : q.toResponseFields =
          { p.toResponseFields with
            body := p.body ++ p.buffer.live.take n, bodyCapacity := capacity
            chunkRemaining := p.chunkRemaining - n } := by
        rw [← hq, habs]
        rfl
      have hwindow : SameWindow p.toResponseFields q.toResponseFields := by
        have hchunk := sameWindow_absorbBodyChunk p.toResponseFields (p.buffer.live.take n)
        rw [← hq]
        exact ⟨hchunk.mode, hchunk.cap, hchunk.offset, hchunk.capacity⟩
      have hover : q.atop base = (p.atop base).absorbChunkData (p.buffer.live.take n) := by
        rw [hfields, absorbChunkData, hlen]
        simp only [atop, core, List.append_assoc]
      have hlive : q.buffer.live = p.buffer.live.drop n := by
        rw [← hq]
        exact live_consume _ _
      have hrun : q.run lower base = p.run lower base := by
        rw [run, run, hover, hlive]
        exact hsplit.symm
      have hstate : q.state = .chunkData := by
        rw [hfields]
        exact hs
      have hremaining : q.chunkRemaining = p.chunkRemaining - n := by rw [hfields]
      have hremaining' : ((p.withFields (p.absorbBodyChunk (p.buffer.live.take n))).consume n
          ).chunkRemaining = p.chunkRemaining := by
        rw [habs]
        rfl
      refine ⟨q, hwindow, hstate, ?_, hrun, ?_⟩
      · rw [hlive, List.length_drop]
        omega
      · simp only [hremaining', hq, hremaining]
        by_cases hmore : p.chunkRemaining - n > 0
        · rw [if_pos hmore]
          refine .inl ⟨rfl, ?_⟩
          have hnil : q.buffer.live = [] := by
            rw [hlive]
            exact List.drop_eq_nil_of_le (by omega)
          rw [hnil]
          exact step_nil (q.atop base)
        · rw [if_neg hmore]
          exact .inr ⟨by omega, rfl⟩
  · rw [if_neg hpos]
    exact ⟨p, .refl _, hs, le_rfl, rfl, .inr ⟨by omega, rfl⟩⟩

/-- The parser is where the machine is when the machine has nothing to do. -/
lemma meets_of_step_none (hmode : p.streamBody = false → base = [])
    (hnone : (responseMachine lower).step (p.atop base) p.buffer.live = none) :
    p.Meets base (p.run lower base) := by
  rw [run, settle_of_none hnone]
  exact ⟨hmode, .inl rfl, .inl rfl⟩

/-- The machine at a line, for the fields of a parser. -/
lemma step_machine_line (hline : p.ReadsLine) :
    (responseMachine lower).step (p.atop base) p.buffer.live =
      (findSlice CRLF p.buffer.live).map fun index =>
        ((p.atop base).readLine lower (p.buffer.live.take index), p.buffer.live.drop (index + 2)) :=
  stepLive_line (f := p.atop base) hline p.buffer.live

/-- A parser whose line has not arrived waits. -/
lemma step_of_findSlice_none (hline : p.ReadsLine) (hfind : findSlice CRLF p.buffer.live = none) :
    p.step lower = (false, p) := by
  have hlive := (liveFind_eq p.buffer CRLF).trans hfind
  unfold step
  rcases hline with hs | hs | hs | hs
  · rw [hs]
    simp only [tryParseStatusLine, takeAsciiLine, hlive]
  · rw [hs]
    simp only [tryParseHeaders, takeAsciiLine, hlive]
  · rw [hs]
    simp only [tryParseChunkSize, takeAsciiLine, hlive]
  · rw [hs]
    simp only [tryParseChunkTrailer, hlive]

/-- The end of a chunk is waited for, or read as the machine does. -/
lemma endChunk_cases (lower : Str → Str) (hs : p.state = .chunkData) (hzero : p.chunkRemaining = 0)
    (hmode : p.streamBody = false → base = []) :
    (p.endChunk = (false, p) ∧ (responseMachine lower).step (p.atop base) p.buffer.live = none) ∨
    (∃ q : ResponseParser, p.endChunk = (true, q) ∧ q.state = .chunkSize ∧
      q.buffer.live.length + 2 = p.buffer.live.length ∧ q.run lower base = p.run lower base) ∨
    ∃ q : ResponseParser, p.endChunk = (true, q) ∧ q.state = .error ∧
      q.Meets base (p.run lower base) := by
  have hmachine := stepLive_chunkEnd lower (f := p.atop base) hs hzero
  have hslice := liveSlice_zero p.buffer 2
  rw [endChunk, liveLen_eq]
  rcases hlive : p.buffer.live with _ | ⟨a, _ | ⟨b, rest⟩⟩
  · rw [if_pos (by simp)]
    exact .inl ⟨rfl, step_nil (p.atop base)⟩
  · rw [if_pos (by simp)]
    refine .inl ⟨rfl, ?_⟩
    have hover : (p.atop base).state = .chunkData := hs
    show (p.atop base).stepLive lower [a] = none
    unfold stepLive
    rw [hover]
    exact if_neg (by simp [atop, core, hzero])
  · rw [if_neg (by simp), hslice, hlive]
    have hrun : p.run lower base =
        (responseMachine lower).settle ((p.atop base).readChunkEnd [a, b]) rest := by
      rw [run, hlive]
      exact settle_of_some (hmachine a b rest)
    dsimp only [List.take_succ_cons, List.take_zero]
    by_cases hcrlf : [a, b] = CRLF
    · rw [if_neg (by simpa using hcrlf)]
      have hrest : (p.consume 2).buffer.live = rest := by
        rw [consume, live_consume, hlive]
        rfl
      refine .inr (.inl ⟨_, rfl, rfl, ?_, ?_⟩)
      · simp only [hrest, List.length_cons]
      · rw [hrun, readChunkEnd, if_pos hcrlf, run]
        dsimp only
        rw [hrest]
        rfl
    · rw [if_pos (by simpa using hcrlf)]
      refine .inr (.inr ⟨_, rfl, rfl, ?_⟩)
      rw [hrun, readChunkEnd, if_neg hcrlf, settle_of_terminal (.inr rfl)]
      exact ⟨hmode, .inl rfl, .inr (.inr rfl)⟩

/-- **The loop of the parser runs the machine.**

**Proof sketch.** Induction on the rounds. A round reads a line or a chunk as the machine does, and
leaves fewer bytes. -/
lemma advanceLoop_meets {rounds : ℕ} (hfits : p.Fits lower base)
    (hbody : p.state = .body → p.buffer.live = []) (hrounds : p.buffer.live.length < rounds) :
    (p.advanceLoop lower rounds).Meets base (p.run lower base) := by
  induction rounds generalizing p with
  | zero => omega
  | succ rounds ih =>
    by_cases hline : p.ReadsLine
    · cases hfind : findSlice CRLF p.buffer.live with
      | none =>
        rw [advanceLoop, step_of_findSlice_none hline hfind]
        apply meets_of_step_none hfits.mode
        rw [step_machine_line hline, hfind]
        rfl
      | some index =>
        have hmachine : p.run lower base = (responseMachine lower).settle
            ((p.atop base).readLine lower (p.buffer.live.take index))
            (p.buffer.live.drop (index + 2)) := by
          apply settle_of_some
          rw [step_machine_line hline, hfind]
          rfl
        have hwindow := sameWindow_step lower p
        obtain ⟨htrue, hafter⟩ := step_line hline hfits hfind hmachine
        rcases hstep : p.step lower with ⟨b, q⟩
        rw [hstep] at htrue hafter hwindow
        obtain rfl : b = true := htrue
        rw [advanceLoop, hstep]
        dsimp only at hafter hwindow ⊢
        rcases hafter with ⟨hfields, hlive, hstate⟩ | ⟨hmeets, hstate⟩
        · have hrun : q.run lower base = p.run lower base := by rw [hmachine, run, hfields, hlive]
          have hle := findSlice_le hfind
          have hcrlf : CRLF.length = 2 := rfl
          have hearly : p.streamBody = true → (q.atop base).Early := by
            intro hstream
            rw [hfields]
            exact (body_readLine lower (hfits.early hstream) _).1
          rw [← hrun]
          refine ih (hfits.of_run hwindow hearly hrun) (fun h => absurd h hstate) ?_
          rw [hlive, List.length_drop]
          omega
        · rw [advanceLoop_of_state hstate]
          exact hmeets
    · by_cases hs : p.state = .chunkData
      · obtain ⟨q, hwindow, hstate, hlen, hrun, hcases⟩ := step_chunkData hs hfits
        have hfits' : q.Fits lower base :=
          hfits.of_run hwindow (fun _ => early_of_chunked (.inl hstate)) hrun
        rw [← hrun]
        rcases hcases with ⟨hstep, hnone⟩ | ⟨hzero, hstep⟩
        · rw [advanceLoop, hstep]
          exact meets_of_step_none hfits'.mode hnone
        · have hwindow' := sameWindow_endChunk q
          rcases endChunk_cases lower hstate hzero hfits'.mode with ⟨hend, hnone⟩ |
            ⟨q', hend, hstate', hlen', hrun'⟩ | ⟨q', hend, hstate', hmeets⟩
          · rw [advanceLoop, hstep, hend]
            exact meets_of_step_none hfits'.mode hnone
          · rw [hend] at hwindow'
            rw [advanceLoop, hstep, hend, ← hrun']
            exact ih (hfits'.of_run hwindow' (fun _ => early_of_chunked (.inr hstate')) hrun')
              (fun h => absurd (h.symm.trans hstate') (by simp)) (by omega)
          · rw [advanceLoop, hstep, hend]
            dsimp only
            rw [advanceLoop_of_state (.inr (.inr hstate'))]
            exact hmeets
      · have hend : p.state = .body ∨ p.state = .done ∨ p.state = .error := by
          unfold ResponseFields.ReadsLine at hline
          cases h : p.state <;> simp_all
        rw [advanceLoop_of_state hend]
        apply meets_of_step_none hfits.mode
        have hmachine : ∀ l, (p.state = .body → l = []) →
            (responseMachine lower).settle (p.atop base) l = (p.atop base, l) := by
          intro l hl
          rcases hend with h | h
          · rw [hl h, settle_nil]
          · exact settle_of_terminal (f := p.atop base) h l
        have hnone := step_settle (M := responseMachine lower) (p.atop base)
          p.buffer.live
        rw [hmachine _ hbody] at hnone
        exact hnone

/-- **Feeding the parser is running the machine**, as long as the unparsed bytes fit the cap and, in
streaming mode, the chunk fits the window. -/
theorem feed_meets {chunk : List UInt8} (h : p.Meets base s)
    (hwait : (responseMachine lower).step s.1 s.2 = none)
    (hcap : s.1.state ∉ [.body, .done, .error] → s.2.length + chunk.length ≤ s.1.maxHeaderBytes)
    (hearly : p.streamBody = true → s.1.Early)
    (hroom : p.streamBody = true → p.body.length + chunk.length ≤ p.bodyCapacity) :
    (p.feed lower chunk).Meets base ((responseMachine lower).settle s.1 (s.2 ++ chunk)) := by
  have hstate := h.state_eq
  rw [feed]
  by_cases hend : s.1.state = .done ∨ s.1.state = .error
  · rw [if_pos (by rw [hstate]; exact hend), settle_of_terminal hend]
    refine ⟨h.mode, h.fields, ?_⟩
    rcases hend with hdone | herror
    · refine .inr (.inl ⟨hdone, ?_⟩)
      rcases h.live with heq | ⟨-, hprefix⟩ | herror
      · exact heq ▸ List.prefix_append _ _
      · exact hprefix.trans (List.prefix_append _ _)
      · rw [hdone] at herror
        cases herror
    · exact .inr (.inr herror)
  · rw [not_or] at hend
    have hfields : p.atop base = s.1 := h.fields.resolve_right fun hlike => hend.2 hlike.2.right
    have hlive : p.buffer.live = s.2 := by
      rcases h.live with heq | ⟨hdone, -⟩ | herror
      · exact heq
      · exact absurd hdone hend.1
      · exact absurd herror hend.2
    have hmax : p.maxHeaderBytes = s.1.maxHeaderBytes := congrArg (·.maxHeaderBytes) hfields
    have hgrown : p.streamBody = true → ((responseMachine lower).settle s.1 (s.2 ++ chunk)).1.body.length
        ≤ base.length + p.bodyCapacity := by
      intro hstream
      have hlen := length_body_settle (hearly hstream) hwait chunk
      have hbody : s.1.body.length = base.length + p.body.length := by
        rw [← hfields, atop, List.length_append]
      have := hroom hstream
      omega
    rw [if_neg (by rw [hstate, not_or]; exact hend)]
    by_cases hnil : chunk = []
    · rw [if_pos hnil]
      subst hnil
      have hrun : p.run lower base = (responseMachine lower).settle s.1 (s.2 ++ []) := by
        rw [run, hfields, hlive, List.append_nil]
      rw [← hrun] at hgrown ⊢
      refine advanceLoop_meets ⟨h.mode, fun hstream => ?_, hgrown⟩ (fun hb => ?_)
        (by rw [liveLen_eq]; omega)
      · rw [hfields]
        exact hearly hstream
      · rw [hlive]
        exact nil_of_step_none (hstate.symm.trans hb) hwait
    · rw [if_neg hnil]
      by_cases hb : s.1.state = .body
      · have hempty := nil_of_step_none hb hwait
        rw [hempty, List.nil_append, ← hfields] at hgrown ⊢
        obtain ⟨hmeets, hstate'⟩ := meets_absorb (f := p.toResponseFields) h.mode (hstate.trans hb)
          hnil hgrown (q := p.withFields (p.absorbBodyBytes chunk)) rfl (hlive.trans hempty)
        rw [if_pos (hstate.trans hb), advance, advanceLoop_of_state hstate']
        exact hmeets
      · have hfit := hcap (by simp [hb, hend])
        rw [if_neg (by rw [hstate]; exact hb),
          if_neg (by rw [liveLen_eq, hlive, hmax]; omega)]
        have hext : ({ p with buffer := p.buffer.extend chunk } : ResponseParser).buffer.live =
            s.2 ++ chunk := by
          rw [← hlive]
          exact live_extend _ _
        have hrun : ({ p with buffer := p.buffer.extend chunk } : ResponseParser).run lower base =
            (responseMachine lower).settle s.1 (s.2 ++ chunk) := by
          rw [run, hext, ← hfields]
        rw [← hrun] at hgrown ⊢
        refine advanceLoop_meets ⟨h.mode, fun hstream => ?_, hgrown⟩
          (fun h => absurd (hstate.symm.trans h) hb) (by rw [liveLen_eq]; omega)
        have hover : ({ p with buffer := p.buffer.extend chunk } : ResponseParser).atop base = s.1 :=
          hfields
        rw [hover]
        exact hearly hstream

/-- A parser in buffered mode is where the machine is, and has not failed in another way. -/
structure Follows (p : ResponseParser) (s : ResponseFields × List UInt8) : Prop where
  buffered : p.streamBody = false
  fields : p.core = s.1
  live : p.buffer.live = s.2 ∨ s.1.state = .done ∧ p.buffer.live <+: s.2

lemma Follows.meets (h : p.Follows s) : p.Meets [] s :=
  ⟨fun _ => rfl, .inl h.fields, h.live.imp_right .inl⟩

lemma Meets.follows (h : p.Meets [] s) (hbuffered : p.streamBody = false)
    (hok : s.1.state ≠ .error) : p.Follows s where
  buffered := hbuffered
  fields := h.fields.resolve_right fun hlike => hok hlike.2.right
  live := h.live.imp_right fun hend => hend.resolve_right hok

end ResponseParser

/-! ## Chunks -/

/-- The cuts that stay within the cap of a parser: where a chunk is not body, it and the bytes that
are not parsed yet fit the cap together. -/
def ResponseParser.WithinCap (lower : Str → Str) (p : ResponseParser) (chunks : List (List UInt8)) :
    Prop :=
  ∀ before chunk after, chunks = before ++ chunk :: after →
    (p.feedAll lower before).state ∉ [.body, .done, .error] →
      (p.feedAll lower before).buffer.liveLen + chunk.length ≤
        (p.feedAll lower before).maxHeaderBytes

namespace ResponseParser

open ResponseFields

variable {lower : Str → Str} {s : ResponseFields × List UInt8} {chunks : List (List UInt8)}
  {p q : ResponseParser}

/-- **Feeding chunks is running the machine on all of them.**

**Proof sketch.** Induction on the chunks; the machine reads later bytes as if they had come at
once. -/
theorem feedAll_meets (h : p.Meets [] s) (hbuffered : p.streamBody = false)
    (hwait : (responseMachine lower).step s.1 s.2 = none) (hcap : p.WithinCap lower chunks) :
    (p.feedAll lower chunks).Meets []
      ((responseMachine lower).settle s.1 (s.2 ++ chunks.flatten)) := by
  induction chunks generalizing p s with
  | nil =>
    rw [List.flatten_nil, List.append_nil, settle_of_none hwait]
    exact h
  | cons chunk chunks ih =>
    have hsplit : s.2 ++ (chunk :: chunks).flatten = s.2 ++ chunk ++ chunks.flatten := by
      rw [List.flatten_cons, List.append_assoc]
    have hstream : ∀ {P : Prop}, p.streamBody = true → P := fun h => by
      rw [hbuffered] at h
      cases h
    have hfirst : s.1.state ∉ [.body, .done, .error] →
        s.2.length + chunk.length ≤ s.1.maxHeaderBytes := by
      intro hstate
      have hfit := hcap [] chunk chunks rfl (by
        show p.state ∉ _
        rw [h.state_eq]
        exact hstate)
      have herror : s.1.state ≠ .error := fun herr => hstate (by simp [herr])
      have hdone : s.1.state ≠ .done := fun hdone => hstate (by simp [hdone])
      have hmax : p.maxHeaderBytes = s.1.maxHeaderBytes :=
        congrArg (·.maxHeaderBytes) (h.fields.resolve_right fun hlike => herror hlike.2.right)
      have hlive : p.buffer.live = s.2 :=
        h.live.resolve_right fun hend => hend.elim (fun h => hdone h.1) herror
      rw [liveLen_eq] at hfit
      rw [← hmax, ← hlive]
      exact hfit
    have hfeed := feed_meets h hwait hfirst hstream hstream
    rw [hsplit, settle_append]
    refine ih hfeed ((sameWindow_feed lower p chunk).mode.trans hbuffered)
      (step_settle _ _) (fun before c after heq => ?_)
    exact hcap (chunk :: before) c after (by rw [heq]; rfl)

/-- Feeding chunks keeps the window. -/
lemma sameWindow_feedAll (lower : Str → Str) (p : ResponseParser) (chunks : List (List UInt8)) :
    SameWindow p.toResponseFields (p.feedAll lower chunks).toResponseFields := by
  induction chunks generalizing p with
  | nil => exact .refl _
  | cons chunk chunks ih => exact (sameWindow_feed lower p chunk).trans (ih _)

/-- A machine that has failed stays so. -/
lemma state_settle_append_of_error {f : ResponseFields} {l t : List UInt8}
    (h : ((responseMachine lower).settle f l).1.state = .error) :
    ((responseMachine lower).settle f (l ++ t)).1.state = .error := by
  rw [settle_append, settle_of_terminal (.inr h)]
  exact h

/-- Feeding chunks on which the machine does not fail. -/
lemma feedAll_follows (h : p.Follows s) (hwait : (responseMachine lower).step s.1 s.2 = none)
    (hcap : p.WithinCap lower chunks)
    (hok : ((responseMachine lower).settle s.1 (s.2 ++ chunks.flatten)).1.state ≠ .error) :
    (p.feedAll lower chunks).Follows
      ((responseMachine lower).settle s.1 (s.2 ++ chunks.flatten)) :=
  (feedAll_meets h.meets h.buffered hwait hcap).follows
    ((sameWindow_feedAll lower p chunks).mode.trans h.buffered) hok

end ResponseParser

end ChuMicro.Requests
