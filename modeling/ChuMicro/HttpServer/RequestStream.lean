import ChuMicro.HttpServer.RequestParser

/-!
# Requests that arrive in pieces

What the request parser makes of a stream, compared between two ways of cutting the stream into
chunks. The buffer of the parser is first replaced by the bytes that are live in it: the offset and
its compaction cannot be seen. On live bytes feeding two chunks is feeding them as one, unless one
of the two caps is compared with bytes that only happen to be there.

## Main definitions

* `HttpServer.RequestFields.stepLive`, `HttpServer.Live.feed` — the parser on live bytes.
* `HttpServer.CutFree` — the streams that no cut can change.
* `HttpServer.RequestFields.outcome` — what a run ends with.

## Main results

* `HttpServer.Live.feed_feed` — two chunks are fed like one.
* `HttpServer.request_cut_free_iff` — a stream is read alike in every cut if and only if it is
  `CutFree`.
-/

namespace ChuMicro.HttpServer

open Buffers Http

/-! ## The parser on live bytes -/

/-- The fields of a parser and its live bytes. -/
abbrev Live := RequestFields × List UInt8

namespace RequestFields

variable (lower : Str → Str)

/-- The step of the parser at the request line. -/
def stepRequestLine (f : RequestFields) (l : List UInt8) : Progress × Live :=
  match findSlice CRLF l with
  | none =>
    if l.length > f.maxRequestLineBytes then
      (.next, f.fail (requestLineTooLarge f.maxRequestLineBytes), l)
    else (.more, f, l)
  | some index =>
    if index > f.maxRequestLineBytes then
      (.next, f.fail (requestLineTooLarge f.maxRequestLineBytes), l)
    else
      let (progress, f) := f.parseRequestLine (l.take index)
      (progress, f, l.drop (index + 2))

/-- The step of the parser at the blank line. -/
def stepBlankLine (f : RequestFields) (l : List UInt8) : Live :=
  let f := { f with headersBytes := f.headersBytes + 2 }.frameBody lower
  if f.state = .body ∧ l.length > 0 then (f.absorbBodyBytes l, []) else (f, l)

/-- The step of the parser at a header line. -/
def stepHeaders (f : RequestFields) (l : List UInt8) : Progress × Live :=
  if f.headersBytes + l.length > f.maxHeadersBytes then
    (.next, f.fail (headersTooLarge f.maxHeadersBytes), l)
  else
    match findSlice CRLF l with
    | none => (.more, f, l)
    | some 0 => (.next, f.stepBlankLine lower (l.drop 2))
    | some index =>
      let (progress, f) := { f with headersBytes := f.headersBytes + (index + 2) }.parseHeaderLine
        lower (l.take index)
      (progress, f, l.drop (index + 2))

/-- The body of the loop of `_advance`. -/
def stepLive (f : RequestFields) (l : List UInt8) : Progress × Live :=
  match f.state with
  | .requestLine => f.stepRequestLine l
  | .headers => f.stepHeaders lower l
  | _ => (.more, f, l)

/-- The loop of `_advance`. -/
def settleLoop : ℕ → RequestFields → List UInt8 → Live
  | 0, f, l => (f, l)
  | rounds + 1, f, l =>
    match f.stepLive lower l with
    | (.more, s) => s
    | (.raised _, s) => s
    | (.next, f, l) => settleLoop rounds f l

/-- `_advance`. -/
def settle (f : RequestFields) (l : List UInt8) : Live := settleLoop lower (l.length + 1) f l

end RequestFields

/-- `feed`. -/
def Live.feed (lower : Str → Str) (s : Live) (chunk : List UInt8) : Live :=
  if s.1.state = .done ∨ s.1.state = .error then s
  else if s.1.state = .body then (s.1.absorbBodyBytes chunk, s.2)
  else s.1.settle lower (s.2 ++ chunk)

/-- The fields and live bytes of a parser. -/
def RequestParser.abs (p : RequestParser) : Live := (p.toRequestFields, p.buffer.live)

open RequestFields

section Simulation

variable {lower : Str → Str}

/-- A step of the parser is a step on its live bytes. -/
lemma abs_step (p : RequestParser) :
    p.toRequestFields.stepLive lower p.buffer.live = ((p.step lower).1, (p.step lower).2.abs) := by
  unfold stepLive RequestParser.step
  cases hs : p.state with
  | requestLine =>
    simp only [stepRequestLine, RequestParser.tryParseRequestLine,
      LiveBuffer.liveFind_eq, LiveBuffer.liveLen_eq, LiveBuffer.liveSlice_zero]
    cases findSlice CRLF p.buffer.live with
    | none =>
      dsimp only
      split_ifs <;> rfl
    | some index =>
      dsimp only
      split_ifs
      · rfl
      · simp [RequestParser.abs, RequestParser.withFields, RequestParser.consume]
  | headers =>
    simp only [stepHeaders, RequestParser.tryParseHeaders,
      LiveBuffer.liveFind_eq, LiveBuffer.liveLen_eq, LiveBuffer.liveSlice_zero]
    split_ifs with hcap
    · rfl
    · rcases findSlice CRLF p.buffer.live with _ | _ | index
      · rfl
      · simp only [stepBlankLine, RequestParser.enterBodyState,
          RequestParser.withFields, RequestParser.consume, LiveBuffer.liveLen_eq,
          LiveBuffer.live_consume]
        split_ifs
        · simp [RequestParser.abs, LiveBuffer.live]
        · simp [RequestParser.abs]
      · simp [RequestParser.abs, RequestParser.withFields, RequestParser.consume]
  | body | done | error => rfl

/-- The loop of the parser is the loop on its live bytes. -/
lemma abs_advanceLoop (rounds : ℕ) (p : RequestParser) :
    p.toRequestFields.settleLoop lower rounds p.buffer.live =
      (p.advanceLoop lower rounds).2.abs := by
  induction rounds generalizing p with
  | zero => rfl
  | succ rounds ih =>
    rw [settleLoop, RequestParser.advanceLoop, abs_step]
    rcases p.step lower with ⟨_ | _ | e, q⟩
    · rfl
    · exact ih q
    · rfl

/-- A step from the body state or a terminal one does nothing. -/
lemma advance_of_state {p : RequestParser} (h : p.state ≠ .requestLine) (h' : p.state ≠ .headers) :
    p.advance lower = (none, p) := by
  have hstep : p.step lower = (.more, p) := by
    unfold RequestParser.step
    cases hs : p.state <;> simp_all
  rw [RequestParser.advance, RequestParser.advanceLoop, hstep]

/-- Absorbing bytes leaves the parser in the body or done. -/
lemma state_absorbBodyBytes {f : RequestFields} (h : f.state = .body) (chunk : List UInt8) :
    (f.absorbBodyBytes chunk).state = .body ∨ (f.absorbBodyBytes chunk).state = .done := by
  unfold absorbBodyBytes
  dsimp only
  split_ifs
  · exact .inl h
  · exact .inr rfl
  · exact .inl h

/-- No bytes change nothing. -/
lemma absorbBodyBytes_nil (f : RequestFields) : f.absorbBodyBytes [] = f := by
  unfold absorbBodyBytes
  split_ifs with h
  · rfl
  · simp [h]

/-- **Feeding the parser is feeding its live bytes.** -/
lemma abs_feed (p : RequestParser) (chunk : List UInt8) :
    (p.feed lower chunk).2.abs = p.abs.feed lower chunk := by
  unfold RequestParser.feed Live.feed
  by_cases hend : p.state = .done ∨ p.state = .error
  · have hend' : p.abs.1.state = .done ∨ p.abs.1.state = .error := hend
    rw [if_pos hend, if_pos hend']
  have hend' : ¬ (p.abs.1.state = .done ∨ p.abs.1.state = .error) := hend
  rw [if_neg hend, if_neg hend']
  dsimp only
  by_cases hbody : p.state = .body
  · have hbody' : p.abs.1.state = .body := hbody
    rw [if_pos hbody']
    by_cases hnil : chunk = []
    · subst hnil
      rw [if_pos rfl, advance_of_state (by simp [hbody]) (by simp [hbody]), absorbBodyBytes_nil]
    · rw [if_neg hnil, if_pos hbody]
      have hstate := state_absorbBodyBytes hbody chunk
      rw [advance_of_state (by rcases hstate with h | h <;> simp [RequestParser.withFields, h])
        (by rcases hstate with h | h <;> simp [RequestParser.withFields, h])]
      rfl
  · have hbody' : ¬ p.abs.1.state = .body := hbody
    rw [if_neg hbody']
    have hlive : ∀ q : RequestParser, q.toRequestFields = p.toRequestFields →
        q.buffer.live = p.buffer.live ++ chunk →
        (q.advance lower).2.abs = p.abs.1.settle lower (p.abs.2 ++ chunk) := by
      intro q hf hl
      rw [RequestParser.advance, ← abs_advanceLoop, hf, hl, LiveBuffer.liveLen_eq, hl]
      rfl
    by_cases hnil : chunk = []
    · rw [if_pos hnil]
      exact hlive p rfl (by rw [hnil, List.append_nil])
    · rw [if_neg hnil, if_neg hbody]
      exact hlive _ rfl (LiveBuffer.live_extend _ _)

/-- The same for all chunks. -/
lemma abs_feedAll (lower : Str → Str) (p : RequestParser) (chunks : List (List UInt8)) :
    (p.feedAll lower chunks).abs = chunks.foldl (Live.feed lower) p.abs := by
  induction chunks generalizing p with
  | nil => rfl
  | cons chunk chunks ih =>
    rw [List.foldl_cons, ← abs_feed]
    exact ih _

end Simulation

/-! ## The loop -/

namespace RequestFields

/-- The parser reads lines. -/
def ReadsLines (f : RequestFields) : Prop := f.state = .requestLine ∨ f.state = .headers

section Steps

variable {lower : Str → Str} {f g : RequestFields} {l r : List UInt8} {line : List UInt8}

/-- A request line is refused, with an exception or not, or is followed by headers. -/
lemma parseRequestLine_cases (f : RequestFields) (line : List UInt8) :
    (∃ progress e, progress ≠ .more ∧
      f.parseRequestLine line = (progress, f.fail (.protocolError e))) ∨
    ∃ method target version, f.parseRequestLine line =
      (.next, { f with method, target, httpVersion := version, state := .headers }) := by
  unfold parseRequestLine
  split
  · exact .inl ⟨_, _, by simp, rfl⟩
  · split
    · split_ifs
      · exact .inl ⟨_, _, by simp, rfl⟩
      · exact .inl ⟨_, _, by simp, rfl⟩
      · exact .inr ⟨_, _, _, rfl⟩
      · exact .inl ⟨_, _, by simp, rfl⟩
    · exact .inl ⟨_, _, by simp, rfl⟩

/-- A request line behind which headers are read was accepted. -/
lemma parseRequestLine_of_state (h : (f.parseRequestLine line).2.state = .headers) :
    ∃ method target version, f.parseRequestLine line =
      (.next, { f with method, target, httpVersion := version, state := .headers }) := by
  rcases parseRequestLine_cases f line with ⟨_, _, _, hp⟩ | hp
  · rw [hp] at h
    cases h
  · exact hp

/-- A header line is refused, with an exception or not, or adds a header. -/
lemma parseHeaderLine_cases (lower : Str → Str) (f : RequestFields) (line : List UInt8) :
    (∃ progress e, progress ≠ .more ∧
      f.parseHeaderLine lower line = (progress, f.fail (.protocolError e))) ∨
    ∃ name value, f.parseHeaderLine lower line =
      (.next, { f with headers := f.headers.add lower name value }) := by
  unfold parseHeaderLine
  split
  · exact .inl ⟨_, _, by simp, rfl⟩
  · split
    · exact .inl ⟨_, _, by simp, rfl⟩
    · exact .inr ⟨_, _, rfl⟩

/-- The blank line ends the request, refuses it or leads to its body. -/
lemma frameBody_cases (lower : Str → Str) (f : RequestFields) :
    (∃ e, f.frameBody lower = f.fail e ∧
      (e.kind = .protocol ∨ e.kind = .oversized)) ∨
    (∃ n, f.frameBody lower = { f with bodyRemaining := n, state := .done }) ∨
    ∃ n, f.frameBody lower = { f with bodyRemaining := n + 1, state := .body, body := [] } := by
  unfold frameBody
  split
  · exact .inl ⟨_, rfl, .inl rfl⟩
  · split
    · exact .inr (.inl ⟨f.bodyRemaining, rfl⟩)
    · split
      · exact .inl ⟨_, rfl, .inl rfl⟩
      · next length _ =>
        split_ifs with hneg hcap hzero
        · exact .inl ⟨_, rfl, .inl rfl⟩
        · exact .inl ⟨_, rfl, .inr rfl⟩
        · exact .inr (.inl ⟨0, rfl⟩)
        · refine .inr (.inr ⟨length.toNat - 1, ?_⟩)
          rw [show length.toNat - 1 + 1 = length.toNat by omega]

/-- The fields after `n` more bytes of headers. -/
def counted (f : RequestFields) (n : ℕ) : RequestFields :=
  { f with headersBytes := f.headersBytes + n }

/-- What a step at the request line can do: wait, refuse a line over the cap, or read the line. -/
lemma stepRequestLine_cases (f : RequestFields) (l : List UInt8) :
    (findSlice CRLF l = none ∧ l.length ≤ f.maxRequestLineBytes ∧
      f.stepRequestLine l = (.more, f, l)) ∨
    ((findSlice CRLF l = none ∧ f.maxRequestLineBytes < l.length ∨
        ∃ i, findSlice CRLF l = some i ∧ f.maxRequestLineBytes < i) ∧
      f.stepRequestLine l = (.next, f.fail (requestLineTooLarge f.maxRequestLineBytes), l)) ∨
    ∃ i ≤ f.maxRequestLineBytes, findSlice CRLF l = some i ∧
      f.stepRequestLine l = ((f.parseRequestLine (l.take i)).1, (f.parseRequestLine (l.take i)).2,
        l.drop (i + 2)) := by
  unfold stepRequestLine
  rcases hfind : findSlice CRLF l with _ | i
  · dsimp only
    by_cases hcap : l.length > f.maxRequestLineBytes
    · rw [if_pos hcap]
      exact .inr (.inl ⟨.inl ⟨rfl, hcap⟩, rfl⟩)
    · rw [if_neg hcap]
      exact .inl ⟨rfl, by omega, rfl⟩
  · dsimp only
    by_cases hcap : i > f.maxRequestLineBytes
    · rw [if_pos hcap]
      exact .inr (.inl ⟨.inr ⟨i, rfl, hcap⟩, rfl⟩)
    · rw [if_neg hcap]
      exact .inr (.inr ⟨i, by omega, rfl, rfl⟩)

/-- What a step at a header line can do: refuse headers over the cap, wait, end the headers, or read
the line. -/
lemma stepHeaders_cases (lower : Str → Str) (f : RequestFields) (l : List UInt8) :
    (f.maxHeadersBytes < f.headersBytes + l.length ∧
      f.stepHeaders lower l = (.next, f.fail (headersTooLarge f.maxHeadersBytes), l)) ∨
    (f.headersBytes + l.length ≤ f.maxHeadersBytes ∧
      ((findSlice CRLF l = none ∧ f.stepHeaders lower l = (.more, f, l)) ∨
      (findSlice CRLF l = some 0 ∧
        f.stepHeaders lower l = (.next, f.stepBlankLine lower (l.drop 2))) ∨
      ∃ i, findSlice CRLF l = some (i + 1) ∧
        f.stepHeaders lower l =
          (((f.counted (i + 3)).parseHeaderLine lower (l.take (i + 1))).1,
            ((f.counted (i + 3)).parseHeaderLine lower (l.take (i + 1))).2, l.drop (i + 3)))) := by
  unfold stepHeaders
  by_cases hcap : f.headersBytes + l.length > f.maxHeadersBytes
  · rw [if_pos hcap]
    exact .inl ⟨hcap, rfl⟩
  · rw [if_neg hcap]
    refine .inr ⟨by omega, ?_⟩
    rcases hfind : findSlice CRLF l with _ | _ | i
    · exact .inl ⟨rfl, rfl⟩
    · exact .inr (.inl ⟨rfl, rfl⟩)
    · exact .inr (.inr ⟨i, rfl, rfl⟩)

/-- The blank line within the cap. -/
lemma stepHeaders_blank (hcap : f.headersBytes + l.length ≤ f.maxHeadersBytes)
    (hfind : findSlice CRLF l = some 0) :
    f.stepHeaders lower l = (.next, f.stepBlankLine lower (l.drop (0 + 2))) := by
  rcases stepHeaders_cases lower f l with ⟨hover, -⟩ | ⟨-, ⟨hnone, -⟩ | ⟨-, heq⟩ | ⟨i, hi, -⟩⟩
  · omega
  · rw [hfind] at hnone
    cases hnone
  · exact heq
  · rw [hfind] at hi
    cases hi

/-- A header line within the cap. -/
lemma stepHeaders_line {i : ℕ} (hcap : f.headersBytes + l.length ≤ f.maxHeadersBytes)
    (hfind : findSlice CRLF l = some (i + 1)) :
    f.stepHeaders lower l =
      (((f.counted (i + 3)).parseHeaderLine lower (l.take (i + 1))).1,
        ((f.counted (i + 3)).parseHeaderLine lower (l.take (i + 1))).2, l.drop (i + 1 + 2)) := by
  rcases stepHeaders_cases lower f l with ⟨hover, -⟩ | ⟨-, ⟨hnone, -⟩ | ⟨hzero, -⟩ | ⟨j, hj, heq⟩⟩
  · omega
  · rw [hfind] at hnone
    cases hnone
  · rw [hfind] at hzero
    cases hzero
  · rw [hfind] at hj
    cases hj
    exact heq

/-- What the blank line can do: refuse the request, end it, or start its body with the bytes that
are there. -/
lemma stepBlankLine_cases (lower : Str → Str) (f : RequestFields) :
    (∃ e, (e.kind = .protocol ∨ e.kind = .oversized) ∧
      ∀ l, f.stepBlankLine lower l = ((f.counted 2).fail e, l)) ∨
    (∃ n, ∀ l, f.stepBlankLine lower l =
      ({ f.counted 2 with bodyRemaining := n, state := .done }, l)) ∨
    ∃ n, ∀ l, f.stepBlankLine lower l =
      (({ f.counted 2 with bodyRemaining := n + 1, state := .body, body := [] }
        : RequestFields).absorbBodyBytes l, []) := by
  rcases frameBody_cases lower (f.counted 2) with ⟨e, he, hkind⟩ | ⟨n, hn⟩ | ⟨n, hn⟩
  · refine .inl ⟨e, hkind, fun l => ?_⟩
    rw [counted] at he
    rw [stepBlankLine, he, if_neg (by simp [fail])]
    rfl
  · refine .inr (.inl ⟨n, fun l => ?_⟩)
    rw [counted] at hn
    rw [stepBlankLine, hn, if_neg (by simp)]
    rfl
  · refine .inr (.inr ⟨n, fun l => ?_⟩)
    rw [counted] at hn
    rw [stepBlankLine, hn]
    cases l with
    | nil => rw [if_neg (by simp), absorbBodyBytes_nil]; rfl
    | cons x l => rw [if_pos ⟨rfl, by simp⟩]; rfl

/-- A parser at the request line steps there. -/
lemma stepLive_requestLine (lower : Str → Str) (h : f.state = .requestLine) :
    f.stepLive lower l = f.stepRequestLine l := by
  rw [stepLive, h]

/-- A parser at the headers steps there. -/
lemma stepLive_headers (lower : Str → Str) (h : f.state = .headers) :
    f.stepLive lower l = f.stepHeaders lower l := by
  rw [stepLive, h]

/-- Elsewhere the loop does nothing. -/
lemma stepLive_of_not_readsLines (lower : Str → Str) (l : List UInt8) (h : ¬ f.ReadsLines) :
    f.stepLive lower l = (.more, f, l) := by
  unfold stepLive ReadsLines at *
  cases hs : f.state <;> simp_all

/-- The rounds the loop may still make. -/
def rank (f : RequestFields) (l : List UInt8) : ℕ :=
  if f.state = .requestLine ∨ f.state = .headers then l.length + 1 else 0

lemma rank_le (f : RequestFields) (l : List UInt8) : f.rank l ≤ l.length + 1 := by
  unfold rank
  split_ifs
  · exact le_rfl
  · exact Nat.zero_le _

lemma rank_of_readsLines (h : f.ReadsLines) : f.rank l = l.length + 1 := if_pos h

lemma rank_of_not_readsLines (h : ¬ f.ReadsLines) : f.rank l = 0 := if_neg h

lemma not_readsLines_fail (f : RequestFields) (e : ServerError) : ¬ (f.fail e).ReadsLines := by
  simp [ReadsLines, fail]

/-- The parser does not read lines after the blank line. -/
lemma not_readsLines_stepBlankLine (lower : Str → Str) (f : RequestFields) (l : List UInt8) :
    ¬ (f.stepBlankLine lower l).1.ReadsLines := by
  rcases stepBlankLine_cases lower f with ⟨e, -, h⟩ | ⟨n, h⟩ | ⟨n, h⟩
  · rw [h]
    exact not_readsLines_fail _ e
  · rw [h]
    simp [ReadsLines]
  · rw [h]
    have hstate := state_absorbBodyBytes (f := { f.counted 2 with
      bodyRemaining := n + 1, state := .body, body := [] }) rfl l
    unfold ReadsLines
    rcases hstate with hs | hs <;> simp [hs]

/-- A line that was found is consumed. -/
lemma rank_drop {i : ℕ} (hf : f.ReadsLines) (hi : findSlice CRLF l = some i) (g : RequestFields) :
    g.rank (l.drop (i + 2)) < f.rank l := by
  have hle := findSlice_le hi
  have hrank := rank_le g (l.drop (i + 2))
  have hcrlf : CRLF.length = 2 := rfl
  rw [List.length_drop] at hrank
  rw [rank_of_readsLines hf]
  omega

/-- Every round but the last consumes a line or ends the reading of lines. -/
lemma rank_stepLive (h : f.stepLive lower l = (.next, g, r)) : g.rank r < f.rank l := by
  by_cases hf : f.ReadsLines
  · have hpos : 0 < f.rank l := by rw [rank_of_readsLines hf]; omega
    rcases hf with hs | hs
    · rw [stepLive_requestLine lower hs] at h
      rcases stepRequestLine_cases f l with ⟨-, -, heq⟩ | ⟨-, heq⟩ | ⟨i, -, hi, heq⟩
      · rw [heq] at h
        cases h
      · rw [heq] at h
        cases h
        rwa [rank_of_not_readsLines (not_readsLines_fail f _)]
      · obtain rfl : l.drop (i + 2) = r := congrArg (·.2.2) (heq.symm.trans h)
        exact rank_drop (.inl hs) hi g
    · rw [stepLive_headers lower hs] at h
      rcases stepHeaders_cases lower f l with ⟨-, heq⟩ | ⟨-, ⟨-, heq⟩ | ⟨-, heq⟩ | ⟨i, hi, heq⟩⟩
      · rw [heq] at h
        cases h
        rwa [rank_of_not_readsLines (not_readsLines_fail f _)]
      · rw [heq] at h
        cases h
      · rw [heq] at h
        have hnot := not_readsLines_stepBlankLine lower f (l.drop 2)
        cases hblank : f.stepBlankLine lower (l.drop 2)
        rw [hblank] at h hnot
        cases h
        rwa [rank_of_not_readsLines hnot]
      · obtain rfl : l.drop (i + 3) = r := congrArg (·.2.2) (heq.symm.trans h)
        exact rank_drop (.inr hs) hi g
  · rw [stepLive_of_not_readsLines lower l hf] at h
    cases h

/-- Enough rounds are as good as any larger number. -/
lemma settleLoop_eq {rounds : ℕ} (h : f.rank l ≤ rounds) :
    f.settleLoop lower rounds l = f.settle lower l := by
  have hall : ∀ rounds rounds' f l, rank f l ≤ rounds → rank f l ≤ rounds' →
      settleLoop lower rounds f l = settleLoop lower rounds' f l := by
    intro rounds
    induction rounds with
    | zero =>
      intro rounds' f l h _
      have hnot : ¬ f.ReadsLines := by
        intro hf
        rw [rank_of_readsLines hf] at h
        omega
      have hstep := stepLive_of_not_readsLines lower l hnot
      cases rounds' <;> simp [settleLoop, hstep]
    | succ rounds ih =>
      intro rounds' f l h h'
      cases rounds' with
      | zero =>
        have hnot : ¬ f.ReadsLines := by
          intro hf
          rw [rank_of_readsLines hf] at h'
          omega
        have hstep := stepLive_of_not_readsLines lower l hnot
        simp [settleLoop, hstep]
      | succ rounds' =>
        rw [settleLoop, settleLoop]
        rcases hstep : f.stepLive lower l with ⟨_ | _ | e, g, r⟩
        · rfl
        · have hlt := rank_stepLive hstep
          exact ih rounds' g r (by omega) (by omega)
        · rfl
  exact hall _ _ f l h (rank_le f l)

/-- The loop stops where more bytes are needed. -/
lemma settle_more {s : Live} (h : f.stepLive lower l = (.more, s)) : f.settle lower l = s := by
  rw [settle, settleLoop, h]

/-- The loop stops at an exception. -/
lemma settle_raised {s : Live} {e : ServerError} (h : f.stepLive lower l = (.raised e, s)) :
    f.settle lower l = s := by
  rw [settle, settleLoop, h]

/-- The loop goes on. -/
lemma settle_next (h : f.stepLive lower l = (.next, g, r)) :
    f.settle lower l = g.settle lower r := by
  have hlt := rank_stepLive h
  have hle := rank_le f l
  rw [settle, settleLoop, h]
  exact settleLoop_eq (by omega)

/-- A parser that does not read lines is settled. -/
lemma settle_of_not_readsLines (h : ¬ f.ReadsLines) : f.settle lower l = (f, l) := by
  exact settle_more (stepLive_of_not_readsLines lower l h)

/-- The loop ends with a failure. -/
lemma settle_failed {progress : Progress} {e : ServerError}
    (h : f.stepLive lower l = (progress, g.fail e, r)) (hprogress : progress ≠ .more) :
    f.settle lower l = (g.fail e, r) := by
  rcases progress with _ | _ | e
  · exact absurd rfl hprogress
  · rw [settle_next h, settle_of_not_readsLines (not_readsLines_fail _ _)]
  · exact settle_raised h

/-- The loop ends with the blank line. -/
lemma settle_blankLine (h : f.stepLive lower l = (.next, g.stepBlankLine lower r)) :
    f.settle lower l = g.stepBlankLine lower r := by
  have hnot := not_readsLines_stepBlankLine lower g r
  rcases hblank : g.stepBlankLine lower r with ⟨g', r'⟩
  rw [hblank] at h hnot
  rw [settle_next h, settle_of_not_readsLines hnot]

/-- **Rule for the loop**: what holds at the start and is kept by every round holds at the end. -/
lemma settle_induction {P : RequestFields → Prop}
    (hstep : ∀ f l progress g r, P f → f.stepLive lower l = (progress, g, r) → P g) :
    ∀ (f : RequestFields) (l : List UInt8), P f → P (f.settle lower l).1 := by
  intro f l
  induction hr : f.rank l using Nat.strong_induction_on generalizing f l with
  | _ n ih =>
    intro hf
    rcases h : f.stepLive lower l with ⟨_ | _ | e, g, r⟩
    · rw [settle_more h]
      exact hstep f l _ g r hf h
    · rw [settle_next h]
      exact ih _ (hr ▸ rank_stepLive h) g r rfl (hstep f l _ g r hf h)
    · rw [settle_raised h]
      exact hstep f l _ g r hf h

/-- A round that waits leaves everything as it is, and an exception leaves the parser failed. -/
lemma stepLive_shape {progress : Progress} (h : f.stepLive lower l = (progress, g, r)) :
    (progress = .more → g = f ∧ r = l) ∧ (∀ e, progress = .raised e → ¬ g.ReadsLines) := by
  by_cases hf : f.ReadsLines
  · rcases hf with hs | hs
    · rw [stepLive_requestLine lower hs] at h
      rcases stepRequestLine_cases f l with ⟨-, -, heq⟩ | ⟨-, heq⟩ | ⟨i, -, -, heq⟩
      · cases heq.symm.trans h
        simp
      · cases heq.symm.trans h
        simp
      · rcases parseRequestLine_cases f (l.take i) with ⟨_, e, hm, hp⟩ | ⟨_, _, _, hp⟩
        · rw [hp] at heq
          cases heq.symm.trans h
          exact ⟨fun h => absurd h hm, fun _ _ => not_readsLines_fail _ _⟩
        · rw [hp] at heq
          cases heq.symm.trans h
          simp
    · rw [stepLive_headers lower hs] at h
      rcases stepHeaders_cases lower f l with ⟨-, heq⟩ | ⟨-, ⟨-, heq⟩ | ⟨-, heq⟩ | ⟨i, -, heq⟩⟩
      · cases heq.symm.trans h
        simp
      · cases heq.symm.trans h
        simp
      · obtain rfl : Progress.next = progress := congrArg (·.1) (heq.symm.trans h)
        simp
      · rcases parseHeaderLine_cases lower (f.counted (i + 3)) (l.take (i + 1)) with
          ⟨_, e, hm, hp⟩ | ⟨_, _, hp⟩
        · rw [hp] at heq
          cases heq.symm.trans h
          exact ⟨fun h => absurd h hm, fun _ _ => not_readsLines_fail _ _⟩
        · rw [hp] at heq
          cases heq.symm.trans h
          simp
  · rw [stepLive_of_not_readsLines lower l hf] at h
    cases h
    simp

/-- The loop stops only where another round would not go on. -/
lemma settle_settle (f : RequestFields) (l : List UInt8) :
    (f.settle lower l).1.settle lower (f.settle lower l).2 = f.settle lower l := by
  induction hr : f.rank l using Nat.strong_induction_on generalizing f l with
  | _ n ih =>
    rcases h : f.stepLive lower l with ⟨_ | _ | e, g, r⟩
    · obtain ⟨rfl, rfl⟩ := (stepLive_shape h).1 rfl
      rw [settle_more h, settle_more h]
    · rw [settle_next h]
      exact ih _ (hr ▸ rank_stepLive h) g r rfl
    · rw [settle_raised h, settle_of_not_readsLines ((stepLive_shape h).2 e rfl)]

end Steps

/-! ## Two chunks -/

/-- Headers of which no cut can change what is made of them: all the bytes there are fit the cap, or
not even the first line does. -/
def HeadersFree (f : RequestFields) (t : List UInt8) : Prop :=
  f.headersBytes + t.length ≤ f.maxHeadersBytes ∨
    ∀ k, findSlice CRLF t = some k → f.maxHeadersBytes < f.headersBytes + (k + 2)

/-- A request line of which no cut can change what is made of it: it is not exactly as long as the
cap, and if it is accepted the same goes for the headers behind it. -/
def RequestLineFree (f : RequestFields) (t : List UInt8) : Prop :=
  findSlice CRLF t ≠ some f.maxRequestLineBytes ∧
    ∀ i < f.maxRequestLineBytes, findSlice CRLF t = some i →
      (f.parseRequestLine (t.take i)).2.state = .headers →
        (f.parseRequestLine (t.take i)).2.HeadersFree (t.drop (i + 2))

/-- The same for a parser in any state. -/
def Free (f : RequestFields) (t : List UInt8) : Prop :=
  (f.state = .requestLine → f.RequestLineFree t) ∧ (f.state = .headers → f.HeadersFree t)

section Append

variable {lower : Str → Str} {f : RequestFields} {l t : List UInt8}

/-- A parser that does not read lines does not care. -/
lemma free_of_not_readsLines (h : ¬ f.ReadsLines) : f.Free t :=
  ⟨fun hs => absurd (.inl hs) h, fun hs => absurd (.inr hs) h⟩

/-- The bytes of a line are the same when more follow. -/
lemma take_append_of_findSlice {i : ℕ} (h : findSlice CRLF l = some i) (t : List UInt8) :
    (l ++ t).take i = l.take i ∧ (l ++ t).drop (i + 2) = l.drop (i + 2) ++ t := by
  have hle := findSlice_le h
  have hcrlf : CRLF.length = 2 := rfl
  exact ⟨List.take_append_of_le_length (by omega), List.drop_append_of_le_length (by omega)⟩

/-- Bytes that do not complete the body are stored. -/
lemma absorbBodyBytes_short {x : List UInt8} (h : x.length < f.bodyRemaining) :
    f.absorbBodyBytes x =
      { f with body := f.body ++ x, bodyRemaining := f.bodyRemaining - x.length } := by
  rw [absorbBodyBytes, if_neg (by omega)]
  simp only [Nat.min_eq_right h.le, List.take_length]
  rw [if_neg (by omega)]

/-- Bytes that complete the body end the request; the ones behind it are ignored. -/
lemma absorbBodyBytes_full {x : List UInt8} (hpos : 0 < f.bodyRemaining)
    (h : f.bodyRemaining ≤ x.length) :
    f.absorbBodyBytes x =
      { f with body := f.body ++ x.take f.bodyRemaining, bodyRemaining := 0, state := .done } := by
  rw [absorbBodyBytes, if_neg (by omega)]
  simp only [Nat.min_eq_left h, Nat.sub_self, if_true]

/-- Bytes of the body that come in two chunks. -/
lemma feed_absorbBodyBytes (h : f.state = .body) (r t : List UInt8) :
    (Live.feed lower (f.absorbBodyBytes r, l) t).1 = f.absorbBodyBytes (r ++ t) := by
  unfold Live.feed
  rcases Nat.eq_zero_or_pos f.bodyRemaining with hzero | hpos
  · have habs : ∀ x, f.absorbBodyBytes x = f := fun x => by rw [absorbBodyBytes, if_pos hzero]
    rw [habs, habs, if_neg (by simp [h]), if_pos (by simp [h]), habs]
  · rcases Nat.lt_or_ge r.length f.bodyRemaining with hlt | hge
    · -- the first chunk does not complete the body
      rw [absorbBodyBytes_short hlt, if_neg (by simp [h]), if_pos (by simp [h])]
      dsimp only
      rcases Nat.lt_or_ge (r ++ t).length f.bodyRemaining with hlt' | hge'
      · have hlen := hlt'
        rw [List.length_append] at hlen
        rw [absorbBodyBytes_short hlt', absorbBodyBytes_short (by dsimp only; omega)]
        simp only [List.append_assoc, List.length_append, Nat.sub_sub]
      · have hlen := hge'
        rw [List.length_append] at hlen
        rw [absorbBodyBytes_full hpos hge',
          absorbBodyBytes_full (by dsimp only; omega) (by dsimp only; omega)]
        simp only [List.append_assoc, List.take_append, List.take_of_length_le hlt.le]
    · -- the first chunk completes the body, and the second is ignored
      rw [absorbBodyBytes_full hpos hge, if_pos (by simp),
        absorbBodyBytes_full hpos (by rw [List.length_append]; omega),
        List.take_append_of_le_length hge]

/-- The blank line, with a part of the bytes behind it now and the rest later. -/
lemma feed_stepBlankLine (r t : List UInt8) :
    (Live.feed lower (f.stepBlankLine lower r) t).1 = (f.stepBlankLine lower (r ++ t)).1 := by
  rcases stepBlankLine_cases lower f with ⟨e, -, h⟩ | ⟨n, h⟩ | ⟨n, h⟩
  · rw [h, h, Live.feed, if_pos (by simp [fail])]
  · rw [h, h, Live.feed, if_pos (by simp)]
  · rw [h, h]
    exact feed_absorbBodyBytes rfl r t

/-- A parser that has failed stays so. -/
lemma feed_fail (e : ServerError) : (Live.feed lower (f.fail e, l) t).1 = f.fail e := by
  rw [Live.feed, if_pos (by simp [fail])]

/-- **Bytes that come later are read as if they had come at once**, by a parser that reads lines.

**Proof sketch.** Induction on the rounds of the loop on the first bytes. A line found in them is
the same line when more bytes follow, and where the loop waits it starts again with all the bytes.
The caps give the same verdict because the stream is `Free`. -/
lemma settle_append (lower : Str → Str) (hf : f.ReadsLines) (hfree : f.Free (l ++ t)) :
    (f.settle lower (l ++ t)).1 = (Live.feed lower (f.settle lower l) t).1 ∧
      (f.settle lower l).1.Free ((f.settle lower l).2 ++ t) := by
  induction hr : f.rank l using Nat.strong_induction_on generalizing f l with
  | _ n ih =>
    -- where the loop waits, feeding starts it again
    have hwait : f.stepLive lower l = (.more, f, l) →
        (f.settle lower (l ++ t)).1 = (Live.feed lower (f.settle lower l) t).1 ∧
          (f.settle lower l).1.Free ((f.settle lower l).2 ++ t) := by
      intro hstep
      rw [settle_more hstep]
      refine ⟨?_, hfree⟩
      unfold ReadsLines at hf
      rw [Live.feed, if_neg (by rcases hf with h | h <;> simp [h]),
        if_neg (by rcases hf with h | h <;> simp [h])]
    -- where both have failed alike, they stay so
    have hfail : ∀ progress (g : RequestFields) e r r', progress ≠ .more →
        f.stepLive lower l = (progress, g.fail e, r) →
        f.stepLive lower (l ++ t) = (progress, g.fail e, r') →
        (f.settle lower (l ++ t)).1 = (Live.feed lower (f.settle lower l) t).1 ∧
          (f.settle lower l).1.Free ((f.settle lower l).2 ++ t) := by
      intro progress g e r r' hp h h'
      rw [settle_failed h hp, settle_failed h' hp, feed_fail]
      exact ⟨rfl, free_of_not_readsLines (not_readsLines_fail _ _)⟩
    rcases hf with hs | hs
    · have hline := hfree.1 hs
      have hstep := stepLive_requestLine lower (l := l) hs
      have hstep' := stepLive_requestLine lower (l := l ++ t) hs
      rcases stepRequestLine_cases f l with ⟨-, -, heq⟩ | ⟨hover, heq⟩ | ⟨i, hi, hfind, heq⟩
      · exact hwait (hstep.trans heq)
      · -- over the cap now, and then
        rcases stepRequestLine_cases f (l ++ t) with ⟨hnone, hlen, -⟩ | ⟨-, heq'⟩ |
          ⟨i, hi, hfind, -⟩
        · exfalso
          rcases hover with ⟨-, hlong⟩ | ⟨i, hfind, -⟩
          · rw [List.length_append] at hlen
            omega
          · rw [findSlice_append hfind t] at hnone
            cases hnone
        · exact hfail _ _ _ _ _ (by simp) (hstep.trans heq) (hstep'.trans heq')
        · exfalso
          rcases hover with ⟨hnone, hlong⟩ | ⟨j, hfind', hj⟩
          · have hlt := lt_of_findSlice_append hnone hfind
            have hcrlf : CRLF.length = 2 := rfl
            have hne : i ≠ f.maxRequestLineBytes := fun h => hline.1 (h ▸ hfind)
            omega
          · rw [findSlice_append hfind' t] at hfind
            cases hfind
            omega
      · have hfind' := findSlice_append hfind t
        obtain ⟨htake, hdrop⟩ := take_append_of_findSlice hfind t
        have hne : i ≠ f.maxRequestLineBytes := fun h => hline.1 (h ▸ hfind')
        have heq' : f.stepRequestLine (l ++ t) = ((f.parseRequestLine (l.take i)).1,
            (f.parseRequestLine (l.take i)).2, l.drop (i + 2) ++ t) := by
          rw [stepRequestLine, hfind']
          dsimp only
          rw [if_neg (by omega), htake, hdrop]
        rcases parseRequestLine_cases f (l.take i) with ⟨_, e, hm, hp⟩ | ⟨_, _, _, hp⟩
        · rw [hp] at heq heq'
          exact hfail _ _ _ _ _ hm (hstep.trans heq) (hstep'.trans heq')
        · have hheaders := hline.2 i (by omega) hfind' (by rw [htake, hp])
          rw [htake, hdrop, hp] at hheaders
          rw [hp] at heq heq'
          rw [settle_next (hstep.trans heq), settle_next (hstep'.trans heq')]
          exact ih _ (hr ▸ rank_stepLive (hstep.trans heq)) (.inr rfl)
            ⟨fun h => (by cases h), fun _ => hheaders⟩ rfl
    · have hheaders := hfree.2 hs
      have hstep := stepLive_headers lower (l := l) hs
      have hstep' := stepLive_headers lower (l := l ++ t) hs
      rcases stepHeaders_cases lower f l with ⟨hover, heq⟩ | ⟨hcap, ⟨-, heq⟩ | hfound⟩
      · rcases stepHeaders_cases lower f (l ++ t) with ⟨-, heq'⟩ | ⟨hcap, -⟩
        · exact hfail _ _ _ _ _ (by simp) (hstep.trans heq) (hstep'.trans heq')
        · rw [List.length_append] at hcap
          omega
      · exact hwait (hstep.trans heq)
      · -- a line was found within the cap, so everything is within the cap
        have hall : f.headersBytes + (l ++ t).length ≤ f.maxHeadersBytes := by
          rcases hheaders with hall | hfirst
          · exact hall
          · have hfound' : ∃ k, findSlice CRLF l = some k := by
              rcases hfound with ⟨h, -⟩ | ⟨i, h, -⟩
              · exact ⟨_, h⟩
              · exact ⟨_, h⟩
            obtain ⟨k, hk⟩ := hfound'
            have hlt := hfirst k (findSlice_append hk t)
            have hle := findSlice_le hk
            have hcrlf : CRLF.length = 2 := rfl
            omega
        rcases hfound with ⟨hfind, heq⟩ | ⟨i, hfind, heq⟩
        · have hfind' := findSlice_append hfind t
          obtain ⟨-, hdrop⟩ := take_append_of_findSlice hfind t
          have heq' : f.stepHeaders lower (l ++ t) =
              (.next, f.stepBlankLine lower (l.drop 2 ++ t)) := by
            rw [stepHeaders_blank hall hfind', hdrop]
          rw [settle_blankLine (hstep.trans heq), settle_blankLine (hstep'.trans heq')]
          exact ⟨(feed_stepBlankLine _ _).symm,
            free_of_not_readsLines (not_readsLines_stepBlankLine lower f _)⟩
        · have hfind' := findSlice_append hfind t
          obtain ⟨htake, hdrop⟩ := take_append_of_findSlice hfind t
          have heq' : f.stepHeaders lower (l ++ t) =
              (((f.counted (i + 3)).parseHeaderLine lower (l.take (i + 1))).1,
                ((f.counted (i + 3)).parseHeaderLine lower (l.take (i + 1))).2,
                l.drop (i + 3) ++ t) := by
            rw [stepHeaders_line hall hfind', htake, hdrop]
          rcases parseHeaderLine_cases lower (f.counted (i + 3)) (l.take (i + 1)) with
            ⟨_, e, hm, hp⟩ | ⟨_, _, hp⟩
          · rw [hp] at heq heq'
            exact hfail _ _ _ _ _ hm (hstep.trans heq) (hstep'.trans heq')
          · rw [hp] at heq heq'
            rw [settle_next (hstep.trans heq), settle_next (hstep'.trans heq')]
            have hle := findSlice_le hfind
            have hcrlf : CRLF.length = 2 := rfl
            refine ih _ (hr ▸ rank_stepLive (hstep.trans heq)) (.inr hs)
              ⟨fun h => absurd (h.symm.trans hs) (by simp), fun _ => .inl ?_⟩ rfl
            rw [List.length_append] at hall
            simp only [counted, List.length_append, List.length_drop]
            omega

end Append

end RequestFields

namespace Live

variable {lower : Str → Str} {s : Live}

/-- The loop has nothing to do. -/
def Settled (lower : Str → Str) (s : Live) : Prop := s.1.settle lower s.2 = s

/-- A parser that reads lines is fed by running the loop on all the bytes. -/
lemma feed_of_readsLines (h : s.1.ReadsLines) (chunk : List UInt8) :
    s.feed lower chunk = s.1.settle lower (s.2 ++ chunk) := by
  unfold RequestFields.ReadsLines at h
  rw [feed, if_neg (by rcases h with h | h <;> simp [h]),
    if_neg (by rcases h with h | h <;> simp [h])]

/-- A parser in the body stores what it is fed. -/
lemma feed_of_body (h : s.1.state = .body) (chunk : List UInt8) :
    s.feed lower chunk = (s.1.absorbBodyBytes chunk, s.2) := by
  rw [feed, if_neg (by simp [h]), if_pos h]

/-- A parser at its end is not changed. -/
lemma feed_of_terminal (h : s.1.state = .done ∨ s.1.state = .error) (chunk : List UInt8) :
    s.feed lower chunk = s := by
  rw [feed, if_pos h]

/-- The three phases of a parser. -/
lemma phases (f : RequestFields) :
    f.ReadsLines ∨ f.state = .body ∨ f.state = .done ∨ f.state = .error := by
  unfold RequestFields.ReadsLines
  cases f.state <;> simp

/-- After feeding the loop has nothing to do. -/
lemma settled_feed (h : s.Settled lower) (chunk : List UInt8) :
    (s.feed lower chunk).Settled lower := by
  rcases phases s.1 with hlines | hbody | hend
  · rw [feed_of_readsLines hlines]
    exact settle_settle _ _
  · rw [feed_of_body hbody]
    apply settle_of_not_readsLines
    unfold RequestFields.ReadsLines
    rcases state_absorbBodyBytes hbody chunk with hs | hs <;> simp [hs]
  · rwa [feed_of_terminal hend]

/-- Feeding nothing changes nothing. -/
lemma feed_nil (h : s.Settled lower) : s.feed lower [] = s := by
  rcases phases s.1 with hlines | hbody | hend
  · rw [feed_of_readsLines hlines, List.append_nil]
    exact h
  · rw [feed_of_body hbody, absorbBodyBytes_nil]
  · exact feed_of_terminal hend []

/-- **Two chunks are fed like one.** -/
theorem feed_feed (lower : Str → Str) (a b : List UInt8) (hfree : s.1.Free (s.2 ++ (a ++ b))) :
    ((s.feed lower a).feed lower b).1 = (s.feed lower (a ++ b)).1 ∧
      (s.feed lower a).1.Free ((s.feed lower a).2 ++ b) := by
  rcases phases s.1 with hlines | hbody | hend
  · rw [← List.append_assoc] at hfree
    obtain ⟨heq, hfree'⟩ := settle_append lower hlines hfree
    rw [feed_of_readsLines hlines, feed_of_readsLines hlines, ← List.append_assoc]
    exact ⟨heq.symm, hfree'⟩
  · have hnot : ¬ (s.feed lower a).1.ReadsLines := by
      rw [feed_of_body hbody]
      unfold RequestFields.ReadsLines
      rcases state_absorbBodyBytes hbody a with hs | hs <;> simp [hs]
    refine ⟨?_, free_of_not_readsLines hnot⟩
    rw [feed_of_body hbody, feed_of_body hbody]
    exact feed_absorbBodyBytes hbody a b
  · have hnot : ¬ s.1.ReadsLines := by
      unfold RequestFields.ReadsLines
      rcases hend with hs | hs <;> simp [hs]
    rw [feed_of_terminal hend, feed_of_terminal hend, feed_of_terminal hend]
    exact ⟨rfl, free_of_not_readsLines hnot⟩

/-- All chunks are fed like one. -/
lemma foldl_feed (chunks : List (List UInt8)) (h : s.Settled lower)
    (hfree : s.1.Free (s.2 ++ chunks.flatten)) :
    (chunks.foldl (feed lower) s).1 = (s.feed lower chunks.flatten).1 := by
  induction chunks generalizing s with
  | nil =>
    rw [List.flatten_nil, feed_nil h]
    rfl
  | cons chunk chunks ih =>
    obtain ⟨heq, hfree'⟩ := feed_feed lower chunk chunks.flatten hfree
    rw [List.foldl_cons, List.flatten_cons, ih (settled_feed h chunk) hfree', heq]

/-- **Rule for feeding**: what every round of the loop and every byte of the body keep is kept. -/
lemma foldl_feed_induction {P : RequestFields → Prop}
    (hstep : ∀ f l progress g r, P f → f.stepLive lower l = (progress, g, r) → P g)
    (hbody : ∀ f chunk, P f → P (absorbBodyBytes f chunk))
    (chunks : List (List UInt8)) (h : P s.1) : P (chunks.foldl (feed lower) s).1 := by
  induction chunks generalizing s with
  | nil => exact h
  | cons chunk chunks ih =>
    apply ih
    rcases phases s.1 with hlines | hb | hend
    · rw [feed_of_readsLines hlines]
      exact settle_induction hstep _ _ h
    · rw [feed_of_body hb]
      exact hbody _ chunk h
    · rwa [feed_of_terminal hend]

end Live

/-! ## Runs -/

/-- What a run ends with. -/
structure Outcome where
  state : RequestParseState
  error : Option ErrorKind
  method : Str
  target : Str
  httpVersion : Str
  headers : CaseInsensitiveDict
  body : List UInt8
  deriving DecidableEq

/-- What can be seen of the parser. -/
def RequestFields.outcome (f : RequestFields) : Outcome where
  state := f.state
  error := f.error.map ServerError.kind
  method := f.method
  target := f.target
  httpVersion := f.httpVersion
  headers := f.headers
  body := f.body

/-- The parser accepts a request line. -/
def AcceptsRequestLine (line : List UInt8) : Prop :=
  ((RequestParser.new 0 0 0).parseRequestLine line).2.state = .headers

instance (line : List UInt8) : Decidable (AcceptsRequestLine line) :=
  inferInstanceAs (Decidable (_ = _))

/-- The streams that no cut can change: the request line is not exactly as long as its cap, and
behind a request line within the cap that is accepted either everything fits the cap of the headers
or not even the first line does. -/
structure CutFree (maxRequestLineBytes maxHeadersBytes : ℕ) (stream : List UInt8) : Prop where
  requestLine : findSlice CRLF stream ≠ some maxRequestLineBytes
  headers : ∀ i < maxRequestLineBytes, findSlice CRLF stream = some i →
    AcceptsRequestLine (stream.take i) →
      (stream.drop (i + 2)).length ≤ maxHeadersBytes ∨
        ∀ k, findSlice CRLF (stream.drop (i + 2)) = some k → maxHeadersBytes < k + 2

section Runs

variable {lower : Str → Str} {b r h : ℕ} {stream : List UInt8}

/-- Whether a request line is accepted does not depend on the parser. -/
lemma state_parseRequestLine (f : RequestFields) (line : List UInt8) :
    (f.parseRequestLine line).2.state = .headers ↔ AcceptsRequestLine line := by
  unfold AcceptsRequestLine parseRequestLine
  split
  · simp [fail]
  · split
    · split_ifs <;> simp [fail]
    · simp [fail]

/-- A new parser is settled. -/
lemma settled_new (lower : Str → Str) (b r h : ℕ) :
    (RequestParser.new b r h).abs.Settled lower := by
  apply settle_more
  rw [stepLive_requestLine lower rfl]
  rfl

/-- For a new parser, `Free` is `CutFree`. -/
lemma free_new_iff : (RequestParser.new b r h).toRequestFields.Free stream ↔ CutFree r h stream := by
  constructor
  · intro hfree
    obtain ⟨hline, hhead⟩ := hfree.1 rfl
    refine ⟨hline, fun i hi hfind hacc => ?_⟩
    have hstate := (state_parseRequestLine (RequestParser.new b r h).toRequestFields _).mpr hacc
    have := hhead i hi hfind hstate
    obtain ⟨_, _, _, hp⟩ := parseRequestLine_of_state hstate
    rw [hp] at this
    simpa [RequestFields.HeadersFree, RequestParser.new] using this
  · intro hfree
    refine ⟨fun _ => ⟨hfree.requestLine, fun i hi hfind hstate => ?_⟩, fun hs => by cases hs⟩
    have := hfree.headers i hi hfind ((state_parseRequestLine _ _).mp hstate)
    obtain ⟨_, _, _, hp⟩ := parseRequestLine_of_state hstate
    rw [hp]
    simpa [RequestFields.HeadersFree, RequestParser.new] using this

/-- A run over the chunks of a `CutFree` stream ends as the run over the whole stream. -/
lemma feedAll_of_cutFree (hfree : CutFree r h stream) {chunks : List (List UInt8)}
    (hchunks : chunks.flatten = stream) :
    ((RequestParser.new b r h).feedAll lower chunks).toRequestFields =
      ((RequestParser.new b r h).abs.feed lower stream).1 := by
  have hrun := Live.foldl_feed chunks (settled_new lower b r h)
    (by rw [hchunks]; exact free_new_iff.mpr hfree)
  rw [hchunks, ← abs_feedAll] at hrun
  exact hrun

variable {f g : RequestFields} {l t : List UInt8} {progress : Progress}

/-- What a step at the headers does to the state, the error and the headers: nothing, a failure, the
end of the headers, or one more header. -/
lemma stepHeaders_effect (hs : f.state = .headers)
    (hstep : f.stepHeaders lower l = (progress, g, t)) :
    g = f ∨ g = f.fail (headersTooLarge f.maxHeadersBytes) ∨
    (¬ g.ReadsLines ∧ ∃ e, g.error = some e ∧ (e.kind = .protocol ∨ e.kind = .oversized)) ∨
    (¬ g.ReadsLines ∧ g.error = f.error ∧ g.headers = f.headers) ∨
    (g.state = .headers ∧ g.error = f.error ∧ g.headers.entries ≠ []) := by
  rcases stepHeaders_cases lower f l with ⟨-, heq⟩ | ⟨-, ⟨-, heq⟩ | ⟨-, heq⟩ |
    ⟨i, -, heq⟩⟩
  · cases heq.symm.trans hstep
    exact .inr (.inl rfl)
  · cases heq.symm.trans hstep
    exact .inl rfl
  · have hnot := not_readsLines_stepBlankLine lower f (l.drop 2)
    obtain rfl : (f.stepBlankLine lower (l.drop 2)).1 = g := congrArg (·.2.1) (heq.symm.trans hstep)
    refine .inr (.inr ?_)
    rcases stepBlankLine_cases lower f with ⟨e, hkind, hblank⟩ | ⟨n, hblank⟩ |
      ⟨n, hblank⟩
    · refine .inl ⟨hnot, e, ?_, hkind⟩
      rw [hblank]
      rfl
    · refine .inr (.inl ⟨hnot, ?_⟩)
      rw [hblank]
      exact ⟨rfl, rfl⟩
    · refine .inr (.inl ⟨hnot, ?_⟩)
      rw [hblank]
      unfold absorbBodyBytes
      dsimp only
      split_ifs <;> exact ⟨rfl, rfl⟩
  · rcases parseHeaderLine_cases lower (f.counted (i + 3)) (l.take (i + 1)) with
      ⟨_, e, -, hp⟩ | ⟨_, _, hp⟩
    · rw [hp] at heq
      cases heq.symm.trans hstep
      exact .inr (.inr (.inl ⟨not_readsLines_fail _ _, _, rfl, .inl rfl⟩))
    · rw [hp] at heq
      cases heq.symm.trans hstep
      exact .inr (.inr (.inr (.inr ⟨hs, rfl, CaseInsensitiveDict.add_ne_nil _ _⟩)))

/-- The parser is past the request line, and has not refused it for its length. -/
def PastRequestLine (f : RequestFields) : Prop :=
  f.state ≠ .requestLine ∧ f.error.map ServerError.kind ≠ some .requestLineTooLarge

/-- A parser past the request line stays there. -/
lemma pastRequestLine_stepLive (hf : PastRequestLine f)
    (hstep : f.stepLive lower l = (progress, g, t)) : PastRequestLine g := by
  obtain ⟨hs, he⟩ := hf
  by_cases hlines : f.ReadsLines
  · have hs' : f.state = .headers := hlines.resolve_left hs
    rw [stepLive_headers lower hs'] at hstep
    rcases stepHeaders_effect hs' hstep with rfl | rfl | ⟨hnot, e, heq, hkind⟩ | ⟨hnot, heq, -⟩ |
      ⟨hs'', heq, -⟩
    · exact ⟨hs, he⟩
    · simp [PastRequestLine, fail, headersTooLarge, ServerError.kind]
    · refine ⟨fun h => hnot (.inl h), ?_⟩
      rw [heq]
      rcases hkind with hk | hk <;> simp [hk]
    · exact ⟨fun h => hnot (.inl h), heq ▸ he⟩
    · exact ⟨by simp [hs''], heq ▸ he⟩
  · rw [stepLive_of_not_readsLines lower l hlines] at hstep
    cases hstep
    exact ⟨hs, he⟩

/-- The parser shows that a header line was read: it is past the headers and has not refused them
for their length, or it has a header. -/
def HasReadLine (f : RequestFields) : Prop :=
  (¬ f.ReadsLines ∧ f.error.map ServerError.kind ≠ some .headersTooLarge) ∨ f.headers.entries ≠ []

/-- A header line that was read cannot be undone by a step. -/
lemma hasReadLine_stepLive (hf : HasReadLine f) (hstep : f.stepLive lower l = (progress, g, t)) :
    HasReadLine g := by
  by_cases hlines : f.ReadsLines
  · have hne : f.headers.entries ≠ [] := hf.resolve_left fun h => h.1 hlines
    rcases hlines with hs | hs
    · rw [stepLive_requestLine lower hs] at hstep
      rcases stepRequestLine_cases f l with ⟨-, -, heq⟩ | ⟨-, heq⟩ | ⟨i, -, -, heq⟩
      · cases heq.symm.trans hstep
        exact .inr hne
      · cases heq.symm.trans hstep
        exact .inr hne
      · rcases parseRequestLine_cases f (l.take i) with ⟨_, _, -, hp⟩ | ⟨_, _, _, hp⟩ <;>
        · rw [hp] at heq
          cases heq.symm.trans hstep
          exact .inr hne
    · rw [stepLive_headers lower hs] at hstep
      rcases stepHeaders_effect hs hstep with rfl | rfl | ⟨hnot, e, heq, hkind⟩ | ⟨-, -, heq⟩ |
        ⟨-, -, hne'⟩
      · exact .inr hne
      · exact .inr hne
      · refine .inl ⟨hnot, ?_⟩
        rw [heq]
        rcases hkind with hk | hk <;> simp [hk]
      · exact .inr (heq ▸ hne)
      · exact .inr hne'
  · rw [stepLive_of_not_readsLines lower l hlines] at hstep
    cases hstep
    exact hf

/-- Nor by bytes of the body. -/
lemma hasReadLine_absorbBodyBytes (hf : HasReadLine f) (chunk : List UInt8) :
    HasReadLine (f.absorbBodyBytes chunk) := by
  unfold absorbBodyBytes
  dsimp only
  split_ifs
  · exact hf
  · exact hf.imp_left fun h => ⟨by simp [RequestFields.ReadsLines], h.2⟩
  · exact hf

/-- The run of a new parser on live bytes. -/
lemma feedAll_new (chunk : List UInt8) (chunks : List (List UInt8)) :
    ((RequestParser.new b r h).feedAll lower (chunk :: chunks)).toRequestFields =
      (chunks.foldl (Live.feed lower)
        ((RequestParser.new b r h).toRequestFields.settle lower chunk)).1 := by
  have hrun := abs_feedAll lower (RequestParser.new b r h) (chunk :: chunks)
  have hnew : (RequestParser.new b r h).abs = ((RequestParser.new b r h).toRequestFields, []) := rfl
  rw [List.foldl_cons, hnew, Live.feed_of_readsLines (.inl rfl), List.nil_append] at hrun
  exact congrArg Prod.fst hrun

/-- A new parser that finds a request line within the cap reads it. -/
lemma stepLive_new (lower : Str → Str) {i : ℕ} (hi : i ≤ r) (hfind : findSlice CRLF l = some i) :
    (RequestParser.new b r h).toRequestFields.stepLive lower l =
      (((RequestParser.new b r h).parseRequestLine (l.take i)).1,
        ((RequestParser.new b r h).parseRequestLine (l.take i)).2, l.drop (i + 2)) := by
  rw [stepLive_requestLine lower rfl]
  rcases stepRequestLine_cases (RequestParser.new b r h).toRequestFields l with
    ⟨hnone, -⟩ | ⟨⟨hnone, -⟩ | ⟨j, hj, hlt⟩, -⟩ | ⟨j, -, hj, heq⟩
  · rw [hfind] at hnone
    cases hnone
  · rw [hfind] at hnone
    cases hnone
  · rw [hfind] at hj
    cases hj
    exact absurd hlt (by simp [RequestParser.new]; omega)
  · rw [hfind] at hj
    cases hj
    exact heq

/-- A request line exactly as long as the cap is not refused for its length when it comes whole, and
is refused when its last byte comes later. -/
lemma exists_cut_of_requestLine (hfind : findSlice CRLF stream = some r) :
    ((RequestParser.new b r h).feedAll lower [stream]).outcome ≠
      ((RequestParser.new b r h).feedAll lower
        [stream.take (r + 1), stream.drop (r + 1)]).outcome := by
  have hcrlf : CRLF.length = 2 := rfl
  have hle := findSlice_le hfind
  -- the whole stream
  have hwhole : PastRequestLine ((RequestParser.new b r h).feedAll lower [stream]).toRequestFields := by
    rw [feedAll_new, List.foldl_nil]
    have hstep := stepLive_new lower (b := b) (h := h) le_rfl hfind
    rcases parseRequestLine_cases (RequestParser.new b r h).toRequestFields
      (stream.take r) with ⟨_, e, hm, hp⟩ | ⟨_, _, _, hp⟩
    · rw [hp] at hstep
      rw [settle_failed hstep hm]
      simp [PastRequestLine, fail, ServerError.kind]
    · rw [hp] at hstep
      rw [settle_next hstep]
      refine settle_induction (P := PastRequestLine)
        (fun f l progress g t => pastRequestLine_stepLive) _ _ ?_
      simp [PastRequestLine, RequestParser.new]
  -- the stream without the last byte of the line
  have hcut : ((RequestParser.new b r h).feedAll lower
      [stream.take (r + 1), stream.drop (r + 1)]).error = some (requestLineTooLarge r) := by
    have hnone := findSlice_take_eq_none (n := r + 1) hfind (by omega)
    have hstep : (RequestParser.new b r h).toRequestFields.stepLive lower (stream.take (r + 1)) =
        (.next, (RequestParser.new b r h).fail (requestLineTooLarge r), stream.take (r + 1)) := by
      rw [stepLive_requestLine lower rfl, stepRequestLine, hnone]
      dsimp only
      rw [if_pos (by simp [RequestParser.new]; omega)]
      rfl
    rw [feedAll_new, List.foldl_cons, List.foldl_nil, settle_failed hstep (by simp), feed_fail]
    rfl
  intro heq
  have herr := congrArg Outcome.error heq
  simp only [outcome, hcut] at herr
  exact hwhole.2 herr

/-- Headers of which the first line fits the cap but not all that comes with it are refused when
they come whole, and are not, or not before a header is read, when the first line comes alone. -/
lemma exists_cut_of_headers {i k : ℕ} (hi : i < r) (hfind : findSlice CRLF stream = some i)
    (hacc : AcceptsRequestLine (stream.take i)) (hlong : h < (stream.drop (i + 2)).length)
    (hk : findSlice CRLF (stream.drop (i + 2)) = some k) (hfit : k + 2 ≤ h) :
    ((RequestParser.new b r h).feedAll lower [stream]).outcome ≠
      ((RequestParser.new b r h).feedAll lower
        [stream.take (i + 2 + (k + 2)), stream.drop (i + 2 + (k + 2))]).outcome := by
  have hcrlf : CRLF.length = 2 := rfl
  have hle := findSlice_le hk
  -- the parser behind the request line
  obtain ⟨f, hf, hp⟩ : ∃ f : RequestFields, (f.state = .headers ∧ f.headersBytes = 0 ∧
      f.maxHeadersBytes = h ∧ f.headers.entries = [] ∧ f.error = none) ∧
      (RequestParser.new b r h).parseRequestLine (stream.take i) = (.next, f) := by
    have hstate := (state_parseRequestLine (RequestParser.new b r h).toRequestFields _).mpr hacc
    obtain ⟨_, _, _, hp⟩ := parseRequestLine_of_state hstate
    exact ⟨_, ⟨rfl, rfl, rfl, rfl, rfl⟩, hp⟩
  obtain ⟨hs, hbytes, hcap, hempty, hnoerr⟩ := hf
  -- the whole stream
  have hwhole : ((RequestParser.new b r h).feedAll lower [stream]).toRequestFields =
      f.fail (headersTooLarge h) := by
    have hstep := stepLive_new lower (b := b) (h := h) hi.le hfind
    rw [hp] at hstep
    have hover : f.stepLive lower (stream.drop (i + 2)) =
        (.next, f.fail (headersTooLarge h), stream.drop (i + 2)) := by
      rw [stepLive_headers lower hs]
      rcases stepHeaders_cases lower f (stream.drop (i + 2)) with ⟨-, heq⟩ | ⟨hno, -⟩
      · rw [heq, hcap]
      · omega
    rw [feedAll_new, List.foldl_nil, settle_next hstep, settle_failed hover (by simp)]
  -- the first header line alone
  have hcut : HasReadLine ((RequestParser.new b r h).feedAll lower
      [stream.take (i + 2 + (k + 2)), stream.drop (i + 2 + (k + 2))]).toRequestFields := by
    have hfind' := findSlice_take (n := i + 2 + (k + 2)) hfind (by omega)
    have hstep := stepLive_new lower (b := b) (h := h) hi.le hfind'
    have htake : (stream.take (i + 2 + (k + 2))).take i = stream.take i := by
      rw [List.take_take, Nat.min_eq_left (by omega)]
    have hdrop : (stream.take (i + 2 + (k + 2))).drop (i + 2) =
        (stream.drop (i + 2)).take (k + 2) := by
      rw [List.drop_take, show i + 2 + (k + 2) - (i + 2) = k + 2 by omega]
    rw [htake, hdrop, hp] at hstep
    rw [feedAll_new, settle_next hstep]
    refine Live.foldl_feed_induction (P := HasReadLine)
      (fun f l progress g t => hasReadLine_stepLive)
      (fun f chunk hf => hasReadLine_absorbBodyBytes hf chunk) _ ?_
    have hline := findSlice_take (n := k + 2) hk (by omega)
    have hlen : ((stream.drop (i + 2)).take (k + 2)).length = k + 2 := by
      rw [List.length_take]
      omega
    have hwithin : f.headersBytes + ((stream.drop (i + 2)).take (k + 2)).length ≤
        f.maxHeadersBytes := by omega
    have hlower := stepLive_headers lower
      (l := (stream.drop (i + 2)).take (k + 2)) hs
    cases k with
    | zero =>
      rw [stepHeaders_blank hwithin hline] at hlower
      rw [settle_blankLine hlower]
      rcases stepBlankLine_cases lower f with ⟨e, hkind, hblank⟩ | ⟨n, hblank⟩ |
        ⟨n, hblank⟩
      · rw [hblank]
        refine .inl ⟨not_readsLines_fail _ _, ?_⟩
        rcases hkind with hk | hk <;> simp [fail, hk]
      · rw [hblank]
        exact .inl ⟨by simp [RequestFields.ReadsLines], by simp [counted, hnoerr]⟩
      · rw [hblank]
        dsimp only
        apply hasReadLine_absorbBodyBytes
        exact .inl ⟨by simp [RequestFields.ReadsLines], by simp [counted, hnoerr]⟩
    | succ j =>
      rw [stepHeaders_line hwithin hline] at hlower
      rcases parseHeaderLine_cases lower (f.counted (j + 3))
        (((stream.drop (i + 2)).take (j + 1 + 2)).take (j + 1)) with ⟨_, e, hm, hp'⟩ | ⟨_, _, hp'⟩
      · rw [hp'] at hlower
        rw [settle_failed hlower hm]
        exact .inl ⟨not_readsLines_fail _ _, by simp [fail, ServerError.kind]⟩
      · rw [hp'] at hlower
        rw [settle_next hlower]
        exact settle_induction (P := HasReadLine)
          (fun f l progress g t => hasReadLine_stepLive) _ _
          (.inr (CaseInsensitiveDict.add_ne_nil _ _))
  intro heq
  rw [hwhole] at heq
  have herr := congrArg Outcome.error heq
  have hhead := congrArg Outcome.headers heq
  simp only [outcome, fail, headersTooLarge, Option.map_some,
    ServerError.kind] at herr hhead
  rcases hcut with ⟨-, hne⟩ | hne
  · exact hne herr.symm
  · rw [← hhead] at hne
    exact hne hempty

/-- **A request is read alike in every cut if and only if its stream is `CutFree`.** -/
theorem request_cut_free_iff (lower : Str → Str)
    (maxBodyBytes maxRequestLineBytes maxHeadersBytes : ℕ) (stream : List UInt8) :
    (∀ chunks chunks' : List (List UInt8), chunks.flatten = stream → chunks'.flatten = stream →
      ((RequestParser.new maxBodyBytes maxRequestLineBytes maxHeadersBytes).feedAll lower
        chunks).outcome =
      ((RequestParser.new maxBodyBytes maxRequestLineBytes maxHeadersBytes).feedAll lower
        chunks').outcome) ↔
    CutFree maxRequestLineBytes maxHeadersBytes stream := by
  constructor
  · intro hall
    refine ⟨fun hfind => ?_, fun i hi hfind hacc => ?_⟩
    · exact exists_cut_of_requestLine hfind (hall _ _ (by simp) (by simp))
    · by_contra hbad
      push Not at hbad
      obtain ⟨hlong, k, hk, hfit⟩ := hbad
      exact exists_cut_of_headers hi hfind hacc hlong hk hfit (hall _ _ (by simp) (by simp))
  · intro hfree chunks chunks' h h'
    rw [outcome, outcome, feedAll_of_cutFree hfree h,
      feedAll_of_cutFree hfree h']

/-- A request with a body whose headers fit the cap exactly: alone they are read, and with the body
behind them in one chunk they are refused. -/
theorem request_cut_body :
    ((RequestParser.new 16 64 21).feedAll lowerAscii
      ["P / HTTP/1.1\r\nContent-Length: 2\r\n\r\nhi".toList.map asciiByte]).outcome ≠
    ((RequestParser.new 16 64 21).feedAll lowerAscii
      ["P / HTTP/1.1\r\nContent-Length: 2\r\n\r\n".toList.map asciiByte,
        "hi".toList.map asciiByte]).outcome := by
  decide +kernel

end Runs

end ChuMicro.HttpServer
