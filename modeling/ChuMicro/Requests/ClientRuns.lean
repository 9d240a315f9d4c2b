import ChuMicro.Requests.Client

/-!
# Requests from start to end

What a client keeps, over every run of its calls and whatever the outside answers.

Between two calls a client is idle or busy with one request. Idle, it holds no connector, no socket
and no handle; every handle it has returned is done, was completed once and called its callback
once. Busy, it holds the handle of the request, which is not done, and the one transport that is not
released. Only a request whose window cannot be allocated breaks this: it leaves the client idle
with a connector. Within a call there are two more states: a request that is over, whose callback
has not been called yet, and a redirect between its two hops.

## Main definitions

* `Requests.Idle`, `Requests.Busy`, `Requests.Over`, `Requests.Hopping` — the four states.
* `Requests.Reaches`, `Requests.AllocReaches` — the runs.
* `Requests.Chained` — what the hops of a request send.

## Main results

* `Requests.request_lifecycle` — handles are completed once, and the client holds nothing when it is
  idle.
* `Requests.connector_kept` — a window that cannot be allocated leaves it with a connector.
* `Requests.redirects_preserve_iff` — hops repeat the method and the body of the hop before them if
  and only if no preserving redirect follows a switching one, or the request is a GET without a
  body.
-/

namespace ChuMicro.Requests

open Prog Buffers

/-! ## Parsers at their end -/

/-- A parser that is past the headers has them. -/
def ResponseFields.PastHeaders (f : ResponseFields) : Prop :=
  f.headersComplete = true ∨ f.state = .status ∨ f.state = .headers ∨ f.state = .error

namespace ResponseFields

variable {f : ResponseFields}

lemma PastHeaders.fail (f : ResponseFields) (e : HttpError) : (f.fail e).PastHeaders :=
  .inr (.inr (.inr rfl))

lemma pastHeaders_parseStatusLine (f : ResponseFields) (text : Str) :
    (f.parseStatusLine text).PastHeaders := by
  unfold parseStatusLine
  split
  · split_ifs
    · split
      · exact .fail _ _
      · exact .inr (.inr (.inl rfl))
    · exact .fail _ _
  · exact .fail _ _

lemma pastHeaders_parseHeaderLine (lower : Str → Str) (h : f.PastHeaders) (text : Str) :
    (f.parseHeaderLine lower text).PastHeaders := by
  unfold parseHeaderLine
  split
  · exact .fail _ _
  · exact h

lemma pastHeaders_frameBody (lower : Str → Str) (f : ResponseFields) :
    (f.frameBody lower).PastHeaders := by
  unfold frameBody
  dsimp only
  split_ifs
  · exact .inr (.inl rfl)
  · exact .inl rfl
  · split
    · split_ifs
      · exact .fail _ _
      · exact .inl rfl
    · split
      · split
        · exact .fail _ _
        · split_ifs
          · exact .fail _ _
          · exact .fail _ _
          all_goals exact .inl rfl
      · exact .inl rfl

/-- Absorbing and reading chunk sizes keep the headers. -/
lemma headersComplete_absorbBodyChunk (f : ResponseFields) (chunk : List UInt8) :
    (f.absorbBodyChunk chunk).headersComplete = f.headersComplete := by
  unfold absorbBodyChunk
  dsimp only
  split_ifs <;> rfl

@[inherit_doc headersComplete_absorbBodyChunk]
lemma headersComplete_absorbBodyBytes (f : ResponseFields) (chunk : List UInt8) :
    (f.absorbBodyBytes chunk).headersComplete = f.headersComplete := by
  unfold absorbBodyBytes
  split
  · rfl
  · dsimp only
    split_ifs
    · exact headersComplete_absorbBodyChunk f _
    · exact headersComplete_absorbBodyChunk f _
  · split_ifs
    · rfl
    · exact headersComplete_absorbBodyChunk f _

@[inherit_doc headersComplete_absorbBodyChunk]
lemma headersComplete_parseChunkSize (f : ResponseFields) (text : Str) :
    (f.parseChunkSize text).headersComplete = f.headersComplete := by
  unfold parseChunkSize
  dsimp only
  split_ifs
  · rfl
  · split
    · rfl
    · split_ifs <;> rfl

end ResponseFields

open ResponseFields

namespace ResponseParser

variable {p : ResponseParser} {lower : Str → Str}

/-- A line keeps what its reader keeps. -/
lemma pastHeaders_takeAsciiLine (h : p.PastHeaders) (label : String)
    {use : ResponseParser → Str → ResponseParser}
    (huse : ∀ q text, q.toResponseFields = p.toResponseFields → (use q text).PastHeaders) :
    (p.takeAsciiLine label use).2.PastHeaders := by
  unfold takeAsciiLine
  split
  · exact h
  · dsimp only
    split
    · exact huse _ _ rfl
    · exact .fail _ _

lemma pastHeaders_enterBodyState (lower : Str → Str) (p : ResponseParser) :
    (p.enterBodyState lower).PastHeaders := by
  have hframe : (p.withFields (p.frameBody lower)).PastHeaders :=
    pastHeaders_frameBody lower p.toResponseFields
  unfold enterBodyState absorbTrailingBytes
  dsimp only
  split_ifs with hbody hlen
  · exact hframe
  · refine .inl ((headersComplete_absorbBodyBytes _ _).trans ?_)
    rcases hframe with h | h | h | h
    · exact h
    all_goals
      rw [h] at hbody
      cases hbody
  · exact hframe

/-- The end of a chunk keeps the headers. -/
lemma headersComplete_endChunk (p : ResponseParser) :
    (p.endChunk).2.headersComplete = p.headersComplete := by
  unfold endChunk
  split_ifs
  · rfl
  · dsimp only
    split_ifs <;> rfl

lemma headersComplete_tryConsumeChunkData (p : ResponseParser) :
    (p.tryConsumeChunkData).2.headersComplete = p.headersComplete := by
  unfold tryConsumeChunkData
  dsimp only
  split_ifs
  · rfl
  · exact headersComplete_absorbBodyChunk _ _
  · rw [headersComplete_endChunk]
    exact headersComplete_absorbBodyChunk _ _
  · exact headersComplete_endChunk p

/-- A step keeps the headers once they are there. -/
lemma pastHeaders_step (h : p.PastHeaders) : (p.step lower).2.PastHeaders := by
  have hlate : p.state ≠ .status → p.state ≠ .headers → p.state ≠ .error →
      p.headersComplete = true := by
    intro h₁ h₂ h₃
    rcases h with h | h | h | h
    · exact h
    · exact absurd h h₁
    · exact absurd h h₂
    · exact absurd h h₃
  unfold step
  cases hs : p.state with
  | status =>
    exact pastHeaders_takeAsciiLine h _ fun q text _ =>
      pastHeaders_parseStatusLine q.toResponseFields text
  | headers =>
    refine pastHeaders_takeAsciiLine h _ fun q text hq => ?_
    split_ifs
    · exact pastHeaders_enterBodyState lower q
    · have hq' : q.toResponseFields.PastHeaders := by
        rw [hq]
        exact h
      exact pastHeaders_parseHeaderLine lower hq' text
  | chunkSize =>
    have hc := hlate (by simp [hs]) (by simp [hs]) (by simp [hs])
    refine pastHeaders_takeAsciiLine h _ fun q text hq => .inl ?_
    refine (headersComplete_parseChunkSize q.toResponseFields text).trans ?_
    rw [hq]
    exact hc
  | chunkData =>
    have hc := hlate (by simp [hs]) (by simp [hs]) (by simp [hs])
    exact .inl ((headersComplete_tryConsumeChunkData p).trans hc)
  | chunkTrailer =>
    have hc := hlate (by simp [hs]) (by simp [hs]) (by simp [hs])
    dsimp only
    unfold tryParseChunkTrailer
    split
    · exact h
    · exact .inl hc
    · exact .inl hc
  | body => exact h
  | done => exact h
  | error => exact h

lemma pastHeaders_advanceLoop (h : p.PastHeaders) (rounds : ℕ) :
    (p.advanceLoop lower rounds).PastHeaders := by
  induction rounds generalizing p with
  | zero => exact h
  | succ rounds ih =>
    have hstep := @pastHeaders_step p lower h
    rcases hp : p.step lower with ⟨_ | _, q⟩
    · rw [hp] at hstep
      rw [advanceLoop, hp]
      exact hstep
    · rw [hp] at hstep
      rw [advanceLoop, hp]
      exact ih hstep

/-- Feeding keeps the headers once they are there. -/
lemma pastHeaders_feed (h : p.PastHeaders) (chunk : List UInt8) :
    (p.feed lower chunk).PastHeaders := by
  unfold feed
  split_ifs with hend hnil hbody hcap
  · exact h
  · exact pastHeaders_advanceLoop h _
  · refine pastHeaders_advanceLoop (.inl ?_) _
    refine (headersComplete_absorbBodyBytes p.toResponseFields chunk).trans ?_
    rcases h with h | h | h | h
    · exact h
    all_goals
      rw [h] at hbody
      cases hbody
  · exact .fail _ _
  · exact pastHeaders_advanceLoop (by exact h) _

/-- The end of the stream keeps the headers once they are there. -/
lemma pastHeaders_feedEof (h : p.PastHeaders) : p.feedEof.PastHeaders := by
  unfold feedEof
  split
  · exact h
  · exact h
  · next hbody =>
    split
    · rcases h with h | h | h | h
      · exact .inl h
      all_goals
        rw [h] at hbody
        cases hbody
    · exact .fail _ _
    · exact .fail _ _
  · exact .fail _ _
  · exact .fail _ _
  · exact .fail _ _
  · exact .fail _ _

end ResponseParser

/-! ## Handles -/

/-- What a redirected hop sends: after a preserving redirect what the first hop has sent, after any
other a GET without a body. -/
def RepeatsFirst (first hop : Hop) : Prop :=
  hop.status.getD 0 ∈ REDIRECT_STATUS_CODES ∧
    (hop.method, hop.body) =
      if hop.status.getD 0 ∈ METHOD_PRESERVING_REDIRECT_STATUS_CODES then (first.method, first.body)
      else ("GET".toList, none)

/-- The hops of a request. -/
def Chained : List Hop → Prop
  | [] => True
  | first :: rest => ∀ hop ∈ rest, RepeatsFirst first hop

/-- One more hop. -/
lemma Chained.append {hops : List Hop} {hop : Hop} (h : Chained hops)
    (hhop : ∀ first ∈ hops.head?, RepeatsFirst first hop) : Chained (hops ++ [hop]) := by
  cases hops with
  | nil => simp [Chained]
  | cons first rest =>
    intro other hmem
    rcases List.mem_append.mp hmem with hmem | hmem
    · exact h other hmem
    · rw [List.mem_singleton.mp hmem]
      exact hhop first rfl

/-- What is true of a handle at all times: it has had no more transports than redirects allow, all
its hops had one deadline, and they are chained. -/
structure RequestHandle.Bounded (h : RequestHandle) : Prop where
  transports_le : h.transports ≤ 1 + h.maxRedirects.toNat
  deadlines_eq : ∀ d ∈ h.deadlines, d = some h.deadline
  chained : Chained h.hops

/-- A handle whose request is over and whose callback has been called. -/
structure RequestHandle.Finished (h : RequestHandle) : Prop where
  done_eq : h.done = true
  completions_eq : h.completions = 1
  calls_eq : h.calls = if h.hasOnDone then 1 else 0

/-- A handle that the client has nothing to do with any more. One that `request` has not returned is
nobody's. -/
structure RequestHandle.Settled (h : RequestHandle) : Prop where
  bounded : h.Bounded
  finished : h.returned = true → h.Finished

/-- The handle of a request in flight. There is room for `slack` more transports than the redirects
that remain. -/
structure Pending (s : HttpClient) (slack : ℕ) (h : RequestHandle) : Prop where
  done_eq : h.done = false
  completions_eq : h.completions = 0
  calls_eq : h.calls = 0
  deadline_eq : s.deadlineTicks = some h.deadline
  room : h.transports + s.redirectsRemaining.toNat + slack ≤ 1 + h.maxRedirects.toNat
  deadlines_eq : ∀ d ∈ h.deadlines, d = some h.deadline
  chained : Chained h.hops
  original_eq : ∀ first ∈ h.hops.head?, s.original.method = some first.method ∧
    (0 < s.redirectsRemaining → s.original.body = first.body)

lemma Pending.bounded {s : HttpClient} {slack : ℕ} {h : RequestHandle} (hp : Pending s slack h) :
    h.Bounded where
  transports_le := by
    have := hp.room
    omega
  deadlines_eq := hp.deadlines_eq
  chained := hp.chained

/-! ## Clients -/

/-- Only the connector or the socket of the client is not released. -/
def Released (s : HttpClient) : Prop :=
  ∀ j t, s.transports[j]? = some t → t ≠ .released → s.connector = some j ∨ s.socket = some j

/-- A client that holds the handle `i` of a request in flight. If it is `clean`, no transport was
lost. -/
structure Held (clean : Prop) (s : HttpClient) (i slack : ℕ) : Prop where
  handle_eq : s.handle = some i
  current : ∃ h, s.handles[i]? = some h ∧ Pending s slack h
  others : ∀ j h, s.handles[j]? = some h → j ≠ i → h.Settled
  released : clean → Released s
  completed_eq : s.completedHandle = none

/-- The client has a parser. -/
def HasParser (s : HttpClient) : Prop :=
  ∃ k p, s.parser = some k ∧ s.parsers[k]? = some p ∧ p.PastHeaders

/-- A client between two calls, with a request in flight. -/
structure Busy (clean : Prop) (s : HttpClient) (i : ℕ) : Prop where
  held : Held clean s i 0
  started : ∀ h, s.handles[i]? = some h → h.hops ≠ []
  parser : HasParser s
  shape : (s.state = .awaitingTransport ∧ s.connector.isSome ∧ s.socket = none) ∨
    ((s.state = .sending ∨ s.state = .receiving) ∧ s.connector = none ∧ s.socket.isSome)

/-- A client that holds nothing, unless it is not `clean`: then it may hold a connector. -/
structure Empty (clean : Prop) (s : HttpClient) : Prop where
  state_eq : s.state = .idle
  connector_eq : clean → s.connector = none
  socket_eq : s.socket = none
  parser_eq : s.parser = none
  released : clean → ∀ t ∈ s.transports, t = .released

/-- A redirect between its hops. -/
structure Hopping (clean : Prop) (s : HttpClient) (i slack : ℕ) : Prop where
  held : Held clean s i slack
  empty : Empty clean s

/-- A client between two calls, without a request. -/
structure Idle (clean : Prop) (s : HttpClient) : Prop where
  empty : Empty clean s
  handle_eq : s.handle = none
  completed_eq : s.completedHandle = none
  settled : ∀ h ∈ s.handles, h.Settled

/-- A client that is done with the request of the handle `i` and has not called its callback yet. -/
structure Over (clean : Prop) (s : HttpClient) (i : ℕ) : Prop where
  empty : Empty clean s
  handle_eq : s.handle = none
  completed_eq : s.completedHandle = some i
  current : ∃ h, s.handles[i]? = some h ∧ h.Bounded ∧ h.done = true ∧ h.completions = 1 ∧ h.calls = 0
  others : ∀ j h, s.handles[j]? = some h → j ≠ i → h.Settled

open Transport

section Runs

variable {clean : Prop} {env : Env} {s : HttpClient} {i slack : ℕ}

/-- Closing what the client holds leaves it empty. -/
lemma empty_close (h : clean → Released s) (t : HttpClient)
    (ht : t.transports =
      put (put s.transports s.connector .released) s.socket .released)
    (hstate : t.state = .idle) (hconn : t.connector = none) (hsock : t.socket = none)
    (hparser : t.parser = none) : Empty clean t := by
  refine ⟨hstate, fun _ => hconn, hsock, hparser, fun hclean u hu => ?_⟩
  obtain ⟨j, hj⟩ := List.mem_iff_getElem?.mp hu
  by_contra hne
  -- what is not released was so before, and is then named by the connector or by the socket
  have hput : ∀ (l : List Transport) (index : Option ℕ),
      (put l index .released)[j]? = some u → l[j]? = some u ∧ index ≠ some j := by
    intro l index hl
    cases index with
    | none => exact ⟨hl, by simp⟩
    | some k =>
      rw [put, List.getElem?_set] at hl
      by_cases hk : k = j
      · rw [if_pos hk] at hl
        split_ifs at hl
        cases hl
        exact absurd rfl hne
      · rw [if_neg hk] at hl
        exact ⟨hl, by simp [hk]⟩
  rw [ht] at hj
  obtain ⟨hj, hsock'⟩ := hput _ _ hj
  obtain ⟨hj, hconn'⟩ := hput _ _ hj
  rcases h hclean j u hj hne with hc | hc
  · exact hconn' hc
  · exact hsock' hc

/-- A change of a handle that completes it. -/
structure Completes (f : RequestHandle → RequestHandle) : Prop where
  done_eq : ∀ h, (f h).done = true
  completions_eq : ∀ h, (f h).completions = h.completions + 1
  rest_eq : ∀ h, ((f h).calls, (f h).transports, (f h).maxRedirects, (f h).deadline, (f h).deadlines,
    (f h).hops) = (h.calls, h.transports, h.maxRedirects, h.deadline, h.deadlines, h.hops)

/-- What is told about a handle does not change with its other fields. -/
lemma RequestHandle.Bounded.of_eq {h g : RequestHandle} (hb : h.Bounded)
    (heq : (g.transports, g.maxRedirects, g.deadline, g.deadlines, g.hops) =
      (h.transports, h.maxRedirects, h.deadline, h.deadlines, h.hops)) : g.Bounded := by
  simp only [Prod.mk.injEq] at heq
  obtain ⟨h₁, h₂, h₃, h₄, h₅⟩ := heq
  refine ⟨?_, ?_, ?_⟩
  · rw [h₁, h₂]
    exact hb.transports_le
  · rw [h₃, h₄]
    exact hb.deadlines_eq
  · rw [h₅]
    exact hb.chained

/-- **The request is over** once its handle is completed and the socket is reset. -/
lemma over_complete {f : RequestHandle → RequestHandle} (hf : Completes f) (h : Held clean s i slack) :
    wp (do modifyCurrent f; resetSocket) (fun _ t => Over clean t i) (fun _ _ => False) s := by
  unfold modifyCurrent modifyHandle resetSocket closeSocketOnly
  simp only [wp_bind, wp_get, h.handle_eq, wp_modify]
  obtain ⟨g, hg, hp⟩ := h.current
  have hrest := hf.rest_eq g
  simp only [Prod.mk.injEq] at hrest
  obtain ⟨hcalls, hb⟩ := hrest
  refine ⟨?_, rfl, by simp, ⟨f g, ?_, ?_, hf.done_eq g, ?_, ?_⟩, ?_⟩
  · exact empty_close h.released _ rfl rfl rfl rfl rfl
  · simp [hg]
  · exact hp.bounded.of_eq (by simpa only [Prod.mk.injEq] using hb)
  · rw [hf.completions_eq, hp.completions_eq]
  · rw [hcalls, hp.calls_eq]
  · intro j k hk hj
    refine h.others j k ?_ hj
    simpa [List.getElem?_modify, Ne.symm hj] using hk

lemma completes_setError (error : HttpError) : Completes fun h =>
    { h with error := some error, done := true, completions := h.completions + 1 } :=
  ⟨fun _ => rfl, fun _ => rfl, fun _ => rfl⟩

lemma completes_setResponse (response : Response) : Completes fun h =>
    { h with response := some response, done := true, completions := h.completions + 1 } :=
  ⟨fun _ => rfl, fun _ => rfl, fun _ => rfl⟩

variable {k : ℕ} {p : ResponseParser} {t : HttpClient} {status : Option ℤ}

/-- The parser of a client that has one. -/
lemma wp_currentParser {Q : ResponseParser → HttpClient → Prop} {E : HttpError → HttpClient → Prop}
    (hk : s.parser = some k) (hp : s.parsers[k]? = some p) : wp currentParser Q E s ↔ Q p s := by
  unfold currentParser
  simp [hk, hp]

/-- A request that fails is over. -/
lemma over_failRequest (h : Held clean s i slack) (error : HttpError) :
    wp (failRequest error) (fun _ t => Over clean t i) (fun _ _ => False) s := by
  unfold failRequest
  rw [wp_bind, wp_get]
  have hsome : s.handle.isSome = true := by simp [h.handle_eq]
  simp only [hsome, when, if_true]
  exact over_complete (completes_setError error) h

/-- A failure other than an oversized body ends the request. -/
lemma over_fail (h : Held clean s i slack) {error : HttpError}
    (hne : ∀ message length, error ≠ .oversizedError message length) :
    wp (fail env error) (fun _ t => Over clean t i) (fun _ _ => False) s := by
  unfold fail
  rw [wp_bind, wp_get]
  split
  · next message length _ => exact absurd rfl (hne message length)
  · next message length _ => exact absurd rfl (hne message length)
  · exact over_failRequest h _

/-- An oversized body that is dropped ends the request. -/
lemma over_completeOversizedDrop (h : Held clean s i slack) (hparser : HasParser s) :
    wp completeOversizedDrop (fun _ t => Over clean t i) (fun _ _ => False) s := by
  obtain ⟨k, p, hk, hp, -⟩ := hparser
  unfold completeOversizedDrop
  rw [wp_bind, wp_currentParser hk hp, wp_bind, wp_get]
  exact over_complete (completes_setResponse _) h

/-- The fields that a request in flight depends on. -/
lemma Held.of_eq (h : Held clean s i slack)
    (heq : (t.connector, t.socket, t.handle, t.completedHandle, t.deadlineTicks, t.redirectsRemaining,
      t.original, t.handles, t.transports) =
      (s.connector, s.socket, s.handle, s.completedHandle, s.deadlineTicks, s.redirectsRemaining,
        s.original, s.handles, s.transports)) : Held clean t i slack := by
  simp only [Prod.mk.injEq] at heq
  obtain ⟨h₁, h₂, h₃, h₄, h₅, h₆, h₇, h₈, h₉⟩ := heq
  obtain ⟨g, hg, hp⟩ := h.current
  refine ⟨h₃.trans h.handle_eq, ⟨g, by rw [h₈, hg], ?_⟩, ?_, ?_, h₄.trans h.completed_eq⟩
  · exact ⟨hp.done_eq, hp.completions_eq, hp.calls_eq, h₅.trans hp.deadline_eq,
      by rw [h₆]; exact hp.room, hp.deadlines_eq, hp.chained, by rw [h₆, h₇]; exact hp.original_eq⟩
  · rw [h₈]
    exact h.others
  · unfold Released
    rw [h₁, h₂, h₉]
    exact h.released

@[inherit_doc Held.of_eq]
lemma Busy.of_eq (h : Busy clean s i) (hstate : t.state = s.state)
    (heq : (t.connector, t.socket, t.handle, t.completedHandle, t.deadlineTicks, t.redirectsRemaining,
      t.original, t.handles, t.transports) =
      (s.connector, s.socket, s.handle, s.completedHandle, s.deadlineTicks, s.redirectsRemaining,
        s.original, s.handles, s.transports)) (hparser : HasParser t) : Busy clean t i := by
  have hheld := h.held.of_eq heq
  simp only [Prod.mk.injEq] at heq
  obtain ⟨h₁, h₂, -, -, -, -, -, h₈, -⟩ := heq
  refine ⟨hheld, by rw [h₈]; exact h.started, hparser, ?_⟩
  rw [hstate, h₁, h₂]
  exact h.shape

/-- **A failure ends the request**, unless the callback for oversized bodies raises: then the
request stays in flight. -/
lemma busy_fail (h : Busy clean s i) (error : HttpError) :
    wp (fail env error) (fun _ t => Over clean t i) (fun _ t => Busy clean t i) s := by
  unfold fail
  rw [wp_bind, wp_get]
  split
  · exact wp_mono (over_completeOversizedDrop h.held h.parser) (fun _ _ ht => ht)
      fun _ _ ht => ht.elim
  · unfold fireOversized
    simp only [wp_bind, wp_get, wp_modify]
    have hbusy : ∀ events, Busy clean { s with oversizedEvents := events } i := fun _ =>
      h.of_eq rfl rfl h.parser
    cases env.onOversized s.oversizedEvents.length with
    | some e => exact hbusy _
    | none =>
      dsimp only
      rw [wp_pure]
      exact wp_mono (over_completeOversizedDrop (hbusy _).held (hbusy _).parser) (fun _ _ ht => ht)
        fun _ _ ht => ht.elim
  · exact wp_mono (over_failRequest h.held _) (fun _ _ ht => ht) fun _ _ ht => ht.elim

/-! ## Hops -/

/-- A hop is told to the handle it is for. -/
lemma held_noteHop {hop : Hop} (h : Held clean s i (slack + 1))
    (hhop : ∀ g, s.handles[i]? = some g → ∀ first ∈ g.hops.head?, RepeatsFirst first hop)
    (hfirst : ∀ g, s.handles[i]? = some g → g.hops = [] →
      s.original.method = some hop.method ∧
        (0 < s.redirectsRemaining → s.original.body = hop.body)) :
    wp (noteHop hop) (fun _ t => Held clean t i slack ∧ (∀ g, t.handles[i]? = some g → g.hops ≠ []) ∧
      (t.state, t.connector, t.socket, t.parser, t.transports, t.config, t.stream) =
        (s.state, s.connector, s.socket, s.parser, s.transports, s.config, s.stream))
      (fun _ _ => False) s := by
  obtain ⟨g, hg, hp⟩ := h.current
  unfold noteHop
  simp only [wp_modify, h.handle_eq]
  refine ⟨⟨rfl, ⟨_, by simp [hg]; rfl, ?_⟩, ?_, h.released, h.completed_eq⟩, ?_, trivial⟩
  · refine ⟨hp.done_eq, hp.completions_eq, hp.calls_eq, hp.deadline_eq, ?_, ?_, ?_, ?_⟩
    · have := hp.room
      dsimp only
      omega
    · intro d hd
      rcases List.mem_append.mp hd with hd | hd
      · exact hp.deadlines_eq d hd
      · rw [List.mem_singleton.mp hd]
        exact hp.deadline_eq
    · exact hp.chained.append (hhop g hg)
    · intro first hmem
      cases hhops : g.hops with
      | nil =>
        rw [hhops] at hmem
        cases hmem
        exact hfirst g hg hhops
      | cons first' rest =>
        rw [hhops] at hmem
        refine hp.original_eq first ?_
        rw [hhops]
        exact hmem
  · intro j k hk hj
    refine h.others j k ?_ hj
    simpa [List.getElem?_modify, Ne.symm hj] using hk
  · intro k hk
    simp only [List.getElem?_modify_eq, hg, Option.map_eq_map, Option.map_some, Option.some.injEq] at hk
    rw [← hk]
    simp

/-- The parser of a new hop. -/
lemma pastHeaders_hopParser (config : Config) (stream : Bool) :
    (hopParser config stream).PastHeaders := .inr (.inl rfl)

/-- A new transport. One that the factory refuses is released from the start. -/
lemma hopping_openTransport (h : Hopping clean s i slack) :
    wp (openTransport env)
      (fun index t => t.transports[index]? = some .connecting ∧
        (clean → ∀ j u, t.transports[j]? = some u → u ≠ .released → j = index) ∧
        index = s.transports.length ∧ env.factory s.transports.length = none ∧
        t = { s with transports := t.transports })
      (fun _ t => Hopping clean t i slack) s := by
  unfold openTransport
  rw [wp_bind, wp_get]
  have hold : clean → ∀ (j : ℕ) (u : Transport), s.transports[j]? = some u → u = .released :=
    fun hclean j u hj => h.empty.released hclean u (List.mem_of_getElem? hj)
  cases env.factory s.transports.length with
  | some e =>
    refine ⟨⟨h.held.handle_eq, ?_, h.held.others, ?_, h.held.completed_eq⟩, ?_⟩
    · obtain ⟨g, hg, hp⟩ := h.held.current
      exact ⟨g, hg, ⟨hp.done_eq, hp.completions_eq, hp.calls_eq, hp.deadline_eq, hp.room,
        hp.deadlines_eq, hp.chained, hp.original_eq⟩⟩
    · intro hclean j u hj hne
      rcases List.mem_append.mp (List.mem_of_getElem? hj) with hu | hu
      · exact absurd (h.empty.released hclean u hu) hne
      · exact absurd (List.mem_singleton.mp hu) hne
    · refine ⟨h.empty.state_eq, h.empty.connector_eq, h.empty.socket_eq, h.empty.parser_eq, ?_⟩
      intro hclean u hu
      rcases List.mem_append.mp hu with hu | hu
      · exact h.empty.released hclean u hu
      · exact List.mem_singleton.mp hu
  | none =>
    refine ⟨by simp, ?_, rfl, rfl, rfl⟩
    intro hclean j u hj hne
    rw [List.getElem?_append] at hj
    split_ifs at hj with hlt
    · exact absurd (hold hclean j u hj) hne
    · have hsub : j - s.transports.length = 0 := by
        by_contra hpos
        rw [List.getElem?_eq_none (by simp; omega)] at hj
        cases hj
      omega

/-- A hop that was told needs no more room. -/
lemma Held.spend (h : Held clean s i (slack + 1)) : Held clean s i slack := by
  obtain ⟨g, hg, hp⟩ := h.current
  have hroom := hp.room
  exact ⟨h.handle_eq, ⟨g, hg, ⟨hp.done_eq, hp.completions_eq, hp.calls_eq, hp.deadline_eq, by omega,
    hp.deadlines_eq, hp.chained, hp.original_eq⟩⟩, h.others, h.released, h.completed_eq⟩

/-- The window that a hop asks for can be allocated, if it comes to that: a hop of a streamed
request that gets a transport. -/
def HopAllocates (env : Env) (s : HttpClient) (url method : Str) (body : Option (List UInt8))
    (headers : Option (List (Str × Str))) (json : Bool) : Prop :=
  ∀ parts bytes, parseUrl url = .ok parts →
    encodeRequest env.lower method parts.hostHeader parts.path (hopHeaders env headers json) body
      (some s.config.userAgent) = .ok bytes →
    env.factory s.transports.length = none → s.stream = true →
    0 ≤ s.config.streamBufferSize ∧ env.allocation s.transports.length = none

/-- A window that is refused. -/
lemma wp_allocateWindow {transport : ℕ} {Q : Unit → HttpClient → Prop} {E : HttpError → HttpClient → Prop}
    (hQ : 0 ≤ s.config.streamBufferSize → env.allocation transport = none → Q () s)
    (hE : ∀ e, ¬ (0 ≤ s.config.streamBufferSize ∧ env.allocation transport = none) → E e s) :
    wp (allocateWindow env transport) Q E s := by
  unfold allocateWindow
  rw [wp_bind, wp_get, wp_ite, wp_throw]
  refine ⟨fun hneg => hE _ fun h => absurd h.1 (not_le.mpr hneg), fun hpos => ?_⟩
  cases hallocation : env.allocation transport with
  | some e => exact hE _ fun h => by rw [hallocation] at h; cases h.2
  | none => exact hQ (not_lt.mp hpos) hallocation

/-- **A hop that starts makes the client busy**; one that does not leaves it with the request, and,
if its window could be allocated, between its hops. -/
lemma busy_startHop {url method : Str} {body : Option (List UInt8)}
    (headers : Option (List (Str × Str))) (json : Bool) (h : Hopping clean s i 1)
    (hhop : ∀ g, s.handles[i]? = some g → ∀ first ∈ g.hops.head?,
      RepeatsFirst first ⟨status, method, body⟩)
    (hfirst : ∀ g, s.handles[i]? = some g → g.hops = [] →
      s.original.method = some method ∧ (0 < s.redirectsRemaining → s.original.body = body)) :
    wp (startHop env status url method body headers json) (fun _ t => Busy clean t i)
      (fun _ t => Held clean t i 0 ∧
        ((clean → HopAllocates env s url method body headers json) → Empty clean t)) s := by
  have hspent : Held clean s i 0 ∧ ((clean → HopAllocates env s url method body headers json) →
      Empty clean s) := ⟨h.held.spend, fun _ => h.empty⟩
  unfold startHop
  simp only [wp_bind, wp_get]
  cases hparts : parseUrl url with
  | error e => exact hspent
  | ok parts =>
    rw [wp_lift_ok]
    cases hbytes : encodeRequest env.lower method parts.hostHeader parts.path
      (hopHeaders env headers json) body (some s.config.userAgent) with
    | error e => exact hspent
    | ok bytes =>
      rw [wp_lift_ok]
      refine wp_mono (held_noteHop h.held hhop hfirst) (fun _ t ht => ?_) fun _ _ ht => ht.elim
      obtain ⟨hheld, hstarted, heq⟩ := ht
      simp only [Prod.mk.injEq] at heq
      obtain ⟨hstate, hconn, hsock, hparser, htrans, hconfig, hstream⟩ := heq
      have hhopping : Hopping clean t i 0 := by
        refine ⟨hheld, hstate.trans h.empty.state_eq,
          fun hclean => hconn.trans (h.empty.connector_eq hclean),
          hsock.trans h.empty.socket_eq, hparser.trans h.empty.parser_eq, ?_⟩
        rw [htrans]
        exact h.empty.released
      refine wp_mono (hopping_openTransport hhopping) (fun index u hu => ?_)
        fun _ _ hu => ⟨hu.held, fun _ => hu.empty⟩
      obtain ⟨-, honly, hindex, hfactory, hu⟩ := hu
      obtain ⟨g, hg, hp⟩ := hheld.current
      -- with its connector the client still holds the request
      have hconnected : Held clean { u with
          connector := some index, url := some url, txBuffer := bytes, txOffset := 0 } i 0 := by
        refine ⟨?_, ⟨g, ?_, ?_⟩, ?_, fun hclean j v hj hne => ?_, ?_⟩
        · rw [hu]
          exact hheld.handle_eq
        · rw [hu]
          exact hg
        · rw [hu]
          exact ⟨hp.done_eq, hp.completions_eq, hp.calls_eq, hp.deadline_eq, hp.room, hp.deadlines_eq,
            hp.chained, hp.original_eq⟩
        · rw [hu]
          exact hheld.others
        · left
          rw [honly hclean j v hj hne]
        · rw [hu]
          exact hheld.completed_eq
      have hsock' : u.socket = none := by
        rw [hu]
        exact hhopping.empty.socket_eq
      have hbusy : Busy clean { u with
          connector := some index, url := some url, txBuffer := bytes, txOffset := 0
          parser := some u.parsers.length, parsers := u.parsers ++ [hopParser u.config u.stream]
          state := .awaitingTransport } i := by
        refine ⟨hconnected.of_eq rfl, ?_, ⟨u.parsers.length, _, rfl, by simp; rfl,
          pastHeaders_hopParser _ _⟩, .inl ⟨rfl, rfl, hsock'⟩⟩
        rw [hu]
        exact hstarted
      rw [wp_modify, wp_when]
      refine ⟨fun hstream' => wp_allocateWindow (fun _ _ => hbusy) fun e hrefused => ?_, fun _ => hbusy⟩
      -- the window is refused: the client is left with its connector
      refine ⟨hconnected, fun hfits => ?_⟩
      have hnot : ¬ clean := fun hclean => by
        rw [htrans] at hfactory hindex
        have hallocates := hfits hclean parts bytes hparts hbytes hfactory hstream'
        have hconfig' : u.config = s.config := by rw [hu]; exact hconfig
        exact hrefused (by rw [hconfig', hindex]; exact hallocates)
      exact ⟨by rw [hu]; exact hhopping.empty.state_eq, fun hclean => absurd hclean hnot, hsock',
        by rw [hu]; exact hhopping.empty.parser_eq, fun hclean => absurd hclean hnot⟩

/-! ## Redirects and completion -/

/-- What a redirected hop sends is what the hops before it ask for. -/
lemma repeatsFirst_redirected {first : Hop}
    (hstatus : status.getD 0 ∈ REDIRECT_STATUS_CODES)
    (horiginal : s.original.method = some first.method ∧
      (0 < s.redirectsRemaining → s.original.body = first.body))
    (hleft : 0 < s.redirectsRemaining) :
    RepeatsFirst first ⟨status, (redirectedRequest s.original status).1,
      (redirectedRequest s.original status).2.1⟩ := by
  refine ⟨hstatus, ?_⟩
  unfold redirectedRequest
  split_ifs
  · rw [horiginal.1, horiginal.2 hleft]
    rfl
  · rfl

/-- **A redirect goes on with the next hop, or ends the request.** -/
lemma busy_followRedirect (location : Str) (h : Busy clean s i) (hleft : 0 < s.redirectsRemaining)
    (hstatus : status.getD 0 ∈ REDIRECT_STATUS_CODES) :
    wp (followRedirect env status location) (fun _ t => Busy clean t i ∨ Over clean t i)
      (fun _ t => Busy clean t i) s := by
  unfold followRedirect
  rw [wp_bind, wp_get]
  cases resolveRedirectUrl (s.url.getD []) location with
  | error e =>
    dsimp only
    rw [wp_ite, wp_throw]
    refine ⟨fun _ => ?_, fun _ => h⟩
    exact wp_mono (over_complete (completes_setError e) h.held) (fun _ _ ht => .inr ht)
      fun _ _ ht => ht.elim
  | ok newUrl =>
    unfold closeSocketOnly
    simp only [wp_bind, wp_modify, wp_tryCatch]
    obtain ⟨g, hg, hp⟩ := h.held.current
    have hroom := hp.room
    have hhopping : Hopping clean { s with
        transports := put (put s.transports s.connector .released) s.socket .released
        connector := none, socket := none, txBuffer := [], txOffset := 0, parser := none
        state := .idle, redirectsRemaining := s.redirectsRemaining - 1 } i 1 := by
      have hempty := empty_close h.held.released
        { s with
          transports :=
            put (put s.transports s.connector .released) s.socket .released
          connector := none, socket := none, txBuffer := [], txOffset := 0, parser := none
          state := .idle, redirectsRemaining := s.redirectsRemaining - 1 } rfl rfl rfl rfl rfl
      refine ⟨⟨h.held.handle_eq, ⟨g, hg, ?_⟩, h.held.others, ?_, h.held.completed_eq⟩, hempty⟩
      · refine ⟨hp.done_eq, hp.completions_eq, hp.calls_eq, hp.deadline_eq, ?_, hp.deadlines_eq,
          hp.chained, fun first hmem => ⟨(hp.original_eq first hmem).1, fun _ => ?_⟩⟩
        · dsimp only
          omega
        · exact (hp.original_eq first hmem).2 hleft
      · intro hclean j u hj hne
        exact absurd (hempty.released hclean u (List.mem_of_getElem? hj)) hne
    refine wp_mono (busy_startHop _ _ hhopping ?_ ?_) (fun _ _ ht => .inl ht) fun e t ht => ?_
    · intro k hk first hmem
      have hk' : s.handles[i]? = some k := hk
      rw [hg] at hk'
      cases hk'
      exact repeatsFirst_redirected hstatus (hp.original_eq first hmem) hleft
    · intro k hk hnil
      exact absurd hnil (h.started k hk)
    · rw [← wp_bind]
      exact wp_mono (over_complete (completes_setError _) ht.1) (fun _ _ hu => .inr hu)
        fun _ _ hu => hu.elim

/-- A redirect is followed only while redirects remain. -/
lemma followable_some {location : Str} (h : followable env s p = some location) :
    0 < s.redirectsRemaining ∧ p.statusCode.getD 0 ∈ REDIRECT_STATUS_CODES := by
  unfold followable at h
  split_ifs at h with hc
  exact hc

/-- A client that goes on with another parser in the place of its own. -/
lemma busy_setParser {q : ResponseParser} (h : Busy clean s i) (hk : s.parser = some k)
    (hp : s.parsers[k]? = some p) (hq : q.PastHeaders) :
    wp (setParser q) (fun _ t => Busy clean t i ∧ t.parser = some k ∧ t.parsers[k]? = some q ∧
      (t.state, t.stream, t.config, t.redirectsRemaining, t.handles) =
        (s.state, s.stream, s.config, s.redirectsRemaining, s.handles)) (fun _ _ => False) s := by
  unfold setParser
  simp only [wp_modify, hk]
  have hlt : k < s.parsers.length := (List.getElem?_eq_some_iff.mp hp).1
  have hset : (s.parsers.set k q)[k]? = some q := by simp [hlt]
  exact ⟨h.of_eq rfl rfl ⟨k, q, rfl, hset, hq⟩, trivial, hset, trivial⟩

/-- A change of the handle in flight that the state of the client does not look at. -/
lemma Busy.modifyCurrent {f : RequestHandle → RequestHandle} (h : Busy clean s i)
    (hf : ∀ g, ((f g).done, (f g).completions, (f g).calls, (f g).transports, (f g).maxRedirects,
      (f g).deadline, (f g).deadlines, (f g).hops) = (g.done, g.completions, g.calls, g.transports,
        g.maxRedirects, g.deadline, g.deadlines, g.hops)) :
    Busy clean { s with handles := s.handles.modify i f } i := by
  obtain ⟨g, hg, hp⟩ := h.held.current
  have hfg := hf g
  simp only [Prod.mk.injEq] at hfg
  obtain ⟨h₁, h₂, h₃, h₄, h₅, h₆, h₇, h₈⟩ := hfg
  have hget : (s.handles.modify i f)[i]? = some (f g) := by simp [hg]
  refine ⟨⟨h.held.handle_eq, ⟨f g, hget, ?_⟩, ?_, h.held.released, h.held.completed_eq⟩, ?_, h.parser,
    h.shape⟩
  · exact ⟨h₁.trans hp.done_eq, h₂.trans hp.completions_eq, h₃.trans hp.calls_eq,
      by rw [h₆]; exact hp.deadline_eq, by rw [h₄, h₅]; exact hp.room,
      by rw [h₆, h₇]; exact hp.deadlines_eq, by rw [h₈]; exact hp.chained,
      by rw [h₈]; exact hp.original_eq⟩
  · intro j k hk hj
    refine h.held.others j k ?_ hj
    simpa [List.getElem?_modify, Ne.symm hj] using hk
  · intro k hk
    have hk' : (s.handles.modify i f)[i]? = some k := hk
    rw [hget] at hk'
    cases hk'
    rw [h₈]
    exact h.started g hg

/-- Publishing a response changes nothing that the state of the client looks at. -/
lemma busy_publishStream (h : Busy clean s i) (response : Response) :
    wp (publishStream response) (fun _ t => Busy clean t i ∧
      (t.parser, t.parsers, t.state) = (s.parser, s.parsers, s.state) ∧
      ∃ g, t.handles[i]? = some g ∧ g.response = some response) (fun _ _ => False) s := by
  obtain ⟨g, hg, -⟩ := h.held.current
  unfold publishStream Requests.modifyCurrent modifyHandle
  rw [wp_bind, wp_get, wp_bind, wp_get, h.held.handle_eq]
  exact ⟨h.modifyCurrent fun _ => rfl, rfl, _, by simp [hg]; rfl, rfl⟩

/-- Bringing a stream up to date keeps the client busy. Behind the headers the response is
published, or the redirect is one that the client follows. -/
lemma busy_syncStreamState (h : Busy clean s i) (hk : s.parser = some k)
    (hp : s.parsers[k]? = some p) (hpast : p.PastHeaders) :
    wp (syncStreamState env) (fun _ t => Busy clean t i ∧ t.state = s.state ∧
      ∃ q, t.parser = some k ∧ t.parsers[k]? = some q ∧ q.PastHeaders ∧
        (q.state, q.statusCode, q.headers) = (p.state, p.statusCode, p.headers) ∧
        (p.headersComplete = true → p.state ≠ .error →
          (∃ g r, t.handles[i]? = some g ∧ g.response = some r) ∨
          (0 < t.redirectsRemaining ∧ p.statusCode.getD 0 ∈ REDIRECT_STATUS_CODES)))
      (fun _ _ => False) s := by
  unfold syncStreamState
  rw [wp_bind, wp_currentParser hk hp, wp_bind, wp_get, wp_ite, wp_pure]
  refine ⟨fun hnot => ⟨h, rfl, p, hk, hp, hpast, rfl, fun hc he => ?_⟩, fun _ => ?_⟩
  · rcases hnot with hnot | hnot
    · simp [hc] at hnot
    · exact absurd hnot he
  obtain ⟨g, hg, -⟩ := h.held.current
  rw [wp_ite, wp_pure]
  refine ⟨fun hresponse => ⟨h, rfl, p, hk, hp, hpast, rfl, fun _ _ => .inl ?_⟩, fun _ => ?_⟩
  · rw [h.held.handle_eq] at hresponse
    simp only [Option.bind_some, hg] at hresponse
    obtain ⟨r, hr⟩ := Option.isSome_iff_exists.mp hresponse
    exact ⟨g, r, hg, hr⟩
  rw [wp_ite]
  refine ⟨fun hfollow => ?_, fun _ => ?_⟩
  · obtain ⟨location, hlocation⟩ := Option.isSome_iff_exists.mp hfollow
    obtain ⟨hleft, hstatus⟩ := followable_some hlocation
    refine wp_mono (busy_setParser h hk hp hpast) (fun _ t ht => ?_) fun _ _ ht => ht
    obtain ⟨hbusy, hk', hp', heq⟩ := ht
    simp only [Prod.mk.injEq] at heq
    obtain ⟨hstate, -, -, hr, -⟩ := heq
    exact ⟨hbusy, hstate, _, hk', hp', hpast, rfl, fun _ _ => .inr ⟨by rw [hr]; exact hleft, hstatus⟩⟩
  · refine wp_mono (busy_publishStream h _) (fun _ t ht => ?_) fun _ _ ht => ht
    obtain ⟨hbusy, heq, g, hg, hr⟩ := ht
    simp only [Prod.mk.injEq] at heq
    obtain ⟨h₁, h₂, h₃⟩ := heq
    exact ⟨hbusy, h₃, p, h₁.trans hk, by rw [h₂, hp], hpast, rfl, fun _ _ => .inl ⟨g, _, hg, hr⟩⟩

/-- **A response that is complete ends the request, or is followed to the next hop.** -/
lemma busy_complete (h : Busy clean s i) (hk : s.parser = some k) (hp : s.parsers[k]? = some p)
    (hpast : p.PastHeaders) (hdone : p.state = .done) :
    wp (complete env) (fun _ t => Busy clean t i ∨ Over clean t i) (fun _ t => Busy clean t i) s := by
  have hcomplete : p.headersComplete = true := by
    rcases hpast with hc | hc | hc | hc
    · exact hc
    all_goals
      rw [hc] at hdone
      cases hdone
  unfold complete
  rw [wp_bind, wp_currentParser hk hp, wp_bind, wp_get, wp_ite]
  refine ⟨fun _ => ?_, fun _ => ?_⟩
  · unfold completeStream
    rw [wp_bind]
    refine wp_mono (busy_syncStreamState h hk hp hpast) (fun _ t ht => ?_) fun _ _ ht => ht.elim
    obtain ⟨hbusy, -, q, hk', hq, -, heq, hnext⟩ := ht
    simp only [Prod.mk.injEq] at heq
    obtain ⟨-, hcode, -⟩ := heq
    rw [wp_bind, wp_currentParser hk' hq, wp_bind, wp_get]
    split
    · next hnone =>
      rcases hnext hcomplete (by simp [hdone]) with ⟨g, r, hg, hr⟩ | ⟨hleft, hstatus⟩
      · rw [hbusy.held.handle_eq] at hnone
        simp [hg, hr] at hnone
      · exact busy_followRedirect _ hbusy hleft (by rw [hcode]; exact hstatus)
    · exact wp_mono (over_complete (completes_setResponse _) hbusy.held) (fun _ _ hu => .inr hu)
        fun _ _ hu => hu.elim
  · split
    · next location hlocation =>
      obtain ⟨hleft, hstatus⟩ := followable_some hlocation
      exact busy_followRedirect _ h hleft hstatus
    · exact wp_mono (over_complete (completes_setResponse _) h.held) (fun _ _ hu => .inr hu)
        fun _ _ hu => hu.elim

/-! ## Ticks -/

/-- What one part of a tick leads to: the request is still in flight, or it is over. -/
def OnOrOver (clean : Prop) (i : ℕ) (t : HttpClient) : Prop := Busy clean t i ∨ Over clean t i

/-- The connector, while the client waits for it. -/
lemma busy_advanceConnector (h : Busy clean s i) (hstate : s.state = .awaitingTransport) :
    wp (advanceConnector env)
      (fun goesOn t => (goesOn = true ∧ Busy clean t i) ∨ (goesOn = false ∧ OnOrOver clean i t))
      (fun _ t => Busy clean t i) s := by
  have hshape : s.connector.isSome ∧ s.socket = none := by
    rcases h.shape with hs | hs
    · exact hs.2
    · rcases hs.1 with hs | hs <;> simp [hstate] at hs
  obtain ⟨c, hc⟩ := Option.isSome_iff_exists.mp hshape.1
  obtain ⟨g, hg, hp⟩ := h.held.current
  have hpending : ∀ t : HttpClient, t.deadlineTicks = s.deadlineTicks →
      t.redirectsRemaining = s.redirectsRemaining → t.original = s.original → Pending t 0 g := by
    intro t h₁ h₂ h₃
    exact ⟨hp.done_eq, hp.completions_eq, hp.calls_eq, h₁.trans hp.deadline_eq,
      by rw [h₂]; exact hp.room, hp.deadlines_eq, hp.chained, by rw [h₂, h₃]; exact hp.original_eq⟩
  have honly : clean → ∀ (j : ℕ) (t u : Transport),
      (put s.transports s.connector u)[j]? = some t → t ≠ .released → j = c := by
    intro hclean j t u hj hne
    by_contra hjc
    rw [hc, put, List.getElem?_set_ne (Ne.symm hjc)] at hj
    rcases h.held.released hclean j t hj hne with hx | hx
    · rw [hc] at hx
      exact hjc (Option.some.inj hx).symm
    · rw [hshape.2] at hx
      cases hx
  unfold advanceConnector
  simp only [wp_bind, wp_get, wp_modify]
  cases env.connectorTick s.connectorTicks with
  | raises e => exact h.of_eq rfl rfl h.parser
  | pending => exact .inr ⟨rfl, .inl (h.of_eq rfl rfl h.parser)⟩
  | ready =>
    refine .inl ⟨rfl, ⟨⟨h.held.handle_eq, ⟨g, hg, hpending _ rfl rfl rfl⟩, h.held.others, ?_,
      h.held.completed_eq⟩, h.started, h.parser, .inr ⟨.inl rfl, rfl, hshape.1⟩⟩⟩
    intro hclean j t hj hne
    right
    rw [honly hclean j t _ hj hne]
    exact hc
  | failed lastError =>
    rw [wp_bind, wp_modify, wp_bind]
    have hheld : Held clean { s with
        connectorTicks := s.connectorTicks + 1, connector := none
        transports := put s.transports s.connector .released } i 0 := by
      refine ⟨h.held.handle_eq, ⟨g, hg, hpending _ rfl rfl rfl⟩, h.held.others, ?_,
        h.held.completed_eq⟩
      intro hclean j t hj hne
      have hjc := honly hclean j t _ hj hne
      have hj' : (put s.transports s.connector .released)[j]? = some t := hj
      rw [hjc, hc, put, List.getElem?_set_self'] at hj'
      cases hx : s.transports[c]? with
      | none => simp [hx] at hj'
      | some x =>
        simp only [hx, Option.map_eq_map, Option.map_some, Function.const_apply, Option.some.injEq] at hj'
        exact absurd hj'.symm hne
    exact wp_mono (over_fail hheld (by simp)) (fun _ t ht => .inr ⟨rfl, .inr ht⟩) fun _ _ ht => ht.elim

/-- Sending keeps the client busy. -/
lemma busy_driveSendLoop (rounds : ℕ) (h : Busy clean s i) (hstate : s.state = .sending) :
    wp (driveSendLoop env rounds) (fun _ t => Busy clean t i) (fun _ t => Busy clean t i) s := by
  induction rounds generalizing s with
  | zero => exact h
  | succ rounds ih =>
    rw [driveSendLoop, wp_bind, wp_get, wp_ite]
    refine ⟨fun _ => ?_, fun _ => ?_⟩
    · have hsent : ∀ n m, Busy clean { s with sends := n, txOffset := m } i := fun _ _ =>
        h.of_eq rfl rfl h.parser
      rw [wp_bind, wp_modify]
      split
      · exact hsent _ _
      · exact hsent _ _
      · exact hsent _ _
      · rw [wp_bind, wp_modify]
        exact ih (hsent _ _) hstate
    · rw [wp_modify]
      refine ⟨h.held.of_eq rfl, h.started, h.parser, .inr ⟨.inr rfl, ?_⟩⟩
      rcases h.shape with hs | hs
      · rw [hs.1] at hstate
        cases hstate
      · exact hs.2

/-- Receiving keeps the client busy. -/
lemma busy_driveRecvLoop (rounds consumed : ℕ) (h : Busy clean s i) :
    wp (driveRecvLoop env rounds consumed) (fun _ t => Busy clean t i) (fun _ t => Busy clean t i) s := by
  induction rounds generalizing s consumed with
  | zero => exact h
  | succ rounds ih =>
    obtain ⟨k, p, hk, hp, hpast⟩ := h.parser
    rw [driveRecvLoop, wp_bind, wp_currentParser hk hp, wp_bind, wp_get, wp_ite, wp_pure]
    refine ⟨fun _ => ?_, fun _ => h⟩
    rw [wp_ite, wp_pure]
    refine ⟨fun _ => h, fun _ => ?_⟩
    have hrecv : ∀ n exchanges, Busy clean { s with recvs := n, exchanges } i := fun _ _ =>
      h.of_eq rfl rfl h.parser
    unfold socketRecv
    simp only [wp_bind, wp_get, wp_modify]
    cases env.recv s.recvs with
    | wouldBlock => exact hrecv _ _
    | raises e => exact hrecv _ _
    | received data =>
      dsimp only
      rw [wp_bind, wp_modify, wp_pure]
      cases data.take (recvCapacity s.config s.stream p consumed) with
      | nil =>
        rw [wp_bind]
        refine wp_mono (busy_setParser (hrecv _ _) hk hp (ResponseParser.pastHeaders_feedEof hpast))
          (fun _ _ ht => ht.1) fun _ _ ht => ht.elim
      | cons byte rest =>
        rw [wp_bind]
        have hfed : (p.feed env.lower (byte :: rest)).PastHeaders :=
          ResponseParser.pastHeaders_feed hpast _
        refine wp_mono (busy_setParser (hrecv _ _) hk hp hfed) (fun _ t ht => ?_) fun _ _ ht => ht.elim
        obtain ⟨hbusy, hk', hp', -⟩ := ht
        rw [wp_bind, wp_when]
        refine ⟨fun _ => ?_, fun _ => ih _ hbusy⟩
        exact wp_mono (busy_syncStreamState hbusy hk' hp' hfed) (fun _ _ hu => ih _ hu.1)
          fun _ _ hu => hu.elim

/-- A tick of receiving. -/
lemma busy_driveRecv (h : Busy clean s i) :
    wp (driveRecv env) (fun _ t => OnOrOver clean i t) (fun _ t => Busy clean t i) s := by
  unfold driveRecv
  rw [wp_bind, wp_get, wp_bind]
  refine wp_mono (busy_driveRecvLoop _ _ h) (fun atEnd t ht => ?_) fun _ _ ht => ht
  rw [wp_when]
  refine ⟨fun _ => ?_, fun _ => .inl ht⟩
  obtain ⟨k, p, hk, hp, hpast⟩ := ht.parser
  rw [wp_bind, wp_currentParser hk hp]
  split
  · exact ht
  · next hdone => exact busy_complete ht hk hp hpast hdone
  · exact .inl ht

/-- Sending and receiving, in one tick. -/
lemma busy_driveStages (h : Busy clean s i) :
    wp (driveStages env) (fun _ t => OnOrOver clean i t) (fun _ t => Busy clean t i) s := by
  have hrecv : ∀ t, Busy clean t i → wp (do
      let s ← get
      when (s.state = .receiving) (driveRecv env)) (fun _ t => OnOrOver clean i t)
        (fun _ t => Busy clean t i) t := by
    intro t ht
    rw [wp_bind, wp_get, wp_when]
    exact ⟨fun _ => busy_driveRecv ht, fun _ => .inl ht⟩
  unfold driveStages
  rw [wp_bind, wp_get, wp_bind, wp_when]
  refine ⟨fun hsending => ?_, fun _ => hrecv s h⟩
  unfold driveSend
  rw [wp_bind, wp_get]
  exact wp_mono (busy_driveSendLoop _ h hsending) (fun _ t ht => hrecv t ht) fun _ _ ht => ht

/-- A tick of the pipeline. -/
lemma busy_drivePipeline (h : Busy clean s i) :
    wp (drivePipeline env) (fun _ t => OnOrOver clean i t) (fun _ t => Busy clean t i) s := by
  unfold drivePipeline hasTransport
  rw [wp_bind, wp_bind, wp_get, wp_ite, wp_pure, wp_when]
  refine ⟨fun hwait => ?_, fun _ => ⟨fun _ => busy_driveStages h, fun hnot => absurd rfl hnot⟩⟩
  refine wp_mono (busy_advanceConnector h hwait) (fun goesOn t ht => ?_) fun _ _ ht => ht
  rw [wp_when]
  rcases ht with ⟨hgoes, hbusy⟩ | ⟨hgoes, hover⟩
  · exact ⟨fun _ => busy_driveStages hbusy, fun hnot => absurd hgoes hnot⟩
  · exact ⟨fun hgo => by simp [hgoes] at hgo, fun _ => hover⟩

/-- **A tick leaves the request in flight or ends it**, and one that raises leaves it in flight. -/
lemma busy_driveTick (nowMs : ℤ) (h : Busy clean s i) :
    wp (driveTick env nowMs) (fun _ t => OnOrOver clean i t) (fun _ t => Busy clean t i) s := by
  unfold driveTick
  rw [wp_bind, wp_get, wp_ite]
  refine ⟨fun _ => ?_, fun _ => ?_⟩
  · exact wp_mono (busy_fail h _) (fun _ _ ht => .inr ht) fun _ _ ht => ht
  · rw [wp_tryCatch]
    refine wp_mono (busy_drivePipeline h) (fun _ _ ht => ht) fun e t ht => ?_
    rw [wp_ite, wp_ite, wp_throw]
    refine ⟨fun _ => ?_, fun _ => ⟨fun _ => ?_, fun _ => ht⟩⟩
    · exact wp_mono (busy_fail ht _) (fun _ _ hu => .inr hu) fun _ _ hu => hu
    · exact wp_mono (busy_fail ht _) (fun _ _ hu => .inr hu) fun _ _ hu => hu

/-- A handle that is completed and has its callback called is finished. -/
def Finishes (clean : Prop) (i : ℕ) (t : HttpClient) : Prop :=
  Idle clean t ∧ ∃ h, t.handles[i]? = some h ∧ h.Finished

/-- The callback of a request that is over is called, and the client is idle. -/
lemma finishes_fireCompletion (h : Over clean s i) :
    wp fireCompletion (fun _ t => Finishes clean i t) (fun _ _ => False) s := by
  obtain ⟨g, hg, hb, hdone, hcompletions, hcalls⟩ := h.current
  unfold fireCompletion invokeDone modifyHandle
  simp only [wp_bind, wp_get, wp_modify, h.completed_eq]
  -- the handle with its callback called
  have hfinished : ∀ k, (if g.hasOnDone then { g with calls := g.calls + 1 } else g) = k →
      k.Bounded ∧ k.Finished := by
    intro k hk
    split_ifs at hk with hcallback
    · rw [← hk]
      exact ⟨hb.of_eq rfl, hdone, hcompletions, by simp [hcalls, hcallback]⟩
    · rw [← hk]
      exact ⟨hb, hdone, hcompletions, by simp [hcalls, hcallback]⟩
  have hget : (s.handles.modify i fun h => if h.hasOnDone then { h with calls := h.calls + 1 } else h)[i]?
      = some (if g.hasOnDone then { g with calls := g.calls + 1 } else g) := by simp [hg]
  refine ⟨⟨?_, h.handle_eq, rfl, ?_⟩, _, hget, (hfinished _ rfl).2⟩
  · exact ⟨h.empty.state_eq, h.empty.connector_eq, h.empty.socket_eq, h.empty.parser_eq,
      h.empty.released⟩
  · intro k hk
    obtain ⟨j, hj⟩ := List.mem_iff_getElem?.mp hk
    by_cases hji : j = i
    · rw [hji, hget] at hj
      have := hfinished k (Option.some.inj hj)
      exact ⟨this.1, fun _ => this.2⟩
    · refine h.others j k ?_ hji
      simpa [List.getElem?_modify, Ne.symm hji] using hj

/-! ## Calls -/

/-- What holds between two calls. -/
def Sound (clean : Prop) (s : HttpClient) : Prop := Idle clean s ∨ ∃ i, Busy clean s i

/-- Without a completed handle no callback is called. -/
lemma busy_fireCompletion (h : Busy clean s i) :
    wp fireCompletion (fun _ t => Busy clean t i) (fun _ _ => False) s := by
  unfold fireCompletion
  simp only [wp_bind, wp_get, wp_modify, h.held.completed_eq, wp_pure]
  refine h.of_eq rfl ?_ h.parser
  simp only [h.held.completed_eq]

lemma Busy.state_ne (h : Busy clean s i) : s.state ≠ .idle := by
  rcases h.shape with ⟨hs, -⟩ | ⟨hs | hs, -⟩
  · simp [hs]
  · simp [hs]
  · simp [hs]

/-- `handle` with a request in flight: it goes on, or its handle is finished. -/
lemma busy_handle (nowMs : ℤ) (h : Busy clean s i) :
    wp (handle env nowMs) (fun _ t => Busy clean t i ∨ Finishes clean i t)
      (fun _ t => Busy clean t i) s := by
  unfold handle
  rw [wp_bind, wp_get, wp_ite]
  refine ⟨fun hidle => absurd hidle h.state_ne, fun _ => ?_⟩
  rw [wp_bind]
  refine wp_mono (busy_driveTick nowMs h) (fun _ t ht => ?_) fun _ _ ht => ht
  rcases ht with hbusy | hover
  · exact wp_mono (busy_fireCompletion hbusy) (fun _ _ hu => .inl hu) fun _ _ hu => hu.elim
  · exact wp_mono (finishes_fireCompletion hover) (fun _ _ hu => .inr hu) fun _ _ hu => hu.elim

/-- **`handle` at or after the deadline finishes the handle.** -/
lemma finishes_handle (nowMs : ℤ) (h : Busy clean s i)
    (hlate : s.deadlineTicks.any fun deadline => ticksDiff deadline nowMs ≤ 0) :
    wp (handle env nowMs) (fun _ t => Finishes clean i t) (fun _ _ => False) s := by
  unfold handle driveTick
  rw [wp_bind, wp_get, wp_ite]
  refine ⟨fun hidle => absurd hidle h.state_ne, fun _ => ?_⟩
  rw [wp_bind, wp_bind, wp_get, if_pos hlate]
  exact wp_mono (over_fail h.held (by simp)) (fun _ _ ht => finishes_fireCompletion ht)
    fun _ _ ht => ht.elim

/-- **`cancel` finishes the handle.** -/
lemma finishes_cancel (h : Busy clean s i) :
    wp (cancel env) (fun _ t => Finishes clean i t) (fun _ _ => False) s := by
  unfold cancel
  rw [wp_bind, wp_get, wp_ite]
  refine ⟨fun hidle => absurd hidle h.state_ne, fun _ => ?_⟩
  rw [wp_bind]
  exact wp_mono (over_fail h.held (by simp)) (fun _ _ ht => finishes_fireCompletion ht)
    fun _ _ ht => ht.elim

/-- The fields that an idle client depends on. -/
lemma Idle.of_eq (h : Idle clean s)
    (heq : (t.state, t.connector, t.socket, t.parser, t.handle, t.completedHandle, t.handles,
      t.transports) = (s.state, s.connector, s.socket, s.parser, s.handle, s.completedHandle, s.handles,
        s.transports)) : Idle clean t := by
  simp only [Prod.mk.injEq] at heq
  obtain ⟨h₁, h₂, h₃, h₄, h₅, h₆, h₇, h₈⟩ := heq
  exact ⟨⟨h₁.trans h.empty.state_eq, fun hclean => h₂.trans (h.empty.connector_eq hclean),
    h₃.trans h.empty.socket_eq,
    h₄.trans h.empty.parser_eq, by rw [h₈]; exact h.empty.released⟩, h₅.trans h.handle_eq,
    h₆.trans h.completed_eq, by rw [h₇]; exact h.settled⟩

/-- A request that does not start leaves the client idle. The handle it has made is nobody's. -/
lemma idle_dropRequest (h : Hopping clean s i 0)
    (hreturned : ∀ g, s.handles[i]? = some g → g.returned = false) :
    wp dropRequest (fun _ t => Idle clean t) (fun _ _ => False) s := by
  unfold dropRequest
  rw [wp_modify]
  refine ⟨⟨h.empty.state_eq, h.empty.connector_eq, h.empty.socket_eq, h.empty.parser_eq,
    h.empty.released⟩, rfl, h.held.completed_eq, fun g hg => ?_⟩
  obtain ⟨j, hj⟩ := List.mem_iff_getElem?.mp hg
  by_cases hji : j = i
  · obtain ⟨g', hg', hp⟩ := h.held.current
    rw [hji, hg'] at hj
    cases hj
    refine ⟨hp.bounded, fun hr => ?_⟩
    rw [hreturned g hg'] at hr
    cases hr
  · exact h.held.others j g hj hji

/-- The same handles have been returned, with the same completions. -/
def SameCounts (s t : HttpClient) : Prop :=
  t.handles.map (fun g => (g.returned, g.completions)) =
    s.handles.map fun g => (g.returned, g.completions)

instance : Std.Refl SameCounts where
  refl _ := rfl

instance : IsTrans HttpClient SameCounts where
  trans _ _ _ hst htu := Eq.trans htu hst

/-- Allocating a window changes nothing. -/
lemma within_allocateWindow {R : HttpClient → HttpClient → Prop} [Std.Refl R] (transport : ℕ) :
    Within R (allocateWindow env transport) := by
  refine within_get fun s => within_ite (within_throw _) ?_
  cases env.allocation transport with
  | some e => exact within_throw _
  | none => exact within_pure _

/-- Starting a hop returns no handle and completes none. -/
lemma sameCounts_startHop (status : Option ℤ) (url method : Str) (body : Option (List UInt8))
    (headers : Option (List (Str × Str))) (json : Bool) :
    Within SameCounts (startHop env status url method body headers json) := by
  have hnote : ∀ hop, Within SameCounts (noteHop hop) := by
    refine fun hop => within_modify fun s => ?_
    unfold SameCounts
    dsimp only
    cases s.handle with
    | none => rfl
    | some index =>
      refine List.ext_getElem? fun j => ?_
      simp only [List.getElem?_map, List.getElem?_modify]
      cases s.handles[j]? with
      | none => rfl
      | some g =>
        simp only [Option.map_eq_map, Option.map_some]
        split_ifs <;> rfl
  have hopen : Within SameCounts (openTransport env) := by
    refine within_get fun s => ?_
    cases env.factory s.transports.length with
    | some e => exact within_bind (within_modify fun _ => rfl) fun _ => within_throw _
    | none => exact within_bind (within_modify fun _ => rfl) fun _ => within_pure _
  refine within_get fun s => within_bind (within_lift _) fun _ => within_bind (within_lift _) fun _ => ?_
  refine within_bind (hnote _) fun _ => within_bind hopen fun _ => ?_
  refine within_bind (within_modify fun _ => rfl) fun _ => ?_
  exact within_bind (within_when (within_allocateWindow _)) fun _ => within_modify fun _ => rfl

/-- The window of the first hop of a request can be allocated, if it comes to that. -/
def RequestArgs.Allocates (env : Env) (s : HttpClient) (args : RequestArgs) : Prop :=
  s.state = .idle → ¬ (args.body.body.isSome ∧ args.body.json.isSome) →
    ∀ encodedBody deadline, encodeBody args.body = .ok encodedBody →
      ticksAdd (env.ticksMs s.clockReads) (args.timeoutMs.getD s.config.defaultTimeoutMs) = .ok deadline →
      HopAllocates env { s with stream := args.stream } args.url args.method encodedBody args.headers
        args.body.json.isSome

/-- **A request makes an idle client busy**; one that raises leaves it idle. -/
lemma busy_request (args : RequestArgs) (h : Idle clean s) (hfits : clean → args.Allocates env s) :
    wp (request env args) (fun i t => Busy clean t i) (fun _ t => Idle clean t) s := by
  unfold request
  rw [wp_bind, wp_get, wp_ite, wp_throw]
  refine ⟨fun hbusy => absurd h.empty.state_eq hbusy, fun _ => ?_⟩
  rw [wp_ite, wp_throw]
  refine ⟨fun _ => h, fun hone => ?_⟩
  rw [wp_bind]
  cases hbody : encodeBody args.body with
  | error e => exact h
  | ok encodedBody =>
    rw [wp_lift_ok]
    simp only [wp_bind, wp_modify]
    cases hdeadline : ticksAdd (env.ticksMs s.clockReads)
      (args.timeoutMs.getD s.config.defaultTimeoutMs) with
    | error e => exact h.of_eq rfl
    | ok deadline =>
      rw [wp_lift_ok, wp_tryCatch]
      set start : HttpClient := { s with
        stream := args.stream
        redirectsRemaining := args.maxRedirects.getD s.config.defaultMaxRedirects
        original :=
          { method := some args.method, headers := args.headers
            body :=
              if args.maxRedirects.getD s.config.defaultMaxRedirects > 0 then encodedBody else none
            json := args.body.json.isSome }
        clockReads := s.clockReads + 1, deadlineTicks := some deadline
        handle := some s.handles.length
        handles := s.handles ++
          [{ url := args.url, hasOnDone := args.hasOnDone, stream := args.stream
             maxRedirects := args.maxRedirects.getD s.config.defaultMaxRedirects, deadline }] }
        with hstart
      have hnew : start.handles[s.handles.length]? = some
          { url := args.url, hasOnDone := args.hasOnDone, stream := args.stream
            maxRedirects := args.maxRedirects.getD s.config.defaultMaxRedirects, deadline } := by
        simp [hstart]
      have hhopping : Hopping clean start s.handles.length 1 := by
        refine ⟨⟨rfl, ⟨_, hnew, ?_⟩, ?_, ?_, h.completed_eq⟩, h.empty.state_eq, h.empty.connector_eq,
          h.empty.socket_eq, h.empty.parser_eq, h.empty.released⟩
        · exact ⟨rfl, rfl, rfl, rfl, by simp [hstart, Nat.add_comm], by simp, trivial, by simp⟩
        · intro j g hg hj
          refine h.settled g ?_
          have hg' : (s.handles ++ [_])[j]? = some g := hg
          rw [List.getElem?_append] at hg'
          split_ifs at hg' with hlt
          · exact List.mem_of_getElem? hg'
          · rw [List.getElem?_eq_none (by simp; omega)] at hg'
            cases hg'
        · intro hclean j u hj hne
          exact absurd (h.empty.released hclean u (List.mem_of_getElem? hj)) hne
      have hfresh : ∀ t, SameCounts start t → ∀ g, t.handles[s.handles.length]? = some g →
          g.returned = false := by
        intro t ht g hg
        have hmap := congrArg (·[s.handles.length]?) ht
        simp only [List.getElem?_map, hg, hnew, Option.map_some, Option.some.injEq] at hmap
        exact congrArg Prod.fst hmap
      refine wp_mono (wp_and (busy_startHop args.headers args.body.json.isSome hhopping ?_ ?_)
        ((sameCounts_startHop _ _ _ _ _ _).wp start)) (fun _ t ht => ?_) fun e t ht => ?_
      · intro g hg first hmem
        rw [hnew] at hg
        cases hg
        cases hmem
      · intro g hg _
        exact ⟨rfl, fun hpos => if_pos hpos⟩
      · unfold modifyHandle
        rw [wp_modify, wp_pure]
        exact ht.1.modifyCurrent fun _ => rfl
      · rw [wp_bind]
        have hempty := ht.1.2 fun hclean =>
          hfits hclean h.empty.state_eq hone encodedBody deadline hbody hdeadline
        exact wp_mono (idle_dropRequest ⟨ht.1.1, hempty⟩ (hfresh t ht.2)) (fun _ _ hu => hu)
          fun _ _ hu => hu.elim

/-- Reading a body leaves the state of the client as it is. -/
lemma sound_readBodyInto (index size : ℕ) (h : Sound clean s) :
    wp (readBodyInto index size) (fun _ t => Sound clean t) (fun _ t => Sound clean t) s := by
  unfold readBodyInto
  rw [wp_bind, wp_get]
  split
  · exact h
  · next g hg =>
    rw [wp_ite, wp_throw]
    refine ⟨fun _ => h, fun _ => ?_⟩
    split
    · exact h
    · next source hsource =>
      split
      · exact h
      · next p hp =>
        rw [wp_bind, wp_modify, wp_pure]
        refine h.imp (fun hidle => hidle.of_eq rfl) fun ⟨i, hbusy⟩ => ⟨i, hbusy.of_eq rfl rfl ?_⟩
        obtain ⟨k, q, hk, hq, hpast⟩ := hbusy.parser
        by_cases hks : source = k
        · subst hks
          rw [hp] at hq
          cases hq
          have hlt : source < s.parsers.length := (List.getElem?_eq_some_iff.mp hp).1
          refine ⟨source, (p.readBodyInto size).2, hk, by simp [hlt], ?_⟩
          unfold ResponseParser.readBodyInto
          dsimp only
          split_ifs <;> exact hpast
        · exact ⟨k, q, hk, by simp [List.getElem?_set_ne hks, hq], hpast⟩

end Runs

/-! ## What is never taken back -/

/-- Handles stay where they are, and nothing that was counted on them is taken back. -/
def Grows (s t : HttpClient) : Prop :=
  ∀ (i : ℕ) (g : RequestHandle), s.handles[i]? = some g → ∃ g' : RequestHandle, t.handles[i]? = some g' ∧
    (g.returned = true → g'.returned = true) ∧ g.completions ≤ g'.completions

instance : Std.Refl Grows where
  refl _ _ g hg := ⟨g, hg, id, le_rfl⟩

instance : IsTrans HttpClient Grows where
  trans s t u hst htu i g hg := by
    obtain ⟨g', hg', hr, hc⟩ := hst i g hg
    obtain ⟨g'', hg'', hr', hc'⟩ := htu i g' hg'
    exact ⟨g'', hg'', fun h => hr' (hr h), hc.trans hc'⟩

section Grows

variable {env : Env}

/-- A change that leaves the handles alone. -/
lemma grows_modify {f : HttpClient → HttpClient} (h : ∀ s, (f s).handles = s.handles) :
    Within Grows (modify f : M Unit) :=
  within_modify fun s i g hg => ⟨g, by rw [h, hg], id, le_rfl⟩

variable {f : RequestHandle → RequestHandle}

/-- A change of one handle. -/
lemma grows_handles {s t : HttpClient} {index : ℕ} (ht : t.handles = s.handles.modify index f)
    (hf : ∀ g, (g.returned = true → (f g).returned = true) ∧ g.completions ≤ (f g).completions) :
    Grows s t := by
  intro i g hg
  by_cases hi : index = i
  · subst hi
    exact ⟨f g, by simp [ht, hg], hf g⟩
  · exact ⟨g, by simp [ht, hi, hg], id, le_rfl⟩

lemma grows_modifyHandle {index : ℕ}
    (hf : ∀ g, (g.returned = true → (f g).returned = true) ∧ g.completions ≤ (f g).completions) :
    Within Grows (modifyHandle index f) :=
  within_modify fun _ => grows_handles rfl hf

lemma grows_modifyCurrent
    (hf : ∀ g, (g.returned = true → (f g).returned = true) ∧ g.completions ≤ (f g).completions) :
    Within Grows (modifyCurrent f) := by
  refine within_get fun s => ?_
  cases s.handle with
  | none => exact within_throw _
  | some index => exact grows_modifyHandle hf

lemma grows_setError (error : HttpError) : Within Grows (setError error) :=
  grows_modifyCurrent fun _ => ⟨id, Nat.le_succ _⟩

lemma grows_setResponse (response : Response) : Within Grows (setResponse response) :=
  grows_modifyCurrent fun _ => ⟨id, Nat.le_succ _⟩

lemma grows_currentParser : Within Grows currentParser := by
  refine within_get fun s => ?_
  split
  · exact within_pure _
  · exact within_throw _

lemma grows_setParser (p : ResponseParser) : Within Grows (setParser p) := by
  refine grows_modify fun s => ?_
  split <;> rfl

lemma grows_resetSocket : Within Grows resetSocket :=
  within_bind (grows_modify fun _ => rfl) fun _ => grows_modify fun _ => rfl

lemma grows_fireCompletion : Within Grows fireCompletion := by
  refine within_get fun s => within_bind (grows_modify fun _ => rfl) fun _ => ?_
  cases s.completedHandle with
  | none => exact within_pure _
  | some index =>
    refine grows_modifyHandle fun g => ?_
    split_ifs <;> exact ⟨id, le_rfl⟩

lemma grows_fail (error : HttpError) : Within Grows (fail env error) := by
  have hdrop : Within Grows completeOversizedDrop :=
    within_bind grows_currentParser fun _ => within_get fun _ =>
      within_bind (grows_setResponse _) fun _ => grows_resetSocket
  refine within_get fun s => ?_
  split
  · exact hdrop
  · refine within_bind (within_get fun s => ?_) fun _ => hdrop
    refine within_bind (grows_modify fun _ => rfl) fun _ => ?_
    split
    · exact within_throw _
    · exact within_pure _
  · exact within_get fun _ =>
      within_bind (within_when (grows_setError _)) fun _ => grows_resetSocket

lemma grows_startHop (status : Option ℤ) (url method : Str) (body : Option (List UInt8))
    (headers : Option (List (Str × Str))) (json : Bool) :
    Within Grows (startHop env status url method body headers json) := by
  refine (sameCounts_startHop status url method body headers json).mono fun s t h i g hg => ?_
  have hmap := congrArg (·[i]?) h
  simp only [List.getElem?_map, hg, Option.map_some, Option.map_eq_some_iff, Prod.mk.injEq] at hmap
  obtain ⟨g', hg', hr, hc⟩ := hmap
  exact ⟨g', hg', hr.trans, hc.ge⟩

lemma grows_followRedirect (status : Option ℤ) (location : Str) :
    Within Grows (followRedirect env status location) := by
  have hend : ∀ e, Within Grows (do setError e; resetSocket) := fun e =>
    within_bind (grows_setError e) fun _ => grows_resetSocket
  refine within_get fun s => ?_
  cases resolveRedirectUrl (s.url.getD []) location with
  | error e => exact within_ite (hend e) (within_throw _)
  | ok newUrl =>
    refine within_bind (grows_modify fun _ => rfl) fun _ => ?_
    refine within_bind (grows_modify fun _ => rfl) fun _ => ?_
    exact within_tryCatch (grows_startHop _ _ _ _ _ _) fun e => hend _

lemma grows_syncStreamState : Within Grows (syncStreamState env) := by
  refine within_bind grows_currentParser fun _ => within_get fun s => ?_
  refine within_ite (within_pure _) (within_ite (within_pure _) (within_ite (grows_setParser _) ?_))
  exact within_get fun _ => grows_modifyCurrent fun _ => ⟨id, le_rfl⟩

lemma grows_complete : Within Grows (complete env) := by
  have hend : ∀ r, Within Grows (do setResponse r; resetSocket) := fun r =>
    within_bind (grows_setResponse r) fun _ => grows_resetSocket
  refine within_bind grows_currentParser fun _ => within_get fun s => within_ite ?_ ?_
  · refine within_bind grows_syncStreamState fun _ => within_bind grows_currentParser fun _ => ?_
    refine within_get fun _ => ?_
    split
    · exact grows_followRedirect _ _
    · exact hend _
  · split
    · exact grows_followRedirect _ _
    · exact hend _

lemma grows_driveSendLoop (rounds : ℕ) : Within Grows (driveSendLoop env rounds) := by
  induction rounds with
  | zero => exact within_pure _
  | succ rounds ih =>
    refine within_get fun s => within_ite (within_bind (grows_modify fun _ => rfl) fun _ => ?_)
      (grows_modify fun _ => rfl)
    split
    · exact within_pure _
    · exact within_throw _
    · exact within_pure _
    · exact within_bind (grows_modify fun _ => rfl) fun _ => ih

lemma grows_driveRecvLoop (rounds consumed : ℕ) : Within Grows (driveRecvLoop env rounds consumed) := by
  induction rounds generalizing consumed with
  | zero => exact within_pure _
  | succ rounds ih =>
    have hrecv : ∀ capacity, Within Grows (socketRecv env capacity) := by
      refine fun capacity => within_get fun s => within_bind (grows_modify fun _ => rfl) fun _ => ?_
      split
      · exact within_bind (grows_modify fun _ => rfl) fun _ => within_pure _
      · exact within_pure _
      · exact within_throw _
    refine within_bind grows_currentParser fun p => within_get fun s => within_ite ?_ (within_pure _)
    refine within_ite (within_pure _) (within_bind (hrecv _) fun answer => ?_)
    split
    · exact within_pure _
    · exact within_bind (grows_setParser _) fun _ => within_pure _
    · exact within_bind (grows_setParser _) fun _ =>
        within_bind (within_when grows_syncStreamState) fun _ => ih _

lemma grows_drivePipeline : Within Grows (drivePipeline env) := by
  have hrecv : Within Grows (driveRecv env) := by
    refine within_get fun _ => within_bind (grows_driveRecvLoop _ _) fun _ => within_when ?_
    refine within_bind grows_currentParser fun p => ?_
    split
    · exact within_throw _
    · exact grows_complete
    · exact within_pure _
  have hconnector : Within Grows (advanceConnector env) := by
    refine within_get fun s => within_bind (grows_modify fun _ => rfl) fun _ => ?_
    split
    · exact within_throw _
    · exact within_pure _
    · exact within_bind (grows_modify fun _ => rfl) fun _ => within_pure _
    · exact within_bind (grows_modify fun _ => rfl) fun _ =>
        within_bind (grows_fail _) fun _ => within_pure _
  refine within_bind (within_get fun _ => within_ite hconnector (within_pure _)) fun _ => within_when ?_
  refine within_get fun _ => ?_
  refine within_bind (within_when (within_get fun _ => grows_driveSendLoop _)) fun _ => ?_
  exact within_get fun _ => within_when hrecv

lemma grows_handle (nowMs : ℤ) : Within Grows (handle env nowMs) := by
  refine within_get fun _ => within_ite (within_pure _) (within_bind ?_ fun _ => grows_fireCompletion)
  refine within_get fun _ => within_ite (grows_fail _) (within_tryCatch grows_drivePipeline fun e => ?_)
  exact within_ite (grows_fail _) (within_ite (grows_fail _) (within_throw _))

lemma grows_request (args : RequestArgs) : Within Grows (request env args) := by
  refine within_get fun s => within_ite (within_throw _) (within_ite (within_throw _) ?_)
  refine within_bind (within_lift _) fun _ => within_bind (grows_modify fun _ => rfl) fun _ => ?_
  refine within_bind (grows_modify fun _ => rfl) fun _ => within_bind (within_lift _) fun _ => ?_
  refine within_bind (within_modify fun s i g hg => ⟨g, ?_, id, le_rfl⟩) fun _ => ?_
  · rw [List.getElem?_append_left (List.getElem?_eq_some_iff.mp hg).1, hg]
  refine within_bind (within_tryCatch (grows_startHop _ _ _ _ _ _) fun _ => ?_) fun _ => ?_
  · exact within_bind (grows_modify fun _ => rfl) fun _ => within_throw _
  · exact within_bind (grows_modifyHandle fun _ => ⟨fun _ => rfl, le_rfl⟩) fun _ => within_pure _

lemma grows_cancel : Within Grows (cancel env) := by
  refine within_get fun _ => within_ite (within_pure _) ?_
  exact within_bind (grows_fail _) fun _ => grows_fireCompletion

lemma grows_readBodyInto (index size : ℕ) : Within Grows (readBodyInto index size) := by
  refine within_get fun s => ?_
  split
  · exact within_throw _
  · refine within_ite (within_throw _) ?_
    split
    · exact within_pure _
    · split
      · exact within_throw _
      · exact within_bind (grows_modify fun _ => rfl) fun _ => within_pure _

end Grows

/-! ## Runs -/

/-- The calls of a client and of its handles. -/
inductive Call where
  | request (args : RequestArgs)
  | handle (nowMs : ℤ)
  | cancel
  | readBodyInto (index size : ℕ)

/-- The client after a call, which may have raised. -/
def Call.after (env : Env) (s : HttpClient) : Call → HttpClient
  | .request args => (Requests.request env args s).2
  | .handle nowMs => (Requests.handle env nowMs s).2
  | .cancel => (Requests.cancel env s).2
  | .readBodyInto index size => (Requests.readBodyInto index size s).2

/-- The clients that calls lead to. The calls that a callback makes are among them. -/
inductive Reaches (env : Env) : HttpClient → Prop where
  | init (config : Config) : Reaches env { config }
  | call {s : HttpClient} (c : Call) (reached : Reaches env s) : Reaches env (c.after env s)

/-- A call that is no request, or one whose window can be allocated. -/
def Call.Allocates (env : Env) (s : HttpClient) : Call → Prop
  | .request args => args.Allocates env s
  | _ => True

/-- The clients that such calls lead to. -/
inductive AllocReaches (env : Env) : HttpClient → Prop where
  | init (config : Config) : AllocReaches env { config }
  | call {s : HttpClient} (c : Call) (reached : AllocReaches env s) (allocates : c.Allocates env s) :
      AllocReaches env (c.after env s)

section Runs

variable {clean : Prop} {env : Env} {s : HttpClient}

lemma AllocReaches.reaches (h : AllocReaches env s) : Reaches env s := by
  induction h with
  | init config => exact .init config
  | call c _ _ ih => exact .call c ih

/-- **One call** keeps the client sound. -/
lemma Call.sound_after (c : Call) (h : Sound clean s) (hfits : clean → c.Allocates env s) :
    Sound clean (c.after env s) := by
  cases c with
  | request args =>
    refine @wp_state _ _ _ (Requests.request env args) s (Sound clean) ?_
    rcases h with h | ⟨i, h⟩
    · exact wp_mono (busy_request args h hfits) (fun i _ ht => .inr ⟨i, ht⟩) fun _ _ ht => .inl ht
    · unfold Requests.request
      rw [wp_bind, wp_get, if_pos h.state_ne]
      exact .inr ⟨i, h⟩
  | handle nowMs =>
    refine @wp_state _ _ _ (Requests.handle env nowMs) s (Sound clean) ?_
    rcases h with h | ⟨i, h⟩
    · unfold Requests.handle
      rw [wp_bind, wp_get, if_pos h.empty.state_eq]
      exact .inl h
    · refine wp_mono (busy_handle nowMs h) (fun _ _ ht => ?_) fun _ _ ht => .inr ⟨i, ht⟩
      rcases ht with ht | ht
      · exact .inr ⟨i, ht⟩
      · exact .inl ht.1
  | cancel =>
    refine @wp_state _ _ _ (Requests.cancel env) s (Sound clean) ?_
    rcases h with h | ⟨i, h⟩
    · unfold Requests.cancel
      rw [wp_bind, wp_get, if_pos h.empty.state_eq]
      exact .inl h
    · exact wp_mono (finishes_cancel h) (fun _ _ ht => .inl ht.1) fun _ _ ht => ht.elim
  | readBodyInto index size => exact wp_state (sound_readBodyInto index size h)

/-- One call takes nothing back. -/
lemma Call.grows_after (c : Call) (s : HttpClient) : Grows s (c.after env s) := by
  cases c with
  | request args => exact grows_request args s
  | handle nowMs => exact grows_handle nowMs s
  | cancel => exact grows_cancel s
  | readBodyInto index size => exact grows_readBodyInto index size s

/-- A new client is sound. -/
lemma sound_new (config : Config) : Sound clean { config } :=
  .inl ⟨⟨rfl, fun _ => rfl, rfl, rfl, by simp⟩, rfl, rfl, by simp⟩

/-- **A run** keeps the client sound, but for the transports it may have lost. -/
lemma Reaches.sound (h : Reaches env s) : Sound False s := by
  induction h with
  | init config => exact sound_new config
  | call c _ ih => exact c.sound_after ih False.elim

/-- **A run in which every window can be allocated** loses no transport. -/
lemma AllocReaches.sound (h : AllocReaches env s) : Sound True s := by
  induction h with
  | init config => exact sound_new config
  | call c _ hfits ih => exact c.sound_after ih fun _ => hfits

/-- A list of calls is a run. -/
lemma Reaches.foldl (h : Reaches env s) (calls : List Call) :
    Reaches env (calls.foldl (fun s c => c.after env s) s) := by
  induction calls generalizing s with
  | nil => exact h
  | cons c calls ih => exact ih (.call c h)

/-- One call after the other. -/
def Calls (env : Env) (s t : HttpClient) : Prop := ∃ c : Call, t = c.after env s

/-- What a run reaches, its later clients are reached too, and take nothing back. -/
lemma Reaches.later {t : HttpClient} (h : Reaches env s)
    (hst : Relation.ReflTransGen (Calls env) s t) : Reaches env t ∧ Grows s t := by
  induction hst with
  | refl => exact ⟨h, Std.Refl.refl s⟩
  | tail _ hcall ih =>
    obtain ⟨c, rfl⟩ := hcall
    exact ⟨.call c ih.1, IsTrans.trans _ _ _ ih.2 (c.grows_after _)⟩

/-! ## The life of a request -/

/-- The client holds nothing. -/
structure HoldsNothing (s : HttpClient) : Prop where
  socket_eq : s.socket = none
  connector_eq : s.connector = none
  handle_eq : s.handle = none
  completed_eq : s.completedHandle = none
  released : ∀ t ∈ s.transports, t = .released

/-- The handle `i` is done, was completed once, and its callback, if it has one, called once. -/
def DoneOnce (t : HttpClient) (i : ℕ) : Prop :=
  ∃ g : RequestHandle, t.handles[i]? = some g ∧ g.done = true ∧ g.completions = 1 ∧
    g.calls = if g.hasOnDone then 1 else 0

/-- The life of a handle that `request` has returned, seen from a client of the run.

A request in flight is done at the first tick behind its deadline or when it is cancelled, unless it
was done before; once done, it stays so. -/
structure Lifecycle (env : Env) (s : HttpClient) (i : ℕ) (g : RequestHandle) : Prop where
  completions_eq : g.completions = if g.done then 1 else 0
  calls_eq : g.calls = if g.done ∧ g.hasOnDone then 1 else 0
  transports_le : g.transports ≤ 1 + g.maxRedirects.toNat
  deadlines_eq : ∀ d ∈ g.deadlines, d = some g.deadline
  pending : g.done = false → s.handle = some i ∧ s.deadlineTicks = some g.deadline
  done_handle : g.done = false → ∀ nowMs, ticksDiff g.deadline nowMs ≤ 0 →
    DoneOnce (handle env nowMs s).2 i
  done_cancel : g.done = false → DoneOnce (cancel env s).2 i
  done_later : g.done = true → ∀ t, Relation.ReflTransGen (Calls env) s t → DoneOnce t i

/-- A client that waits for nothing holds nothing. -/
lemma Sound.holdsNothing (h : Sound True s) (hidle : s.state = .idle) : HoldsNothing s := by
  rcases h with h | ⟨i, h⟩
  · exact ⟨h.empty.socket_eq, h.empty.connector_eq trivial, h.handle_eq, h.completed_eq,
      h.empty.released trivial⟩
  · exact absurd hidle h.state_ne

variable {i : ℕ} {g : RequestHandle} {first hop : Hop}

/-- A returned handle of a sound client is finished, or it is the one in flight. -/
lemma Sound.finished_or_pending (h : Sound clean s) (hg : s.handles[i]? = some g)
    (hreturned : g.returned = true) :
    (g.Bounded ∧ g.Finished) ∨ (Busy clean s i ∧ Pending s 0 g) := by
  rcases h with h | ⟨j, h⟩
  · have hset := h.settled g (List.mem_of_getElem? hg)
    exact .inl ⟨hset.bounded, hset.finished hreturned⟩
  · by_cases hij : i = j
    · subst hij
      obtain ⟨g', hg', hp⟩ := h.held.current
      rw [hg'] at hg
      cases hg
      exact .inr ⟨h, hp⟩
    · have hset := h.held.others i g hg hij
      exact .inl ⟨hset.bounded, hset.finished hreturned⟩

lemma Finishes.doneOnce (h : Finishes clean i s) : DoneOnce s i := by
  obtain ⟨-, g, hg, hf⟩ := h
  exact ⟨g, hg, hf.done_eq, hf.completions_eq, hf.calls_eq⟩

/-- A finished handle stays finished. -/
lemma Reaches.doneOnce_later {t : HttpClient} (h : Reaches env s)
    (hst : Relation.ReflTransGen (Calls env) s t) (hg : s.handles[i]? = some g)
    (hreturned : g.returned = true) (hf : g.Finished) : DoneOnce t i := by
  obtain ⟨hreach, hgrows⟩ := h.later hst
  obtain ⟨g', hg', hr, hc⟩ := hgrows i g hg
  rcases hreach.sound.finished_or_pending hg' (hr hreturned) with ⟨-, hf'⟩ | ⟨-, hp⟩
  · exact ⟨g', hg', hf'.done_eq, hf'.completions_eq, hf'.calls_eq⟩
  · rw [hf.completions_eq, hp.completions_eq] at hc
    omega

/-- **The life of every request**, in every run of calls in which every window that is asked for can
be allocated, and whatever else the outside answers. -/
theorem request_lifecycle (h : AllocReaches env s) :
    (s.state = .idle → HoldsNothing s) ∧
      ∀ i g, s.handles[i]? = some g → g.returned = true → Lifecycle env s i g := by
  refine ⟨h.sound.holdsNothing, fun i g hg hreturned => ?_⟩
  rcases h.sound.finished_or_pending hg hreturned with ⟨hb, hf⟩ | ⟨hbusy, hp⟩
  · have hdone : g.done ≠ false := by simp [hf.done_eq]
    exact
      { completions_eq := by simp [hf.done_eq, hf.completions_eq]
        calls_eq := by simp [hf.done_eq, hf.calls_eq]
        transports_le := hb.transports_le
        deadlines_eq := hb.deadlines_eq
        pending := fun hnot => absurd hnot hdone
        done_handle := fun hnot => absurd hnot hdone
        done_cancel := fun hnot => absurd hnot hdone
        done_later := fun _ t hst => h.reaches.doneOnce_later hst hg hreturned hf }
  · have hlate : ∀ nowMs, ticksDiff g.deadline nowMs ≤ 0 →
        (s.deadlineTicks.any fun deadline => ticksDiff deadline nowMs ≤ 0) := by
      intro nowMs hnow
      simpa [hp.deadline_eq] using hnow
    exact
      { completions_eq := by simp [hp.done_eq, hp.completions_eq]
        calls_eq := by simp [hp.done_eq, hp.calls_eq]
        transports_le := hp.bounded.transports_le
        deadlines_eq := hp.deadlines_eq
        pending := fun _ => ⟨hbusy.held.handle_eq, hp.deadline_eq⟩
        done_handle := fun _ nowMs hnow => by
          refine @wp_state _ _ _ (handle env nowMs) s (DoneOnce · i) ?_
          exact wp_mono (finishes_handle nowMs hbusy (hlate nowMs hnow)) (fun _ _ ht => ht.doneOnce)
            fun _ _ ht => ht.elim
        done_cancel := fun _ => by
          refine @wp_state _ _ _ (cancel env) s (DoneOnce · i) ?_
          exact wp_mono (finishes_cancel hbusy) (fun _ _ ht => ht.doneOnce) fun _ _ ht => ht.elim
        done_later := fun hdone => by
          rw [hp.done_eq] at hdone
          cases hdone }

/-! ## Redirects -/

/-- The method of a redirect is kept by the hop behind it. -/
def Hop.Preserves (hop : Hop) : Prop :=
  hop.status.getD 0 ∈ METHOD_PRESERVING_REDIRECT_STATUS_CODES

/-- A redirect that switches to GET leads to the hop. -/
def Hop.Switches (hop : Hop) : Prop := hop.status.getD 0 ∈ ([301, 302, 303] : List ℤ)

/-- A hop that is a GET without a body. -/
def Hop.PlainGet (hop : Hop) : Prop := hop.method = "GET".toList ∧ hop.body = none

/-- What a redirect asks for: after 307 and 308 the method and the body of the hop that was
redirected, after 301, 302 and 303 a GET without a body. -/
def Hop.Follows (previous hop : Hop) : Prop :=
  (hop.Preserves → hop.method = previous.method ∧ hop.body = previous.body) ∧
    (hop.Switches → hop.PlainGet)

instance (previous hop : Hop) : Decidable (previous.Follows hop) := by
  unfold Hop.Follows Hop.Preserves Hop.Switches Hop.PlainGet
  infer_instance

/-- Every redirect either preserves or switches. -/
lemma RepeatsFirst.preserves_or_switches (h : RepeatsFirst first hop) :
    hop.Preserves ∨ hop.Switches := by
  have hmem := h.1
  unfold Hop.Preserves Hop.Switches
  simp only [REDIRECT_STATUS_CODES, METHOD_PRESERVING_REDIRECT_STATUS_CODES, List.mem_cons,
    List.not_mem_nil, or_false] at hmem ⊢
  tauto

/-- A redirect does not do both. -/
lemma Hop.Preserves.not_switches (h : hop.Preserves) : ¬ hop.Switches := by
  unfold Preserves at h
  unfold Switches
  simp only [METHOD_PRESERVING_REDIRECT_STATUS_CODES, List.mem_cons, List.not_mem_nil, or_false] at h ⊢
  omega

/-- A preserving hop repeats the first one. -/
lemma RepeatsFirst.eq_first (h : RepeatsFirst first hop) (hp : hop.Preserves) :
    hop.method = first.method ∧ hop.body = first.body := by
  unfold Hop.Preserves at hp
  exact Prod.mk.inj (h.2.trans (if_pos hp))

/-- A switching hop is a GET without a body. -/
lemma RepeatsFirst.plainGet (h : RepeatsFirst first hop) (hs : hop.Switches) : hop.PlainGet := by
  have hnot : hop.status.getD 0 ∉ METHOD_PRESERVING_REDIRECT_STATUS_CODES := fun hp =>
    Hop.Preserves.not_switches hp hs
  exact Prod.mk.inj (h.2.trans (if_neg hnot))

/-- Where the first hop is a GET without a body, all hops are. -/
lemma RepeatsFirst.plainGet_of_first (h : RepeatsFirst first hop) (hfirst : first.PlainGet) :
    hop.PlainGet := by
  rcases h.preserves_or_switches with hp | hs
  · obtain ⟨hmethod, hbody⟩ := h.eq_first hp
    exact ⟨hmethod.trans hfirst.1, hbody.trans hfirst.2⟩
  · exact h.plainGet hs

/-- **A chain of hops** that repeat the first one repeats the hop before if and only if the first is
a GET without a body, or nothing preserves behind a switch. -/
lemma Chained.follows_iff {rest : List Hop} (h : Chained (first :: rest)) :
    (List.IsChain Hop.Follows (first :: rest) ∧
        rest.Pairwise fun hop later => hop.Switches → later.PlainGet) ↔
      (first.PlainGet ∨ rest.Pairwise fun hop later => hop.Switches → ¬ later.Preserves) := by
  have hrepeat : ∀ hop ∈ rest, RepeatsFirst first hop := h
  constructor
  · rintro ⟨-, hget⟩
    by_cases hfirst : first.PlainGet
    · exact .inl hfirst
    · refine .inr (hget.imp_of_mem fun _ hlater hplain hs hp => hfirst ?_)
      obtain ⟨hmethod, hbody⟩ := (hrepeat _ hlater).eq_first hp
      exact ⟨hmethod.symm.trans (hplain hs).1, hbody.symm.trans (hplain hs).2⟩
  · intro hcond
    -- any later hop follows any earlier one
    have hpair : (first :: rest).Pairwise Hop.Follows ∧
        rest.Pairwise fun hop later => hop.Switches → later.PlainGet := by
      rcases hcond with hfirst | hnever
      · have hall : ∀ hop ∈ rest, hop.PlainGet := fun hop hmem =>
          (hrepeat hop hmem).plainGet_of_first hfirst
        refine ⟨List.pairwise_cons.mpr ⟨fun hop hmem => ?_, ?_⟩, ?_⟩
        · exact ⟨(hrepeat hop hmem).eq_first, (hrepeat hop hmem).plainGet⟩
        · refine (List.pairwise_of_forall_mem_list fun hop hmem later hlater => ⟨fun _ => ?_, fun _ =>
            hall later hlater⟩)
          obtain ⟨hm, hb⟩ := hall hop hmem
          obtain ⟨hm', hb'⟩ := hall later hlater
          exact ⟨hm'.trans hm.symm, hb'.trans hb.symm⟩
        · exact List.pairwise_of_forall_mem_list fun _ _ later hlater _ => hall later hlater
      · refine ⟨List.pairwise_cons.mpr ⟨fun hop hmem => ?_, ?_⟩, ?_⟩
        · exact ⟨(hrepeat hop hmem).eq_first, (hrepeat hop hmem).plainGet⟩
        · refine hnever.imp_of_mem fun hmem hlater hno => ⟨fun hp => ?_, (hrepeat _ hlater).plainGet⟩
          -- the earlier hop has not switched, so it repeats the first one as well
          have hpres := (hrepeat _ hmem).preserves_or_switches.resolve_right fun hs => hno hs hp
          obtain ⟨hm, hb⟩ := (hrepeat _ hmem).eq_first hpres
          obtain ⟨hm', hb'⟩ := (hrepeat _ hlater).eq_first hp
          exact ⟨hm'.trans hm.symm, hb'.trans hb.symm⟩
        · refine hnever.imp_of_mem fun _ hlater hno hs => ?_
          exact (hrepeat _ hlater).plainGet
            ((hrepeat _ hlater).preserves_or_switches.resolve_left (hno hs))
    exact ⟨hpair.1.isChain, hpair.2⟩

/-- Every handle of a sound client is bounded. -/
lemma Sound.bounded (h : Sound clean s) (hg : g ∈ s.handles) : g.Bounded := by
  rcases h with h | ⟨i, h⟩
  · exact (h.settled g hg).bounded
  · obtain ⟨j, hj⟩ := List.mem_iff_getElem?.mp hg
    by_cases hij : j = i
    · obtain ⟨g', hg', hp⟩ := h.held.current
      rw [hij, hg'] at hj
      cases hj
      exact hp.bounded
    · exact (h.held.others j g hj hij).bounded

/-- **The hops of every request** do what their redirects ask for if and only if the request is a
GET without a body, or no preserving redirect comes behind a switching one. -/
theorem redirects_preserve_iff (h : Reaches env s) {g : RequestHandle} (hg : g ∈ s.handles) {first : Hop}
    {rest : List Hop} (hhops : g.hops = first :: rest) :
    (List.IsChain Hop.Follows g.hops ∧
        rest.Pairwise fun hop later => hop.Switches → later.PlainGet) ↔
      (first.PlainGet ∨ rest.Pairwise fun hop later => hop.Switches → ¬ later.Preserves) := by
  have hchained := (h.sound.bounded hg).chained
  rw [hhops] at hchained ⊢
  exact hchained.follows_iff

end Runs

/-- The bytes of a text. -/
def textBytes (text : String) : List UInt8 := (encodeAscii text.toList).toOption.getD []

/-- A server that answers a request with 303, the next with 307 and the third with 200. -/
def switchingServer : Env where
  lower := lowerAscii
  factory _ := none
  connectorTick _ := .ready
  send _ := .sent 4096
  recv n := .received
    (([textBytes "HTTP/1.1 303 See Other\r\nLocation: /b\r\nContent-Length: 0\r\n\r\n",
      textBytes "HTTP/1.1 307 Temporary Redirect\r\nLocation: /c\r\nContent-Length: 0\r\n\r\n",
      textBytes "HTTP/1.1 200 OK\r\nContent-Length: 2\r\n\r\nhi"])[n]?.getD [])
  ticksMs _ := 0
  onOversized _ := none
  errorText _ := ""

/-- A POST of two bytes to that server, after some ticks. -/
def switchedClient (ticks : List ℤ) : HttpClient :=
  (Call.request { method := "POST".toList, url := "http://h/a".toList
                  body := { body := some (.ok [1, 2]) }, hasOnDone := true } ::
    ticks.map Call.handle).foldl (fun s c => c.after switchingServer s) { config := {} }

lemma switchedClient_reaches (ticks : List ℤ) : Reaches switchingServer (switchedClient ticks) :=
  (Reaches.init {}).foldl _

/-- The POST is not streamed. -/
lemma switchedClient_allocReaches (ticks : List ℤ) :
    AllocReaches switchingServer (switchedClient ticks) := by
  have hticks : ∀ s, AllocReaches switchingServer s →
      AllocReaches switchingServer
        ((ticks.map Call.handle).foldl (fun s c => c.after switchingServer s) s) := by
    induction ticks with
    | nil => exact fun s hs => hs
    | cons tick ticks ih => exact fun s hs => ih _ (.call (.handle tick) hs trivial)
  exact hticks _ (.call _ (.init {}) fun _ _ _ _ _ _ _ _ _ _ _ hstream =>
    absurd hstream Bool.false_ne_true)

/-- The POST is done after three ticks, called its callback once and had three transports. -/
theorem request_lifecycle_switched :
    ∃ g, (switchedClient [1, 2, 3]).handles[0]? = some g ∧ g.done = true ∧ g.calls = 1 ∧
      g.transports = 3 ∧ HoldsNothing (switchedClient [1, 2, 3]) ∧
      Lifecycle switchingServer (switchedClient [1, 2, 3]) 0 g := by
  have hlife := request_lifecycle (switchedClient_allocReaches [1, 2, 3])
  have hhandle : ((switchedClient [1, 2, 3]).handles[0]?.any fun g =>
      g.returned ∧ g.done = true ∧ g.calls = 1 ∧ g.transports = 3) = true := by decide +kernel
  obtain ⟨g, hg, hhandle⟩ := (Option.any_eq_true _ _).mp hhandle
  obtain ⟨hreturned, hdone, hcalls, htransports⟩ := of_decide_eq_true hhandle
  have hidle : (switchedClient [1, 2, 3]).state = .idle := by decide +kernel
  exact ⟨g, hg, hdone, hcalls, htransports, hlife.1 hidle, hlife.2 0 g hg hreturned⟩

/-- **A window that cannot be allocated leaves an idle client with the connector of the request.**
-/
theorem connector_kept : ¬ ∀ env s, Reaches env s → s.state = .idle → HoldsNothing s := by
  intro h
  have hreaches : Reaches switchingServer ((Call.request { method := "GET".toList, url := "http://h/a".toList
                                                           stream := true }).after switchingServer
      { config := { streamBufferSize := -1 } }) := .call _ (.init _)
  have hconnector := (h _ _ hreaches (by decide +kernel)).connector_eq
  revert hconnector
  decide +kernel

/-- The POST is repeated behind the GET that the 303 has asked for. -/
theorem preserved_behind_switch : ∃ env s, Reaches env s ∧ ∃ g ∈ s.handles,
    g.hops = [⟨none, "POST".toList, some [1, 2]⟩, ⟨some 303, "GET".toList, none⟩,
      ⟨some 307, "POST".toList, some [1, 2]⟩] ∧ ¬ List.IsChain Hop.Follows g.hops := by
  refine ⟨switchingServer, switchedClient [1, 2, 3], switchedClient_reaches _, ?_⟩
  have hhops : (switchedClient [1, 2, 3]).handles.map (·.hops) =
      [[⟨none, "POST".toList, some [1, 2]⟩, ⟨some 303, "GET".toList, none⟩,
        ⟨some 307, "POST".toList, some [1, 2]⟩]] := by decide +kernel
  obtain ⟨g, hg, heq⟩ := List.mem_map.mp (hhops.symm ▸ List.mem_singleton_self _)
  refine ⟨g, hg, heq, ?_⟩
  rw [heq]
  decide +kernel

/-- The 303 alone is followed as it asks. -/
theorem redirects_preserve_iff_switched : ∃ g ∈ (switchedClient [1]).handles,
    g.hops = [⟨none, "POST".toList, some [1, 2]⟩, ⟨some 303, "GET".toList, none⟩] ∧
      List.IsChain Hop.Follows g.hops := by
  have hhops : (switchedClient [1]).handles.map (·.hops) =
      [[⟨none, "POST".toList, some [1, 2]⟩, ⟨some 303, "GET".toList, none⟩]] := by decide +kernel
  obtain ⟨g, hg, heq⟩ := List.mem_map.mp (hhops.symm ▸ List.mem_singleton_self _)
  refine ⟨g, hg, heq, ?_⟩
  exact ((redirects_preserve_iff (switchedClient_reaches [1]) hg heq).mpr
    (.inr (List.pairwise_singleton _ _))).1

end ChuMicro.Requests
