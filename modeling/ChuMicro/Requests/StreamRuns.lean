import ChuMicro.Requests.ClientRuns
import ChuMicro.Requests.StreamWindow

/-!
# Reading streamed bodies

Readers and the client share the window of a streamed body: the client feeds the parser, and a
reader drains it through the handle, in any order and with buffers of any sizes. What a reader has
got is always a beginning of the decoded body, and all of it once the request is done without an
error and nothing more comes. The window never overflows.

## Main definitions

* `Requests.HttpClient.received`, `Requests.HttpClient.taken` — what parsers were given and readers
  have got.
* `Requests.Windowed` — what holds of windows and handles, between two calls and within them.

## Main results

* `Requests.streamed_window` — every run of the calls of a client and its handles.
-/

namespace ChuMicro.Requests

open Prog Buffers ResponseParser

/-! ## What passes through a window -/

/-- The bytes that a parser was given. -/
def HttpClient.received (s : HttpClient) (parser : ℕ) : List UInt8 :=
  s.exchanges.flatMap fun
    | .received index data => if index = some parser then data else []
    | .read _ _ => []

/-- A parser was told that the peer has closed. -/
def HttpClient.closed (s : HttpClient) (parser : ℕ) : Prop :=
  .received (some parser) [] ∈ s.exchanges

/-- The bytes that the readers of a handle have got. -/
def HttpClient.taken (s : HttpClient) (handle : ℕ) : List UInt8 :=
  s.exchanges.flatMap fun
    | .received _ _ => []
    | .read index data => if index = handle then data else []

/-- The parser that a handle reads from. -/
def HttpClient.sourceOf (s : HttpClient) (handle : ℕ) : Option ℕ :=
  s.handles[handle]?.bind (·.bodySource)

/-! ## The invariant -/

/-- The window of the parser `k`, from which `base` has been drained. What was drained is what the
reader has got; where no handle reads from the parser of the client, it is what was discarded. -/
structure Window (env : Env) (s : HttpClient) (k : ℕ) (p : ResponseParser) (base : List UInt8) :
    Prop where
  tracks : p.Tracks env.lower s.config base (s.received k) (s.closed k)
  read : ∀ i, s.sourceOf i = some k → s.taken i = drained base p
  discarded : s.parser = some k → (∀ i, s.sourceOf i ≠ some k) →
    drained base p = [] ∨ p.headersComplete = true ∧ (followable env s p).isSome

/-- What a handle has to do with the windows. -/
structure Attached (s : HttpClient) (i : ℕ) (g : RequestHandle) : Prop where
  published : g.bodySource.isSome → g.stream = true ∧ g.response.isSome
  mode : s.handle = some i → g.stream = s.stream
  flight : s.handle = some i → s.stream = true → g.done = false → g.response.isSome →
    g.bodySource.isSome ∧ g.bodySource = s.parser
  finished : g.done = true → g.error = none → g.stream = true →
    ∃ k p, g.bodySource = some k ∧ s.parsers[k]? = some p ∧ p.state = .done

/-- What holds of the windows of a client and its handles. -/
structure Windowed (env : Env) (s : HttpClient) : Prop where
  current : ∀ k, s.parser = some k → ∃ p, s.parsers[k]? = some p ∧ p.streamBody = s.stream
  window : ∀ k p, s.parsers[k]? = some p → p.streamBody = true → ∃ base, Window env s k p base
  sourced : ∀ i k, s.sourceOf i = some k → ∃ p, s.parsers[k]? = some p ∧ p.streamBody = true
  owner : ∀ i k, s.sourceOf i = some k → s.parser = some k → s.handle = some i
  injective : ∀ i j k, s.sourceOf i = some k → s.sourceOf j = some k → i = j
  fresh : ∀ k, s.parsers.length ≤ k → s.received k = []
  unread : ∀ i, s.sourceOf i = none → s.taken i = []
  attached : ∀ i g, s.handles[i]? = some g → Attached s i g

open HttpClient

section Changes

variable {env : Env} {s t : HttpClient}

/-- A change of the handles that no window sees, with or without the parser of the client. -/
lemma Windowed.of_sources (h : Windowed env s)
    (heq : (t.parsers, t.exchanges, t.config) = (s.parsers, s.exchanges, s.config))
    (hparser : t.parser = none ∨ (t.parser, t.redirectsRemaining, t.stream, t.handle) =
      (s.parser, s.redirectsRemaining, s.stream, s.handle))
    (hsources : ∀ i, t.sourceOf i = s.sourceOf i)
    (hattached : ∀ i g, t.handles[i]? = some g → Attached t i g) : Windowed env t := by
  simp only [Prod.mk.injEq] at heq hparser
  obtain ⟨hparsers, hexchanges, hconfig⟩ := heq
  have hreceived : ∀ k, t.received k = s.received k := fun k => by
    unfold received
    rw [hexchanges]
  have hclosed : ∀ k, t.closed k = s.closed k := fun k => by
    unfold closed
    rw [hexchanges]
  have htaken : ∀ i, t.taken i = s.taken i := fun i => by
    unfold taken
    rw [hexchanges]
  refine ⟨fun k hk => ?_, fun k p hp hmode => ?_, fun i k hi => ?_, fun i k hi hk => ?_,
    fun i j k hi hj => ?_,
    fun k hk => ?_, fun i hi => ?_, hattached⟩
  · rcases hparser with hnone | ⟨hparser, -, hstream, -⟩
    · rw [hnone] at hk
      cases hk
    · rw [hparsers, hstream]
      exact h.current k (hparser ▸ hk)
  · rw [hparsers] at hp
    obtain ⟨base, hwindow⟩ := h.window k p hp hmode
    refine ⟨base, ?_, fun i hi => ?_, fun hk hnot => ?_⟩
    · rw [hconfig, hreceived, hclosed]
      exact hwindow.tracks
    · rw [htaken]
      exact hwindow.read i (hsources i ▸ hi)
    · rcases hparser with hnone | ⟨hparser, hredirects, -, -⟩
      · rw [hnone] at hk
        cases hk
      · have hfollow : followable env t p = followable env s p := by
          unfold followable
          rw [hredirects]
        rw [hfollow]
        exact hwindow.discarded (hparser ▸ hk) fun i => hsources i ▸ hnot i
  · rw [hparsers]
    exact h.sourced i k (hsources i ▸ hi)
  · rcases hparser with hnone | ⟨hparser, -, -, hhandle⟩
    · rw [hnone] at hk
      cases hk
    · rw [hhandle]
      exact h.owner i k (hsources i ▸ hi) (hparser ▸ hk)
  · exact h.injective i j k (hsources i ▸ hi) (hsources j ▸ hj)
  · rw [hreceived]
    exact h.fresh k (hparsers ▸ hk)
  · rw [htaken]
    exact h.unread i (hsources i ▸ hi)

/-- A change of the parser `k`, by what passes through its window. -/
lemma Windowed.set_parser {k : ℕ} {p q : ResponseParser} (h : Windowed env s)
    (hk : s.parsers[k]? = some p) (hparsers : t.parsers = s.parsers.set k q)
    (heq : (t.config, t.handles, t.handle, t.parser, t.stream, t.redirectsRemaining) =
      (s.config, s.handles, s.handle, s.parser, s.stream, s.redirectsRemaining))
    (hmode : q.streamBody = p.streamBody) (hdone : p.state = .done → q.state = .done)
    (hwindow : q.streamBody = true → ∃ base, Window env t k q base)
    (hreceived : ∀ j, j ≠ k → t.received j = s.received j ∧ t.closed j = s.closed j)
    (htaken : ∀ i, s.sourceOf i ≠ some k → t.taken i = s.taken i) : Windowed env t := by
  simp only [Prod.mk.injEq] at heq
  obtain ⟨hconfig, hhandles, hhandle, hparser, hstream, hredirects⟩ := heq
  have hlt : k < s.parsers.length := (List.getElem?_eq_some_iff.mp hk).1
  have hget : t.parsers[k]? = some q := by simp [hparsers, hlt]
  have hother : ∀ j, j ≠ k → t.parsers[j]? = s.parsers[j]? := fun j hj => by
    rw [hparsers, List.getElem?_set_ne (Ne.symm hj)]
  have hsources : ∀ i, t.sourceOf i = s.sourceOf i := fun i => by
    unfold sourceOf
    rw [hhandles]
  -- a parser keeps its mode, and its end
  have hkept : ∀ (j : ℕ) (r : ResponseParser), s.parsers[j]? = some r →
      ∃ r' : ResponseParser, t.parsers[j]? = some r' ∧ r'.streamBody = r.streamBody ∧
        (r.state = .done → r'.state = .done) := by
    intro j r hr
    by_cases hj : j = k
    · subst hj
      rw [hk] at hr
      cases hr
      exact ⟨q, hget, hmode, hdone⟩
    · exact ⟨r, (hother j hj).trans hr, rfl, id⟩
  refine ⟨fun j hj => ?_, fun j r hr hmode' => ?_, fun i j hi => ?_, fun i j hi hj => ?_,
    fun i i' j hi hi' => ?_, fun j hj => ?_, fun i hi => ?_, fun i g hg => ?_⟩
  · obtain ⟨r, hr, hr'⟩ := h.current j (hparser ▸ hj)
    obtain ⟨r', hget', hmode', -⟩ := hkept j r hr
    exact ⟨r', hget', by rw [hmode', hr', hstream]⟩
  · by_cases hj : j = k
    · subst hj
      rw [hget] at hr
      cases hr
      exact hwindow hmode'
    · rw [hother j hj] at hr
      obtain ⟨base, hold⟩ := h.window j r hr hmode'
      refine ⟨base, ?_, fun i hi => ?_, fun hj' hnot => ?_⟩
      · rw [hconfig, (hreceived j hj).1, (hreceived j hj).2]
        exact hold.tracks
      · rw [hsources i] at hi
        rw [htaken i (by rw [hi]; simpa using hj)]
        exact hold.read i hi
      · have hfollow : followable env t r = followable env s r := by
          unfold followable
          rw [hredirects]
        rw [hfollow]
        exact hold.discarded (hparser ▸ hj') fun i => hsources i ▸ hnot i
  · obtain ⟨r, hr, hr'⟩ := h.sourced i j (hsources i ▸ hi)
    obtain ⟨r', hget', hmode', -⟩ := hkept j r hr
    exact ⟨r', hget', hmode'.trans hr'⟩
  · rw [hhandle]
    exact h.owner i j (hsources i ▸ hi) (hparser ▸ hj)
  · exact h.injective i i' j (hsources i ▸ hi) (hsources i' ▸ hi')
  · rw [hparsers, List.length_set] at hj
    rw [(hreceived j (by omega)).1]
    exact h.fresh j hj
  · rw [hsources i] at hi
    rw [htaken i (by simp [hi])]
    exact h.unread i hi
  · obtain ⟨hpub, hmode', hflight, hfinished⟩ := h.attached i g (hhandles ▸ hg)
    refine ⟨hpub, fun hi => ?_, fun hi hs => ?_, fun hd he hs => ?_⟩
    · rw [hstream]
      exact hmode' (hhandle ▸ hi)
    · rw [hparser]
      exact hflight (hhandle ▸ hi) (hstream ▸ hs)
    · obtain ⟨j, r, hj, hr, hstate⟩ := hfinished hd he hs
      obtain ⟨r', hget', -, hdone'⟩ := hkept j r hr
      exact ⟨j, r', hj, hget', hdone' hstate⟩

variable {i : ℕ} {g : RequestHandle}

/-- The fields that a handle's part in the windows depends on. -/
lemma Attached.of_eq (h : Attached s i g)
    (heq : (t.handle, t.stream, t.parser, t.parsers) = (s.handle, s.stream, s.parser, s.parsers)) :
    Attached t i g := by
  simp only [Prod.mk.injEq] at heq
  obtain ⟨hhandle, hstream, hparser, hparsers⟩ := heq
  refine ⟨h.published, fun hi => ?_, fun hi hs => ?_, ?_⟩
  · rw [hstream]
    exact h.mode (hhandle ▸ hi)
  · rw [hparser]
    exact h.flight (hhandle ▸ hi) (hstream ▸ hs)
  · rw [hparsers]
    exact h.finished

/-- A handle that the client has nothing to do with. -/
lemma Attached.of_none (h : Attached s i g) (hhandle : t.handle = none)
    (hparsers : t.parsers = s.parsers) : Attached t i g := by
  refine ⟨h.published, fun hi => ?_, fun hi => ?_, ?_⟩
  · rw [hhandle] at hi
    cases hi
  · rw [hhandle] at hi
    cases hi
  · rw [hparsers]
    exact h.finished

/-- Fields that no window depends on. -/
lemma Windowed.of_eq (h : Windowed env s)
    (heq : (t.parsers, t.exchanges, t.config, t.parser, t.redirectsRemaining, t.stream, t.handle,
      t.handles) =
      (s.parsers, s.exchanges, s.config, s.parser, s.redirectsRemaining, s.stream, s.handle, s.handles)) :
    Windowed env t := by
  simp only [Prod.mk.injEq] at heq
  obtain ⟨h₁, h₂, h₃, h₄, h₅, h₆, h₇, h₈⟩ := heq
  refine h.of_sources (by rw [h₁, h₂, h₃]) (.inr (by rw [h₄, h₅, h₆, h₇])) (fun i => ?_) fun i g hg => ?_
  · unfold sourceOf
    rw [h₈]
  · exact (h.attached i g (h₈ ▸ hg)).of_eq (by rw [h₁, h₄, h₆, h₇])

/-- What becomes of a handle in a list of them. -/
lemma getElem?_modify_cases {handles : List RequestHandle} {f : RequestHandle → RequestHandle}
    {j : ℕ} (h : (handles.modify j f)[i]? = some g) :
    (i = j ∧ ∃ g', handles[j]? = some g' ∧ g = f g') ∨ i ≠ j ∧ handles[i]? = some g := by
  by_cases hij : i = j
  · subst hij
    rw [List.getElem?_modify_eq] at h
    obtain ⟨g', hg', rfl⟩ := Option.map_eq_some_iff.mp h
    exact .inl ⟨rfl, g', hg', rfl⟩
  · rw [List.getElem?_modify_ne _ _ (Ne.symm hij)] at h
    exact .inr ⟨hij, h⟩

/-- A change of a handle that reads from where it did. -/
lemma Windowed.modifyHandle {j : ℕ} {f : RequestHandle → RequestHandle} (h : Windowed env s)
    (hf : ∀ g, (f g).bodySource = g.bodySource)
    (hattached : ∀ g, s.handles[j]? = some g → Attached s j g → Attached s j (f g)) :
    Windowed env { s with handles := s.handles.modify j f } := by
  refine h.of_sources rfl (.inr rfl) (fun i => ?_) fun i g hg => ?_
  · unfold sourceOf
    by_cases hij : j = i
    · subst hij
      rw [List.getElem?_modify_eq]
      cases s.handles[j]? with
      | none => rfl
      | some g => exact hf g
    · dsimp only
      rw [List.getElem?_modify_ne _ _ hij]
  · rcases getElem?_modify_cases hg with ⟨rfl, g', hg', rfl⟩ | ⟨-, hg⟩
    · exact (hattached g' hg' (h.attached _ g' hg')).of_eq rfl
    · exact (h.attached i g hg).of_eq rfl

/-- A change of what nobody asks a handle about its body. -/
lemma Windowed.tell {j : ℕ} {f : RequestHandle → RequestHandle} (h : Windowed env s)
    (hf : ∀ g, ((f g).bodySource, (f g).stream, (f g).response, (f g).done, (f g).error) =
      (g.bodySource, g.stream, g.response, g.done, g.error)) :
    Windowed env { s with handles := s.handles.modify j f } := by
  have hfields := fun g => by simpa only [Prod.mk.injEq] using hf g
  refine h.modifyHandle (fun g => (hfields g).1) fun g _ hg => ?_
  obtain ⟨h₁, h₂, h₃, h₄, h₅⟩ := hfields g
  refine ⟨?_, ?_, ?_, ?_⟩
  · rw [h₁, h₂, h₃]
    exact hg.published
  · rw [h₂]
    exact hg.mode
  · rw [h₁, h₃, h₄]
    exact hg.flight
  · rw [h₁, h₂, h₄, h₅]
    exact hg.finished

/-- The client lets go of its parser and its handle. -/
lemma Windowed.drop (h : Windowed env s)
    (heq : (t.parsers, t.exchanges, t.config, t.handles) = (s.parsers, s.exchanges, s.config, s.handles))
    (hparser : t.parser = none) (hhandle : t.handle = none) : Windowed env t := by
  simp only [Prod.mk.injEq] at heq
  obtain ⟨h₁, h₂, h₃, h₄⟩ := heq
  refine h.of_sources (by rw [h₁, h₂, h₃]) (.inl hparser) (fun i => ?_) fun i g hg => ?_
  · unfold sourceOf
    rw [h₄]
  · exact (h.attached i g (h₄ ▸ hg)).of_none hhandle h₁

/-- Nothing is published for the request in flight. -/
def Loose (s : HttpClient) : Prop :=
  ∀ i g, s.handle = some i → s.handles[i]? = some g → s.stream = true → g.done = false →
    g.response = none

/-- The client lets go of its parser, between two hops. -/
lemma Windowed.release (h : Windowed env s) (hloose : Loose s)
    (heq : (t.parsers, t.exchanges, t.config, t.handles, t.handle, t.stream) =
      (s.parsers, s.exchanges, s.config, s.handles, s.handle, s.stream)) (hparser : t.parser = none) :
    Windowed env t := by
  simp only [Prod.mk.injEq] at heq
  obtain ⟨h₁, h₂, h₃, h₄, h₅, h₆⟩ := heq
  refine h.of_sources (by rw [h₁, h₂, h₃]) (.inl hparser) (fun i => ?_) fun i g hg => ?_
  · unfold sourceOf
    rw [h₄]
  · rw [h₄] at hg
    obtain ⟨hpub, hmode, hflight, hfinished⟩ := h.attached i g hg
    refine ⟨hpub, fun hi => ?_, fun hi hs hd hr => ?_, by rw [h₁]; exact hfinished⟩
    · rw [h₆]
      exact hmode (h₅ ▸ hi)
    · have hnone := hloose i g (h₅ ▸ hi) hg (h₆ ▸ hs) hd
      simp [hnone] at hr

/-- **A new hop has a window of its own**, which nobody reads from. -/
lemma Windowed.push_parser (h : Windowed env s) (hloose : Loose s)
    (heq : (t.exchanges, t.config, t.handles, t.handle, t.stream) =
      (s.exchanges, s.config, s.handles, s.handle, s.stream))
    (hparsers : t.parsers = s.parsers ++ [hopParser s.config s.stream])
    (hparser : t.parser = some s.parsers.length) : Windowed env t := by
  simp only [Prod.mk.injEq] at heq
  obtain ⟨hexchanges, hconfig, hhandles, hhandle, hstream⟩ := heq
  have hreceived : ∀ k, t.received k = s.received k := fun k => by
    unfold received
    rw [hexchanges]
  have hclosed : ∀ k, t.closed k = s.closed k := fun k => by
    unfold closed
    rw [hexchanges]
  have htaken : ∀ i, t.taken i = s.taken i := fun i => by
    unfold taken
    rw [hexchanges]
  have hsources : ∀ i, t.sourceOf i = s.sourceOf i := fun i => by
    unfold sourceOf
    rw [hhandles]
  have hold : ∀ (k : ℕ) (p : ResponseParser), s.parsers[k]? = some p → t.parsers[k]? = some p :=
    fun k p hp => by
      rw [hparsers, List.getElem?_append_left (List.getElem?_eq_some_iff.mp hp).1, hp]
  have hnew : t.parsers[s.parsers.length]? = some (hopParser s.config s.stream) := by
    rw [hparsers]
    simp
  -- no handle reads from the new parser
  have hlt : ∀ i k, s.sourceOf i = some k → k < s.parsers.length := fun i k hi => by
    obtain ⟨p, hp, -⟩ := h.sourced i k hi
    exact (List.getElem?_eq_some_iff.mp hp).1
  refine ⟨fun k hk => ?_, fun k p hp hmode => ?_, fun i k hi => ?_, fun i k hi hk => ?_,
    fun i j k hi hj => ?_,
    fun k hk => ?_, fun i hi => ?_, fun i g hg => ?_⟩
  · rw [hparser] at hk
    cases hk
    exact ⟨_, hnew, hstream.symm⟩
  · by_cases hk : k < s.parsers.length
    · rw [hparsers, List.getElem?_append_left hk] at hp
      obtain ⟨base, hwindow⟩ := h.window k p hp hmode
      refine ⟨base, ?_, fun i hi => ?_, fun hk' => ?_⟩
      · rw [hconfig, hreceived, hclosed]
        exact hwindow.tracks
      · rw [htaken]
        exact hwindow.read i (hsources i ▸ hi)
      · rw [hparser] at hk'
        have := Option.some.inj hk'
        omega
    · have hk' : k = s.parsers.length := by
        have hlen := (List.getElem?_eq_some_iff.mp hp).1
        rw [hparsers, List.length_append, List.length_singleton] at hlen
        omega
      subst hk'
      rw [hnew] at hp
      cases hp
      have hs : s.stream = true := hmode
      refine ⟨[], ?_, fun i hi => ?_, fun _ _ => .inl rfl⟩
      · rw [hreceived, h.fresh _ le_rfl, hconfig, hs]
        exact tracks_hopParser env.lower s.config _
      · have := hlt i _ (hsources i ▸ hi)
        omega
  · obtain ⟨p, hp, hmode⟩ := h.sourced i k (hsources i ▸ hi)
    exact ⟨p, hold k p hp, hmode⟩
  · have := hlt i k (hsources i ▸ hi)
    rw [hparser] at hk
    have := Option.some.inj hk
    omega
  · exact h.injective i j k (hsources i ▸ hi) (hsources j ▸ hj)
  · rw [hreceived]
    rw [hparsers, List.length_append] at hk
    exact h.fresh k (by omega)
  · rw [htaken]
    exact h.unread i (hsources i ▸ hi)
  · rw [hhandles] at hg
    obtain ⟨hpub, hmode, -, hfinished⟩ := h.attached i g hg
    refine ⟨hpub, fun hi => ?_, fun hi hs hd hr => ?_, fun hd he hs => ?_⟩
    · rw [hstream]
      exact hmode (hhandle ▸ hi)
    · have hnone := hloose i g (hhandle ▸ hi) hg (hstream ▸ hs) hd
      simp [hnone] at hr
    · obtain ⟨k, p, hk, hp, hdone⟩ := hfinished hd he hs
      exact ⟨k, p, hk, hold k p hp, hdone⟩

/-- **A window is published once**: nothing has been discarded from it, and no other handle reads
from it. -/
lemma Windowed.publish {k : ℕ} {p : ResponseParser} (h : Windowed env s) (response : Response)
    (hhandle : s.handle = some i) (hg : s.handles[i]? = some g) (hnone : g.response = none)
    (hk : s.parser = some k) (hp : s.parsers[k]? = some p) (hstream : s.stream = true)
    (hfollow : ¬ (followable env s p).isSome) :
    Windowed env { s with handles := s.handles.modify i fun g =>
      { g with response := some response, bodySource := s.parser } } := by
  set t : HttpClient := { s with handles := s.handles.modify i fun g =>
    { g with response := some response, bodySource := s.parser } } with ht
  have hattached := h.attached i g hg
  have hunset : g.bodySource = none := by
    by_contra hset
    have := (hattached.published (Option.isSome_iff_ne_none.mpr hset)).2
    simp [hnone] at this
  have hmode : g.stream = true := (hattached.mode hhandle).trans hstream
  have hsource : t.sourceOf i = some k := by
    simp [ht, sourceOf, hg, hk]
  have hsame : ∀ j, j ≠ i → t.sourceOf j = s.sourceOf j := fun j hj => by
    rw [ht]
    unfold sourceOf
    dsimp only
    rw [List.getElem?_modify_ne _ _ (Ne.symm hj)]
  have hfree : s.sourceOf i = none := by
    unfold sourceOf
    rw [hg]
    exact hunset
  -- the parser of the client is the source of the handle in flight only
  have hother : ∀ j, s.sourceOf j ≠ some k := fun j hj => by
    have howner := h.owner j k hj hk
    rw [hhandle] at howner
    rw [← Option.some.inj howner, hfree] at hj
    cases hj
  obtain ⟨p', hp', hpmode⟩ := h.current k hk
  rw [hp] at hp'
  cases hp'
  rw [hstream] at hpmode
  refine ⟨h.current, fun k' q hq hqmode => ?_, fun j k' hj => ?_, fun j k' hj hk' => ?_,
    fun j j' k' hj hj' => ?_, h.fresh, fun j hj => ?_, fun j g' hg' => ?_⟩
  · obtain ⟨base, hwindow⟩ := h.window k' q hq hqmode
    refine ⟨base, hwindow.tracks, fun j hj => ?_, fun hk' hnot => ?_⟩
    · by_cases hji : j = i
      · subst hji
        rw [hsource] at hj
        cases hj
        rw [hp] at hq
        cases hq
        have hempty := (hwindow.discarded hk hother).resolve_right fun hd => hfollow hd.2
        exact (h.unread j hfree).trans hempty.symm
      · exact hwindow.read j (hsame j hji ▸ hj)
    · have hk'' : s.parser = some k' := hk'
      rw [hk] at hk''
      cases hk''
      exact absurd hsource (hnot i)
  · by_cases hji : j = i
    · subst hji
      rw [hsource] at hj
      cases hj
      exact ⟨p, hp, hpmode⟩
    · exact h.sourced j k' (hsame j hji ▸ hj)
  · by_cases hji : j = i
    · exact hji ▸ hhandle
    · exact h.owner j k' (hsame j hji ▸ hj) hk'
  · by_cases hji : j = i
    · by_cases hji' : j' = i
      · exact hji.trans hji'.symm
      · rw [hji, hsource] at hj
        cases hj
        exact absurd (hsame j' hji' ▸ hj') (hother j')
    · by_cases hji' : j' = i
      · rw [hji', hsource] at hj'
        cases hj'
        exact absurd (hsame j hji ▸ hj) (hother j)
      · exact h.injective j j' k' (hsame j hji ▸ hj) (hsame j' hji' ▸ hj')
  · refine h.unread j (hsame j ?_ ▸ hj)
    rintro rfl
    rw [hsource] at hj
    cases hj
  · rcases getElem?_modify_cases hg' with ⟨rfl, g'', hg'', rfl⟩ | ⟨-, hg'⟩
    · rw [hg] at hg''
      cases hg''
      refine ⟨fun _ => ⟨hmode, rfl⟩, hattached.mode, fun _ _ _ _ => ⟨by simp [hk], rfl⟩,
        fun hd he hs => ?_⟩
      obtain ⟨k', q, hk', -⟩ := hattached.finished hd he hs
      rw [hunset] at hk'
      cases hk'
    · exact (h.attached j g' hg').of_eq rfl

end Changes

/-! ## Failing and starting hops -/

/-- The transports raise none of the exceptions of the library. -/
structure Env.Foreign (env : Env) : Prop where
  connector : ∀ n e, env.connectorTick n = .raises e → isHttpError e = false
  send : ∀ n e, env.send n = .raises e → isHttpError e = false
  recv : ∀ n e, env.recv n = .raises e → isHttpError e = false

/-- What a part of a call leaves behind when it raises: a streamed body is not too large. -/
def Raised (env : Env) (e : HttpError) (t : HttpClient) : Prop :=
  Windowed env t ∧ (t.stream = true → ∀ message length, e ≠ .oversizedError message length)

section Parts

variable {env : Env} {s : HttpClient}

/-- An exception of somebody else. -/
lemma Windowed.raised (h : Windowed env s) {e : HttpError} (he : isHttpError e = false) :
    Raised env e s := by
  refine ⟨h, fun _ message length heq => ?_⟩
  rw [heq] at he
  cases he

lemma windowed_currentParser (h : Windowed env s) :
    wp currentParser (fun p t => t = s ∧ ∃ k, s.parser = some k ∧ s.parsers[k]? = some p)
      (fun e t => Raised env e t) s := by
  unfold currentParser
  rw [wp_bind, wp_get]
  split
  · next p hp =>
    obtain ⟨k, hk, hp⟩ := Option.bind_eq_some_iff.mp hp
    exact ⟨rfl, k, hk, hp⟩
  · exact h.raised rfl

/-- The handle of the request in flight, when it is completed. -/
lemma windowed_modifyCurrent {f : RequestHandle → RequestHandle} (h : Windowed env s)
    (hf : ∀ g, (f g).bodySource = g.bodySource)
    (hattached : ∀ i g, s.handle = some i → s.handles[i]? = some g → Attached s i g → Attached s i (f g)) :
    wp (modifyCurrent f) (fun _ t => Windowed env t) (fun e t => Raised env e t) s := by
  unfold modifyCurrent
  rw [wp_bind, wp_get]
  split
  · next i hi => exact h.modifyHandle hf fun g hg => hattached i g hi hg
  · exact h.raised rfl

lemma windowed_setError (error : HttpError) (h : Windowed env s) :
    wp (setError error) (fun _ t => Windowed env t) (fun e t => Raised env e t) s := by
  refine windowed_modifyCurrent h (fun _ => rfl) fun i g _ _ hg => ?_
  exact ⟨hg.published, hg.mode, fun _ _ hd => (by cases hd), fun _ he => (by cases he)⟩

/-- The request in flight may be completed: what is published for it has come to its end. -/
def Ends (s : HttpClient) : Prop :=
  ∀ i g, s.handle = some i → s.handles[i]? = some g → s.stream = true → g.error = none →
    ∃ k p, g.bodySource = some k ∧ s.parsers[k]? = some p ∧ p.state = .done

lemma windowed_setResponse (response : Response) (h : Windowed env s) (hends : Ends s) :
    wp (setResponse response) (fun _ t => Windowed env t) (fun e t => Raised env e t) s := by
  refine windowed_modifyCurrent h (fun _ => rfl) fun i g hi hg hat => ?_
  refine ⟨fun hsource => ⟨(hat.published hsource).1, rfl⟩, hat.mode,
    fun _ _ hd => (by cases hd), fun _ he hs => ?_⟩
  exact hends i g hi hg ((hat.mode hi).symm.trans hs) he

lemma windowed_resetSocket (h : Windowed env s) :
    wp resetSocket (fun _ t => Windowed env t) (fun _ _ => False) s := by
  unfold resetSocket closeSocketOnly
  rw [wp_bind, wp_modify, wp_modify]
  exact h.drop rfl rfl rfl

lemma windowed_failRequest (error : HttpError) (h : Windowed env s) :
    wp (failRequest error) (fun _ t => Windowed env t) (fun e t => Raised env e t) s := by
  unfold failRequest
  rw [wp_bind, wp_get, wp_bind, wp_when]
  refine ⟨fun _ => ?_, fun _ => ?_⟩
  · refine wp_mono (windowed_setError error h) (fun _ t ht => ?_) fun _ _ ht => ht
    exact wp_mono (windowed_resetSocket ht) (fun _ _ hu => hu) fun _ _ hu => hu.elim
  · exact wp_mono (windowed_resetSocket h) (fun _ _ hu => hu) fun _ _ hu => hu.elim

/-- A body that is dropped was not streamed. -/
lemma windowed_completeOversizedDrop (h : Windowed env s) (hstream : s.stream = false) :
    wp completeOversizedDrop (fun _ t => Windowed env t) (fun e t => Raised env e t) s := by
  unfold completeOversizedDrop
  rw [wp_bind]
  refine wp_mono (windowed_currentParser h) (fun p t ht => ?_) fun _ _ ht => ht
  obtain ⟨rfl, -⟩ := ht
  rw [wp_bind, wp_get, wp_bind]
  have hends : Ends t := fun i g _ _ hs => by
    rw [hstream] at hs
    cases hs
  refine wp_mono (windowed_setResponse _ h hends) (fun _ u hu => ?_) fun _ _ hu => hu
  exact wp_mono (windowed_resetSocket hu) (fun _ _ hv => hv) fun _ _ hv => hv.elim

/-- **A failure** keeps what holds of the windows. -/
lemma windowed_fail {error : HttpError} (h : Raised env error s) :
    wp (fail env error) (fun _ t => Windowed env t) (fun e t => Raised env e t) s := by
  obtain ⟨hwindowed, hsmall⟩ := h
  unfold fail
  rw [wp_bind, wp_get]
  have hbuffered : ∀ message length, error = .oversizedError message length → s.stream = false := by
    intro message length heq
    by_contra hs
    exact hsmall (by simpa using hs) message length heq
  split
  · next message length _ => exact windowed_completeOversizedDrop hwindowed (hbuffered _ _ rfl)
  · next message length _ =>
    unfold fireOversized
    simp only [wp_bind, wp_get, wp_modify]
    have hstream := hbuffered _ _ rfl
    have hnoted : ∀ events, Windowed env { s with oversizedEvents := events } := fun _ =>
      hwindowed.of_eq rfl
    split
    · refine ⟨hnoted _, fun hs => ?_⟩
      rw [hstream] at hs
      cases hs
    · rw [wp_pure]
      exact windowed_completeOversizedDrop (hnoted _) hstream
  · exact windowed_failRequest _ hwindowed

lemma windowed_noteHop (hop : Hop) (h : Windowed env s) :
    wp (noteHop hop) (fun _ t => Windowed env t ∧ t.parser = s.parser ∧ (Loose s → Loose t))
      (fun _ _ => False) s := by
  unfold noteHop
  rw [wp_modify]
  cases hi : s.handle with
  | none => exact ⟨h.of_eq (by simp only [hi]), rfl, fun _ i g hi' => by simp at hi'⟩
  | some i =>
    refine ⟨?_, rfl, ?_⟩
    · have htold := @Windowed.tell env s i (fun h => { h with
        transports := h.transports + 1, deadlines := h.deadlines ++ [s.deadlineTicks]
        hops := h.hops ++ [hop] }) h fun _ => rfl
      exact htold.of_eq (by simp only [hi])
    · intro hloose j g hj hg hs hd
      rcases getElem?_modify_cases hg with ⟨rfl, g', hg', rfl⟩ | ⟨-, hg⟩
      · exact hloose _ g' (hi.trans hj) hg' hs hd
      · exact hloose j g (hi.trans hj) hg hs hd

/-- **A hop that starts** has a window of its own; one that does not changes no parser. -/
lemma windowed_startHop (status : Option ℤ) (url method : Str) (body : Option (List UInt8))
    (headers : Option (List (Str × Str))) (json : Bool) (h : Windowed env s) (hloose : Loose s) :
    wp (startHop env status url method body headers json) (fun _ t => Windowed env t)
      (fun _ t => Windowed env t ∧ t.parser = s.parser) s := by
  unfold startHop
  simp only [wp_bind, wp_get]
  cases parseUrl url with
  | error e => exact ⟨h, rfl⟩
  | ok parts =>
    rw [wp_lift_ok]
    generalize encodeRequest env.lower method parts.hostHeader parts.path _ body _ = request
    cases request with
    | error e => exact ⟨h, rfl⟩
    | ok bytes =>
      rw [wp_lift_ok]
      refine wp_mono (windowed_noteHop _ h) (fun _ t ht => ?_) fun _ _ ht => ht.elim
      obtain ⟨hwindowed, hparser, hloose'⟩ := ht
      have hloose := hloose' hloose
      unfold openTransport
      rw [wp_bind, wp_get]
      split
      · exact ⟨hwindowed.of_eq rfl, hparser⟩
      · rw [wp_bind, wp_modify, wp_pure, wp_modify, wp_when]
        refine ⟨fun _ => wp_allocateWindow (fun _ _ => ?_) fun _ _ => ⟨hwindowed.of_eq rfl, hparser⟩,
          fun _ => ?_⟩
        · exact hwindowed.push_parser hloose rfl rfl rfl
        · exact hwindowed.push_parser hloose rfl rfl rfl

/-- **A redirect** goes on with another window, when nothing was published. -/
lemma windowed_followRedirect (status : Option ℤ) (location : Str) (h : Windowed env s)
    (hloose : Loose s) :
    wp (followRedirect env status location) (fun _ t => Windowed env t) (fun e t => Raised env e t)
      s := by
  have hend : ∀ e t, Windowed env t → wp (do setError e; resetSocket) (fun _ u => Windowed env u)
      (fun e u => Raised env e u) t := by
    intro e t ht
    rw [wp_bind]
    refine wp_mono (windowed_setError e ht) (fun _ u hu => ?_) fun _ _ hu => hu
    exact wp_mono (windowed_resetSocket hu) (fun _ _ hv => hv) fun _ _ hv => hv.elim
  unfold followRedirect
  rw [wp_bind, wp_get]
  split
  · next e _ =>
    rw [wp_ite, wp_throw]
    exact ⟨fun _ => hend e s h, fun hnot => h.raised (by simpa using hnot)⟩
  · unfold closeSocketOnly
    simp only [wp_bind, wp_modify, wp_tryCatch]
    refine wp_mono (windowed_startHop status _ _ _ _ _ (h.release hloose rfl rfl) ?_)
      (fun _ _ ht => ht) fun e t ht => ?_
    · exact fun i g hi hg hs hd => hloose i g hi hg hs hd
    · have := hend (redirectFailure env e) t ht.1
      rwa [wp_bind] at this

end Parts

/-! ## Receiving -/

section Receiving

variable {env : Env} {s t : HttpClient} {k : ℕ} {p q : ResponseParser} {data : List UInt8}

/-- Bringing a stream up to date keeps the state of its parser. -/
lemma windowed_syncStreamState (h : Windowed env s) (hk : s.parser = some k)
    (hp : s.parsers[k]? = some p) (hstream : s.stream = true) :
    wp (syncStreamState env) (fun _ t => Windowed env t ∧
      (t.parser, t.stream, t.handle) = (s.parser, s.stream, s.handle) ∧
      ∃ q : ResponseParser, t.parsers[k]? = some q ∧ q.state = p.state) (fun e t => Raised env e t) s := by
  unfold syncStreamState
  rw [wp_bind, wp_currentParser hk hp, wp_bind, wp_get, wp_ite, wp_pure]
  refine ⟨fun _ => ⟨h, rfl, p, hp, rfl⟩, fun hpast => ?_⟩
  rw [not_or] at hpast
  rw [wp_ite, wp_pure]
  refine ⟨fun _ => ⟨h, rfl, p, hp, rfl⟩, fun hunpublished => ?_⟩
  rw [wp_ite]
  refine ⟨fun hfollow => ?_, fun hfollow => ?_⟩
  · unfold setParser
    simp only [wp_modify, hk]
    have hlt : k < s.parsers.length := (List.getElem?_eq_some_iff.mp hp).1
    have hget : (s.parsers.set k p.discardBody)[k]? = some p.discardBody := by simp [hlt]
    refine ⟨?_, trivial, p.discardBody, hget, rfl⟩
    -- nobody reads from a window whose body is discarded
    have hfree : ∀ i, s.sourceOf i ≠ some k := fun i hi => by
      have howner := h.owner i k hi hk
      obtain ⟨g, hg, hsource⟩ := Option.bind_eq_some_iff.mp hi
      have hresponse := ((h.attached i g hg).published (by simp [hsource])).2
      exact hunpublished (by simpa [howner, hg] using hresponse)
    refine h.set_parser hp rfl (by simp only [hk]) rfl id (fun hmode => ?_) (fun _ _ => ⟨rfl, rfl⟩)
      fun _ _ => rfl
    obtain ⟨base, hwindow⟩ := h.window k p hp hmode
    refine ⟨base ++ p.body, hwindow.tracks.empty, fun i hi => absurd hi (hfree i), fun _ _ => .inr ?_⟩
    exact ⟨by simpa [discardBody] using hpast.1, hfollow⟩
  · unfold publishStream modifyCurrent
    rw [wp_bind, wp_get, wp_bind, wp_get]
    split
    · next i hi =>
      refine ⟨?_, rfl, p, hp, rfl⟩
      cases hg : s.handles[i]? with
      | none =>
        have hsame : s.handles.modify i (fun g => { g with
            response := some { responseOf p [] s.url with streamed := true }
            bodySource := s.parser }) = s.handles := by
          refine List.modify_eq_self ?_
          simpa using hg
        exact h.of_eq (by simp only [hsame])
      | some g =>
        have hnone : g.response = none := by
          simpa [hi, hg] using hunpublished
        exact h.publish _ hi hg hnone hk hp hstream hfollow
    · exact h.raised rfl

/-- **A response that is complete** ends the request or leads to the next hop. -/
lemma windowed_complete (h : Windowed env s) (hk : s.parser = some k) (hp : s.parsers[k]? = some p)
    (hdone : p.state = .done) :
    wp (complete env) (fun _ t => Windowed env t) (fun e t => Raised env e t) s := by
  have hend : ∀ response t, Windowed env t → Ends t →
      wp (do setResponse response; resetSocket) (fun _ u => Windowed env u)
        (fun e u => Raised env e u) t := by
    intro response t ht hends
    rw [wp_bind]
    refine wp_mono (windowed_setResponse response ht hends) (fun _ u hu => ?_) fun _ _ hu => hu
    exact wp_mono (windowed_resetSocket hu) (fun _ _ hv => hv) fun _ _ hv => hv.elim
  unfold complete
  rw [wp_bind, wp_currentParser hk hp, wp_bind, wp_get, wp_ite]
  refine ⟨fun hstream => ?_, fun hstream => ?_⟩
  · unfold completeStream
    rw [wp_bind]
    refine wp_mono (windowed_syncStreamState h hk hp hstream) (fun _ t ht => ?_) fun _ _ ht => ht
    obtain ⟨ht, heq, q, hq, hstate⟩ := ht
    simp only [Prod.mk.injEq] at heq
    have hk' : t.parser = some k := heq.1.trans hk
    rw [wp_bind, wp_currentParser hk' hq, wp_bind, wp_get]
    split
    · next hnone =>
      refine windowed_followRedirect _ _ ht fun i g hi hg _ _ => ?_
      simpa [hi, hg] using hnone
    · next response hresponse =>
      refine hend _ t ht fun i g hi hg hs herror => ?_
      have hsome : g.response = some response := by simpa [hi, hg] using hresponse
      have hat := ht.attached i g hg
      by_cases hfinished : g.done = true
      · exact hat.finished hfinished herror ((hat.mode hi).trans hs)
      · obtain ⟨-, hsource⟩ := hat.flight hi hs (by simpa using hfinished) (by simp [hsome])
        exact ⟨k, q, hsource.trans hk', hq, hstate.trans hdone⟩
  · have hloose : Loose s := fun _ _ _ _ hs => absurd hs hstream
    split
    · exact windowed_followRedirect _ _ h hloose
    · exact hend _ s h fun _ _ _ _ hs => absurd hs hstream

/-- **What the client receives** goes to its own parser. -/
lemma Windowed.receive (h : Windowed env s) (hk : s.parser = some k) (hp : s.parsers[k]? = some p)
    (hparsers : t.parsers = s.parsers.set k q)
    (hexchanges : t.exchanges = s.exchanges ++ [Exchange.received (some k) data])
    (heq : (t.config, t.handles, t.handle, t.parser, t.stream, t.redirectsRemaining) =
      (s.config, s.handles, s.handle, s.parser, s.stream, s.redirectsRemaining))
    (hmode : q.streamBody = p.streamBody) (hstate : p.state ≠ .done)
    (hq : p.streamBody = true → ∀ base,
      p.Tracks env.lower s.config base (s.received k) (s.closed k) →
      q.Tracks env.lower s.config base (s.received k ++ data) (s.closed k ∨ data = []) ∧
        drained base q = drained base p ∧
        ResponseFields.KeepsHead p.toResponseFields q.toResponseFields) : Windowed env t := by
  have hreceived : ∀ j, t.received j = s.received j ++ if k = j then data else [] := fun j => by
    simp [received, hexchanges, List.flatMap_append]
  have hclosed : ∀ j, t.closed j = (s.closed j ∨ j = k ∧ data = []) := fun j => by
    simp only [closed, hexchanges, List.mem_append, List.mem_singleton,
      Exchange.received.injEq, Option.some.injEq, eq_comm (a := data)]
  have htaken : ∀ i, t.taken i = s.taken i := fun i => by
    simp [taken, hexchanges, List.flatMap_append]
  refine h.set_parser hp hparsers heq hmode (fun hd => absurd hd hstate) (fun hs => ?_) (fun j hj => ?_)
    fun i _ => htaken i
  · simp only [Prod.mk.injEq] at heq
    obtain ⟨hconfig, hhandles, -, hparser, -, hredirects⟩ := heq
    have hsources : ∀ i, t.sourceOf i = s.sourceOf i := fun i => by
      unfold sourceOf
      rw [hhandles]
    obtain ⟨base, hwindow⟩ := h.window k p hp (hmode.symm.trans hs)
    obtain ⟨htracks, hdrained, hkeeps⟩ := hq (hmode.symm.trans hs) base hwindow.tracks
    refine ⟨base, ?_, fun i hi => ?_, fun _ hnot => ?_⟩
    · rw [hreceived, hclosed, hconfig, if_pos rfl]
      simpa using htracks
    · rw [htaken, hdrained]
      exact hwindow.read i (hsources i ▸ hi)
    · rw [hdrained]
      refine (hwindow.discarded hk fun i => hsources i ▸ hnot i).imp_right fun ⟨hc, hfollow⟩ => ?_
      obtain ⟨hc', hcode, hheaders⟩ := hkeeps hc
      refine ⟨hc', ?_⟩
      unfold followable at hfollow ⊢
      rwa [hredirects, hcode, hheaders]
  · rw [hreceived, hclosed, if_neg (Ne.symm hj), List.append_nil]
    exact ⟨rfl, propext ⟨fun hc => hc.resolve_right fun hcon => hj hcon.1, .inl⟩⟩

/-- A round asks for no more than the window has room for. -/
lemma recvCapacity_le (config : Config) (p : ResponseParser) (consumed : ℕ) :
    recvCapacity config true p consumed ≤ p.bodyFree := by
  unfold recvCapacity
  dsimp only
  rw [if_pos rfl]
  exact min_le_right _ _

/-- **Receiving** keeps what holds of the windows. -/
lemma windowed_driveRecvLoop (henv : env.Foreign) (rounds consumed : ℕ) (h : Windowed env s) :
    wp (driveRecvLoop env rounds consumed) (fun _ t => Windowed env t) (fun e t => Raised env e t) s := by
  induction rounds generalizing s consumed with
  | zero => exact h
  | succ rounds ih =>
    rw [driveRecvLoop, wp_bind]
    refine wp_mono (windowed_currentParser h) (fun p t ht => ?_) fun _ _ ht => ht
    obtain ⟨rfl, k, hk, hp⟩ := ht
    rw [wp_bind, wp_get, wp_ite, wp_pure]
    refine ⟨fun hgoes => ?_, fun _ => h⟩
    obtain ⟨-, hdone, herror⟩ := hgoes
    rw [wp_ite, wp_pure]
    refine ⟨fun _ => h, fun _ => ?_⟩
    unfold socketRecv
    simp only [wp_bind, wp_get, wp_modify]
    cases hrecv : env.recv t.recvs with
    | wouldBlock => exact h.of_eq rfl
    | raises e =>
      have hcounted : Windowed env { t with recvs := t.recvs + 1 } := h.of_eq rfl
      exact hcounted.raised (henv.recv _ e hrecv)
    | received data =>
      dsimp only
      rw [wp_bind, wp_modify, wp_pure]
      have hsize : t.stream = true →
          (data.take (recvCapacity t.config t.stream p consumed)).length ≤ p.bodyFree := by
        intro hstream
        rw [hstream]
        exact (List.length_take_le _ _).trans (recvCapacity_le _ _ _)
      obtain ⟨p', hp', hmode⟩ := h.current k hk
      rw [hp] at hp'
      cases hp'
      generalize data.take (recvCapacity t.config t.stream p consumed) = given at hsize
      cases given with
      | nil =>
        unfold setParser
        simp only [wp_bind, wp_modify, wp_pure, hk]
        refine h.receive hk hp rfl rfl (by simp only [hk]) ?_ hdone fun _ base htracks => ?_
        · unfold feedEof
          split <;> first | rfl | (split <;> rfl)
        · have heof := htracks.feedEof hdone herror
          simpa using heof
      | cons byte rest =>
        have hfed : ∀ u : HttpClient, u = { t with
              recvs := t.recvs + 1, exchanges := t.exchanges ++ [Exchange.received (some k) (byte :: rest)]
              parsers := t.parsers.set k (p.feed env.lower (byte :: rest)) } →
            Windowed env u ∧ u.parsers[k]? = some (p.feed env.lower (byte :: rest)) := by
          rintro u rfl
          have hlt : k < t.parsers.length := (List.getElem?_eq_some_iff.mp hp).1
          refine ⟨h.receive hk hp rfl rfl rfl (sameWindow_feed env.lower p _).mode hdone
            fun hs base htracks => ?_, by simp [hlt]⟩
          have := htracks.feed (by simp) hdone herror (hsize (hmode.symm.trans hs))
          simpa using this
        obtain ⟨hwindowed, hget⟩ := hfed _ rfl
        unfold setParser
        simp only [wp_bind, wp_modify, hk, wp_when]
        refine ⟨fun hstream => ?_, fun _ => ih _ (hwindowed.of_eq (by simp only [hk]))⟩
        refine wp_mono (windowed_syncStreamState (hwindowed.of_eq (by simp only [hk])) rfl hget hstream)
          (fun _ u hu => ih _ hu.1) fun _ _ hu => hu

/-- In streaming mode a parser does not fail for the size of the body. -/
lemma windowed_driveRecv (henv : env.Foreign) (h : Windowed env s) :
    wp (driveRecv env) (fun _ t => Windowed env t) (fun e t => Raised env e t) s := by
  unfold driveRecv
  rw [wp_bind, wp_get, wp_bind]
  refine wp_mono (windowed_driveRecvLoop henv _ _ h) (fun atEnd t ht => ?_) fun _ _ ht => ht
  rw [wp_when]
  refine ⟨fun _ => ?_, fun _ => ht⟩
  rw [wp_bind]
  refine wp_mono (windowed_currentParser ht) (fun p u hu => ?_) fun _ _ hu => hu
  obtain ⟨rfl, k, hk, hp⟩ := hu
  split
  · refine ⟨ht, fun hstream message length heq => ?_⟩
    obtain ⟨p', hp', hmode⟩ := ht.current k hk
    rw [hp] at hp'
    cases hp'
    obtain ⟨base, hwindow⟩ := ht.window k p hp (hmode.trans hstream)
    cases herror : p.error with
    | none => simp [herror] at heq
    | some e =>
      obtain ⟨message', rfl⟩ := hwindow.tracks.told e herror
      simp [herror] at heq
  · next hdone => exact windowed_complete ht hk hp hdone
  · exact ht

end Receiving

/-! ## Calls -/

section Calls

variable {env : Env} {s : HttpClient}

lemma windowed_driveSendLoop (henv : env.Foreign) (rounds : ℕ) (h : Windowed env s) :
    wp (driveSendLoop env rounds) (fun _ t => Windowed env t) (fun e t => Raised env e t) s := by
  induction rounds generalizing s with
  | zero => exact h
  | succ rounds ih =>
    rw [driveSendLoop, wp_bind, wp_get, wp_ite]
    refine ⟨fun _ => ?_, fun _ => h.of_eq rfl⟩
    rw [wp_bind, wp_modify]
    have hcounted : Windowed env { s with sends := s.sends + 1 } := h.of_eq rfl
    split
    · exact hcounted
    · next e hsend => exact hcounted.raised (henv.send _ e hsend)
    · exact hcounted
    · rw [wp_bind, wp_modify]
      exact ih (h.of_eq rfl)

lemma windowed_advanceConnector (henv : env.Foreign) (h : Windowed env s) :
    wp (advanceConnector env) (fun _ t => Windowed env t) (fun e t => Raised env e t) s := by
  unfold advanceConnector
  rw [wp_bind, wp_get, wp_bind, wp_modify]
  have hcounted : Windowed env { s with connectorTicks := s.connectorTicks + 1 } := h.of_eq rfl
  split
  · next e htick => exact hcounted.raised (henv.connector _ e htick)
  · exact hcounted
  · rw [wp_bind, wp_modify, wp_pure]
    exact h.of_eq rfl
  · next lastError _ =>
    rw [wp_bind, wp_modify, wp_bind]
    refine wp_mono (windowed_fail ⟨h.of_eq rfl, fun _ _ _ heq => ?_⟩) (fun _ t ht => ht) fun _ _ ht => ht
    cases heq

/-- The pipeline of a tick. -/
lemma windowed_drivePipeline (henv : env.Foreign) (h : Windowed env s) :
    wp (drivePipeline env) (fun _ t => Windowed env t) (fun e t => Raised env e t) s := by
  have hstages : ∀ t, Windowed env t →
      wp (driveStages env) (fun _ u => Windowed env u) (fun e u => Raised env e u) t := by
    intro t ht
    have hrecv : ∀ u, Windowed env u → wp (do
        let s ← get
        when (s.state = .receiving) (driveRecv env)) (fun _ v => Windowed env v)
        (fun e v => Raised env e v) u := by
      intro u hu
      rw [wp_bind, wp_get, wp_when]
      exact ⟨fun _ => windowed_driveRecv henv hu, fun _ => hu⟩
    unfold driveStages driveSend
    rw [wp_bind, wp_get, wp_bind, wp_when]
    refine ⟨fun _ => ?_, fun _ => hrecv t ht⟩
    rw [wp_bind, wp_get]
    exact wp_mono (windowed_driveSendLoop henv _ ht) (fun _ u hu => hrecv u hu) fun _ _ hu => hu
  unfold drivePipeline hasTransport
  rw [wp_bind, wp_bind, wp_get, wp_ite, wp_pure, wp_when]
  refine ⟨fun _ => ?_, fun _ => ⟨fun _ => hstages s h, fun _ => h⟩⟩
  refine wp_mono (windowed_advanceConnector henv h) (fun goesOn t ht => ?_) fun _ _ ht => ht
  rw [wp_when]
  exact ⟨fun _ => hstages t ht, fun _ => ht⟩

lemma windowed_fireCompletion (h : Windowed env s) :
    wp fireCompletion (fun _ t => Windowed env t) (fun _ _ => False) s := by
  unfold fireCompletion invokeDone Requests.modifyHandle
  rw [wp_bind, wp_get, wp_bind, wp_modify]
  split
  · rw [wp_modify]
    refine Windowed.tell (h.of_eq rfl) fun g => ?_
    split_ifs <;> rfl
  · exact h.of_eq rfl

/-- **A tick** keeps what holds of the windows. -/
lemma windowed_handle (henv : env.Foreign) (nowMs : ℤ) (h : Windowed env s) :
    wp (handle env nowMs) (fun _ t => Windowed env t) (fun _ t => Windowed env t) s := by
  have hfail : ∀ e t, Raised env e t →
      wp (fail env e) (fun _ u => Windowed env u) (fun _ u => Windowed env u) t := fun e t ht =>
    wp_mono (windowed_fail ht) (fun _ _ hu => hu) fun _ _ hu => hu.1
  unfold handle driveTick
  rw [wp_bind, wp_get, wp_ite, wp_pure]
  refine ⟨fun _ => h, fun _ => ?_⟩
  rw [wp_bind]
  refine wp_mono ?_ (fun _ t (ht : Windowed env t) => wp_mono (windowed_fireCompletion ht)
    (fun _ _ hu => hu) fun _ _ hu => hu.elim) fun _ _ (ht : Windowed env _) => ht
  rw [wp_bind, wp_get, wp_ite, wp_tryCatch]
  refine ⟨fun _ => hfail _ s ⟨h, fun _ _ _ heq => by cases heq⟩, fun _ => ?_⟩
  refine wp_mono (windowed_drivePipeline henv h) (fun _ _ ht => ht) fun e t ht => ?_
  rw [wp_ite, wp_ite, wp_throw]
  refine ⟨fun _ => hfail e t ht, fun _ => ⟨fun _ => hfail _ t ⟨ht.1, fun _ _ _ heq => ?_⟩, fun _ => ht.1⟩⟩
  cases heq

lemma windowed_cancel (h : Windowed env s) :
    wp (cancel env) (fun _ t => Windowed env t) (fun _ t => Windowed env t) s := by
  unfold cancel
  rw [wp_bind, wp_get, wp_ite, wp_pure]
  refine ⟨fun _ => h, fun _ => ?_⟩
  rw [wp_bind]
  refine wp_mono (windowed_fail ⟨h, fun _ _ _ heq => by cases heq⟩) (fun _ t ht => ?_)
    fun _ _ ht => ht.1
  exact wp_mono (windowed_fireCompletion ht) (fun _ _ hu => hu) fun _ _ hu => hu.elim

/-- A new handle, for a client without a parser. -/
lemma Windowed.push_handle {t : HttpClient} {g : RequestHandle} (h : Windowed env s)
    (hparser : t.parser = none) (hparsers : t.parsers = s.parsers)
    (heq : (t.exchanges, t.config) = (s.exchanges, s.config)) (hhandles : t.handles = s.handles ++ [g])
    (hhandle : t.handle = some s.handles.length) (hstream : g.stream = t.stream)
    (hg : (g.bodySource, g.response, g.done) = (none, none, false)) : Windowed env t ∧ Loose t := by
  simp only [Prod.mk.injEq] at heq hg
  obtain ⟨hexchanges, hconfig⟩ := heq
  obtain ⟨hsource, hresponse, hdone⟩ := hg
  have hget : ∀ (i : ℕ) (g' : RequestHandle), t.handles[i]? = some g' →
      s.handles[i]? = some g' ∧ i ≠ s.handles.length ∨ i = s.handles.length ∧ g' = g := by
    intro i g' hg'
    rw [hhandles, List.getElem?_append] at hg'
    split_ifs at hg' with hlt
    · exact .inl ⟨hg', by omega⟩
    · rcases hi : i - s.handles.length with _ | n
      · rw [hi] at hg'
        exact .inr ⟨by omega, (Option.some.inj hg').symm⟩
      · rw [hi] at hg'
        cases hg'
  refine ⟨h.of_sources (by rw [hparsers, hexchanges, hconfig]) (.inl hparser) (fun i => ?_)
    fun i g' hg' => ?_, fun i g' hi hg' _ _ => ?_⟩
  · unfold sourceOf
    rw [hhandles, List.getElem?_append]
    split_ifs with hlt
    · rfl
    · rw [List.getElem?_eq_none (l := s.handles) (by omega)]
      rcases i - s.handles.length with _ | n
      · exact hsource
      · rfl
  · rcases hget i g' hg' with ⟨hg', hne⟩ | ⟨rfl, rfl⟩
    · obtain ⟨hpub, -, -, hfinished⟩ := h.attached i g' hg'
      have hnot : t.handle ≠ some i := by
        rw [hhandle]
        simpa using Ne.symm hne
      exact ⟨hpub, fun hi => absurd hi hnot, fun hi => absurd hi hnot, by rw [hparsers]; exact hfinished⟩
    · refine ⟨fun hs => ?_, fun _ => hstream, fun _ _ _ hr => ?_, fun hd => ?_⟩
      · rw [hsource] at hs
        cases hs
      · rw [hresponse] at hr
        cases hr
      · rw [hdone] at hd
        cases hd
  · rcases hget i g' hg' with ⟨-, hne⟩ | ⟨-, rfl⟩
    · rw [hhandle] at hi
      exact absurd (Option.some.inj hi).symm hne
    · exact hresponse

/-- A request, of an idle client. -/
lemma windowed_request {clean : Prop} (args : RequestArgs) (h : Windowed env s)
    (hidle : Idle clean s) :
    wp (request env args) (fun _ t => Windowed env t) (fun _ t => Windowed env t) s := by
  unfold request
  rw [wp_bind, wp_get, wp_ite, wp_throw]
  refine ⟨fun _ => h, fun _ => ?_⟩
  rw [wp_ite, wp_throw]
  refine ⟨fun _ => h, fun _ => ?_⟩
  rw [wp_bind]
  have hset : ∀ t : HttpClient, (t.parsers, t.exchanges, t.config, t.handles) =
      (s.parsers, s.exchanges, s.config, s.handles) → t.parser = s.parser → t.handle = s.handle →
      Windowed env t := fun t heq hparser hhandle =>
    h.drop heq (hparser.trans hidle.empty.parser_eq) (hhandle.trans hidle.handle_eq)
  cases encodeBody args.body with
  | error e => exact h
  | ok encodedBody =>
    rw [wp_lift_ok]
    simp only [wp_bind, wp_modify]
    split
    · rw [wp_lift_ok, wp_tryCatch]
      obtain ⟨hnew, hloose⟩ := h.push_handle hidle.empty.parser_eq rfl rfl rfl rfl rfl rfl
        (t := { s with
          stream := args.stream
          redirectsRemaining := args.maxRedirects.getD s.config.defaultMaxRedirects
          original :=
            { method := some args.method, headers := args.headers
              body :=
                if args.maxRedirects.getD s.config.defaultMaxRedirects > 0 then encodedBody else none
              json := args.body.json.isSome }
          clockReads := s.clockReads + 1, deadlineTicks := some _
          handle := some s.handles.length
          handles := s.handles ++
            [{ url := args.url, hasOnDone := args.hasOnDone, stream := args.stream
               maxRedirects := args.maxRedirects.getD s.config.defaultMaxRedirects, deadline := _ }] })
      refine wp_mono (windowed_startHop none args.url args.method encodedBody args.headers
        args.body.json.isSome hnew hloose) (fun _ t ht => ?_) fun e t ht => ?_
      · unfold Requests.modifyHandle
        rw [wp_modify, wp_pure]
        exact ht.tell fun _ => rfl
      · unfold dropRequest
        rw [wp_bind, wp_modify, wp_throw]
        exact ht.1.drop rfl (ht.2.trans hidle.empty.parser_eq) rfl
    · exact hset _ rfl rfl rfl

/-- **Reading** gives a reader what comes next. -/
lemma windowed_readBodyInto (index size : ℕ) (h : Windowed env s) :
    wp (readBodyInto index size) (fun _ t => Windowed env t) (fun _ t => Windowed env t) s := by
  unfold readBodyInto
  rw [wp_bind, wp_get]
  split
  · exact h
  · next g hg =>
    rw [wp_ite, wp_throw]
    refine ⟨fun _ => h, fun _ => ?_⟩
    split
    · exact h
    · next k hk =>
      split
      · exact h
      · next p hp =>
        rw [wp_bind, wp_modify, wp_pure]
        have hsource : s.sourceOf index = some k := by
          unfold sourceOf
          rw [hg]
          exact hk
        have hstate : (p.readBodyInto size).2.state = p.state ∧
            (p.readBodyInto size).2.streamBody = p.streamBody := by
          unfold ResponseParser.readBodyInto
          dsimp only
          split_ifs <;> exact ⟨rfl, rfl⟩
        refine h.set_parser hp rfl rfl hstate.2 (fun hd => hstate.1.trans hd) (fun hmode => ?_)
          (fun j hj => ?_) fun i hi => ?_
        · obtain ⟨base, hwindow⟩ := h.window k p hp (hstate.2.symm.trans hmode)
          obtain ⟨base', htracks, hdrained⟩ := hwindow.tracks.readBodyInto size
          refine ⟨base', ?_, fun i hi => ?_, fun _ hnot => absurd hsource (hnot index)⟩
          · simpa [received, closed, List.flatMap_append] using htracks
          · have hi' : i = index := h.injective i index k hi hsource
            subst hi'
            rw [hdrained, ← hwindow.read i hsource]
            simp [taken, List.flatMap_append]
        · simp [received, closed, List.flatMap_append]
        · have hne : index ≠ i := by
            rintro rfl
            exact hi hsource
          simp [taken, List.flatMap_append, hne]

/-- **One call** keeps what holds of the windows. -/
lemma Call.windowed_after {clean : Prop} (henv : env.Foreign) (c : Call) (h : Windowed env s)
    (hsound : Sound clean s) : Windowed env (c.after env s) := by
  cases c with
  | request args =>
    refine @wp_state _ _ _ (Requests.request env args) s (Windowed env) ?_
    rcases hsound with hidle | ⟨i, hbusy⟩
    · exact windowed_request args h hidle
    · unfold Requests.request
      rw [wp_bind, wp_get, if_pos hbusy.state_ne]
      exact h
  | handle nowMs => exact wp_state (windowed_handle henv nowMs h)
  | cancel => exact wp_state (windowed_cancel h)
  | readBodyInto index size => exact wp_state (windowed_readBodyInto index size h)

/-- **A run** keeps what holds of the windows. -/
lemma Reaches.windowed (henv : env.Foreign) (h : Reaches env s) : Windowed env s := by
  induction h with
  | init config =>
    refine ⟨?_, ?_, ?_, ?_, ?_, fun _ _ => rfl, fun _ _ => rfl, ?_⟩ <;>
      simp [sourceOf]
  | call c hreached ih => exact c.windowed_after henv ih hreached.sound

end Calls

/-! ## The streamed body -/

section Streams

variable {env : Env} {s : HttpClient}

/-- The failure of a window that is too small for a chunk. -/
def stagingOverflow : HttpError :=
  .error ("streamed-body staging overflow: drain read_body_into " ++
    "and bound each feed by body_free()")

/-- The bytes that the parser of a handle was given. -/
def HttpClient.bodyBytes (s : HttpClient) (handle : ℕ) : List UInt8 :=
  match s.sourceOf handle with
  | some parser => s.received parser
  | none => []

/-- The peer has closed behind the bytes of a handle. -/
def HttpClient.bodyClosed (s : HttpClient) (handle : ℕ) : Prop :=
  ∃ parser, s.sourceOf handle = some parser ∧ s.closed parser

/-- The client after reads of a handle, with buffers of the given sizes. -/
def HttpClient.reads (env : Env) (handle : ℕ) (sizes : List ℕ) (s : HttpClient) : HttpClient :=
  sizes.foldl (fun t size => Call.after env t (.readBodyInto handle size)) s

variable {i : ℕ} {g : RequestHandle}

/-- What a read copies and what it leaves, through the handle of a window. -/
lemma readBodyInto_eq {k : ℕ} {p : ResponseParser} (size : ℕ) (hg : s.handles[i]? = some g)
    (hstream : g.stream = true) (hk : g.bodySource = some k) (hp : s.parsers[k]? = some p) :
    readBodyInto i size s = (.ok (p.readBodyInto size).1, { s with
      parsers := s.parsers.set k (p.readBodyInto size).2
      exchanges := s.exchanges ++ [Exchange.read i (p.readBodyInto size).1] }) := by
  unfold readBodyInto
  simp [Bind.bind, Prog.get, hg, hstream, hk, hp, Prog.modify, pure]

/-- What holds of the window that a handle of a streamed request reads from. -/
lemma Windowed.begins (h : Windowed env s) (i : ℕ) :
    s.taken i <+: decodedBody env.lower s.config (s.bodyBytes i) := by
  unfold bodyBytes
  cases hi : s.sourceOf i with
  | none =>
    rw [h.unread i hi]
    exact List.nil_prefix
  | some k =>
    obtain ⟨p, hp, hmode⟩ := h.sourced i k hi
    obtain ⟨base, hwindow⟩ := h.window k p hp hmode
    rw [hwindow.read i hi]
    refine List.IsPrefix.trans ?_ hwindow.tracks.begins
    exact (List.prefix_append_right_inj base).mpr (List.take_prefix _ _)

/-- The window of a request that is done without an error. -/
lemma Windowed.finished (h : Windowed env s) (hg : s.handles[i]? = some g)
    (hstream : g.stream = true) (hdone : g.done = true) (herror : g.error = none) :
    ∃ k p base, g.bodySource = some k ∧ s.sourceOf i = some k ∧ s.parsers[k]? = some p ∧
      p.bodyReadOffset ≤ p.body.length ∧ s.taken i = drained base p ∧
      base ++ p.body = decodedBody env.lower s.config (s.bodyBytes i) ∧
      Whole env.lower s.config (s.bodyBytes i) (s.bodyClosed i) := by
  obtain ⟨k, p, hk, hp, hstate⟩ := (h.attached i g hg).finished hdone herror hstream
  have hsource : s.sourceOf i = some k := by
    unfold sourceOf
    rw [hg]
    exact hk
  obtain ⟨p', hp', hmode⟩ := h.sourced i k hsource
  rw [hp] at hp'
  cases hp'
  obtain ⟨base, hwindow⟩ := h.window k p hp hmode
  obtain ⟨hbody, hwhole⟩ := hwindow.tracks.whole hstate
  have hbytes : s.bodyBytes i = s.received k := by
    unfold bodyBytes
    rw [hsource]
  refine ⟨k, p, base, hk, hsource, hp, hwindow.tracks.offset_le, hwindow.read i hsource, ?_, ?_⟩
  · rw [hbytes]
    exact hbody
  · rw [hbytes]
    exact hwhole.imp_right fun ⟨h₁, h₂, hclosed⟩ => ⟨h₁, h₂, k, hsource, hclosed⟩

/-- **A read of a body that is complete.** It gives nothing only when the reader has all of it. -/
lemma Windowed.read_finished (h : Windowed env s) (hg : s.handles[i]? = some g)
    (hstream : g.stream = true) (hdone : g.done = true) (herror : g.error = none) (size : ℕ) :
    ∃ data t, readBodyInto i size s = (.ok data, t) ∧ t.handles = s.handles ∧ t.config = s.config ∧
      t.bodyBytes i = s.bodyBytes i ∧ t.taken i = s.taken i ++ data ∧
      (0 < size → data = [] → s.taken i = decodedBody env.lower s.config (s.bodyBytes i)) := by
  obtain ⟨k, p, base, hk, hsource, hp, hoffset, htaken, hbody, -⟩ := h.finished hg hstream hdone herror
  refine ⟨_, _, readBodyInto_eq size hg hstream hk hp, rfl, rfl, ?_, ?_, fun hpos hnil => ?_⟩
  · simp [bodyBytes, sourceOf, received, List.flatMap_append]
  · simp [taken, List.flatMap_append]
  · have hread : p.body.length - p.bodyReadOffset = 0 := by
      by_contra hleft
      have hdata := congrArg List.length hnil
      unfold ResponseParser.readBodyInto at hdata
      dsimp only at hdata
      rw [if_neg hleft] at hdata
      split_ifs at hdata
      all_goals
        simp only [List.length_take, List.length_drop, List.length_nil] at hdata
        omega
    rw [htaken, ← hbody, drained, List.take_of_length_le (by omega)]

/-- **Reading to the end** of a body that is complete, with a buffer of any size for every byte. -/
lemma reads_finished (henv : env.Foreign) (h : Reaches env s)
    (hg : s.handles[i]? = some g) (hstream : g.stream = true) (hdone : g.done = true)
    (herror : g.error = none) {sizes : List ℕ} (hsizes : ∀ size ∈ sizes, 0 < size)
    (hlong : (decodedBody env.lower s.config (s.bodyBytes i)).length ≤
      (s.taken i).length + sizes.length) :
    (s.reads env i sizes).taken i = decodedBody env.lower s.config (s.bodyBytes i) := by
  have hbegins := (h.windowed henv).begins i
  induction sizes generalizing s with
  | nil => exact hbegins.eq_of_length_le hlong
  | cons size sizes ih =>
    obtain ⟨data, t, hread, hhandles, hconfig, hbytes, htaken, hend⟩ :=
      (h.windowed henv).read_finished hg hstream hdone herror size
    have hafter : Call.after env s (.readBodyInto i size) = t := congrArg (·.2) hread
    have hreach : Reaches env t := hafter ▸ h.call (.readBodyInto i size)
    have hbegins' := (hreach.windowed henv).begins i
    have hnext := ih hreach (hhandles ▸ hg) (fun n hn => hsizes n (List.mem_cons_of_mem _ hn)) ?_ hbegins'
    · rw [hconfig, hbytes] at hnext
      rw [← hnext, reads, List.foldl_cons, hafter]
      rfl
    · rw [hconfig, hbytes, htaken, List.length_append]
      rw [List.length_cons] at hlong
      cases data with
      | nil =>
        rw [← hend (hsizes size List.mem_cons_self) rfl]
        omega
      | cons byte data =>
        rw [List.length_cons]
        omega

/-- **The window of a streamed body**, over every run of the calls of a client and its handles, with
a window of any size and buffers of any sizes, and whatever the outside answers. The window does not
overflow. What a reader has got is a beginning of the decoded body. Once the request is done without
an error, the response is complete, and the reader has the decoded body when a read gives nothing
more; with a read for every byte it gets there. -/
theorem streamed_window (henv : env.Foreign) (h : Reaches env s) :
    (∀ p ∈ s.parsers, p.streamBody = true → p.error ≠ some stagingOverflow) ∧
    ∀ (i : ℕ) (g : RequestHandle), s.handles[i]? = some g → g.stream = true →
      s.taken i <+: decodedBody env.lower s.config (s.bodyBytes i) ∧
      (g.done = true → g.error = none →
        Whole env.lower s.config (s.bodyBytes i) (s.bodyClosed i) ∧
        (∀ size, ∃ data, (readBodyInto i size s).1 = .ok data ∧
          (0 < size → data = [] → s.taken i = decodedBody env.lower s.config (s.bodyBytes i))) ∧
        ∀ sizes : List ℕ, (∀ size ∈ sizes, 0 < size) →
          (decodedBody env.lower s.config (s.bodyBytes i)).length ≤ sizes.length →
          (s.reads env i sizes).taken i = decodedBody env.lower s.config (s.bodyBytes i)) := by
  have hwindowed := h.windowed henv
  refine ⟨fun p hmem hmode herror => ?_, fun i g hg hstream => ⟨hwindowed.begins i, fun hdone herror => ?_⟩⟩
  · obtain ⟨k, hk⟩ := List.mem_iff_getElem?.mp hmem
    obtain ⟨base, hwindow⟩ := hwindowed.window k p hk hmode
    obtain ⟨message, heq⟩ := hwindow.tracks.told _ herror
    cases heq
  · obtain ⟨-, -, -, -, -, -, -, -, -, hwhole⟩ := hwindowed.finished hg hstream hdone herror
    refine ⟨hwhole, fun size => ?_, fun sizes hsizes hlong => ?_⟩
    · obtain ⟨data, t, hread, -, -, -, -, hend⟩ := hwindowed.read_finished hg hstream hdone herror size
      exact ⟨data, congrArg (·.1) hread, hend⟩
    · exact reads_finished henv h hg hstream hdone herror hsizes (by omega)

/-- A server whose chunked body of three bytes arrives byte by byte. -/
def tricklingServer : Env where
  lower := lowerAscii
  factory _ := none
  connectorTick _ := .ready
  send _ := .sent 4096
  recv n := .received
    (((textBytes "HTTP/1.1 200 OK\r\nTransfer-Encoding: chunked\r\n\r\n3\r\nabc\r\n0\r\n\r\n").drop n).take 1)
  ticksMs _ := 0
  onOversized _ := none
  errorText _ := ""

/-- A GET with a window of two bytes, read between its ticks. -/
def trickledClient : HttpClient :=
  [Call.request { method := "GET".toList, url := "http://h/".toList, stream := true }, .handle 1,
    .readBodyInto 0 1, .handle 2, .readBodyInto 0 7, .handle 3, .readBodyInto 0 7].foldl
      (fun s c => c.after tricklingServer s) { config := { streamBufferSize := 2 } }

/-- The GET is done, and its reader has the three bytes of the body. -/
theorem streamed_window_trickled :
    trickledClient.taken 0 = textBytes "abc" ∧
      decodedBody lowerAscii trickledClient.config (trickledClient.bodyBytes 0) = textBytes "abc" := by
  have hforeign : tricklingServer.Foreign := ⟨nofun, nofun, nofun⟩
  have hreaches : Reaches tricklingServer trickledClient := (Reaches.init _).foldl _
  have hhandle : (trickledClient.handles[0]?.any fun g => g.stream = true ∧ g.done = true ∧
      g.error = none) = true := by decide +kernel
  obtain ⟨g, hg, hhandle⟩ := (Option.any_eq_true _ _).mp hhandle
  obtain ⟨hstream, hdone, herror⟩ := of_decide_eq_true hhandle
  have htaken : trickledClient.taken 0 = textBytes "abc" := by decide +kernel
  have hnothing : (readBodyInto 0 1 trickledClient).1 = .ok [] := by decide +kernel
  obtain ⟨-, hread, -⟩ := ((streamed_window hforeign hreaches).2 0 g hg hstream).2 hdone herror
  obtain ⟨data, hdata, hend⟩ := hread 1
  rw [hnothing] at hdata
  cases hdata
  exact ⟨htaken, (hend (by decide) rfl).symm.trans htaken⟩

end Streams

end ChuMicro.Requests
