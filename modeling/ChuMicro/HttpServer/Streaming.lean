import ChuMicro.HttpServer.Response

/-!
# Streamed response bodies

`_StreamState` and `drive_stream_body` of `chumicro_http_server/streaming.py`. A byte source fills a
window of fixed size again and again; what is in the window is framed in place and sent, as far as
the socket takes it.

The source and the socket are the environment: the source answers its polls one by one, the socket
its sends. When it is polled, a source may also close the server, or release the view it is given.
The bytes the socket has taken are collected in `wire`.

## Main definitions

* `HttpServer.writeChunkHeader` — `_write_chunk_header`, with the indexing of a `bytearray`.
* `HttpServer.StreamState` — `_StreamState`, with `pull`.
* `HttpServer.StreamConn.driveStreamBody` — `drive_stream_body`.
-/

namespace ChuMicro.HttpServer

open Http

/-! ## Chunk headers -/

/-- `SOURCE_EOF`. -/
def SOURCE_EOF : ℤ := -1

/-- `_CHUNK_TERMINATOR`. -/
def CHUNK_TERMINATOR : List UInt8 := "0\r\n\r\n".toList.map asciiByte

/-- `_HEX_DIGITS`. -/
def HEX_DIGITS : List UInt8 := "0123456789abcdef".toList.map asciiByte

/-- `_hex_len`. -/
def hexLen (value : ℕ) : ℕ := if value ≥ 16 then hexLen (value / 16) + 1 else 1

/-- `buffer[index] = value` for a `bytearray`: a negative index counts from the end. -/
def setItem (buffer : List UInt8) (index : ℤ) (value : UInt8) : Except PyExn (List UInt8) :=
  if 0 ≤ index ∧ index < buffer.length then .ok (buffer.set index.toNat value)
  else if -(buffer.length : ℤ) ≤ index ∧ index < 0 then
    .ok (buffer.set (index + buffer.length).toNat value)
  else .error .indexError

/-- The loop of `_write_chunk_header`: the buffer and the last position written. -/
def writeDigits (buffer : List UInt8) (position : ℤ) (value : ℕ) :
    Except PyExn (List UInt8 × ℤ) := do
  let buffer ← setItem buffer (position - 1) (HEX_DIGITS.getD (value % 16) 0)
  if value / 16 = 0 then .ok (buffer, position - 1)
  else writeDigits buffer (position - 1) (value / 16)
termination_by value
decreasing_by omega

/-- `_write_chunk_header`: the buffer and the length of the header. -/
def writeChunkHeader (buffer : List UInt8) (endPos : ℤ) (size : ℕ) :
    Except PyExn (List UInt8 × ℤ) := do
  let buffer ← setItem buffer (endPos - 1) 0x0A
  let buffer ← setItem buffer (endPos - 2) 0x0D
  let (buffer, position) ← writeDigits buffer (endPos - 2) size
  .ok (buffer, endPos - position)

/-! ## The window -/

/-- The errors of a streamed body: `_StreamError` with its text, what the source raises, and what
the buffer raises. -/
inductive StreamError where
  | stream (message : String)
  | source (e : PyExn)
  deriving DecidableEq, Repr

/-- The view `out_view`: the window or the terminator. -/
inductive OutView where
  | window
  | terminator
  deriving DecidableEq, Repr

/-- `_StreamState`. `outEnd` is rounded up where `out_end` is no `int`. -/
structure StreamState where
  contentLength : Option ℕ
  buffer : List UInt8
  headerReserve : ℕ
  fillCapacity : ℕ
  bodyBytesSent : ℕ := 0
  eof : Bool := false
  outView : OutView := .window
  outPos : ℕ := 0
  outEnd : ℕ := 0
  outEndIsInt : Bool := true
  viewReleased : Bool := false
  deriving DecidableEq, Repr

/-- What the source does when it is polled: it writes bytes to the view it is given and returns an
`int`, a number that is none (as `2.0`; NaN is left out), or something that is not comparable with a
number, or it raises. -/
inductive Polled where
  | returned (written : List UInt8) (count : ℤ)
  | returnedFloat (written : List UInt8) (count : ℚ)
  | returnedOther
  | raised (e : PyExn)
  deriving DecidableEq, Repr

namespace StreamState

/-- The constructor. A window that is too small for a chunk is refused. -/
def new (contentLength : Option ℕ) (buffer : List UInt8) : Except PyExn StreamState :=
  match contentLength with
  | none =>
    let headerReserve := hexLen buffer.length + 2
    if (buffer.length : ℤ) - headerReserve - 2 < 1 then
      .error (.valueError (s!"stream buffer of {buffer.length} B too small to frame a " ++
        "chunk; use a larger stream_buffer_size"))
    else
      .ok { contentLength, buffer, headerReserve, fillCapacity := buffer.length - headerReserve - 2 }
  | some _ => .ok { contentLength, buffer, headerReserve := 0, fillCapacity := buffer.length }

/-- `pending`. -/
def pending (s : StreamState) : Bool := s.outPos < s.outEnd

/-- `finished`. -/
def finished (s : StreamState) : Bool := s.eof && s.outPos ≥ s.outEnd

/-- The bytes of `out_view`. -/
def viewBytes (s : StreamState) : List UInt8 :=
  match s.outView with
  | .window => s.buffer
  | .terminator => CHUNK_TERMINATOR

/-- `advance_sent`. -/
def advanceSent (s : StreamState) (count : ℕ) : StreamState := { s with outPos := s.outPos + count }

/-- The source writes into the view it is given. -/
def fill (s : StreamState) (written : List UInt8) : StreamState :=
  let data := written.take s.fillCapacity
  { s with
    buffer := s.buffer.take s.headerReserve ++ data ++ s.buffer.drop (s.headerReserve + data.length) }

/-- A chunk of the window is framed in place. -/
def frameChunk (s : StreamState) (count : ℕ) : Except PyExn StreamState := do
  let (buffer, headerLen) ← writeChunkHeader s.buffer s.headerReserve count
  let buffer ← setItem buffer ((s.headerReserve + count : ℕ) : ℤ) 0x0D
  let buffer ← setItem buffer ((s.headerReserve + count + 1 : ℕ) : ℤ) 0x0A
  .ok { s with
    buffer, outView := .window, outPos := (s.headerReserve - headerLen).toNat
    outEnd := s.headerReserve + count + 2 }

/-- `_frame_data`. -/
def frameData (s : StreamState) (count : ℕ) : Except StreamError StreamState :=
  match s.contentLength with
  | none =>
    match s.frameChunk count with
    | .ok s => .ok { s with bodyBytesSent := s.bodyBytesSent + count }
    | .error e => .error (.source e)
  | some length =>
    if (count : ℤ) > length - s.bodyBytesSent then
      .error (.stream ("streaming source produced more than the declared " ++
        s!"Content-Length {length}"))
    else
      .ok { s with
        outView := .window, outPos := 0, outEnd := count, bodyBytesSent := s.bodyBytesSent + count }

/-- `_on_eof`. -/
def onEof (s : StreamState) : Except StreamError StreamState :=
  match s.contentLength with
  | none =>
    .ok { s with eof := true, outView := .terminator, outPos := 0, outEnd := CHUNK_TERMINATOR.length }
  | some length =>
    if s.bodyBytesSent ≠ length then
      .error (.stream (s!"streaming source signalled EOF after {s.bodyBytesSent} " ++
        s!"bytes but declared Content-Length {length}"))
    else .ok { s with eof := true }

/-- The slice of `out_view` from `out_pos` raises: in a window without a reserve it is a slice of
the view that the source was given, and its end must be an `int`, which `out_end` has to be if there
is room for all that is left. -/
def sliceError (s : StreamState) (room : ℕ) : Option PyExn :=
  if s.viewReleased ∧ s.contentLength.isSome then
    some (.valueError "operation forbidden on released memoryview object")
  else if ¬ s.outEndIsInt ∧ s.outEnd - s.outPos ≤ room then
    some (.typeError "slice indices must be integers or None or have an __index__ method")
  else none

/-- `_frame_data` with a number that is no `int`. A chunk size that is none is refused by `&`; as
the end of what is sent it is accepted. -/
def frameFloat (s : StreamState) (count : ℚ) : Except StreamError StreamState :=
  match s.contentLength with
  | none => .error (.source (.typeError "unsupported operand type(s) for &"))
  | some length =>
    if count > length - s.bodyBytesSent then
      .error (.stream ("streaming source produced more than the declared " ++
        s!"Content-Length {length}"))
    else
      .ok { s with
        outView := .window, outPos := 0, outEnd := count.ceil.toNat, outEndIsInt := false
        bodyBytesSent := s.bodyBytesSent + count.ceil.toNat }

/-- `pull`, for what the source does: whether it made progress. A state that raises is not used
again. -/
def pull (s : StreamState) : Polled → Except StreamError (Bool × StreamState)
  | .raised e => .error (.source e)
  | .returnedOther => .error (.source (.typeError "'<' not supported"))
  | .returnedFloat written count =>
    let s := s.fill written
    if count = SOURCE_EOF then s.onEof.map (true, ·)
    else if count = 0 then .ok (false, s)
    else if count < 0 ∨ count > s.fillCapacity then
      .error (.stream ("streaming source returned a number out of range; expected " ++
        s!"0..{s.fillCapacity} or SOURCE_EOF ({SOURCE_EOF})"))
    else (s.frameFloat count).map (true, ·)
  | .returned written count =>
    let s := s.fill written
    if count = SOURCE_EOF then s.onEof.map (true, ·)
    else if count = 0 then .ok (false, s)
    else if count < 0 ∨ count > s.fillCapacity then
      .error (.stream (s!"streaming source returned {count}; expected " ++
        s!"0..{s.fillCapacity} or SOURCE_EOF ({SOURCE_EOF})"))
    else (s.frameData count.toNat).map (true, ·)

end StreamState

/-! ## The connection -/

/-- `_ConnState`. -/
inductive ConnState where
  | wantRequestLine
  | wantHeaders
  | wantBody
  | dispatching
  | wantSendHeaders
  | wantSendBody
  | done
  | error
  deriving DecidableEq, Repr

/-- What `send` does: it takes some bytes, or raises an `OSError`. -/
inductive SendResult where
  | sent (count : ℕ)
  | failed (errno : ℕ)
  deriving DecidableEq, Repr

/-- The source and the socket. -/
structure StreamEnv where
  /-- the answer of the source to its `k`-th poll -/
  source : ℕ → Polled
  /-- whether the source calls `close` of the server in its `k`-th poll -/
  closesServer : ℕ → Bool := fun _ => false
  /-- whether the source releases the view it is given in its `k`-th poll -/
  releasesView : ℕ → Bool := fun _ => false
  /-- the answer of the socket to the `k`-th `send` of some bytes -/
  socket : ℕ → List UInt8 → SendResult

/-- A connection that sends a streamed body, with the bytes the socket has taken and the numbers of
polls and sends so far. `socketOpen` is false when `_socket` is `None`, `serverClosed` is true when
the source has closed the server. -/
structure StreamConn where
  sendBudget : ℕ
  stream : StreamState
  state : ConnState := .wantSendBody
  wire : List UInt8 := []
  polls : ℕ := 0
  sends : ℕ := 0
  socketOpen : Bool := true
  serverClosed : Bool := false
  deriving DecidableEq, Repr

/-- What `drive_stream_body` may raise. -/
inductive DriveError where
  | os (errno : ℕ)
  | stream (e : StreamError)
  | other (e : PyExn)
  deriving DecidableEq, Repr

namespace StreamConn

/-- The part of a round that sends what is framed. -/
def sendRound (env : StreamEnv) (c : StreamConn) (room : ℕ) :
    Except DriveError (Option ℕ) × StreamConn :=
  let available := c.stream.outEnd - c.stream.outPos
  let chunk := (c.stream.viewBytes.drop c.stream.outPos).take (min available room)
  match c.stream.sliceError room, c.socketOpen with
  | some e, _ => (.error (.other e), c)
  | none, false => (.error (.other .attributeError), c)
  | none, true =>
    let result := env.socket c.sends chunk
    let c := { c with sends := c.sends + 1 }
    match result with
    | .failed errno => if errno = EAGAIN then (.ok none, c) else (.error (.os errno), c)
    | .sent 0 => (.ok none, c)
    | .sent count =>
      (.ok (some count),
        { c with stream := c.stream.advanceSent count, wire := c.wire ++ chunk.take count })

/-- What else the source does to the connection in a poll. -/
def polled (env : StreamEnv) (c : StreamConn) : StreamConn :=
  { c with
    polls := c.polls + 1
    socketOpen := c.socketOpen && !env.closesServer c.polls
    serverClosed := c.serverClosed || env.closesServer c.polls
    stream := { c.stream with
      viewReleased := c.stream.viewReleased || env.releasesView c.polls } }

/-- A round of the loop of `drive_stream_body`: the bytes it has sent, or `none` where it returns.
-/
def round (env : StreamEnv) (c : StreamConn) (room : ℕ) :
    Except DriveError (Option ℕ) × StreamConn :=
  if c.stream.pending then c.sendRound env room
  else if c.stream.finished then (.ok none, { c with state := .done })
  else
    let answer := env.source c.polls
    let c := c.polled env
    match c.stream.pull answer with
    | .error e => (.error (.stream e), c)
    | .ok (progressed, stream) => (.ok (if progressed then some 0 else none), { c with stream })

/-- The loop of `drive_stream_body`. -/
def driveLoop (env : StreamEnv) : ℕ → ℕ → StreamConn → Except DriveError Unit × StreamConn
  | 0, _, c => (.ok (), c)
  | rounds + 1, consumed, c =>
    if consumed < c.sendBudget then
      match c.round env (c.sendBudget - consumed) with
      | (.error e, c) => (.error e, c)
      | (.ok none, c) => (.ok (), c)
      | (.ok (some count), c) => driveLoop env rounds (consumed + count) c
    else (.ok (), c)

/-- `drive_stream_body`. Of two rounds in a row one sends a byte or is the last, so twice as many
rounds as there are bytes to send are enough. -/
def driveStreamBody (env : StreamEnv) (c : StreamConn) : Except DriveError Unit × StreamConn :=
  driveLoop env (2 * c.sendBudget + 1) 0 c

end StreamConn

end ChuMicro.HttpServer
