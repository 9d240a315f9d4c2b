import ChuMicro.HttpServer.Streaming
import ChuMicro.Timing

/-!
# Connections of the HTTP server

`_Connection` of `chumicro_http_server/server.py` and `stage_streaming_response` of `streaming.py`:
a connection receives a request, hands it to the handler, and sends what the handler answers.
Exceptions are caught where the source catches them, so what `tick` raises is what reaches
`HttpServer.handle`.

The socket, the handler and the source of a streamed body are the environment of a connection. A
handler or a source may close the whole server; its own connection then goes on without a socket.

## Main definitions

* `HttpServer.ConnEnv` — the environment of a connection.
* `HttpServer.Answer` — what a handler does with a request.
* `HttpServer.Connection` — a connection, with `tick`.
-/

namespace ChuMicro.HttpServer

open Http

/-! ## Requests and answers -/

/-- `split_target`. -/
def splitTarget (target : Str) : Str × Str :=
  match target.span (· ≠ '?') with
  | (path, []) => (path, [])
  | (path, _ :: rawQuery) => (path, rawQuery)

/-- `parse_query`. -/
def parseQuery (lower : Str → Str) (rawQuery : Str) : CaseInsensitiveDict :=
  (rawQuery.splitOn '&').foldl (fun result pair =>
    match pair.span (· ≠ '=') with
    | ([], _) => result
    | (name, value) => result.add lower name (value.drop 1)) {}

/-- `Request`. -/
structure Request where
  method : Str
  target : Str
  httpVersion : Str
  headers : CaseInsensitiveDict
  body : List UInt8
  path : Str
  query : CaseInsensitiveDict

/-- `Request(...)`, for a parser that is done. -/
def Request.new (lower : Str → Str) (p : RequestParser) : Request where
  method := p.method
  target := p.target
  httpVersion := p.httpVersion
  headers := p.headers
  body := p.body
  path := (splitTarget p.target).1
  query := parseQuery lower (splitTarget p.target).2

/-- `StreamingResponse`, without its source. -/
structure StreamingResponse where
  statusCode : ℤ
  reason : Str
  headers : Option (List (Str × Str))
  contentLength : Option ℕ
  deriving DecidableEq, Repr

/-- What the handler does with a request. Its exception has a text, unless `str` raises on it; a
response is one that `encode_response` can look into, or not; an object with a `source` is a
streaming response, and to look for the `source` of an object may raise something else than an
`AttributeError`. -/
inductive Answer where
  | raised (text : Option PyStr)
  | response (response : Response)
  | malformedResponse
  | streaming (response : StreamingResponse)
  | malformedStreaming
  | sourceRaises (e : PyExn)
  | other (typeName : PyStr)
  deriving DecidableEq, Repr

/-- What the handler does, whether it calls `close` of the server, and what the allocation of a
stream buffer for its answer raises. -/
structure Handled where
  answer : Answer
  closesServer : Bool := false
  allocation : Option PyExn := none
  deriving DecidableEq, Repr

/-- What `recv_into` does: it stores some bytes, or none since the peer has closed, or raises an
`OSError`. -/
inductive RecvResult where
  | received (data : List UInt8)
  | failed (errno : ℕ)
  deriving DecidableEq, Repr

/-- The socket of a connection, the handler and the source of its answer. -/
structure ConnEnv extends StreamEnv where
  /-- the answer of the socket to its `k`-th `recv_into` -/
  recv : ℕ → RecvResult
  handler : Request → Handled

/-! ## Errors -/

/-- What can be raised in a tick of a connection, before `tick` catches it. -/
inductive TickError where
  | server (e : ServerError)
  | stream (e : StreamError)
  | os (errno : ℕ)
  | other (e : PyExn)
  deriving DecidableEq, Repr

/-- An exception of `drive_stream_body`, in a tick. -/
def DriveError.toTickError : DriveError → TickError
  | .os errno => .os errno
  | .stream e => .stream e
  | .other e => .other e

/-- The `status_code` of a `ServerLimitError`. -/
def ServerError.limitStatus : ServerError → Option ℤ
  | .protocolError _ => none
  | .oversizedError _ _ => some 413
  | .requestLineTooLargeError _ => some 414
  | .headersTooLargeError _ => some 431

/-- The text of an error. -/
def ServerError.message : ServerError → String
  | .protocolError message => message
  | .oversizedError message _ => message
  | .requestLineTooLargeError message => message
  | .headersTooLargeError message => message

/-- `_REASONS`, with `_UNKNOWN_REASON` for a status that has no entry. -/
def reasonOf (statusCode : ℤ) : Str :=
  let text :=
    if statusCode = 200 then "OK"
    else if statusCode = 201 then "Created"
    else if statusCode = 204 then "No Content"
    else if statusCode = 301 then "Moved Permanently"
    else if statusCode = 302 then "Found"
    else if statusCode = 400 then "Bad Request"
    else if statusCode = 404 then "Not Found"
    else if statusCode = 405 then "Method Not Allowed"
    else if statusCode = 413 then "Payload Too Large"
    else if statusCode = 414 then "URI Too Long"
    else if statusCode = 431 then "Request Header Fields Too Large"
    else if statusCode = 500 then "Internal Server Error"
    else if statusCode = 503 then "Service Unavailable"
    else "Unknown"
  text.toList

/-- `_build_error_response`. -/
def buildErrorResponse (statusCode : ℤ) (message : PyStr) : Except PyExn Response := do
  let body ← encodeStr message
  .ok {
    statusCode := statusCode
    reason := reasonOf statusCode
    headers := some [("Content-Type".toList, "text/plain; charset=utf-8".toList)]
    body := body }

/-- `_ENCODED_500_ERROR`. -/
def ENCODED_500_ERROR : List UInt8 :=
  ("HTTP/1.1 500 Internal Server Error\r\n" ++ "Content-Type: text/plain; charset=utf-8\r\n" ++
    "Content-Length: 21\r\n" ++ "Connection: close\r\n" ++ "\r\n" ++
    "Internal Server Error").toList.map asciiByte

/-- `encode_streaming_headers`. -/
def encodeStreamingHeaders (lower : Str → Str) (response : StreamingResponse) :
    Except EncodeError (List UInt8) :=
  let framing : CaseInsensitiveDict :=
    match response.contentLength with
    | some length => CaseInsensitiveDict.set lower {} "Content-Length".toList (formatInt length)
    | none => CaseInsensitiveDict.set lower {} "Transfer-Encoding".toList "chunked".toList
  encodeHead lower response.statusCode response.reason framing response.headers

/-! ## Connections -/

/-- The arguments of `HttpServer`. -/
structure ServerConfig where
  maxConnections : ℤ := 4
  requestTimeoutMs : ℤ := 10000
  recvBudgetPerTick : ℕ := 1024
  sendBudgetPerTick : ℕ := 4096
  maxRequestBodyBytes : ℕ := 16384
  maxRequestLineBytes : ℕ := 1024
  maxHeadersBytes : ℕ := 4096
  streamBufferSize : ℤ := 1024

/-- `_Connection`, with the number of its socket. `socket` is false when `_socket` is `None`. The
numbers of receives, polls and sends so far and the bytes sent are for the environment. -/
structure Connection where
  id : ℕ
  socket : Bool := true
  deadlineTicks : ℤ
  parser : Option RequestParser
  responseBytes : List UInt8 := []
  responseOffset : ℕ := 0
  stream : Option StreamState := none
  state : ConnState := .wantRequestLine
  recvs : ℕ := 0
  polls : ℕ := 0
  sends : ℕ := 0
  wire : List UInt8 := []

namespace Connection

/-- `_Connection(...)`. -/
def new (config : ServerConfig) (id : ℕ) (deadlineTicks : ℤ) : Connection where
  id := id
  deadlineTicks := deadlineTicks
  parser := some (.new config.maxRequestBodyBytes config.maxRequestLineBytes config.maxHeadersBytes)

/-- `is_done`. -/
def isDone (c : Connection) : Bool := c.state = .done || c.state = .error

/-- `_fail`. -/
def fail (c : Connection) : Connection := { c with state := .error }

/-- The loop of `_drive_recv`. It tells whether the state of the parser is looked at afterwards.
Every round but the last receives a byte. -/
def recvLoop (lower : Str → Str) (budget : ℕ) (env : ConnEnv) :
    ℕ → ℕ → Connection → Except TickError Bool × Connection
  | 0, _, c => (.ok true, c)
  | rounds + 1, consumed, c =>
    match c.parser with
    | none => (.error (.other .attributeError), c)
    | some parser =>
      if consumed < budget ∧ parser.state ≠ .done ∧ parser.state ≠ .error then
        let capacity := min (min budget 512) (budget - consumed)
        if c.socket then
          let result := env.recv c.recvs
          let c := { c with recvs := c.recvs + 1 }
          match result with
          | .failed errno => if errno = EAGAIN then (.ok false, c) else (.error (.os errno), c)
          | .received data =>
            let got := data.take capacity
            if got.length = 0 then (.ok true, { c with parser := some parser.feedEof })
            else
              match parser.feed lower got with
              | (some e, parser) => (.error (.server e), { c with parser := some parser })
              | (none, parser) =>
                recvLoop lower budget env rounds (consumed + got.length) { c with parser := some parser }
        else (.error (.other .attributeError), c)
      else (.ok true, c)

/-- `_drive_recv`. -/
def driveRecv (lower : Str → Str) (budget : ℕ) (env : ConnEnv) (c : Connection) :
    Except TickError Unit × Connection :=
  match recvLoop lower budget env (budget + 1) 0 c with
  | (.error e, c) => (.error e, c)
  | (.ok false, c) => (.ok (), c)
  | (.ok true, c) =>
    match c.parser with
    | none => (.error (.other .attributeError), c)
    | some parser =>
      match parser.state with
      | .error =>
        match parser.error with
        | some e => (.error (.server e), c)
        | none => (.error (.other (.typeError "exceptions must derive from BaseException")), c)
      | .done => (.ok (), { c with state := .dispatching })
      | .headers => (.ok (), { c with state := .wantHeaders })
      | .body => (.ok (), { c with state := .wantBody })
      | .requestLine => (.ok (), c)

/-- The bytes to be sent are set. -/
def stageBytes (c : Connection) (data : List UInt8) : Connection :=
  { c with responseBytes := data, responseOffset := 0, state := .wantSendHeaders }

/-- `_stage_response`. A response that cannot be encoded is a 500. -/
def stageResponse (lower : Str → Str) (c : Connection) (response : Response) : Connection :=
  match encodeResponse lower response with
  | .ok data => c.stageBytes data
  | .error _ => c.stageBytes ENCODED_500_ERROR

/-- `bytearray(stream_buffer_size)`. -/
def newStreamBuffer (streamBufferSize : ℤ) (allocation : Option PyExn) : Except PyExn (List UInt8) :=
  if streamBufferSize < 0 then .error (.valueError "negative count")
  else
    match allocation with
    | some e => .error e
    | none => .ok (List.replicate streamBufferSize.toNat 0)

/-- `stage_streaming_response`. -/
def stageStreamingResponse (lower : Str → Str) (streamBufferSize : ℤ) (allocation : Option PyExn)
    (c : Connection) (response : StreamingResponse) : Except TickError Unit × Connection :=
  match encodeStreamingHeaders lower response with
  | .error _ => (.ok (), c.stageBytes ENCODED_500_ERROR)
  | .ok headerBytes =>
    match newStreamBuffer streamBufferSize allocation with
    | .error e => (.error (.other e), c)
    | .ok buffer =>
      match StreamState.new response.contentLength buffer with
      | .error e => (.error (.other e), c)
      | .ok stream => (.ok (), { c with stream := some stream }.stageBytes headerBytes)

/-- What `_dispatch_handler` does with the answer of the handler. -/
def stageAnswer (lower : Str → Str) (streamBufferSize : ℤ) (c : Connection) (handled : Handled) :
    Except TickError Unit × Connection :=
  match handled.answer with
  | .raised none => (.error (.other (.user 0)), c)
  | .raised (some text) =>
    match buildErrorResponse 500 text with
    | .error e => (.error (.other e), c)
    | .ok response => (.ok (), c.stageResponse lower response)
  | .response response => (.ok (), c.stageResponse lower response)
  | .malformedResponse => (.ok (), c.stageBytes ENCODED_500_ERROR)
  | .streaming response => c.stageStreamingResponse lower streamBufferSize handled.allocation response
  | .malformedStreaming => (.ok (), c.stageBytes ENCODED_500_ERROR)
  | .sourceRaises (.osError errno) => (.error (.os errno), c)
  | .sourceRaises e => (.error (.other e), c)
  | .other typeName =>
    match buildErrorResponse 500
        (pyStr "handler returned " ++ typeName ++ pyStr ", expected Response") with
    | .error e => (.error (.other e), c)
    | .ok response => (.ok (), c.stageResponse lower response)

/-- `_dispatch_handler`, and whether the handler has closed the server. -/
def dispatchHandler (lower : Str → Str) (streamBufferSize : ℤ) (env : ConnEnv) (c : Connection) :
    Except TickError Unit × Connection × Bool :=
  match c.parser with
  | none => (.error (.other .attributeError), c, false)
  | some parser =>
    let handled := env.handler (.new lower parser)
    let c := { c with parser := none, socket := c.socket && !handled.closesServer }
    let (result, c) := c.stageAnswer lower streamBufferSize handled
    (result, c, handled.closesServer)

/-- The loop of `_drive_send`. It tells whether the end of the response is looked at afterwards. -/
def sendLoop (budget : ℕ) (env : ConnEnv) : ℕ → ℕ → Connection → Except TickError Bool × Connection
  | 0, _, c => (.ok true, c)
  | rounds + 1, consumed, c =>
    let total := c.responseBytes.length
    if c.responseOffset < total ∧ consumed < budget then
      let size := min (total - c.responseOffset) (budget - consumed)
      let chunk := (c.responseBytes.drop c.responseOffset).take size
      if c.socket then
        let result := env.socket c.sends chunk
        let c := { c with sends := c.sends + 1 }
        match result with
        | .failed errno => if errno = EAGAIN then (.ok false, c) else (.error (.os errno), c)
        | .sent 0 => (.ok false, c)
        | .sent count =>
          sendLoop budget env rounds (consumed + count)
            { c with responseOffset := c.responseOffset + count, wire := c.wire ++ chunk.take count }
      else (.error (.other .attributeError), c)
    else (.ok true, c)

/-- `_drive_send`. -/
def driveSend (budget : ℕ) (env : ConnEnv) (c : Connection) : Except TickError Unit × Connection :=
  match sendLoop budget env (budget + 1) 0 c with
  | (.error e, c) => (.error e, c)
  | (.ok false, c) => (.ok (), c)
  | (.ok true, c) =>
    if c.responseOffset ≥ c.responseBytes.length then
      (.ok (), { c with state := if c.stream.isSome then .wantSendBody else .done })
    else (.ok (), c)

/-- The part of a connection that sends a streamed body. -/
def streamConn (budget : ℕ) (c : Connection) (stream : StreamState) : StreamConn where
  sendBudget := budget
  stream := stream
  state := c.state
  wire := c.wire
  polls := c.polls
  sends := c.sends
  socketOpen := c.socket

/-- The connection with that part of it. -/
def withStreamConn (c : Connection) (conn : StreamConn) : Connection :=
  { c with
    stream := some conn.stream
    state := conn.state
    wire := conn.wire
    polls := conn.polls
    sends := conn.sends
    socket := conn.socketOpen }

/-- `_drive_stream_body`, and whether the source has closed the server. -/
def driveStreamBody (budget : ℕ) (env : ConnEnv) (c : Connection) :
    Except TickError Unit × Connection × Bool :=
  match c.stream with
  | none => (.error (.other .attributeError), c, false)
  | some stream =>
    let (result, conn) := (c.streamConn budget stream).driveStreamBody env.toStreamEnv
    (result.mapError DriveError.toTickError, c.withStreamConn conn, conn.serverClosed)

/-- Go on with the next part of `tick` unless something was raised. -/
def andThen (first : Except TickError Unit × Connection)
    (next : Connection → Except TickError Unit × Connection × Bool) :
    Except TickError Unit × Connection × Bool :=
  match first with
  | (.error e, c) => (.error e, c, false)
  | (.ok (), c) => next c

/-- The handlers of exceptions in `tick`. -/
def rescue (lower : Str → Str) (c : Connection) : TickError → Except PyExn Unit × Connection
  | .server e =>
    match e.limitStatus with
    | some statusCode =>
      match buildErrorResponse statusCode (pyStr e.message) with
      | .ok response => (.ok (), c.stageResponse lower response)
      | .error e => (.error e, c)
    | none => (.ok (), c.fail)
  | .stream _ => (.ok (), c.fail)
  | .os _ => (.ok (), c.fail)
  | .other e => (.error e, c)

/-- One of `_RECV_STATES`. -/
def receiving (c : Connection) : Bool :=
  c.state = .wantRequestLine || c.state = .wantHeaders || c.state = .wantBody

/-- The part of `tick` that receives. -/
def tickRecv (lower : Str → Str) (config : ServerConfig) (env : ConnEnv) (c : Connection) :
    Except TickError Unit × Connection :=
  if c.receiving then c.driveRecv lower config.recvBudgetPerTick env else (.ok (), c)

/-- The part of `tick` that calls the handler. -/
def tickDispatch (lower : Str → Str) (config : ServerConfig) (env : ConnEnv) (c : Connection) :
    Except TickError Unit × Connection × Bool :=
  if c.state = .dispatching then c.dispatchHandler lower config.streamBufferSize env else (.ok (), c, false)

/-- The part of `tick` that sends. -/
def tickSend (config : ServerConfig) (env : ConnEnv) (c : Connection) :
    Except TickError Unit × Connection × Bool :=
  andThen (if c.state = .wantSendHeaders then c.driveSend config.sendBudgetPerTick env else (.ok (), c))
    fun c =>
      if c.state = .wantSendBody then c.driveStreamBody config.sendBudgetPerTick env
      else (.ok (), c, false)

/-- The end of `tick`. -/
def settle (lower : Str → Str) (closed : Bool) :
    Except TickError Unit × Connection × Bool → Except PyExn Unit × Connection × Bool
  | (.ok (), c, closes) => (.ok (), c, closed || closes)
  | (.error e, c, closes) =>
    let (result, c) := c.rescue lower e
    (result, c, closed || closes)

/-- `tick`: what reaches `handle`, the connection, and whether the handler or the source has closed
the server. -/
def tick (lower : Str → Str) (config : ServerConfig) (env : ConnEnv) (nowMs : ℤ) (c : Connection) :
    Except PyExn Unit × Connection × Bool :=
  if c.isDone then (.ok (), c, false)
  else if ticksDiff c.deadlineTicks nowMs ≤ 0 then (.ok (), c.fail, false)
  else
    match c.tickRecv lower config env with
    | (.error e, c) => settle lower false (.error e, c, false)
    | (.ok (), c) =>
      match c.tickDispatch lower config env with
      | (.error e, c, closed) => settle lower closed (.error e, c, false)
      | (.ok (), c, closed) => settle lower closed (c.tickSend config env)

end Connection

end ChuMicro.HttpServer
