import ChuMicro.Http.Headers

/-!
# The HTTP request parser

`RequestParser` of `chumicro_http_server/_wire.py`: a streaming parser that is fed the bytes of one
request as they arrive.

The parser is its fields and a `LiveBuffer` of unparsed bytes. The body buffer is the list of the
bytes written to it: it is sized to the `Content-Length` before the first write, and nothing reads
past the write offset. What a line or the end of the headers does to the fields is told on the
fields alone, since only the search for the next line looks at the buffer.

## Main definitions

* `HttpServer.ServerError` — the errors of the parser.
* `HttpServer.RequestFields` — the fields of the parser other than its buffer.
* `HttpServer.RequestParser` — the parser, with `feed`.
-/

namespace ChuMicro.HttpServer

open Buffers Http

/-! ## Errors -/

/-- The errors of the parser, with their texts. -/
inductive ServerError where
  | protocolError (message : String)
  | oversizedError (message : String) (reportedLength : ℤ)
  | requestLineTooLargeError (message : String)
  | headersTooLargeError (message : String)
  deriving DecidableEq, Repr

/-- The classes of errors. -/
inductive ErrorKind where
  | protocol
  | oversized
  | requestLineTooLarge
  | headersTooLarge
  deriving DecidableEq, Repr

/-- The class of an error. -/
def ServerError.kind : ServerError → ErrorKind
  | .protocolError _ => .protocol
  | .oversizedError _ _ => .oversized
  | .requestLineTooLargeError _ => .requestLineTooLarge
  | .headersTooLargeError _ => .headersTooLarge

/-- The error for a request line over the cap. -/
def requestLineTooLarge (cap : ℕ) : ServerError :=
  .requestLineTooLargeError s!"request line exceeds cap {cap}"

/-- The error for headers over the cap. -/
def headersTooLarge (cap : ℕ) : ServerError :=
  .headersTooLargeError s!"header section exceeds cap {cap}"

/-! ## State -/

/-- `RequestParseState`. -/
inductive RequestParseState where
  | requestLine
  | headers
  | body
  | done
  | error
  deriving DecidableEq, Repr

/-- The text of a state. -/
def RequestParseState.text : RequestParseState → String
  | .requestLine => "request_line"
  | .headers => "headers"
  | .body => "body"
  | .done => "done"
  | .error => "error"

/-- The fields of `RequestParser` other than its buffer. `body` is the part of the body buffer below
the write offset. -/
structure RequestFields where
  maxBodyBytes : ℕ
  maxRequestLineBytes : ℕ
  maxHeadersBytes : ℕ
  headersBytes : ℕ := 0
  state : RequestParseState := .requestLine
  method : Str := []
  target : Str := []
  httpVersion : Str := []
  headers : CaseInsensitiveDict := {}
  body : List UInt8 := []
  bodyRemaining : ℕ := 0
  error : Option ServerError := none
  deriving DecidableEq

/-- `RequestParser`. -/
structure RequestParser extends RequestFields where
  buffer : LiveBuffer UInt8 := {}
  deriving DecidableEq

/-- What a step of the parser returns: `False`, since it needs more bytes, `True`, since the loop is
to go on, or an exception. -/
inductive Progress where
  | more
  | next
  | raised (e : ServerError)
  deriving DecidableEq

namespace RequestFields

/-- `_fail`. -/
def fail (f : RequestFields) (error : ServerError) : RequestFields :=
  { f with error := some error, state := .error }

/-- The part of `_try_parse_request_line` that reads a line. -/
def parseRequestLine (f : RequestFields) (line : List UInt8) : Progress × RequestFields :=
  match decodeAscii line with
  | .error _ =>
    let error := ServerError.protocolError s!"non-ASCII request line: {reprBytes line}"
    (.raised error, f.fail error)
  | .ok text =>
    match text.splitOn ' ' with
    | [method, target, version] =>
      if ¬ "HTTP/".toList <+: version then
        (.next, f.fail (.protocolError s!"request line missing HTTP version: {reprStr text}"))
      else if method = [] then
        (.next, f.fail (.protocolError s!"empty method: {reprStr text}"))
      else if target = [] then
        (.next, f.fail (.protocolError s!"empty request-target: {reprStr text}"))
      else (.next, { f with method, target, httpVersion := version, state := .headers })
    | _ => (.next, f.fail (.protocolError s!"malformed request line: {reprStr text}"))

/-- The part of `_try_parse_headers` that reads a header line. -/
def parseHeaderLine (lower : Str → Str) (f : RequestFields) (line : List UInt8) :
    Progress × RequestFields :=
  match decodeAscii line with
  | .error _ =>
    let error := ServerError.protocolError s!"non-ASCII header line: {reprBytes line}"
    (.raised error, f.fail error)
  | .ok text =>
    match splitHeader text with
    | none =>
      (.next, f.fail (.protocolError
        s!"header line missing ':' or empty name: {reprStr text}"))
    | some (name, value) => (.next, { f with headers := f.headers.add lower name value })

/-- The part of `_enter_body_state` that decides on the body. -/
def frameBody (lower : Str → Str) (f : RequestFields) : RequestFields :=
  if f.headers.get lower "Transfer-Encoding".toList ≠ none then
    f.fail (.protocolError "Transfer-Encoding request bodies are not supported")
  else
    match f.headers.get lower "Content-Length".toList with
    | none => { f with state := .done }
    | some text =>
      match pyInt 10 text with
      | none => f.fail (.protocolError s!"non-integer Content-Length: {reprStr text}")
      | some length =>
        if length < 0 then f.fail (.protocolError s!"negative Content-Length: {length}")
        else if length > f.maxBodyBytes then
          f.fail (.oversizedError s!"Content-Length {length} exceeds cap {f.maxBodyBytes}" length)
        else if length = 0 then { f with bodyRemaining := 0, state := .done }
        else { f with bodyRemaining := length.toNat, state := .body, body := [] }

/-- `_absorb_body_bytes`. -/
def absorbBodyBytes (f : RequestFields) (chunk : List UInt8) : RequestFields :=
  if f.bodyRemaining = 0 then f
  else
    let take := min f.bodyRemaining chunk.length
    let f := { f with body := f.body ++ chunk.take take, bodyRemaining := f.bodyRemaining - take }
    if f.bodyRemaining = 0 then { f with state := .done } else f

end RequestFields

namespace RequestParser

/-- A parser for one request, with the three caps. -/
def new (maxBodyBytes maxRequestLineBytes maxHeadersBytes : ℕ) : RequestParser :=
  { maxBodyBytes, maxRequestLineBytes, maxHeadersBytes }

/-- Replace the fields and keep the buffer. -/
def withFields (p : RequestParser) (f : RequestFields) : RequestParser :=
  { p with toRequestFields := f }

/-- `_consume`. -/
def consume (p : RequestParser) (count : ℕ) : RequestParser :=
  { p with buffer := p.buffer.consume count }

/-- `_try_parse_request_line`. -/
def tryParseRequestLine (p : RequestParser) : Progress × RequestParser :=
  match p.buffer.liveFind CRLF with
  | none =>
    if p.buffer.liveLen > p.maxRequestLineBytes then
      (.next, p.withFields (p.fail (requestLineTooLarge p.maxRequestLineBytes)))
    else (.more, p)
  | some index =>
    if index > p.maxRequestLineBytes then
      (.next, p.withFields (p.fail (requestLineTooLarge p.maxRequestLineBytes)))
    else
      let line := p.buffer.liveSlice 0 index
      let p := p.consume (index + 2)
      let (progress, f) := p.parseRequestLine line
      (progress, p.withFields f)

/-- `_enter_body_state`: what is left in the buffer is the start of the body. -/
def enterBodyState (lower : Str → Str) (p : RequestParser) : RequestParser :=
  let p := p.withFields (p.frameBody lower)
  if p.state = .body ∧ p.buffer.liveLen > 0 then
    { p with buffer := {}, toRequestFields := p.absorbBodyBytes p.buffer.live }
  else p

/-- `_try_parse_headers`. -/
def tryParseHeaders (lower : Str → Str) (p : RequestParser) : Progress × RequestParser :=
  if p.headersBytes + p.buffer.liveLen > p.maxHeadersBytes then
    (.next, p.withFields (p.fail (headersTooLarge p.maxHeadersBytes)))
  else
    match p.buffer.liveFind CRLF with
    | none => (.more, p)
    | some 0 =>
      let p := { p with headersBytes := p.headersBytes + 2 }.consume 2
      (.next, p.enterBodyState lower)
    | some index =>
      let line := p.buffer.liveSlice 0 index
      let p := { p with headersBytes := p.headersBytes + (index + 2) }.consume (index + 2)
      let (progress, f) := p.parseHeaderLine lower line
      (progress, p.withFields f)

/-- The body of the loop of `_advance`. -/
def step (lower : Str → Str) (p : RequestParser) : Progress × RequestParser :=
  match p.state with
  | .requestLine => p.tryParseRequestLine
  | .headers => p.tryParseHeaders lower
  | _ => (.more, p)

/-- The loop of `_advance`. Every round but the last consumes bytes, so one round more than there
are bytes is enough. -/
def advanceLoop (lower : Str → Str) : ℕ → RequestParser → Option ServerError × RequestParser
  | 0, p => (none, p)
  | rounds + 1, p =>
    match p.step lower with
    | (.more, p) => (none, p)
    | (.raised e, p) => (some e, p)
    | (.next, p) => advanceLoop lower rounds p

/-- `_advance`. -/
def advance (lower : Str → Str) (p : RequestParser) : Option ServerError × RequestParser :=
  advanceLoop lower (p.buffer.liveLen + 1) p

/-- `feed(chunk)`: the exception it raises, if any, and the parser. -/
def feed (lower : Str → Str) (p : RequestParser) (chunk : List UInt8) :
    Option ServerError × RequestParser :=
  if p.state = .done ∨ p.state = .error then (none, p)
  else
    let p :=
      if chunk = [] then p
      else if p.state = .body then p.withFields (p.absorbBodyBytes chunk)
      else { p with buffer := p.buffer.extend chunk }
    p.advance lower

/-- `feed_eof`. -/
def feedEof (p : RequestParser) : RequestParser :=
  if p.state = .done ∨ p.state = .error then p
  else if p.state = .body ∧ p.bodyRemaining > 0 then
    p.withFields (p.fail (.protocolError
      (s!"client closed mid-body; {p.bodyRemaining} bytes " ++ "still expected per Content-Length")))
  else
    p.withFields (p.fail (.protocolError
      s!"client closed before request completed (state={p.state.text})"))

/-- Feed chunks one after the other. After an exception the state is terminal and later chunks
change nothing. -/
def feedAll (lower : Str → Str) (p : RequestParser) (chunks : List (List UInt8)) : RequestParser :=
  chunks.foldl (fun p chunk => (p.feed lower chunk).2) p

end RequestParser

end ChuMicro.HttpServer
