import ChuMicro.Http.Headers

/-!
# The wire format of the HTTP client

`encode_request` and `ResponseParser` of `chumicro_requests/_wire.py`.

As for the request parser of the server, the response parser is its fields and a `LiveBuffer` of
unparsed bytes, and the body buffer is the list of the bytes below its write offset, with the
capacity that the streamed mode compares them with.

## Main definitions

* `Requests.encodeRequest` — a request as bytes.
* `Requests.ResponseParser` — the parser, with `feed` and `feedEof`.
-/

namespace ChuMicro.Requests

open Buffers Http

/-! ## Errors -/

/-- The exceptions of the library, with their texts, and the built-in ones. -/
inductive HttpError where
  | error (message : String)
  | protocolError (message : String)
  | urlError (message : String)
  | timeoutError (message : String)
  | busyError (message : String)
  | oversizedError (message : String) (reportedLength : ℤ)
  | py (e : PyExn)
  deriving DecidableEq, Repr

/-! ## Requests -/

/-- The characters `_reject_unsafe_chars` refuses. -/
def isUnsafe (c : Char) : Bool := c = '\r' || c = '\n' || c.toNat = 0 || c.toNat > 0x7e

/-- `_reject_unsafe_chars`. -/
def rejectUnsafeChars (label : String) (value : Str) : Except HttpError Unit :=
  if value.any isUnsafe then .error (.urlError s!"{label} contains a non-ASCII or control character")
  else .ok ()

/-- `encode("ascii")` in the library's terms. -/
def ascii (text : Str) : Except HttpError (List UInt8) :=
  match encodeAscii text with
  | .ok data => .ok data
  | .error e => .error (.py e)

/-- The default `User-Agent`. -/
def DEFAULT_USER_AGENT : Str := "chumicro-requests/0.1".toList

/-- The headers every request has. -/
def defaultHeaders (host : Str) (body : Option (List UInt8)) (userAgent : Option Str) :
    List (Str × Str) :=
  [("Host".toList, host),
    ("User-Agent".toList, if (userAgent.getD []) = [] then DEFAULT_USER_AGENT else userAgent.getD []),
    ("Accept".toList, "*/*".toList),
    ("Accept-Encoding".toList, "identity".toList),
    ("Connection".toList, "close".toList)] ++
  match body with
  | none => []
  | some data => [("Content-Length".toList, formatInt data.length)]

/-- The map `merged` of `encode_request`: the defaults, overridden by the caller's headers. -/
def mergedHeaders (lower : Str → Str) (host : Str) (headers : Option (List (Str × Str)))
    (body : Option (List UInt8)) (userAgent : Option Str) : CaseInsensitiveDict :=
  (CaseInsensitiveDict.setAll lower {} (defaultHeaders host body userAgent)).setAll lower
    (headers.getD [])

/-- The lines of a header map. -/
def encodeHeaderLines : List (Str × Str) → Except HttpError (List UInt8)
  | [] => .ok []
  | (name, value) :: rest => do
    rejectUnsafeChars "header name" name
    rejectUnsafeChars "header value" value
    let line ← ascii (name ++ ": ".toList ++ value ++ "\r\n".toList)
    let lines ← encodeHeaderLines rest
    .ok (line ++ lines)

/-- `encode_request`. `headers` is the caller's headers as pairs. -/
def encodeRequest (lower : Str → Str) (method host path : Str) (headers : Option (List (Str × Str)))
    (body : Option (List UInt8)) (userAgent : Option Str) : Except HttpError (List UInt8) := do
  rejectUnsafeChars "method" method
  rejectUnsafeChars "path" path
  let line ← ascii (method ++ " ".toList ++ path ++ " HTTP/1.1\r\n".toList)
  let lines ← encodeHeaderLines (mergedHeaders lower host headers body userAgent).items
  .ok (line ++ lines ++ CRLF ++ body.getD [])

/-! ## The response parser -/

/-- `ParseState`. -/
inductive ParseState where
  | status
  | headers
  | body
  | chunkSize
  | chunkData
  | chunkTrailer
  | done
  | error
  deriving DecidableEq, Repr

/-- The text of a state in error messages. -/
def ParseState.text : ParseState → String
  | .status => "status"
  | .headers => "headers"
  | .body => "body"
  | .chunkSize => "chunk_size"
  | .chunkData => "chunk_data"
  | .chunkTrailer => "chunk_trailer"
  | .done => "done"
  | .error => "error"

/-- `NO_BODY_STATUS_CODES`. -/
def NO_BODY_STATUS_CODES : List ℤ := [204, 304]

/-- The fields of `ResponseParser` other than its buffer. `body` is the part of the body buffer
below the write offset, `bodyCapacity` the length of that buffer, and `bodyRemaining` is `none`
where the source has `-1`. -/
structure ResponseFields where
  maxBodyBytes : ℕ
  maxHeaderBytes : ℕ
  streamBody : Bool := false
  state : ParseState := .status
  statusCode : Option ℤ := none
  reason : Str := []
  httpVersion : Str := []
  headers : CaseInsensitiveDict := {}
  body : List UInt8 := []
  bodyCapacity : ℕ := 0
  bodyReadOffset : ℕ := 0
  headersComplete : Bool := false
  bodyRemaining : Option ℕ := none
  chunkRemaining : ℕ := 0
  error : Option HttpError := none
  deriving DecidableEq

/-- `ResponseParser`. -/
structure ResponseParser extends ResponseFields where
  buffer : LiveBuffer UInt8 := {}
  deriving DecidableEq

namespace ResponseFields

/-- `_fail`. -/
def fail (f : ResponseFields) (error : HttpError) : ResponseFields :=
  { f with error := some error, state := .error }

/-- The part of `_try_parse_status_line` that reads a line. -/
def parseStatusLine (f : ResponseFields) (text : Str) : ResponseFields :=
  match splitStatusLine text with
  | version :: code :: rest =>
    if ¬ "HTTP/".toList <+: version then
      f.fail (.protocolError s!"status line missing HTTP version: {reprStr text}")
    else
      match pyInt 10 code with
      | none => f.fail (.protocolError s!"non-integer status code: {reprStr code}")
      | some status =>
        { f with
          statusCode := some status, httpVersion := version, reason := rest.headD []
          state := .headers }
  | _ => f.fail (.protocolError s!"malformed status line: {reprStr text}")

/-- `_enter_body_state` up to the bytes that are left in the buffer. -/
def frameBody (lower : Str → Str) (f : ResponseFields) : ResponseFields :=
  let status := f.statusCode.getD 0
  if 100 ≤ status ∧ status < 200 ∧ status ≠ 101 then
    { f with statusCode := none, reason := [], httpVersion := [], headers := {}, state := .status }
  else
    let f := { f with headersComplete := true }
    if status ∈ NO_BODY_STATUS_CODES then { f with state := .done }
    else
      match f.headers.get lower "Transfer-Encoding".toList with
      | some encoding =>
        if lower (encoding.filter (· ≠ ' ')) ≠ "chunked".toList then
          f.fail (.protocolError (s!"unsupported Transfer-Encoding: {reprStr encoding} " ++
            "(only 'chunked' is supported in v1)"))
        else { f with state := .chunkSize }
      | none =>
        match f.headers.get lower "Content-Length".toList with
        | some text =>
          match pyInt 10 text with
          | none => f.fail (.protocolError s!"non-integer Content-Length: {reprStr text}")
          | some length =>
            if length < 0 then f.fail (.protocolError s!"negative Content-Length: {length}")
            else if length > f.maxBodyBytes ∧ f.streamBody = false then
              f.fail (.oversizedError s!"Content-Length {length} exceeds cap {f.maxBodyBytes}" length)
            else if length = 0 then { f with bodyRemaining := some 0, state := .done }
            else
              { f with
                bodyRemaining := some length.toNat, state := .body, body := []
                bodyCapacity :=
                  if length.toNat > f.bodyCapacity ∧ f.streamBody = false then length.toNat
                  else f.bodyCapacity }
        | none => { f with bodyRemaining := none, state := .body }

/-- The part of `_try_parse_headers` that reads a header line which is not blank. -/
def parseHeaderLine (lower : Str → Str) (f : ResponseFields) (text : Str) : ResponseFields :=
  match splitHeader text with
  | none =>
    f.fail (.protocolError s!"header line missing ':' or empty name: {reprStr text}")
  | some (name, value) => { f with headers := f.headers.add lower name value }

/-- `_absorb_body_chunk`. A buffer that is too small is doubled, at least to the size needed. -/
def absorbBodyChunk (f : ResponseFields) (chunk : List UInt8) : ResponseFields :=
  let endOffset := f.body.length + chunk.length
  if endOffset ≤ f.bodyCapacity then { f with body := f.body ++ chunk }
  else if f.streamBody then
    f.fail (.error ("streamed-body staging overflow: drain read_body_into " ++
      "and bound each feed by body_free()"))
  else
    { f with
      body := f.body ++ chunk
      bodyCapacity := max (min (max (f.bodyCapacity * 2) endOffset) f.maxBodyBytes) endOffset }

/-- `_absorb_body_bytes`. -/
def absorbBodyBytes (f : ResponseFields) (chunk : List UInt8) : ResponseFields :=
  match f.bodyRemaining with
  | some 0 => f
  | some remaining =>
    let take := min remaining chunk.length
    let f := f.absorbBodyChunk (chunk.take take)
    let f := { f with bodyRemaining := some (remaining - take) }
    if remaining - take = 0 then { f with state := .done } else f
  | none =>
    if f.streamBody = false ∧ f.body.length + chunk.length > f.maxBodyBytes then
      f.fail (.oversizedError s!"response body exceeded cap {f.maxBodyBytes}"
        ((f.body.length + chunk.length : ℕ) : ℤ))
    else f.absorbBodyChunk chunk

/-- The part of `_try_parse_chunk_size` that reads a line. -/
def parseChunkSize (f : ResponseFields) (text : Str) : ResponseFields :=
  let sizeText := strip (text.takeWhile (· ≠ ';'))
  if sizeText = [] then f.fail (.protocolError s!"empty chunk-size line: {reprStr text}")
  else
    match pyInt 16 sizeText with
    | none => f.fail (.protocolError s!"non-hex chunk-size: {reprStr sizeText}")
    | some size =>
      if size < 0 then f.fail (.protocolError s!"negative chunk-size: {size}")
      else if f.streamBody = false ∧ f.body.length + size > f.maxBodyBytes then
        f.fail (.oversizedError s!"chunked body would exceed cap {f.maxBodyBytes}"
          (f.body.length + size))
      else if size = 0 then { f with state := .chunkTrailer }
      else { f with chunkRemaining := size.toNat, state := .chunkData }

end ResponseFields

namespace ResponseParser

/-- A parser in buffered mode without a body buffer of its own. -/
def new (maxBodyBytes maxHeaderBytes : ℕ) : ResponseParser := { maxBodyBytes, maxHeaderBytes }

/-- Replace the fields and keep the buffer. -/
def withFields (p : ResponseParser) (f : ResponseFields) : ResponseParser :=
  { p with toResponseFields := f }

/-- `_consume`. -/
def consume (p : ResponseParser) (count : ℕ) : ResponseParser :=
  { p with buffer := p.buffer.consume count }

/-- `_take_ascii_line`, and what the caller does with the line. The result is `False` where no full
line has arrived yet; a line that is not ASCII fails the parser. -/
def takeAsciiLine (p : ResponseParser) (label : String) (use : ResponseParser → Str → ResponseParser) :
    Bool × ResponseParser :=
  match p.buffer.liveFind CRLF with
  | none => (false, p)
  | some index =>
    let line := p.buffer.liveSlice 0 index
    let p := p.consume (index + 2)
    match decodeAscii line with
    | .ok text => (true, use p text)
    | .error _ =>
      (true, p.withFields (p.fail (.protocolError s!"non-ASCII {label}: {reprBytes line}")))

/-- `_absorb_trailing_bytes`. -/
def absorbTrailingBytes (p : ResponseParser) : ResponseParser :=
  if p.buffer.liveLen = 0 then p
  else { p with buffer := {}, toResponseFields := p.absorbBodyBytes p.buffer.live }

/-- `_enter_body_state`. -/
def enterBodyState (lower : Str → Str) (p : ResponseParser) : ResponseParser :=
  let p := p.withFields (p.frameBody lower)
  if p.state = .body then p.absorbTrailingBytes else p

/-- `_try_parse_status_line`. -/
def tryParseStatusLine (p : ResponseParser) : Bool × ResponseParser :=
  p.takeAsciiLine "status line" fun p text => p.withFields (p.parseStatusLine text)

/-- `_try_parse_headers`. -/
def tryParseHeaders (lower : Str → Str) (p : ResponseParser) : Bool × ResponseParser :=
  p.takeAsciiLine "header line" fun p text =>
    if text = [] then p.enterBodyState lower else p.withFields (p.parseHeaderLine lower text)

/-- `_try_parse_chunk_size`. -/
def tryParseChunkSize (p : ResponseParser) : Bool × ResponseParser :=
  p.takeAsciiLine "chunk-size line" fun p text => p.withFields (p.parseChunkSize text)

/-- The end of `_try_consume_chunk_data`: the line end behind the data. -/
def endChunk (p : ResponseParser) : Bool × ResponseParser :=
  if p.buffer.liveLen < 2 then (false, p)
  else
    let tail := p.buffer.liveSlice 0 2
    if tail ≠ CRLF then
      (true, p.withFields (p.fail (.protocolError
        s!"missing CRLF after chunk data: {reprBytes tail}")))
    else
      let p := p.consume 2
      (true, { p with state := .chunkSize })

/-- `_try_consume_chunk_data`. -/
def tryConsumeChunkData (p : ResponseParser) : Bool × ResponseParser :=
  if p.chunkRemaining > 0 then
    let available := min p.chunkRemaining p.buffer.liveLen
    if available = 0 then (false, p)
    else
      let p := (p.withFields (p.absorbBodyChunk (p.buffer.liveSlice 0 available))).consume available
      let p := { p with chunkRemaining := p.chunkRemaining - available }
      if p.chunkRemaining > 0 then (false, p) else p.endChunk
  else p.endChunk

/-- `_try_parse_chunk_trailer`. -/
def tryParseChunkTrailer (p : ResponseParser) : Bool × ResponseParser :=
  match p.buffer.liveFind CRLF with
  | none => (false, p)
  | some 0 => (true, { p.consume 2 with state := .done })
  | some index => (true, p.consume (index + 2))

/-- The step of the table `_ADVANCE_STEPS` for the current state. -/
def step (lower : Str → Str) (p : ResponseParser) : Bool × ResponseParser :=
  match p.state with
  | .status => p.tryParseStatusLine
  | .headers => p.tryParseHeaders lower
  | .chunkSize => p.tryParseChunkSize
  | .chunkData => p.tryConsumeChunkData
  | .chunkTrailer => p.tryParseChunkTrailer
  | .body | .done | .error => (false, p)

/-- The loop of `_advance`. Every round but the last consumes bytes, so one round more than there
are bytes is enough. -/
def advanceLoop (lower : Str → Str) : ℕ → ResponseParser → ResponseParser
  | 0, p => p
  | rounds + 1, p =>
    match p.step lower with
    | (false, p) => p
    | (true, p) => advanceLoop lower rounds p

/-- `_advance`. -/
def advance (lower : Str → Str) (p : ResponseParser) : ResponseParser :=
  advanceLoop lower (p.buffer.liveLen + 1) p

/-- `feed(chunk)`. -/
def feed (lower : Str → Str) (p : ResponseParser) (chunk : List UInt8) : ResponseParser :=
  if p.state = .done ∨ p.state = .error then p
  else if chunk = [] then p.advance lower
  else if p.state = .body then (p.withFields (p.absorbBodyBytes chunk)).advance lower
  else if p.buffer.liveLen + chunk.length > p.maxHeaderBytes then
    p.withFields (p.fail (.protocolError
      s!"unparsed response bytes exceeded {p.maxHeaderBytes} (state={p.state.text})"))
  else { p with buffer := p.buffer.extend chunk }.advance lower

/-- `feed_eof()`. -/
def feedEof (p : ResponseParser) : ResponseParser :=
  match p.state with
  | .done | .error => p
  | .body =>
    match p.bodyRemaining with
    | none => { p with state := .done }
    | some 0 =>
      p.withFields (p.fail (.protocolError "peer closed before response completed (state=body)"))
    | some remaining =>
      p.withFields (p.fail (.protocolError
        (s!"peer closed mid-body; {remaining} bytes " ++ "still expected per Content-Length")))
  | .chunkSize | .chunkData | .chunkTrailer =>
    p.withFields (p.fail (.protocolError s!"peer closed mid-chunked-body (state={p.state.text})"))
  | state =>
    p.withFields (p.fail (.protocolError
      s!"peer closed before response completed (state={state.text})"))

/-- `body_free()`. -/
def bodyFree (p : ResponseParser) : ℕ := p.bodyCapacity - p.body.length

/-- `read_body_into(buffer)` for a buffer of `size` bytes: the bytes it copies, and the parser. -/
def readBodyInto (p : ResponseParser) (size : ℕ) : List UInt8 × ResponseParser :=
  let available := p.body.length - p.bodyReadOffset
  if available = 0 then ([], p)
  else
    let count := min size available
    let copied := (p.body.drop p.bodyReadOffset).take count
    if p.bodyReadOffset + count = p.body.length then
      (copied, { p with body := [], bodyReadOffset := 0 })
    else (copied, { p with bodyReadOffset := p.bodyReadOffset + count })

/-- `discard_body()`. -/
def discardBody (p : ResponseParser) : ResponseParser := { p with body := [], bodyReadOffset := 0 }

/-- Feed chunks one after the other. -/
def feedAll (lower : Str → Str) (p : ResponseParser) (chunks : List (List UInt8)) : ResponseParser :=
  chunks.foldl (feed lower) p

end ResponseParser

end ChuMicro.Requests
