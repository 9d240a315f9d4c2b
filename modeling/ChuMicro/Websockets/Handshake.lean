import ChuMicro.Http.Headers
import ChuMicro.Websockets.Wire

/-!
# The opening handshake

The handshake of `chumicro_websockets/_wire.py`: the URL of a connection, the request of a client,
the answers of a server, and the parser of either, which is fed the bytes of one header block as
they arrive.

The two parsers share all but their first line and the checks at the end of the headers; which of
the two one is, is its `role`. SHA-1, base64 and `str.lower` are parameters.

## Main definitions

* `Websockets.parseWsUrl` — `parse_ws_url`.
* `Websockets.encodeClientHandshake`, `Websockets.encodeServerHandshakeResponse` — the messages.
* `Websockets.HandshakeParser` — `HandshakeRequestParser` and `HandshakeResponseParser`.
-/

namespace ChuMicro.Websockets

open Buffers Http

/-! ## Parameters -/

/-- What the handshake takes from the standard library: `hashlib.sha1`, `binascii` and `str.lower`,
and the texts of the exceptions of a codec. -/
structure Codecs where
  sha1 : List UInt8 → List UInt8
  b2aBase64 : List UInt8 → List UInt8
  a2bBase64 : List UInt8 → Except String (List UInt8)
  lower : Str → Str
  decodeErrorText : List UInt8 → String
  encodeErrorText : Str → String

/-- `WS_MAGIC_GUID`. -/
def WS_MAGIC_GUID : Str := "258EAFA5-E914-47DA-95CA-C5AB0DC85B11".toList

/-- `WS_VERSION`. -/
def WS_VERSION : Str := "13".toList

/-- `DEFAULT_MAX_HEADER_BYTES`. -/
def DEFAULT_MAX_HEADER_BYTES : ℕ := 8192

/-! ## URLs -/

/-- The parts of a URL. -/
structure WsUrl where
  useTls : Bool
  host : Str
  port : ℕ
  path : Str
  deriving DecidableEq, Repr

/-- The part of `parse_ws_url` behind the scheme. -/
def parseAuthority (url : Str) (useTls : Bool) (defaultPort : ℕ) (rest : Str) : Except Exn WsUrl :=
  let missing := Exn.urlError s!"url is missing host: {reprStr url}"
  let hostAndPort := rest.takeWhile (· ≠ '/')
  let path := if '/' ∈ rest then rest.dropWhile (· ≠ '/') else ['/']
  if rest = [] ∨ hostAndPort = [] then .error missing
  else if ':' ∉ hostAndPort then .ok ⟨useTls, hostAndPort, defaultPort, path⟩
  else
    let host := hostAndPort.takeWhile (· ≠ ':')
    let portStr := (hostAndPort.dropWhile (· ≠ ':')).tail
    if host = [] then .error missing
    else
      match pyInt 10 portStr with
      | none =>
        .error (.urlError s!"url has non-integer port {reprStr portStr}: {reprStr url}")
      | some port =>
        if port ≤ 0 ∨ port > 65535 then
          .error (.urlError s!"url port {port} out of range 1-65535: {reprStr url}")
        else .ok ⟨useTls, host, port.toNat, path⟩

/-- `parse_ws_url`. -/
def parseWsUrl (url : Str) : Except Exn WsUrl :=
  if "ws://".toList <+: url then parseAuthority url false 80 (url.drop 5)
  else if "wss://".toList <+: url then parseAuthority url true 443 (url.drop 6)
  else .error (.urlError s!"url must start with ws:// or wss://, got {reprStr url}")

/-! ## Messages -/

/-- `encode("ascii")`. -/
def asciiBytes (text : Str) : Except Exn (List UInt8) := liftPy (encodeAscii text)

/-- `.rstrip(b"\n").rstrip(b"\r").decode("ascii")`. -/
def stripLineEnd (data : List UInt8) : Except Exn Str :=
  liftPy (decodeAscii ((data.rdropWhile (· = 10)).rdropWhile (· = 13)))

/-- `make_websocket_key` of the bytes that `os.urandom(16)` returned. -/
def makeWebsocketKey (codecs : Codecs) (nonce : List UInt8) : Except Exn Str :=
  stripLineEnd (codecs.b2aBase64 nonce)

/-- `derive_accept_key`. -/
def deriveAcceptKey (codecs : Codecs) (clientKey : Str) : Except Exn Str := do
  let data ← asciiBytes (clientKey ++ WS_MAGIC_GUID)
  stripLineEnd (codecs.b2aBase64 (codecs.sha1 data))

/-- The header lines of a message. -/
def encodeHeaders : List (Str × Str) → Except Exn (List UInt8)
  | [] => .ok CRLF
  | (name, value) :: rest => do
    let line ← asciiBytes (name ++ ": ".toList ++ value ++ "\r\n".toList)
    let lines ← encodeHeaders rest
    .ok (line ++ lines)

/-- `encode_client_handshake`. The mandatory headers are set last. -/
def encodeClientHandshake (codecs : Codecs) (host : Str) (port : ℕ) (path key : Str)
    (extraHeaders : List (Str × Str)) : Except Exn (List UInt8) := do
  let hostValue := if port = 80 ∨ port = 443 then host else host ++ ":".toList ++ formatInt port
  let merged := ((({} : CaseInsensitiveDict).setAll codecs.lower extraHeaders).setAll codecs.lower
    [("Host".toList, hostValue), ("Upgrade".toList, "websocket".toList),
      ("Connection".toList, "Upgrade".toList), ("Sec-WebSocket-Key".toList, key),
      ("Sec-WebSocket-Version".toList, WS_VERSION)])
  let line ← asciiBytes ("GET ".toList ++ path ++ " HTTP/1.1\r\n".toList)
  let lines ← encodeHeaders merged.items
  .ok (line ++ lines)

/-- `encode_server_handshake_response`, without extra headers, as the server calls it. -/
def encodeServerHandshakeResponse (codecs : Codecs) (clientKey : Str) :
    Except Exn (List UInt8) := do
  let acceptToken ← deriveAcceptKey codecs clientKey
  let merged := ({} : CaseInsensitiveDict).setAll codecs.lower
    [("Upgrade".toList, "websocket".toList), ("Connection".toList, "Upgrade".toList),
      ("Sec-WebSocket-Accept".toList, acceptToken)]
  let lines ← encodeHeaders merged.items
  .ok ("HTTP/1.1 101 Switching Protocols\r\n".toList.map asciiByte ++ lines)

/-! ## Parsers -/

/-- `HandshakeParseState`. -/
inductive HandshakeParseState where
  | requestLine
  | statusLine
  | headers
  | done
  | error
  deriving DecidableEq, Repr

/-- The two parsers: of the request a server reads, and of the response a client reads. -/
inductive HandshakeRole where
  | request
  | response (expectedAccept : Str)
  deriving DecidableEq, Repr

/-- `_initial_state`. -/
def HandshakeRole.initialState : HandshakeRole → HandshakeParseState
  | .request => .requestLine
  | .response _ => .statusLine

/-- The fields of `HandshakeRequestParser` and `HandshakeResponseParser`. -/
structure HandshakeParser where
  role : HandshakeRole
  maxHeaderBytes : ℕ
  buffer : LiveBuffer UInt8 := {}
  state : HandshakeParseState
  httpVersion : Str := []
  headers : CaseInsensitiveDict := {}
  error : Option String := none
  leftover : List UInt8 := []
  method : Str := []
  path : Str := []
  statusCode : Option ℤ := none
  reason : Str := []
  deriving DecidableEq

namespace HandshakeParser

/-- A new parser. -/
def new (role : HandshakeRole) : HandshakeParser :=
  { role, maxHeaderBytes := DEFAULT_MAX_HEADER_BYTES, state := role.initialState }

/-- `_fail`. -/
def fail (p : HandshakeParser) (message : String) : Except Exn Unit × HandshakeParser :=
  (.error (.handshakeError message), { p with error := some message, state := .error })

/-- `client_key`. -/
def clientKey (codecs : Codecs) (p : HandshakeParser) : Str :=
  (p.headers.get codecs.lower "Sec-WebSocket-Key".toList).getD []

/-- `_parse_first_line` of the response parser. -/
def parseStatusLine (p : HandshakeParser) (text : Str) : Except Exn Unit × HandshakeParser :=
  match splitStatusLine text with
  | version :: code :: rest =>
    let p := { p with httpVersion := version }
    match pyInt 10 code with
    | none => p.fail s!"non-integer status code: {reprStr text}"
    | some statusCode =>
      let p := { p with statusCode := some statusCode, reason := rest.headD [] }
      if statusCode ≠ 101 then
        p.fail (s!"server did not switch protocols: {statusCode} " ++ String.ofList p.reason)
      else (.ok (), { p with state := .headers })
  | _ => p.fail s!"malformed status line: {reprStr text}"

/-- `_parse_first_line` of the request parser. -/
def parseRequestLine (p : HandshakeParser) (text : Str) : Except Exn Unit × HandshakeParser :=
  match text.splitOn ' ' with
  | [method, path, version] =>
    let p := { p with method, path, httpVersion := version }
    if method ≠ "GET".toList then p.fail s!"method must be GET, got {reprStr method}"
    else if ¬ "HTTP/1.".toList <+: version then
      p.fail (s!"unsupported HTTP version {reprStr version}; " ++ "must be HTTP/1.1+")
    else (.ok (), { p with state := .headers })
  | _ => p.fail s!"malformed request line: {reprStr text}"

/-- `_parse_first_line`. -/
def parseFirstLine (codecs : Codecs) (p : HandshakeParser) (line : List UInt8) :
    Except Exn Unit × HandshakeParser :=
  match decodeAscii line, p.role with
  | .ok text, .request => p.parseRequestLine text
  | .ok text, .response _ => p.parseStatusLine text
  | .error _, .request => p.fail s!"non-ASCII bytes in request line: {codecs.decodeErrorText line}"
  | .error _, .response _ => p.fail s!"non-ASCII bytes in status line: {codecs.decodeErrorText line}"

/-- `_parse_header_line`. Latin-1 has a character for every byte. -/
def parseHeaderLine (codecs : Codecs) (p : HandshakeParser) (line : List UInt8) :
    Except Exn Unit × HandshakeParser :=
  let decoded := line.map asciiChar
  match findSlice [':'] decoded with
  | none => p.fail s!"header line missing colon: {reprStr decoded}"
  | some index =>
    let name := strip (decoded.take index)
    let value := strip (decoded.drop (index + 1))
    if name = [] then p.fail s!"empty header name in {reprStr decoded}"
    else (.ok (), { p with headers := p.headers.set codecs.lower name value })

/-- `_validate_upgrade_headers`: the text of what is wrong, if anything is. -/
def upgradeProblem (codecs : Codecs) (p : HandshakeParser) (roleLabel : String) : Option String :=
  let upgrade := codecs.lower ((p.headers.get codecs.lower "Upgrade".toList).getD [])
  let connection := codecs.lower ((p.headers.get codecs.lower "Connection".toList).getD [])
  if findSlice "websocket".toList upgrade = none then
    some s!"{roleLabel} missing 'Upgrade: websocket' (got {reprStr upgrade})"
  else if "upgrade".toList ∉ (connection.splitOn ',').map strip then
    some s!"{roleLabel} missing 'Connection: Upgrade' (got {reprStr connection})"
  else none

/-- The checks of `_finalize` of the request parser. -/
def requestProblem (codecs : Codecs) (p : HandshakeParser) : Option String :=
  let version := (p.headers.get codecs.lower "Sec-WebSocket-Version".toList).getD []
  let key := p.clientKey codecs
  match p.upgradeProblem codecs "client request" with
  | some message => some message
  | none =>
    if version ≠ WS_VERSION then
      some (s!"unsupported Sec-WebSocket-Version {reprStr version}; " ++
        s!"must be {reprStr WS_VERSION}")
    else if key = [] then some "client request missing Sec-WebSocket-Key"
    else
      match encodeAscii key with
      | .error _ => some s!"Sec-WebSocket-Key is not valid base64: {codecs.encodeErrorText key}"
      | .ok data =>
        match codecs.a2bBase64 data with
        | .error message => some s!"Sec-WebSocket-Key is not valid base64: {message}"
        | .ok decoded =>
          if decoded.length ≠ 16 then
            some ("Sec-WebSocket-Key must decode to 16 bytes, got " ++ s!"{decoded.length}")
          else none

/-- The checks of `_finalize` of the response parser. -/
def responseProblem (codecs : Codecs) (p : HandshakeParser) (expectedAccept : Str) :
    Option String :=
  let accept := (p.headers.get codecs.lower "Sec-WebSocket-Accept".toList).getD []
  match p.upgradeProblem codecs "server response" with
  | some message => some message
  | none =>
    if accept ≠ expectedAccept then
      some ("Sec-WebSocket-Accept mismatch: expected " ++
        s!"{reprStr expectedAccept}, got {reprStr accept}")
    else none

/-- `_commit_done`. -/
def commitDone (p : HandshakeParser) : HandshakeParser :=
  { p with leftover := p.buffer.live, buffer := {}, state := .done }

/-- `_finalize`. -/
def finalize (codecs : Codecs) (p : HandshakeParser) : Except Exn Unit × HandshakeParser :=
  let problem :=
    match p.role with
    | .request => p.requestProblem codecs
    | .response expectedAccept => p.responseProblem codecs expectedAccept
  match problem with
  | some message => p.fail message
  | none => (.ok (), p.commitDone)

/-- The loop of `feed`. Every round but the last consumes a line, so one round more than there are
bytes is enough. -/
def feedLoop (codecs : Codecs) : ℕ → HandshakeParser → Except Exn Unit × HandshakeParser
  | 0, p => (.ok (), p)
  | rounds + 1, p =>
    match p.buffer.liveFind CRLF with
    | none => (.ok (), p)
    | some index =>
      let line := p.buffer.liveSlice 0 index
      let p := { p with buffer := p.buffer.consume (index + 2) }
      if p.state = .headers ∧ line = [] then p.finalize codecs
      else
        let (result, p) :=
          if p.state = .headers then p.parseHeaderLine codecs line else p.parseFirstLine codecs line
        match result with
        | .error e => (.error e, p)
        | .ok () => feedLoop codecs rounds p

/-- `feed`. -/
def feed (codecs : Codecs) (p : HandshakeParser) (chunk : List UInt8) :
    Except Exn Unit × HandshakeParser :=
  if p.state = .done ∨ p.state = .error then (.ok (), p)
  else
    let p := { p with buffer := p.buffer.extend chunk }
    if p.buffer.liveLen > p.maxHeaderBytes then
      p.fail s!"handshake exceeded max_header_bytes={p.maxHeaderBytes}"
    else feedLoop codecs (p.buffer.liveLen + 1) p

end HandshakeParser

end ChuMicro.Websockets
