import ChuMicro.HttpServer.RequestParser

/-!
# Responses of the HTTP server

`Response`, `_encode_head` and `encode_response` of `chumicro_http_server/server.py`. The headers of
a response are the pairs that `_merge_headers` goes through; the mapping or list they come in makes
no other difference.

## Main definitions

* `HttpServer.Response` — a response.
* `HttpServer.encodeHead` — the head of a response as bytes.
* `HttpServer.encodeResponse` — a response as bytes.
-/

namespace ChuMicro.HttpServer

open Http

/-- `Response`. -/
structure Response where
  statusCode : ℤ
  reason : Str
  headers : Option (List (Str × Str))
  body : List UInt8
  deriving DecidableEq, Repr

/-- The exceptions of the encoder: those of the library and the built-in ones. -/
inductive EncodeError where
  | server (e : ServerError)
  | py (e : PyExn)
  deriving DecidableEq, Repr

/-- `_reject_control_chars`. -/
def rejectControlChars (label : String) (value : Str) : Except EncodeError Unit :=
  if '\r' ∈ value ∨ '\n' ∈ value ∨ Char.ofNat 0 ∈ value then
    .error (.server (.protocolError s!"{label} contains a control character"))
  else .ok ()

/-- `encode("ascii")`. -/
def ascii (text : Str) : Except EncodeError (List UInt8) :=
  match encodeAscii text with
  | .ok data => .ok data
  | .error e => .error (.py e)

/-- The text of the status line. -/
def statusLine (statusCode : ℤ) (reason : Str) : Str :=
  "HTTP/1.1 ".toList ++ formatInt statusCode ++ " ".toList ++ reason

/-- The map `framing_headers` of `_encode_head` after `_merge_headers`. -/
def headHeaders (lower : Str → Str) (framingHeaders : CaseInsensitiveDict)
    (extraHeaders : Option (List (Str × Str))) : CaseInsensitiveDict :=
  (framingHeaders.set lower "Connection".toList "close".toList).setAll lower (extraHeaders.getD [])

/-- The header lines of `_encode_head`. -/
def encodeHeaderLines : List (Str × Str) → Except EncodeError (List UInt8)
  | [] => .ok []
  | (name, value) :: rest => do
    rejectControlChars "header name" name
    rejectControlChars "header value" value
    let line ← ascii (name ++ ": ".toList ++ value ++ "\r\n".toList)
    let lines ← encodeHeaderLines rest
    .ok (line ++ lines)

/-- `_encode_head`. -/
def encodeHead (lower : Str → Str) (statusCode : ℤ) (reason : Str)
    (framingHeaders : CaseInsensitiveDict) (extraHeaders : Option (List (Str × Str))) :
    Except EncodeError (List UInt8) := do
  rejectControlChars "reason" reason
  let line ← ascii (statusLine statusCode reason ++ "\r\n".toList)
  let lines ← encodeHeaderLines (headHeaders lower framingHeaders extraHeaders).items
  .ok (line ++ lines ++ CRLF)

/-- The headers `encode_response` starts with. -/
def framingHeaders (lower : Str → Str) (body : List UInt8) : CaseInsensitiveDict :=
  CaseInsensitiveDict.set lower {} "Content-Length".toList (formatInt body.length)

/-- `encode_response`. -/
def encodeResponse (lower : Str → Str) (response : Response) : Except EncodeError (List UInt8) := do
  let head ← encodeHead lower response.statusCode response.reason
    (framingHeaders lower response.body) response.headers
  .ok (head ++ response.body)

/-- The header map of a response on the wire. -/
def Response.wireHeaders (lower : Str → Str) (response : Response) : CaseInsensitiveDict :=
  headHeaders lower (framingHeaders lower response.body) response.headers

end ChuMicro.HttpServer
