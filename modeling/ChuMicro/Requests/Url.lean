import ChuMicro.Requests.Wire

/-!
# URLs of the HTTP client

`parse_url` and `resolve_redirect_url` of `chumicro_requests/_wire.py`.

## Main definitions

* `Requests.parseUrl` — the parts of an absolute URL.
* `Requests.resolveRedirectUrl` — a `Location` header against the URL that was requested.
-/

namespace ChuMicro.Requests

/-- What `parse_url` returns: `https` is whether that is the scheme. -/
structure Url where
  https : Bool
  host : Str
  port : ℕ
  path : Str
  deriving DecidableEq, Repr

/-- The default port of a scheme. -/
def defaultPort (https : Bool) : ℕ := if https then 443 else 80

/-- The error for a URL without a host. -/
def missingHost (url : Str) : HttpError := .urlError s!"url is missing host: {reprStr url}"

/-- The part of `parse_url` that reads the port behind a host, with the decimal digits that `int` of
the runtime knows. -/
def parsePort (url portText : Str) (zeros : List ℕ := UNICODE_ZEROS) : Except HttpError ℕ :=
  match pyInt 10 portText zeros with
  | none => .error (.urlError s!"url has non-integer port {reprStr portText}: {reprStr url}")
  | some port =>
    if port ≤ 0 ∨ port > 65535 then
      .error (.urlError s!"url port {port} out of range 1-65535: {reprStr url}")
    else .ok port.toNat

/-- The path in front of a query or a fragment, or behind the authority. -/
def originPath : Str → Str
  | [] => "/".toList
  | c :: rest => if c = '/' then c :: rest else '/' :: c :: rest

/-- The part of `parse_url` behind the scheme. -/
def parseRest (url : Str) (https : Bool) (rest : Str) (zeros : List ℕ := UNICODE_ZEROS) :
    Except HttpError Url := do
  let delimits : Char → Bool := fun c => c = '/' || c = '?' || c = '#'
  let authority := rest.takeWhile fun c => !delimits c
  let path := originPath (rest.dropWhile fun c => !delimits c)
  let host := authority.takeWhile (· ≠ ':')
  if host = [] then .error (missingHost url)
  else
    match authority.dropWhile (· ≠ ':') with
    | [] => .ok ⟨https, host, defaultPort https, path⟩
    | _ :: portText => do
      let port ← parsePort url portText zeros
      .ok ⟨https, host, port, path⟩

/-- `parse_url`. -/
def parseUrl (url : Str) (zeros : List ℕ := UNICODE_ZEROS) : Except HttpError Url :=
  if "http://".toList <+: url then parseRest url false (url.drop 7) zeros
  else if "https://".toList <+: url then parseRest url true (url.drop 8) zeros
  else .error (.urlError s!"url must start with http:// or https://, got {reprStr url}")

/-- The host, with the port where it is not the default one. -/
def Url.hostHeader (u : Url) : Str :=
  if u.port = defaultPort u.https then u.host else u.host ++ ":".toList ++ formatInt u.port

/-- The scheme and the host. -/
def Url.origin (u : Url) : Str :=
  (if u.https then "https".toList else "http".toList) ++ "://".toList ++ u.hostHeader

/-- The path up to and with its last slash, without a query. -/
def basePath (path : Str) : Str := (path.takeWhile (· ≠ '?')).rdropWhile (· ≠ '/')

/-- `resolve_redirect_url`. A path that `parse_url` returns has a slash. -/
def resolveRedirectUrl (currentUrl location : Str) (zeros : List ℕ := UNICODE_ZEROS) :
    Except HttpError Str := do
  if location = [] then .error (.urlError "redirect Location header is empty")
  else if "http://".toList <+: location ∨ "https://".toList <+: location then .ok location
  else if ':' ∈ location.takeWhile (· ≠ '/') then
    .error (.urlError s!"redirect Location has unsupported scheme: {reprStr location}")
  else
    let current ← parseUrl currentUrl zeros
    if "/".toList <+: location then .ok (current.origin ++ location)
    else .ok (current.origin ++ basePath current.path ++ location)

end ChuMicro.Requests
