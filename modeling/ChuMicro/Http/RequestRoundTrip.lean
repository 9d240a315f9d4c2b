import ChuMicro.HttpServer.RequestStream
import ChuMicro.Requests.Wire

/-!
# Requests from the client to the server

What `encode_request` of `chumicro_requests` writes is what `RequestParser` of
`chumicro_http_server` reads, header by header. Neither library uses the other; they have the wire
format in common. Client and server may run on different runtimes, so each has its own `str.lower`.

## Main definitions

* `Requests.requestLine` — the text of the request line.
* `HttpServer.RequestFields.Received` — a request has been read.

## Main results

* `Requests.encodeRequest_eq_ok` — the bytes of a request, line by line.
* `HttpServer.RequestFields.settle_headerLines` — header lines are read one by one.
* `HttpServer.received_encodeRequest_iff` — a request within the caps is received if and only if its
  request line is not exactly as long as the cap and cut before its last byte.
-/

namespace ChuMicro.Requests

open Buffers Http

/-! ## The bytes of a request -/

/-- The text of the request line. -/
def requestLine (method path : Str) : Str := method ++ " ".toList ++ path ++ " HTTP/1.1".toList

/-- Text that is not refused fits on one line. -/
lemma rejectUnsafeChars_eq_ok {label : String} {value : Str}
    (h : rejectUnsafeChars label value = .ok ()) : IsLine value := by
  unfold rejectUnsafeChars at h
  split_ifs at h with hany
  intro c hc
  have hsafe : isUnsafe c = false := by
    rw [Bool.not_eq_true, List.any_eq_false] at hany
    exact Bool.eq_false_iff.mpr (hany c hc)
  simp only [isUnsafe, Bool.or_eq_false_iff, decide_eq_false_iff_not] at hsafe
  exact ⟨by omega, hsafe.1.1.1, hsafe.1.1.2⟩

/-- Encoded text, character for byte. -/
lemma ascii_eq_ok {text : Str} {data : List UInt8} (h : ascii text = .ok data) :
    data = text.map asciiByte := by
  unfold ascii at h
  split at h
  · next data' henc =>
    cases h
    exact (encodeAscii_eq_ok.mp henc).2
  · cases h

/-- The lines of headers that are not refused. -/
lemma encodeHeaderLines_eq_ok {headers : List (Str × Str)} {data : List UInt8}
    (h : encodeHeaderLines headers = .ok data) :
    data = headerLines headers ∧ ∀ p ∈ headers, IsLine p.1 ∧ IsLine p.2 := by
  induction headers generalizing data with
  | nil =>
    cases h
    exact ⟨rfl, by simp⟩
  | cons p headers ih =>
    obtain ⟨name, value⟩ := p
    rw [encodeHeaderLines] at h
    obtain ⟨_, hname, h⟩ := bind_eq_ok.mp h
    obtain ⟨_, hvalue, h⟩ := bind_eq_ok.mp h
    obtain ⟨first, hfirst, h⟩ := bind_eq_ok.mp h
    obtain ⟨rest, hrest, h⟩ := bind_eq_ok.mp h
    cases h
    obtain ⟨rfl, hlines⟩ := ih hrest
    refine ⟨?_, ?_⟩
    · rw [ascii_eq_ok hfirst, List.map_append]
      rfl
    · intro p hp
      rcases List.mem_cons.mp hp with rfl | hp
      · exact ⟨rejectUnsafeChars_eq_ok hname, rejectUnsafeChars_eq_ok hvalue⟩
      · exact hlines p hp

/-- **The bytes of a request**: the request line, the lines of the merged headers, a blank line and
the body. -/
theorem encodeRequest_eq_ok {lower : Str → Str} {method host path : Str}
    {headers : Option (List (Str × Str))} {body : Option (List UInt8)} {userAgent : Option Str}
    {data : List UInt8} (h : encodeRequest lower method host path headers body userAgent = .ok data) :
    data = line (requestLine method path) ++
      (headerLines (mergedHeaders lower host headers body userAgent).items ++ CRLF) ++ body.getD [] ∧
    IsLine (requestLine method path) ∧
    ∀ p ∈ (mergedHeaders lower host headers body userAgent).items, IsLine p.1 ∧ IsLine p.2 := by
  unfold encodeRequest at h
  obtain ⟨_, hmethod, h⟩ := bind_eq_ok.mp h
  obtain ⟨_, hpath, h⟩ := bind_eq_ok.mp h
  obtain ⟨first, hfirst, h⟩ := bind_eq_ok.mp h
  obtain ⟨lines, hlines, h⟩ := bind_eq_ok.mp h
  cases h
  obtain ⟨rfl, hitems⟩ := encodeHeaderLines_eq_ok hlines
  refine ⟨?_, ?_, hitems⟩
  · have hline : first = line (requestLine method path) := by
      rw [ascii_eq_ok hfirst, line, requestLine]
      simp [CRLF, asciiByte]
    rw [hline]
    simp only [List.append_assoc]
  · have hspace : IsLine " ".toList := by unfold IsLine; decide
    have hversion : IsLine " HTTP/1.1".toList := by unfold IsLine; decide
    exact (((rejectUnsafeChars_eq_ok hmethod).append hspace).append
      (rejectUnsafeChars_eq_ok hpath)).append hversion

end ChuMicro.Requests

namespace ChuMicro.Requests

open Buffers Http

section Merged

variable {lower : Str → Str} {host : Str} {headers : Option (List (Str × Str))}
  {body : Option (List UInt8)} {userAgent : Option Str}

/-- What all defaults and all headers of the caller satisfy, the merged headers satisfy. -/
lemma forall_mergedHeaders {P : Str × Str × Str → Prop}
    (hdefault : ∀ p ∈ defaultHeaders host body userAgent, P (lower p.1, p.1, p.2))
    (hcaller : ∀ p ∈ headers.getD [], P (lower p.1, p.1, p.2)) :
    ∀ e ∈ (mergedHeaders lower host headers body userAgent).entries, P e := by
  apply CaseInsensitiveDict.forall_setAll _ hcaller
  apply CaseInsensitiveDict.forall_setAll _ hdefault
  simp

/-- The names of the default headers. -/
def DEFAULT_NAMES : List Str :=
  ["Host".toList, "User-Agent".toList, "Accept".toList, "Accept-Encoding".toList,
    "Connection".toList, "Content-Length".toList]

/-- The default headers have the default names. -/
lemma name_mem_defaultNames :
    ∀ p ∈ defaultHeaders host body userAgent, p.1 ∈ DEFAULT_NAMES := by
  intro p hp
  unfold defaultHeaders at hp
  cases body <;> simp at hp <;> rcases hp with rfl | rfl | rfl | rfl | rfl | rfl <;>
    simp [DEFAULT_NAMES]

/-- The default headers have values without surrounding space if the caller's have. -/
lemma strip_defaultHeaders (hhost : strip host = host)
    (huser : strip (userAgent.getD []) = userAgent.getD []) :
    ∀ p ∈ defaultHeaders host body userAgent, strip p.2 = p.2 := by
  have hagent : ∀ agent : Str, strip agent = agent →
      strip (if agent = [] then DEFAULT_USER_AGENT else agent) =
        if agent = [] then DEFAULT_USER_AGENT else agent := by
    intro agent h
    split_ifs
    · decide
    · exact h
  intro p hp
  unfold defaultHeaders at hp
  rw [List.mem_append] at hp
  rcases hp with hp | hp
  · simp only [List.mem_cons, List.not_mem_nil, or_false] at hp
    rcases hp with rfl | rfl | rfl | rfl | rfl
    · exact hhost
    · exact hagent _ huser
    · decide
    · decide
    · decide
  · cases body with
    | none => cases hp
    | some data =>
      rw [List.mem_singleton.mp hp]
      exact strip_formatInt data.length

/-- The headers a caller may give: names that can be read back, values without surrounding space,
and no header that frames the body. -/
structure CallerHeader (lower : Str → Str) (p : Str × Str) : Prop where
  ne_nil : p.1 ≠ []
  notMem_colon : ':' ∉ p.1
  strip_eq : strip p.2 = p.2
  ne_contentLength : lower p.1 ≠ "content-length".toList
  ne_transferEncoding : lower p.1 ≠ "transfer-encoding".toList

section

variable (hlower : LowersAscii lower) (hhost : strip host = host)
  (huser : strip (userAgent.getD []) = userAgent.getD [])
  (hheaders : ∀ p ∈ headers.getD [], CallerHeader lower p)

/-- The merged headers stand under their lower-case names. -/
lemma keyed_mergedHeaders : (mergedHeaders lower host headers body userAgent).Keyed lower :=
  forall_mergedHeaders (fun _ _ => rfl) fun _ _ => rfl

include hhost huser hheaders in
/-- The merged headers that fit on lines can be read back. -/
lemma headerOk_mergedHeaders
    (hlines : ∀ p ∈ (mergedHeaders lower host headers body userAgent).items,
      IsLine p.1 ∧ IsLine p.2) :
    ∀ p ∈ (mergedHeaders lower host headers body userAgent).items, HeaderOk p := by
  have hnames : ∀ name ∈ DEFAULT_NAMES, name ≠ [] ∧ ':' ∉ name := by decide
  have hall : ∀ e ∈ (mergedHeaders lower host headers body userAgent).entries,
      e.2.1 ≠ [] ∧ ':' ∉ e.2.1 ∧ strip e.2.2 = e.2.2 := by
    apply forall_mergedHeaders
    · intro p hp
      obtain ⟨hne, hcolon⟩ := hnames _ (name_mem_defaultNames p hp)
      exact ⟨hne, hcolon, strip_defaultHeaders hhost huser p hp⟩
    · intro p hp
      exact ⟨(hheaders p hp).ne_nil, (hheaders p hp).notMem_colon, (hheaders p hp).strip_eq⟩
  intro p hp
  obtain ⟨hname, hvalue⟩ := hlines p hp
  obtain ⟨e, he, rfl⟩ := List.mem_map.mp hp
  obtain ⟨h1, h2, h3⟩ := hall e he
  exact ⟨h1, h2, h3, hname, hvalue⟩

include hlower hheaders in
/-- There is no `Transfer-Encoding` among the merged headers. -/
lemma find?_transferEncoding :
    (mergedHeaders lower host headers body userAgent).find? "transfer-encoding".toList = none := by
  have hnames : ∀ name ∈ DEFAULT_NAMES, IsAscii name ∧
      name.map Char.toLower ≠ "transfer-encoding".toList := by decide
  rw [mergedHeaders, CaseInsensitiveDict.find?_setAll fun p hp => (hheaders p hp).ne_transferEncoding,
    CaseInsensitiveDict.find?_setAll]
  · rfl
  · intro p hp
    obtain ⟨hascii, hne⟩ := hnames _ (name_mem_defaultNames p hp)
    rwa [hlower _ hascii]

include hlower hheaders in
/-- The merged headers have a `Content-Length` if there is a body, and it is that of the body. -/
lemma find?_contentLength :
    (mergedHeaders lower host headers body userAgent).find? "content-length".toList =
      body.map fun data => ("Content-Length".toList, formatInt data.length) := by
  have hnames : ∀ name ∈ DEFAULT_NAMES.take 5, IsAscii name ∧
      name.map Char.toLower ≠ "content-length".toList := by decide
  have hfirst : ∀ p ∈ (defaultHeaders host none userAgent), lower p.1 ≠ "content-length".toList := by
    intro p hp
    have hmem : p.1 ∈ DEFAULT_NAMES.take 5 := by
      simp [defaultHeaders] at hp
      rcases hp with rfl | rfl | rfl | rfl | rfl <;> simp [DEFAULT_NAMES]
    obtain ⟨hascii, hne⟩ := hnames _ hmem
    rwa [hlower _ hascii]
  rw [mergedHeaders, CaseInsensitiveDict.find?_setAll fun p hp => (hheaders p hp).ne_contentLength]
  cases body with
  | none =>
    rw [CaseInsensitiveDict.find?_setAll hfirst]
    rfl
  | some data =>
    have hsplit : defaultHeaders host (some data) userAgent =
        defaultHeaders host none userAgent ++ [("Content-Length".toList, formatInt data.length)] :=
      rfl
    have hkey : lower "Content-Length".toList = "content-length".toList := by
      rw [hlower _ (by decide)]
      decide
    rw [hsplit, CaseInsensitiveDict.setAll, List.foldl_append, List.foldl_cons, List.foldl_nil,
      CaseInsensitiveDict.set, CaseInsensitiveDict.find?_setKey, hkey, Option.map_some]
    exact if_pos rfl

end

end Merged

end ChuMicro.Requests

/-! ## The request as the server reads it -/

namespace ChuMicro.HttpServer

open Buffers Http Requests

namespace RequestFields

variable {lower : Str → Str} {f g : RequestFields}

/-- The fields behind a request line. -/
def requested (f : RequestFields) (method target : Str) : RequestFields :=
  { f with method, target, httpVersion := "HTTP/1.1".toList, state := .headers }

/-- The request line is read as it was written. -/
lemma parseRequestLine_requestLine {method path : Str} (f : RequestFields)
    (hmethod : method ≠ [] ∧ ' ' ∉ method) (hpath : path ≠ [] ∧ ' ' ∉ path)
    (hline : IsLine (requestLine method path)) :
    f.parseRequestLine ((requestLine method path).map asciiByte) =
      (.next, f.requested method path) := by
  have hsplit : (requestLine method path).splitOn ' ' = [method, path, "HTTP/1.1".toList] := by
    have hjoin : requestLine method path =
        [' '].intercalate [method, path, "HTTP/1.1".toList] := by
      simp [requestLine, List.intercalate]
    rw [hjoin, List.splitOn_intercalate]
    · intro part hpart
      simp only [List.mem_cons, List.not_mem_nil, or_false] at hpart
      rcases hpart with rfl | rfl | rfl
      · exact hmethod.2
      · exact hpath.2
      · decide
    · simp
  rw [parseRequestLine, decodeAscii_map hline.isAscii]
  dsimp only
  rw [hsplit]
  dsimp only
  rw [if_neg (by decide), if_neg hmethod.1, if_neg hpath.1]
  rfl

/-- A header line is read as it was written. -/
lemma parseHeaderLine_headerText {p : Str × Str} (f : RequestFields) (h : HeaderOk p) :
    f.parseHeaderLine lower ((headerText p).map asciiByte) =
      (.next, { f with headers := f.headers.add lower p.1 p.2 }) := by
  rw [parseHeaderLine, decodeAscii_map h.isLine.isAscii]
  dsimp only
  rw [h.splitHeader_headerText]

/-- **Header lines are read one by one**, up to the blank line.

**Proof sketch.** Induction on the headers. Each line is found, fits the cap with all that is behind
it, and is read as its header. -/
theorem settle_headerLines {headers : List (Str × Str)} (hok : ∀ p ∈ headers, HeaderOk p)
    (hs : f.state = .headers)
    (hcap : f.headersBytes + (headerLines headers ++ CRLF).length ≤ f.maxHeadersBytes) :
    f.settle lower (headerLines headers ++ CRLF) =
      ({ f with
        headersBytes := f.headersBytes + (headerLines headers).length
        headers := headers.foldl (fun d p => d.add lower p.1 p.2) f.headers }
        : RequestFields).stepBlankLine lower [] := by
  induction headers generalizing f with
  | nil =>
    exact settle_blankLine ((stepLive_headers lower hs).trans (stepHeaders_blank hcap (by rfl)))
  | cons p headers ih =>
    have hp := hok p List.mem_cons_self
    have hlines : headerLines (p :: headers) ++ CRLF =
        line (headerText p) ++ (headerLines headers ++ CRLF) := by
      simp only [headerLines, List.flatMap_cons, List.append_assoc]
    rw [hlines] at hcap ⊢
    obtain ⟨n, hn⟩ := Nat.exists_eq_succ_of_ne_zero hp.length_pos.ne'
    have hfind := findSlice_line hp.isLine (headerLines headers ++ CRLF)
    have htake := take_line (headerText p) (headerLines headers ++ CRLF)
    have hdrop := drop_line (headerText p) (headerLines headers ++ CRLF)
    have hlen := length_line (headerText p)
    rw [hn] at hfind htake hdrop hlen
    have hstep := (stepLive_headers lower hs).trans (stepHeaders_line hcap hfind)
    rw [htake, hdrop, parseHeaderLine_headerText _ hp] at hstep
    dsimp only at hstep
    rw [settle_next hstep,
      ih (fun q hq => hok q (List.mem_cons_of_mem p hq)) (by exact hs)]
    · have hbytes : f.headersBytes + (n + 3) + (headerLines headers).length =
          f.headersBytes + (headerLines (p :: headers)).length := by
        simp only [headerLines, List.flatMap_cons, List.length_append, hlen]
        omega
      simp only [counted, hbytes, List.foldl_cons]
    · rw [List.length_append, hlen] at hcap
      simp only [counted]
      omega

end RequestFields

/-! ## Chunks -/

open RequestFields

open Live

namespace Live

variable {lower : Str → Str} {f g : RequestFields} {l tail : List UInt8} {text : Str}

/-- A beginning of the stream that ends before the end of its first line has no line. -/
lemma findSlice_of_short (hline : IsLine text) {rest : List UInt8}
    (hstream : l ++ rest = line text ++ tail) (hshort : l.length ≤ text.length + 1) :
    findSlice CRLF l = none := by
  have htake : l = (line text ++ tail).take l.length := by rw [← hstream, List.take_left]
  have hcrlf : CRLF.length = 2 := rfl
  rw [htake]
  exact findSlice_take_eq_none (findSlice_line hline tail) (by omega)

/-- While the request line is not complete and within the cap, the parser waits. -/
lemma feed_wait (hs : f.state = .requestLine) (hline : IsLine text) {chunk rest : List UInt8}
    (hstream : l ++ chunk ++ rest = line text ++ tail)
    (hshort : (l ++ chunk).length ≤ text.length + 1)
    (hcap : (l ++ chunk).length ≤ f.maxRequestLineBytes) :
    feed lower (f, l) chunk = (f, l ++ chunk) := by
  have hnone := findSlice_of_short hline hstream hshort
  rw [feed_of_readsLines (.inl hs)]
  apply settle_more
  rw [stepLive_requestLine lower hs, stepRequestLine, hnone]
  dsimp only
  rw [if_neg (by omega)]

/-- A parser that does not read lines takes all chunks as one. -/
lemma foldl_feed_of_not_readsLines {s : Live} (h : ¬ s.1.ReadsLines)
    (chunks : List (List UInt8)) :
    (chunks.foldl (feed lower) s).1 = (s.feed lower chunks.flatten).1 :=
  foldl_feed chunks (settle_of_not_readsLines h)
    (free_of_not_readsLines h)

/-- **The chunks of a request line within the cap and of what comes behind it are read like the
whole**, unless the line is as long as the cap and a chunk ends before its last byte.

**Proof sketch.** Induction on the chunks. The parser waits while the line is not complete, and the
chunk that completes the line brings it to the headers, where everything fits the cap. -/
lemma foldl_feed_line (lower : Str → Str) (chunks : List (List UInt8)) (hs : f.state = .requestLine)
    (hline : IsLine text) (hcap : text.length ≤ f.maxRequestLineBytes)
    (hparse : f.parseRequestLine (text.map asciiByte) = (.next, g)) (hg : g.state = .headers)
    (htail : g.headersBytes + tail.length ≤ g.maxHeadersBytes)
    (hstream : l ++ chunks.flatten = line text ++ tail) (hshort : l.length ≤ text.length + 1)
    (hcut : text.length < f.maxRequestLineBytes ∨
      ∀ k, l.length + (chunks.take k).flatten.length ≠ text.length + 1) :
    (chunks.foldl (feed lower) (f, l)).1 = (g.settle lower tail).1 := by
  induction chunks generalizing l with
  | nil =>
    have hlen := congrArg List.length hstream
    rw [List.flatten_nil, List.append_nil, List.length_append, length_line] at hlen
    omega
  | cons chunk chunks ih =>
    rw [List.flatten_cons, ← List.append_assoc] at hstream
    rw [List.foldl_cons]
    by_cases hwait : (l ++ chunk).length ≤ text.length + 1
    · -- the line is not complete yet
      have hne : text.length < f.maxRequestLineBytes ∨ (l ++ chunk).length ≠ text.length + 1 := by
        refine hcut.imp_right fun h => ?_
        have := h 1
        simpa using this
      rw [feed_wait hs hline hstream hwait (by omega)]
      refine ih hstream hwait (hcut.imp_right fun h k => ?_)
      have := h (k + 1)
      rw [List.take_succ_cons, List.flatten_cons, List.length_append, ← Nat.add_assoc] at this
      rwa [List.length_append]
    · -- the chunk completes the line
      obtain ⟨rest, hrest⟩ : ∃ rest, l ++ chunk = line text ++ rest := by
        have hprefix : line text <+: l ++ chunk :=
          List.prefix_of_prefix_length_le ⟨tail, hstream.symm.trans rfl⟩ ⟨_, rfl⟩
            (by rw [length_line]; omega)
        exact hprefix.imp fun _ h => h.symm
      rw [hrest, List.append_assoc, List.append_cancel_left_eq] at hstream
      have hstep : f.stepLive lower (l ++ chunk) = (.next, g, rest) := by
        rw [hrest, stepLive_requestLine lower hs, stepRequestLine,
          findSlice_line hline]
        dsimp only
        rw [if_neg (by omega), take_line, drop_line, hparse]
      have hfirst : feed lower (f, l) chunk = feed lower (g, []) rest := by
        rw [feed_of_readsLines (.inl hs), feed_of_readsLines (.inr hg)]
        exact settle_next hstep
      have hsettled : Settled lower (g, []) := by
        apply settle_more
        rw [stepLive_headers lower hg, stepHeaders, if_neg (by simp; omega)]
        rfl
      have hfree : g.Free ([] ++ (rest :: chunks).flatten) := by
        rw [List.nil_append, List.flatten_cons, hstream]
        exact ⟨fun h => absurd (h.symm.trans hg) (by simp), fun _ => .inl htail⟩
      have hall := foldl_feed (rest :: chunks) hsettled hfree
      rw [List.flatten_cons, hstream, feed_of_readsLines (.inr hg)] at hall
      rw [hfirst]
      exact hall

/-- **A request line exactly as long as the cap is refused if a chunk ends before its last byte.**
-/
lemma foldl_feed_line_cut (lower : Str → Str) (chunks : List (List UInt8)) (hs : f.state = .requestLine)
    (hline : IsLine text) (hcap : text.length = f.maxRequestLineBytes)
    (hstream : l ++ chunks.flatten = line text ++ tail) (hshort : l.length ≤ text.length)
    (hcut : ∃ k, l.length + (chunks.take k).flatten.length = text.length + 1) :
    (chunks.foldl (feed lower) (f, l)).1.state = .error := by
  induction chunks generalizing l with
  | nil =>
    obtain ⟨k, hk⟩ := hcut
    simp only [List.take_nil, List.flatten_nil, List.length_nil] at hk
    omega
  | cons chunk chunks ih =>
    rw [List.flatten_cons, ← List.append_assoc] at hstream
    rw [List.foldl_cons]
    obtain ⟨k, hk⟩ := hcut
    cases k with
    | zero =>
      simp only [List.take_zero, List.flatten_nil, List.length_nil] at hk
      omega
    | succ k =>
      rw [List.take_succ_cons, List.flatten_cons, List.length_append, ← Nat.add_assoc,
        ← List.length_append] at hk
      by_cases hlast : (l ++ chunk).length = text.length + 1
      · -- the chunk ends between the two bytes of the line end
        have hnone := findSlice_of_short hline hstream hlast.le
        have hstep : f.stepLive lower (l ++ chunk) =
            (.next, f.fail (requestLineTooLarge f.maxRequestLineBytes), l ++ chunk) := by
          rw [stepLive_requestLine lower hs, stepRequestLine, hnone]
          dsimp only
          rw [if_pos (by omega)]
        have hnot := not_readsLines_fail f (requestLineTooLarge f.maxRequestLineBytes)
        rw [feed_of_readsLines (.inl hs), settle_failed hstep (by simp),
          foldl_feed_of_not_readsLines hnot, feed_fail]
        rfl
      · rw [feed_wait hs hline hstream (by omega) (by omega)]
        exact ih hstream (by omega) ⟨k, hk⟩

end Live

/-! ## Received requests -/

/-- A request has been read. -/
structure RequestFields.Received (f : RequestFields) (method target : Str)
    (headers : CaseInsensitiveDict) (body : List UInt8) : Prop where
  state : f.state = .done
  method : f.method = method
  target : f.target = target
  headers : f.headers = headers
  body : f.body = body

open RequestParser

section RoundTrip

variable {clientLower serverLower : Str → Str} {method host path : Str}
  {headers : Option (List (Str × Str))} {body : Option (List UInt8)} {userAgent : Option Str}

/-- What the server finds in a map that the client filled. -/
lemma get_of_keyed (hserver : LowersAscii serverLower) (d : CaseInsensitiveDict) {name : Str}
    (key : Str) (hascii : IsAscii name) (hkey : name.map Char.toLower = key) :
    d.get serverLower name = (d.find? key).map Prod.snd := by
  rw [CaseInsensitiveDict.get, hserver name hascii, hkey]

/-- A map of headers that fit on lines, filled by the client, is one the server could have filled.
-/
lemma keyed_of_isLine (hclient : LowersAscii clientLower) (hserver : LowersAscii serverLower)
    {d : CaseInsensitiveDict} (hkeyed : d.Keyed clientLower)
    (hlines : ∀ p ∈ d.items, IsLine p.1 ∧ IsLine p.2) : d.Keyed serverLower := by
  intro e he
  have hascii := (hlines e.2 (List.mem_map_of_mem he)).1.isAscii
  rw [hkeyed e he, hclient _ hascii, hserver _ hascii]

/-- **The body behind the merged headers is received.** -/
lemma received_body (hserver : LowersAscii serverLower) {d : CaseInsensitiveDict}
    {f : RequestFields} {s : Live} (hs : s.1 = (f.stepBlankLine serverLower []).1)
    (hheaders : f.headers = d) (hempty : f.body = [])
    (hencoding : d.find? "transfer-encoding".toList = none)
    (hlength : d.find? "content-length".toList =
      body.map fun data => ("Content-Length".toList, formatInt data.length))
    (hcap : (body.getD []).length ≤ f.maxBodyBytes) {chunks : List (List UInt8)}
    (hchunks : chunks.flatten = body.getD []) :
    ((chunks.foldl (feed serverLower) s).1).Received f.method f.target d (body.getD []) := by
  have hframe : (f.stepBlankLine serverLower []).1 = (f.counted 2).frameBody serverLower := by
    rw [stepBlankLine, if_neg (by simp)]
    rfl
  have hget : (f.counted 2).headers.get serverLower "Transfer-Encoding".toList = none := by
    have hd : (f.counted 2).headers = d := hheaders
    rw [hd, get_of_keyed hserver d "transfer-encoding".toList (by decide) (by decide),
      hencoding]
    rfl
  have hget' : (f.counted 2).headers.get serverLower "Content-Length".toList =
      body.map fun data => formatInt data.length := by
    have hd : (f.counted 2).headers = d := hheaders
    rw [hd, get_of_keyed hserver d "content-length".toList (by decide) (by decide),
      hlength, Option.map_map]
    rfl
  rw [frameBody, hget, hget', if_neg (by simp)] at hframe
  rw [hframe] at hs
  cases body with
  | none =>
    have hdone : s.1 = { f.counted 2 with state := .done } := hs
    rw [foldl_feed_of_not_readsLines (by rw [hdone]; simp [RequestFields.ReadsLines]),
      feed_of_terminal (by rw [hdone]; simp), hdone]
    exact ⟨rfl, rfl, rfl, hheaders, hempty⟩
  | some data =>
    rw [Option.map_some] at hs
    dsimp only at hs
    rw [pyInt_formatInt] at hs
    dsimp only at hs
    have hcap' : data.length ≤ f.maxBodyBytes := hcap
    have hcap'' : ¬ ((data.length : ℤ) > ((f.counted 2).maxBodyBytes : ℤ)) := by
      have : (f.counted 2).maxBodyBytes = f.maxBodyBytes := rfl
      omega
    rw [if_neg (by omega), if_neg hcap''] at hs
    rw [Option.getD_some] at hchunks
    rcases Nat.eq_zero_or_pos data.length with hzero | hpos
    · obtain rfl := List.length_eq_zero_iff.mp hzero
      rw [if_pos (by simp)] at hs
      rw [foldl_feed_of_not_readsLines (by rw [hs]; simp [RequestFields.ReadsLines]),
        feed_of_terminal (by rw [hs]; simp), hs]
      exact ⟨rfl, rfl, rfl, hheaders, hempty⟩
    · rw [if_neg (by omega), Int.toNat_natCast] at hs
      rw [foldl_feed_of_not_readsLines (by rw [hs]; simp [RequestFields.ReadsLines]),
        feed_of_body (by rw [hs]), hs, hchunks]
      dsimp only
      rw [absorbBodyBytes_full hpos le_rfl]
      exact ⟨rfl, rfl, rfl, hheaders, by simp⟩

/-- **A request within the caps is received if and only if its request line is not cut before its
last byte at exactly the length of the cap.** The chunks of the head and those of the body do not
mix. -/
theorem received_encodeRequest_iff {maxBodyBytes maxRequestLineBytes maxHeadersBytes : ℕ}
    {headChunks bodyChunks : List (List UInt8)}
    (hclient : LowersAscii clientLower) (hserver : LowersAscii serverLower)
    (hmethod : method ≠ [] ∧ ' ' ∉ method) (hpath : path ≠ [] ∧ ' ' ∉ path)
    (hhost : strip host = host) (huser : strip (userAgent.getD []) = userAgent.getD [])
    (hheaders : ∀ p ∈ headers.getD [], CallerHeader clientLower p)
    (hencode : encodeRequest clientLower method host path headers body userAgent =
      .ok (headChunks.flatten ++ body.getD []))
    (hbody : bodyChunks.flatten = body.getD [])
    (hline : (requestLine method path).length ≤ maxRequestLineBytes)
    (hsection : headChunks.flatten.length - ((requestLine method path).length + 2) ≤ maxHeadersBytes)
    (hlength : (body.getD []).length ≤ maxBodyBytes) :
    ((new maxBodyBytes maxRequestLineBytes maxHeadersBytes).feedAll serverLower
      (headChunks ++ bodyChunks)).Received method path
        (mergedHeaders clientLower host headers body userAgent) (body.getD []) ↔
    (requestLine method path).length < maxRequestLineBytes ∨
      ∀ k, (headChunks.take k).flatten.length ≠ (requestLine method path).length + 1 := by
  obtain ⟨hbytes, htext, hlines⟩ := encodeRequest_eq_ok hencode
  rw [List.append_cancel_right_eq] at hbytes
  have hrun : ((new maxBodyBytes maxRequestLineBytes maxHeadersBytes).feedAll serverLower
      (headChunks ++ bodyChunks)).toRequestFields = (bodyChunks.foldl (feed serverLower)
        (headChunks.foldl (feed serverLower) ((new maxBodyBytes
          maxRequestLineBytes maxHeadersBytes).toRequestFields, []))).1 := by
    rw [← List.foldl_append]
    exact congrArg Prod.fst (abs_feedAll serverLower _ _)
  rw [hrun]
  constructor
  · -- a cut before the last byte of a line at the cap is an error
    intro hreceived
    by_contra hcut
    push Not at hcut
    obtain ⟨hcap, k, hk⟩ := hcut
    have herror := foldl_feed_line_cut serverLower (f := (new
      maxBodyBytes maxRequestLineBytes maxHeadersBytes).toRequestFields) (l := []) headChunks rfl htext
      (le_antisymm hline hcap) hbytes (by simp) ⟨k, by simpa using hk⟩
    have hnot : ¬ (headChunks.foldl (feed serverLower) ((new maxBodyBytes
        maxRequestLineBytes maxHeadersBytes).toRequestFields, [])).1.ReadsLines := by
      simp [RequestFields.ReadsLines, herror]
    have hstate := hreceived.state
    rw [foldl_feed_of_not_readsLines hnot, feed_of_terminal (.inr herror), herror] at hstate
    cases hstate
  · intro hcut
    have hok := headerOk_mergedHeaders hhost huser hheaders hlines
    have hkeyed := keyed_of_isLine hclient hserver keyed_mergedHeaders hlines
    have htail : (headerLines (mergedHeaders clientLower host headers body userAgent).items ++
        CRLF).length ≤ maxHeadersBytes := by
      rw [hbytes, List.length_append, length_line] at hsection
      omega
    have hhead := foldl_feed_line serverLower (l := []) headChunks rfl htext hline
      (parseRequestLine_requestLine (new maxBodyBytes
        maxRequestLineBytes maxHeadersBytes).toRequestFields hmethod hpath htext) rfl
      (by simpa [requested, new] using htail) hbytes (by simp)
      (hcut.imp_right fun h k => by simpa using h k)
    rw [settle_headerLines hok rfl
      (by simpa [requested, new] using htail)] at hhead
    have hmap := CaseInsensitiveDict.addAll_items hkeyed
    exact received_body hserver hhead hmap rfl (find?_transferEncoding hclient hheaders)
      (find?_contentLength hclient hheaders) hlength hbody

/-- A request with a body, a header of the caller and one that overrides a default, cut where
nothing goes wrong. -/
theorem received_encodeRequest_post :
    ((new 16 12 102).feedAll lowerAscii
      (["P / HT", "TP/1.1\r\nHost: h\r\nUser-Agent: u\r\naccept: x\r\nAccept-Encoding: identity\r",
        "\nConnection: close\r\nContent-Length: 2\r\n\r\n"].map (·.toList.map asciiByte) ++
        [[104], [105]])).Received "P".toList "/".toList
      (mergedHeaders lowerAscii "h".toList (some [("accept".toList, "x".toList)]) (some [104, 105])
        (some "u".toList)) [104, 105] :=
  (received_encodeRequest_iff lowersAscii_lowerAscii lowersAscii_lowerAscii (by decide) (by decide)
    (by decide) (by decide)
    (by
      intro p hp
      obtain rfl : p = ("accept".toList, "x".toList) := by simpa using hp
      exact ⟨by decide, by decide, by decide, by decide, by decide⟩)
    (by decide +kernel) (by decide) (by decide) (by decide +kernel) (by decide)).mpr
    (.inr (by
      intro k
      rcases k with _ | _ | _ | k
      · decide
      · decide
      · decide +kernel
      · rw [List.take_of_length_le (by simp)]
        decide +kernel))

/-- A request line of twelve bytes, cut between the two bytes of its end, is refused by a server
that allows twelve. -/
theorem not_received_cut :
    ∃ headChunks : List (List UInt8),
      encodeRequest lowerAscii "P".toList "h".toList "/".toList none none none =
        .ok headChunks.flatten ∧
      (requestLine "P".toList "/".toList).length ≤ 12 ∧ headChunks.flatten.length ≤ 512 ∧
      ¬ ((new 16 12 512).feedAll lowerAscii headChunks).Received "P".toList "/".toList
        (mergedHeaders lowerAscii "h".toList none none none) [] := by
  refine ⟨["P / HTTP/1.1\r", "\nHost: h\r\nUser-Agent: chumicro-requests/0.1\r\nAccept: */*\r\n",
    "Accept-Encoding: identity\r\nConnection: close\r\n\r\n"].map (·.toList.map asciiByte),
    by decide +kernel, by decide, by decide +kernel, fun h => ?_⟩
  have hstate := h.state
  revert hstate
  decide +kernel

end RoundTrip

end ChuMicro.HttpServer
