import ChuMicro.HttpServer.Response
import ChuMicro.Requests.ResponseStream

/-!
# Responses from the server to the client

What `encode_response` of `chumicro_http_server` writes is what `ResponseParser` of
`chumicro_requests` reads: the status line, each header and the body, and nothing else. So no text
that the encoder lets through can add a line, a byte of the body or a second response.

## Main definitions

* `HttpServer.ResponseHeader` — the headers a response may have.
* `Requests.ResponseParser.Received` — a response has been read to its end.

## Main results

* `HttpServer.encodeHead_eq_ok` — the bytes of a head, line by line.
* `Requests.ResponseFields.settle_headerLines` — header lines are read one by one.
* `Requests.received_encodeResponse` — a response is received as it was sent.
-/

namespace ChuMicro.HttpServer

open Buffers Http

/-! ## The bytes of a response -/

variable {data : List UInt8}

/-- Encoded text is ASCII, character for byte. -/
lemma ascii_eq_ok {text : Str} (h : ascii text = .ok data) :
    IsAscii text ∧ data = text.map asciiByte := by
  unfold ascii at h
  split at h
  · next data' henc =>
    cases h
    exact encodeAscii_eq_ok.mp henc
  · cases h

/-- ASCII text that is not refused fits on one line. -/
lemma isLine_of_rejectControlChars {label : String} {value : Str}
    (h : rejectControlChars label value = .ok ()) (hascii : IsAscii value) : IsLine value := by
  unfold rejectControlChars at h
  split_ifs at h with hbad
  push Not at hbad
  intro c hc
  exact ⟨hascii c hc, fun hcr => hbad.1 (hcr ▸ hc), fun hlf => hbad.2.1 (hlf ▸ hc)⟩

/-- The lines of headers that are not refused. -/
lemma encodeHeaderLines_eq_ok {headers : List (Str × Str)}
    (h : encodeHeaderLines headers = .ok data) :
    data = headerLines headers ∧ ∀ p ∈ headers, IsLine p.1 ∧ IsLine p.2 := by
  induction headers generalizing data with
  | nil =>
    cases h
    exact ⟨rfl, by simp⟩
  | cons p headers ih =>
    obtain ⟨name, value⟩ := p
    rw [encodeHeaderLines] at h
    obtain ⟨_, hname, h⟩ := bind_eq_ok.mp h
    obtain ⟨_, hvalue, h⟩ := bind_eq_ok.mp h
    obtain ⟨first, hfirst, h⟩ := bind_eq_ok.mp h
    obtain ⟨rest, hrest, h⟩ := bind_eq_ok.mp h
    cases h
    obtain ⟨rfl, hlines⟩ := ih hrest
    obtain ⟨hascii, rfl⟩ := ascii_eq_ok hfirst
    refine ⟨?_, ?_⟩
    · rw [List.map_append]
      rfl
    · intro p hp
      rcases List.mem_cons.mp hp with rfl | hp
      · exact ⟨isLine_of_rejectControlChars hname fun c hc => hascii c (by simp [hc]),
          isLine_of_rejectControlChars hvalue fun c hc => hascii c (by simp [hc])⟩
      · exact hlines p hp

/-- **The bytes of a head**: the status line, the lines of the headers and a blank line. -/
theorem encodeHead_eq_ok {lower : Str → Str} {statusCode : ℤ} {reason : Str}
    {framing : CaseInsensitiveDict} {extra : Option (List (Str × Str))}
    (h : encodeHead lower statusCode reason framing extra = .ok data) :
    data = line (statusLine statusCode reason) ++
      (headerLines (headHeaders lower framing extra).items ++ CRLF) ∧
    IsLine (statusLine statusCode reason) ∧
    ∀ p ∈ (headHeaders lower framing extra).items, IsLine p.1 ∧ IsLine p.2 := by
  unfold encodeHead at h
  obtain ⟨_, hreason, h⟩ := bind_eq_ok.mp h
  obtain ⟨first, hfirst, h⟩ := bind_eq_ok.mp h
  obtain ⟨lines, hlines, h⟩ := bind_eq_ok.mp h
  cases h
  obtain ⟨rfl, hitems⟩ := encodeHeaderLines_eq_ok hlines
  obtain ⟨hascii, rfl⟩ := ascii_eq_ok hfirst
  refine ⟨?_, ?_, hitems⟩
  · rw [List.map_append, List.append_assoc]
    rfl
  · have hversion : IsLine "HTTP/1.1 ".toList := by unfold IsLine; decide
    have hspace : IsLine " ".toList := by unfold IsLine; decide
    have hcode : IsLine (formatInt statusCode) := by
      intro c hc
      obtain ⟨h128, h33⟩ := formatInt_chars statusCode c hc
      refine ⟨h128, ?_, ?_⟩
      · rintro rfl
        exact absurd h33 (by decide)
      · rintro rfl
        exact absurd h33 (by decide)
    refine ((hversion.append hcode).append hspace).append ?_
    exact isLine_of_rejectControlChars hreason fun c hc =>
      hascii c (List.mem_append_left _ (List.mem_append_right _ hc))

/-- The headers a response may have: names that can be read back, values without surrounding space,
and no header that frames the body. -/
structure ResponseHeader (lower : Str → Str) (p : Str × Str) : Prop where
  ne_nil : p.1 ≠ []
  notMem_colon : ':' ∉ p.1
  strip_eq : strip p.2 = p.2
  ne_framing : lower p.1 ∉ ["content-length".toList, "connection".toList, "transfer-encoding".toList]

section Merged

variable {lower : Str → Str} {framing : CaseInsensitiveDict} {extra : Option (List (Str × Str))}

/-- The headers of a head stand under their lower-case names if the framing ones do. -/
lemma keyed_headHeaders (h : framing.Keyed lower) : (headHeaders lower framing extra).Keyed lower :=
  CaseInsensitiveDict.forall_setAll (CaseInsensitiveDict.forall_set h rfl) fun _ _ => rfl

/-- The headers of a head that fit on lines can be read back if the framing ones can. -/
lemma headerOk_headHeaders (hframing : ∀ e ∈ framing.entries,
      e.2.1 ≠ [] ∧ ':' ∉ e.2.1 ∧ strip e.2.2 = e.2.2)
    (hextra : ∀ p ∈ extra.getD [], ResponseHeader lower p)
    (hlines : ∀ p ∈ (headHeaders lower framing extra).items, IsLine p.1 ∧ IsLine p.2) :
    ∀ p ∈ (headHeaders lower framing extra).items, HeaderOk p := by
  have hall : ∀ e ∈ (headHeaders lower framing extra).entries,
      e.2.1 ≠ [] ∧ ':' ∉ e.2.1 ∧ strip e.2.2 = e.2.2 := by
    apply CaseInsensitiveDict.forall_setAll
    · exact CaseInsensitiveDict.forall_set hframing (by dsimp only; decide)
    · intro p hp
      exact ⟨(hextra p hp).ne_nil, (hextra p hp).notMem_colon, (hextra p hp).strip_eq⟩
  intro p hp
  obtain ⟨hname, hvalue⟩ := hlines p hp
  obtain ⟨e, he, rfl⟩ := List.mem_map.mp hp
  obtain ⟨h1, h2, h3⟩ := hall e he
  exact ⟨h1, h2, h3, hname, hvalue⟩

/-- What frames the body is not changed by the other headers. -/
lemma find?_headHeaders (hlower : LowersAscii lower)
    (hextra : ∀ p ∈ extra.getD [], ResponseHeader lower p) {key : Str}
    (hkey : key = "content-length".toList ∨ key = "transfer-encoding".toList) :
    (headHeaders lower framing extra).find? key = framing.find? key := by
  have hconnection : lower "Connection".toList = "connection".toList := by
    rw [hlower _ (by decide)]
    decide
  have hne : key ≠ "connection".toList := by
    rcases hkey with rfl | rfl <;> decide
  rw [headHeaders, CaseInsensitiveDict.find?_setAll, CaseInsensitiveDict.set,
    CaseInsensitiveDict.find?_setKey, hconnection]
  · exact if_neg hne
  · intro p hp heq
    apply (hextra p hp).ne_framing
    rw [heq]
    rcases hkey with rfl | rfl <;> simp

end Merged

end ChuMicro.HttpServer

/-! ## The response as the client reads it -/

namespace ChuMicro.Requests

open Buffers Http HttpServer Streaming

namespace ResponseFields

variable {lower : Str → Str} {f : ResponseFields}

/-- A line that is there is read. -/
lemma settle_line {text : Str} (lower : Str → Str) (h : f.ReadsLine) (hline : IsLine text)
    (rest : List UInt8) :
    (responseMachine lower).settle f (line text ++ rest) =
      (responseMachine lower).settle (f.readLine lower (text.map asciiByte)) rest := by
  apply LocalMachine.settle_of_some
  show f.stepLive lower _ = _
  rw [stepLive_line h, findSlice_line hline, Option.map_some, take_line, drop_line]

/-- The fields behind a status line. -/
def answered (f : ResponseFields) (statusCode : ℤ) (reason : Str) : ResponseFields :=
  { f with
    statusCode := some statusCode, httpVersion := "HTTP/1.1".toList, reason := reason
    state := .headers }

/-- The three parts of a status line. -/
lemma splitStatusLine_statusLine (statusCode : ℤ) (reason : Str) :
    splitStatusLine (statusLine statusCode reason) =
      ["HTTP/1.1".toList, formatInt statusCode, reason] := by
  have hversion : ' ' ∉ "HTTP/1.1".toList := by decide
  have hcode : ' ' ∉ formatInt statusCode := by
    intro hmem
    exact absurd (formatInt_chars statusCode ' ' hmem).2 (by decide)
  have htext : statusLine statusCode reason =
      "HTTP/1.1".toList ++ ' ' :: (formatInt statusCode ++ ' ' :: reason) := by
    -- the literals are rewritten by hand: unification would take them apart byte by byte
    have hspace : "HTTP/1.1 ".toList = "HTTP/1.1".toList ++ [' '] := by simp
    have hspace' : " ".toList = [' '] := by simp
    have hjoin : ∀ a b c : Str, a ++ [' '] ++ b ++ [' '] ++ c = a ++ ' ' :: (b ++ ' ' :: c) := by
      intro a b c
      simp
    unfold statusLine
    exact hspace ▸ hspace' ▸ hjoin "HTTP/1.1".toList (formatInt statusCode) reason
  rw [splitStatusLine, htext, List.splitOn_append_cons_self_of_not_mem hversion,
    List.splitOn_append_cons_self_of_not_mem hcode]
  have hne := List.splitOn_ne_nil ' ' reason
  have hjoin : [' '].intercalate (reason.splitOn ' ') = reason := List.intercalate_splitOn ' '
  cases hreason : reason.splitOn ' ' with
  | nil => exact absurd hreason hne
  | cons first others =>
    rw [hreason] at hjoin
    dsimp only
    rw [hjoin]

/-- **The status line is read as it was written**, whatever the reason. -/
lemma settle_statusLine {statusCode : ℤ} {reason : Str} (hs : f.state = .status)
    (hline : IsLine (statusLine statusCode reason)) (rest : List UInt8) :
    (responseMachine lower).settle f (line (statusLine statusCode reason) ++ rest) =
      (responseMachine lower).settle (f.answered statusCode reason) rest := by
  rw [settle_line lower (.inl hs) hline, readLine_status hs (decodeAscii_map hline.isAscii),
    parseStatusLine, splitStatusLine_statusLine]
  dsimp only
  rw [if_neg (by decide), pyInt_formatInt]
  rfl

/-- **Header lines are read one by one.** -/
theorem settle_headerLines {headers : List (Str × Str)} (hok : ∀ p ∈ headers, HeaderOk p)
    (hs : f.state = .headers) (rest : List UInt8) :
    (responseMachine lower).settle f (headerLines headers ++ rest) =
      (responseMachine lower).settle
        { f with headers := headers.foldl (fun d p => d.add lower p.1 p.2) f.headers } rest := by
  induction headers generalizing f with
  | nil => rfl
  | cons p headers ih =>
    have hp := hok p List.mem_cons_self
    have hlines : headerLines (p :: headers) ++ rest =
        line (headerText p) ++ (headerLines headers ++ rest) := by
      simp only [headerLines, List.flatMap_cons, List.append_assoc]
    have hne : headerText p ≠ [] := List.ne_nil_of_length_pos hp.length_pos
    have hread : f.readLine lower ((headerText p).map asciiByte) =
        { f with headers := f.headers.add lower p.1 p.2 } := by
      rw [readLine_headers hs (decodeAscii_map hp.isLine.isAscii), if_neg hne, parseHeaderLine,
        hp.splitHeader_headerText]
    rw [hlines, settle_line lower (.inr (.inl hs)) hp.isLine, hread,
      ih (fun q hq => hok q (List.mem_cons_of_mem p hq)) (by exact hs)]
    rfl

/-- The blank line is read. -/
lemma settle_blankLine (hs : f.state = .headers) (rest : List UInt8) :
    (responseMachine lower).settle f (CRLF ++ rest) =
      (responseMachine lower).settle (f.frameBody lower).core rest := by
  have hblank : CRLF ++ rest = line [] ++ rest := rfl
  have hdecode : decodeAscii [] = .ok [] := rfl
  have hread : f.readLine lower [] = (f.frameBody lower).core := by
    rw [readLine_headers hs hdecode, if_pos rfl]
  rw [hblank, settle_line lower (.inr (.inl hs)) (by simp [IsLine]), List.map_nil, hread]

/-- **A body of the announced length is read to its end.** -/
lemma settle_wholeBody {body : List UInt8} (hs : f.state = .body)
    (hremaining : f.bodyRemaining = some body.length) (hne : body ≠ []) :
    (responseMachine lower).settle f body =
      ({ f with body := f.body ++ body, bodyRemaining := some 0, state := .done }, []) := by
  induction body generalizing f with
  | nil => exact absurd rfl hne
  | cons byte body ih =>
    have hstep : (responseMachine lower).step f (byte :: body) = some (f.absorb [byte], body) :=
      stepLive_body hs byte body
    have habsorb : f.absorb [byte] =
        { f with
          body := f.body ++ [byte], bodyRemaining := some body.length
          state := if body.length = 0 then .done else f.state } := by
      rw [absorb, hremaining]
      simp
    rw [LocalMachine.settle_of_some hstep, habsorb]
    by_cases hnil : body = []
    · subst hnil
      rw [settle_of_terminal (.inl rfl)]
      rfl
    · have hlen : body.length ≠ 0 := fun h => hnil (List.length_eq_zero_iff.mp h)
      simp only [if_neg hlen]
      rw [ih (by exact hs) rfl hnil]
      simp

end ResponseFields

/-! ## Received responses -/

/-- A response has been read to its end, and there is nothing behind it. -/
structure ResponseParser.Received (p : ResponseParser) (statusCode : ℤ) (reason : Str)
    (headers : CaseInsensitiveDict) (body : List UInt8) : Prop where
  state : p.state = .done
  statusCode : p.statusCode = some statusCode
  reason : p.reason = reason
  headers : p.headers = headers
  body : p.body = body
  live : p.buffer.live = []

/-- A parser in buffered mode with a body buffer of its own. -/
def ResponseParser.newWith (maxBodyBytes maxHeaderBytes bodyCapacity : ℕ) : ResponseParser :=
  { maxBodyBytes, maxHeaderBytes, bodyCapacity }

open ResponseParser ResponseFields

section RoundTrip

variable {clientLower serverLower : Str → Str} {response : Response}

variable {f : ResponseFields}

/-- The machine behind the head of a response. -/
lemma settle_head {statusCode : ℤ} {reason : Str} {d : CaseInsensitiveDict} (hs : f.state = .status)
    (hempty : f.headers = {}) (hline : IsLine (statusLine statusCode reason))
    (hok : ∀ p ∈ d.items, HeaderOk p) (hkeyed : d.Keyed clientLower) (rest : List UInt8) :
    (responseMachine clientLower).settle f
        (line (statusLine statusCode reason) ++ (headerLines d.items ++ CRLF) ++ rest) =
      (responseMachine clientLower).settle
        (({ f.answered statusCode reason with headers := d } : ResponseFields).frameBody
          clientLower).core rest := by
  rw [List.append_assoc, List.append_assoc, settle_statusLine hs hline,
    settle_headerLines hok rfl, settle_blankLine (by rfl)]
  have hmap : d.items.foldl (fun d p => d.add clientLower p.1 p.2)
      (f.answered statusCode reason).headers = d := by
    have hanswered : (f.answered statusCode reason).headers = {} := hempty
    rw [hanswered]
    exact CaseInsensitiveDict.addAll_items hkeyed
  rw [hmap]

/-- The blank line in front of a body of known length. -/
lemma frameBody_contentLength {status : ℤ} {n : ℕ} (hstatus : f.statusCode = some status)
    (hinterim : ¬ (100 ≤ status ∧ status < 200)) (hnobody : status ∉ NO_BODY_STATUS_CODES)
    (hencoding : f.headers.get clientLower "Transfer-Encoding".toList = none)
    (hlength : f.headers.get clientLower "Content-Length".toList = some (formatInt n))
    (hcap : n ≤ f.maxBodyBytes) :
    (f.frameBody clientLower).core =
      if n = 0 then
        { f with
          headersComplete := true, bodyRemaining := some 0, state := .done, bodyCapacity := 0
          bodyReadOffset := 0 }
      else
        { f with
          headersComplete := true, bodyRemaining := some n, state := .body, body := []
          bodyCapacity := 0, bodyReadOffset := 0 } := by
  have hcap' : ¬ ((n : ℤ) > (f.maxBodyBytes : ℤ) ∧ f.streamBody = false) := by omega
  rw [frameBody, hstatus, Option.getD_some]
  rw [if_neg fun h => hinterim ⟨h.1, h.2.1⟩, if_neg hnobody]
  dsimp only
  rw [hencoding, hlength]
  dsimp only
  rw [pyInt_formatInt]
  dsimp only
  rw [if_neg (by omega), if_neg hcap']
  by_cases hzero : n = 0
  · rw [if_pos (by omega), if_pos hzero]
    rfl
  · rw [if_neg (by omega), if_neg hzero, Int.toNat_natCast]
    rfl

/-- The machine on a whole response. -/
lemma settle_response (hclient : LowersAscii clientLower) (hserver : LowersAscii serverLower)
    {data : List UInt8} (hs : f.state = .status) (hempty : f.headers = {}) (hnil : f.body = [])
    (hinterim : ¬ (100 ≤ response.statusCode ∧ response.statusCode < 200))
    (hnobody : response.statusCode ∉ NO_BODY_STATUS_CODES)
    (hheaders : ∀ p ∈ response.headers.getD [], ResponseHeader serverLower p)
    (hencode : encodeResponse serverLower response = .ok data)
    (hbody : response.body.length ≤ f.maxBodyBytes) :
    ∃ g : ResponseFields, (responseMachine clientLower).settle f data = (g, []) ∧
      g.state = .done ∧ g.statusCode = some response.statusCode ∧ g.reason = response.reason ∧
      g.headers = response.wireHeaders serverLower ∧ g.body = response.body := by
  unfold encodeResponse at hencode
  obtain ⟨head, hhead, hdata⟩ := bind_eq_ok.mp hencode
  cases hdata
  obtain ⟨rfl, hline, hlines⟩ := encodeHead_eq_ok hhead
  have hframing : ∀ e ∈ (framingHeaders serverLower response.body).entries,
      e.1 = serverLower e.2.1 ∧ e.2.1 ≠ [] ∧ ':' ∉ e.2.1 ∧ strip e.2.2 = e.2.2 := by
    apply CaseInsensitiveDict.forall_set
    · simp
    · have hname : "Content-Length".toList ≠ [] ∧ ':' ∉ "Content-Length".toList := by decide
      have hvalue := strip_formatInt (response.body.length : ℤ)
      exact ⟨rfl, hname.1, hname.2, hvalue⟩
  have hok := headerOk_headHeaders (fun e he => (hframing e he).2) hheaders hlines
  have hkeyed : (response.wireHeaders serverLower).Keyed clientLower := by
    intro e he
    have hascii := (hlines e.2 (List.mem_map_of_mem he)).1.isAscii
    rw [keyed_headHeaders (fun e he => (hframing e he).1) e he, hserver _ hascii, hclient _ hascii]
  rw [settle_head hs hempty hline hok hkeyed]
  have hget : ∀ name key : Str, IsAscii name → name.map Char.toLower = key →
      (key = "content-length".toList ∨ key = "transfer-encoding".toList) →
      (response.wireHeaders serverLower).get clientLower name =
        ((framingHeaders serverLower response.body).find? key).map Prod.snd := by
    intro name key hascii hkey hframe
    rw [CaseInsensitiveDict.get, hclient name hascii, hkey]
    exact congrArg _ (find?_headHeaders hserver hheaders hframe)
  have hfind : ∀ key : Str, (framingHeaders serverLower response.body).find? key =
      if key = "content-length".toList then
        some ("Content-Length".toList, formatInt response.body.length)
      else none := by
    intro key
    have hkey : serverLower "Content-Length".toList = "content-length".toList := by
      rw [hserver _ (by decide)]
      decide
    rw [framingHeaders, CaseInsensitiveDict.set, CaseInsensitiveDict.find?_setKey, hkey]
    rfl
  have hencoding := hget "Transfer-Encoding".toList "transfer-encoding".toList (by decide) (by decide)
    (.inr rfl)
  have hlength := hget "Content-Length".toList "content-length".toList (by decide) (by decide)
    (.inl rfl)
  rw [hfind, if_neg (by decide)] at hencoding
  rw [hfind, if_pos (by rfl)] at hlength
  have hframe := frameBody_contentLength (f := { f.answered response.statusCode response.reason with
    headers := response.wireHeaders serverLower }) (n := response.body.length) rfl hinterim hnobody
    hencoding hlength hbody
  have hmap : headHeaders serverLower (framingHeaders serverLower response.body) response.headers =
      response.wireHeaders serverLower := rfl
  rw [hmap, hframe]
  by_cases hzero : response.body.length = 0
  · have hempty' := List.length_eq_zero_iff.mp hzero
    rw [if_pos hzero, hempty', settle_nil]
    exact ⟨_, rfl, rfl, rfl, rfl, rfl, hnil⟩
  · rw [if_neg hzero, settle_wholeBody rfl rfl
      fun h => hzero (List.length_eq_zero_iff.mpr h)]
    exact ⟨_, rfl, rfl, rfl, rfl, rfl, rfl⟩

/-- A cut within the cap stays so when it ends earlier. -/
lemma ResponseParser.WithinCap.left {p : ResponseParser} {lower : Str → Str}
    {before after : List (List UInt8)} (h : p.WithinCap lower (before ++ after)) :
    p.WithinCap lower before := by
  intro a chunk b heq
  exact h a chunk (b ++ after) (by rw [heq, List.append_assoc]; rfl)

/-- **A response is received as it was sent**, in every cut that stays within the caps: status,
reason, headers and body are the same, nothing is left behind it, and it is not complete before its
last byte has come. -/
theorem received_encodeResponse {maxBodyBytes maxHeaderBytes bodyCapacity : ℕ}
    (response : Response) {data : List UInt8}
    {chunks : List (List UInt8)} (hclient : LowersAscii clientLower)
    (hserver : LowersAscii serverLower)
    (hinterim : ¬ (100 ≤ response.statusCode ∧ response.statusCode < 200))
    (hnobody : response.statusCode ∉ NO_BODY_STATUS_CODES)
    (hheaders : ∀ p ∈ response.headers.getD [], ResponseHeader serverLower p)
    (hencode : encodeResponse serverLower response = .ok data) (hchunks : chunks.flatten = data)
    (hbody : response.body.length ≤ maxBodyBytes)
    (hcap : (newWith maxBodyBytes maxHeaderBytes bodyCapacity).WithinCap clientLower
      chunks) :
    ((newWith maxBodyBytes maxHeaderBytes bodyCapacity).feedAll clientLower
      chunks).Received response.statusCode response.reason (response.wireHeaders serverLower)
        response.body ∧
    ∀ before after, chunks = before ++ after → before.flatten ≠ data →
      ((newWith maxBodyBytes maxHeaderBytes bodyCapacity).feedAll clientLower
        before).state ≠ .done := by
  obtain ⟨g, hrun, hstate, hstatus, hreason, hmap, hfinal⟩ := settle_response
    (f := (newWith maxBodyBytes maxHeaderBytes bodyCapacity).core) hclient hserver rfl
    rfl rfl hinterim hnobody hheaders hencode hbody
  have hstart : (newWith maxBodyBytes maxHeaderBytes bodyCapacity).Follows
      ((newWith maxBodyBytes maxHeaderBytes bodyCapacity).core, []) :=
    ⟨rfl, rfl, .inl rfl⟩
  -- every beginning of the chunks is followed by the machine
  have hfollows : ∀ before after, chunks = before ++ after →
      ((newWith maxBodyBytes maxHeaderBytes bodyCapacity).feedAll clientLower
        before).Follows ((responseMachine clientLower).settle (newWith maxBodyBytes
          maxHeaderBytes bodyCapacity).core before.flatten) := by
    rintro before after rfl
    refine feedAll_follows hstart (step_nil _) hcap.left fun herr => ?_
    have hall := state_settle_append_of_error (t := after.flatten) herr
    rw [List.nil_append, ← List.flatten_append, hchunks, hrun, hstate] at hall
    cases hall
  refine ⟨?_, fun before after hsplit hne hdone => hne ?_⟩
  · obtain ⟨-, hfields, hlive⟩ := hfollows chunks [] (List.append_nil chunks).symm
    rw [hchunks, hrun] at hfields hlive
    have hlive' : (feedAll clientLower (newWith maxBodyBytes
        maxHeaderBytes bodyCapacity) chunks).buffer.live = [] := by
      rcases hlive with heq | ⟨-, hprefix⟩
      · exact heq
      · exact List.prefix_nil.mp hprefix
    exact ⟨(congrArg (·.state) hfields).trans hstate,
      (congrArg (·.statusCode) hfields).trans hstatus, (congrArg (·.reason) hfields).trans hreason,
      (congrArg (·.headers) hfields).trans hmap, (congrArg (·.body) hfields).trans hfinal, hlive'⟩
  · -- a machine that is done would leave the rest of the bytes
    have hfields := (hfollows before after hsplit).fields
    have hdone' := (congrArg (·.state) hfields).symm.trans hdone
    have hrest : before.flatten ++ after.flatten = data := by
      rw [← List.flatten_append, ← hsplit, hchunks]
    rw [← hrest, LocalMachine.settle_append, settle_of_terminal (.inl hdone')] at hrun
    have hnil := congrArg Prod.snd hrun
    rw [← hrest, (List.append_eq_nil_iff.mp hnil).2, List.append_nil]

/-- A response with a reason of two words and a header of its own, in three chunks. -/
theorem received_encodeResponse_notFound :
    ((newWith 16 80 0).feedAll lowerAscii
      (["HTTP/1.1 404 Not Fo", "und\r\nContent-Length: 2\r\nConnection: close\r\nX: y\r\n\r",
        "\nhi"].map (·.toList.map asciiByte))).Received 404 "Not Found".toList
      (Response.wireHeaders lowerAscii
        ⟨404, "Not Found".toList, some [("X".toList, "y".toList)], [104, 105]⟩) [104, 105] :=
  (received_encodeResponse ⟨404, "Not Found".toList, some [("X".toList, "y".toList)], [104, 105]⟩
    lowersAscii_lowerAscii lowersAscii_lowerAscii (by decide) (by decide)
    (by
      intro p hp
      obtain rfl : p = ("X".toList, "y".toList) := by simpa using hp
      exact ⟨by decide, by decide, by decide, by decide⟩)
    (by decide +kernel) rfl (by decide)
    (by
      intro before chunk after heq hstate
      rcases before with _ | ⟨a, _ | ⟨b, _ | ⟨c, before⟩⟩⟩
      · obtain ⟨rfl, -⟩ := List.cons.inj heq
        decide +kernel
      · simp only [List.map_cons, List.cons_append, List.cons.injEq, List.nil_append] at heq
        obtain ⟨rfl, rfl, -⟩ := heq
        decide +kernel
      · simp only [List.map_cons, List.cons_append, List.cons.injEq, List.nil_append] at heq
        obtain ⟨rfl, rfl, rfl, -⟩ := heq
        decide +kernel
      · simp at heq)).1

end RoundTrip

end ChuMicro.Requests
