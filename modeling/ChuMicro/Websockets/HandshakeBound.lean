import ChuMicro.Websockets.HandshakeRoundTrip

/-!
# What a handshake can store

The parsers of the opening handshake take lines out of their buffer one by one, and `feed` compares
what is left in the buffer with the cap, not what has been taken out of it. Header blocks longer
than the cap are stored and accepted if no chunk is too long together with the line that is open
when it comes.

## Main definitions

* `Websockets.HandshakeParser.storedLines` — the lines that a parser has stored.
* `Websockets.HandshakeParser.Bounded` — the cap bounds what is stored and accepted.
* `Websockets.Passes` — no chunk of a message is refused for its length.

## Main results

* `Websockets.HandshakeParser.run_cases` — how a run ends.
* `Websockets.HandshakeParser.bounded_iff` — when the cap bounds what is stored.
-/

namespace ChuMicro.Websockets

open Buffers Http

/-! ## Lines of a stream -/

section Lines

variable {line line' rest rest' : List UInt8} {lines lines' : List (List UInt8)}

/-- Two first lines of one stream are the same. -/
lemma line_unique (h : Unbroken 13 10 line) (h' : Unbroken 13 10 line')
    (heq : line ++ CRLF ++ rest = line' ++ CRLF ++ rest') : line = line' ∧ rest = rest' := by
  have hfind := findSlice_unbroken_append (by decide) h rest
  have hfind' := findSlice_unbroken_append (by decide) h' rest'
  have hcrlf : ([13, 10] : List UInt8) = CRLF := rfl
  rw [hcrlf] at hfind hfind'
  rw [heq, hfind'] at hfind
  have hlen : line.length = line'.length := (Option.some.inj hfind).symm
  simp only [List.append_assoc] at heq
  obtain ⟨rfl, htail⟩ := List.append_inj heq hlen
  exact ⟨rfl, List.append_cancel_left htail⟩

/-- An open line has no line end. -/
lemma unbroken_ne_line (h : Unbroken 13 10 line) : line ≠ line' ++ CRLF ++ rest := by
  rintro rfl
  have hpair : Unbroken 13 10 CRLF := h.infix ⟨line', rest, rfl⟩
  exact (List.isChain_cons_cons.mp hpair).1 ⟨rfl, rfl⟩

/-- Lines, one after the other. -/
lemma wireLines_append (lines lines' : List (List UInt8)) :
    wireLines (lines ++ lines') = wireLines lines ++ wireLines lines' := List.flatMap_append

/-- **Lines of one stream agree**: one list of them continues the other. -/
lemma wireLines_compare (h : ∀ l ∈ lines, Unbroken 13 10 l) (h' : ∀ l ∈ lines', Unbroken 13 10 l)
    (heq : wireLines lines ++ rest = wireLines lines' ++ rest') :
    lines <+: lines' ∨ ∃ l more, lines = lines' ++ l :: more := by
  induction lines generalizing lines' with
  | nil => exact .inl (List.nil_prefix)
  | cons line lines ih =>
    cases lines' with
    | nil => exact .inr ⟨line, lines, rfl⟩
    | cons line' lines' =>
      rw [wireLines_cons, wireLines_cons] at heq
      obtain ⟨rfl, htail⟩ := line_unique (h line List.mem_cons_self) (h' line' List.mem_cons_self) heq
      have hrest := ih (fun l hl => h l (List.mem_cons_of_mem _ hl))
        (fun l hl => h' l (List.mem_cons_of_mem _ hl)) htail
      rcases hrest with hprefix | ⟨l, more, rfl⟩
      · exact .inl (List.cons_prefix_cons.mpr ⟨rfl, hprefix⟩)
      · exact .inr ⟨l, more, rfl⟩

/-- A whole header block: the first line, header lines, and the blank line. -/
def HeaderBlock (block : List UInt8) : Prop :=
  ∃ first headers, Unbroken 13 10 first ∧ (∀ l ∈ headers, Unbroken 13 10 l ∧ l ≠ []) ∧
    block = wireLines (first :: headers) ++ CRLF

/-- Header blocks do not go on behind the first blank line. -/
lemma blank_not_continued {first : List UInt8} {headers more : List (List UInt8)}
    {l : List UInt8} (hlines : ∀ l ∈ headers, Unbroken 13 10 l ∧ l ≠ [])
    (hfirst : first :: headers = lines ++ l :: more) (hlines' : lines ≠ [])
    (heq : wireLines lines ++ (wireLines (l :: more) ++ rest) = wireLines lines ++ (CRLF ++ rest')) :
    False := by
  cases lines with
  | nil => exact hlines' rfl
  | cons first' headers' =>
    obtain ⟨-, hheaders⟩ := List.cons_eq_cons.mp hfirst
    have hl : l ∈ headers := by
      rw [hheaders]
      exact List.mem_append_right _ List.mem_cons_self
    have htail := List.append_cancel_left heq
    rw [wireLines_cons] at htail
    exact (hlines l hl).2 (line_unique (hlines l hl).1 unbroken_nil htail).1

/-- **A stream has one header block.** -/
lemma headerBlock_unique {block block' stream : List UInt8} (h : HeaderBlock block)
    (h' : HeaderBlock block') (hpre : block <+: stream) (hpre' : block' <+: stream) :
    block = block' := by
  obtain ⟨first, headers, hfirst, hheaders, rfl⟩ := h
  obtain ⟨first', headers', hfirst', hheaders', rfl⟩ := h'
  obtain ⟨rest, rfl⟩ := hpre
  obtain ⟨rest', heq⟩ := hpre'
  rw [List.append_assoc, List.append_assoc] at heq
  have hall : ∀ l ∈ first :: headers, Unbroken 13 10 l := by
    rintro l (_ | ⟨_, hl⟩)
    · exact hfirst
    · exact (hheaders l hl).1
  have hall' : ∀ l ∈ first' :: headers', Unbroken 13 10 l := by
    rintro l (_ | ⟨_, hl⟩)
    · exact hfirst'
    · exact (hheaders' l hl).1
  rcases wireLines_compare hall' hall heq with ⟨more, hmore⟩ | ⟨l, more, hmore⟩
  · cases more with
    | nil =>
      rw [List.append_nil] at hmore
      rw [hmore]
    | cons l more =>
      rw [← hmore, wireLines_append, List.append_assoc] at heq
      exact (blank_not_continued hheaders hmore.symm (List.cons_ne_nil _ _) heq.symm).elim
  · rw [hmore, wireLines_append, List.append_assoc] at heq
    exact (blank_not_continued hheaders' hmore (List.cons_ne_nil _ _) heq).elim

end Lines

/-- No chunk is refused for its length up to the one that completes the first `length` bytes, of
which `data` have been fed: each fits the cap together with the open line. -/
def Passes (cap length : ℕ) : List UInt8 → List (List UInt8) → Prop
  | _, [] => True
  | data, chunk :: chunks =>
    (data.length < length → (openLine data).length + chunk.length ≤ cap) ∧
      Passes cap length (data ++ chunk) chunks

/-- Whether the chunks pass can be computed. -/
instance decidablePasses (cap length : ℕ) :
    ∀ (data : List UInt8) (chunks : List (List UInt8)), Decidable (Passes cap length data chunks)
  | _, [] => .isTrue trivial
  | data, chunk :: chunks =>
    have := decidablePasses cap length (data ++ chunk) chunks
    inferInstanceAs (Decidable ((data.length < length →
      (openLine data).length + chunk.length ≤ cap) ∧ Passes cap length (data ++ chunk) chunks))

/-- Nothing is asked of the chunks behind the message. -/
lemma passes_of_le {cap length : ℕ} {data : List UInt8} (h : length ≤ data.length)
    (chunks : List (List UInt8)) : Passes cap length data chunks := by
  induction chunks generalizing data with
  | nil => trivial
  | cons chunk chunks ih =>
    exact ⟨fun hlt => absurd hlt (by omega), ih (by rw [List.length_append]; omega)⟩

/-- Less is asked of the chunks of a shorter message. -/
lemma Passes.mono {cap length length' : ℕ} {data : List UInt8} {chunks : List (List UInt8)}
    (h : Passes cap length data chunks) (hle : length' ≤ length) :
    Passes cap length' data chunks := by
  induction chunks generalizing data with
  | nil => trivial
  | cons chunk chunks ih => exact ⟨fun hlt => h.1 (by omega), ih h.2⟩

namespace HandshakeParser

variable {codecs : Codecs} {p f g : HandshakeParser} {line : List UInt8} {lines : List (List UInt8)}

/-! ## Stored lines -/

/-- The parser behind a line that it stores. -/
def takeLine (codecs : Codecs) (p : HandshakeParser) (line : List UInt8) : Option HandshakeParser :=
  if p.state = .headers ∧ line = [] then none
  else
    match p.readLine codecs line with
    | (.ok (), q) => some q
    | (.error _, _) => none

/-- The parser behind some lines, if it stores all of them. -/
def takeLines (codecs : Codecs) (p : HandshakeParser) (lines : List (List UInt8)) :
    Option HandshakeParser := lines.foldlM (takeLine codecs) p

/-- The lines that the loop of `feed` stores. -/
def loopLines (codecs : Codecs) : ℕ → HandshakeParser → List (List UInt8)
  | 0, _ => []
  | rounds + 1, p =>
    match p.buffer.liveFind CRLF with
    | none => []
    | some index =>
      let line := p.buffer.liveSlice 0 index
      match ({ p with buffer := p.buffer.consume (index + 2) } : HandshakeParser).takeLine
        codecs line with
      | none => []
      | some q => line :: loopLines codecs rounds q

/-- The lines that `feed` stores. -/
def feedLines (codecs : Codecs) (p : HandshakeParser) (chunk : List UInt8) : List (List UInt8) :=
  if p.state = .done ∨ p.state = .error then []
  else
    let p := { p with buffer := p.buffer.extend chunk }
    if p.buffer.liveLen > p.maxHeaderBytes then [] else loopLines codecs (p.buffer.liveLen + 1) p

/-- The lines that a parser stores while it is fed some chunks. -/
def storedLines (codecs : Codecs) : HandshakeParser → List (List UInt8) → List (List UInt8)
  | _, [] => []
  | p, chunk :: chunks =>
    p.feedLines codecs chunk ++ storedLines codecs (p.feed codecs chunk).2 chunks

/-- **The cap bounds what a peer can make a parser store**: it accepts no longer header block, has
never stored more bytes of lines, and fails where a longer block was fed to it. -/
structure Bounded (codecs : Codecs) (role : HandshakeRole) (cap : ℕ)
    (chunks : List (List UInt8)) : Prop where
  accepts : ((newCapped role cap).feedAll codecs chunks).state = .done →
    ∃ block, HeaderBlock block ∧ block <+: chunks.flatten ∧ block.length ≤ cap
  stores : ((newCapped role cap).feedAll codecs chunks).state ≠ .done →
    (wireLines (storedLines codecs (newCapped role cap) chunks)).length ≤ cap
  fails : ∀ block, HeaderBlock block → block <+: chunks.flatten → cap < block.length →
    ((newCapped role cap).feedAll codecs chunks).state = .error

/-- What a parser of this role has no objection to at the beginning of a stream: some lines, and
maybe the blank line behind them. -/
inductive Agreeable (codecs : Codecs) (role : HandshakeRole) (cap : ℕ) : List UInt8 → Prop
  | lines {lines : List (List UInt8)} {g : HandshakeParser} :
    takeLines codecs (newCapped role cap) lines = some g → (∀ l ∈ lines, Unbroken 13 10 l) →
      Agreeable codecs role cap (wireLines lines)
  | block {lines : List (List UInt8)} {g : HandshakeParser} :
    takeLines codecs (newCapped role cap) lines = some g → (∀ l ∈ lines, Unbroken 13 10 l) →
      g.state = .headers → (g.finalize codecs).1 = .ok () →
      Agreeable codecs role cap (wireLines lines ++ CRLF)

/-! ## Taking lines -/

/-- A line that is stored is read, and headers come next. -/
lemma takeLine_eq_some {q : HandshakeParser} (h : p.takeLine codecs line = some q) :
    ¬ (p.state = .headers ∧ line = []) ∧ p.readLine codecs line = (.ok (), q) ∧
      q.state = .headers ∧ q.maxHeaderBytes = p.maxHeaderBytes := by
  unfold takeLine at h
  split_ifs at h with hblank
  split at h
  · next q' hread =>
    obtain rfl := Option.some.inj h
    have hok := @readLine_ok codecs p line (by rw [hread])
    rw [hread] at hok
    exact ⟨hblank, hread, hok⟩
  · cases h

/-- What is stored does not depend on the buffer. -/
lemma takeLine_buffer (codecs : Codecs) (p : HandshakeParser) (b : LiveBuffer UInt8)
    (line : List UInt8) :
    ({ p with buffer := b } : HandshakeParser).takeLine codecs line =
      (p.takeLine codecs line).map fun q => { q with buffer := b } := by
  unfold takeLine
  rw [readLine_buffer]
  dsimp only
  split_ifs with hblank
  · rfl
  · rcases p.readLine codecs line with ⟨e | u, q⟩ <;> rfl

/-- Lines, one after the other. -/
lemma takeLines_append (codecs : Codecs) (p : HandshakeParser) (lines more : List (List UInt8)) :
    p.takeLines codecs (lines ++ more) =
      (p.takeLines codecs lines).bind fun q => q.takeLines codecs more :=
  List.foldlM_append

/-- The first of some lines. -/
lemma takeLines_cons (codecs : Codecs) (p : HandshakeParser) (line : List UInt8)
    (lines : List (List UInt8)) :
    p.takeLines codecs (line :: lines) =
      (p.takeLine codecs line).bind fun q => q.takeLines codecs lines :=
  List.foldlM_cons

/-- Behind some lines headers come, and the cap is the same. -/
lemma takeLines_spec (h : p.takeLines codecs lines = some g) :
    (lines = [] ∧ g = p ∨ g.state = .headers) ∧ g.maxHeaderBytes = p.maxHeaderBytes := by
  induction lines generalizing p with
  | nil =>
    obtain rfl := Option.some.inj h
    exact ⟨.inl ⟨rfl, rfl⟩, rfl⟩
  | cons line lines ih =>
    rw [takeLines_cons] at h
    obtain ⟨q, hq, hrest⟩ := Option.bind_eq_some_iff.mp h
    obtain ⟨-, -, hs, hcap⟩ := takeLine_eq_some hq
    obtain ⟨hlast, hcap'⟩ := ih hrest
    refine ⟨.inr ?_, hcap'.trans hcap⟩
    rcases hlast with ⟨-, rfl⟩ | hlast
    · exact hs
    · exact hlast

/-- No blank line is stored among the headers. -/
lemma takeLines_ne_nil (hs : p.state = .headers) (h : p.takeLines codecs lines = some g) :
    ∀ l ∈ lines, l ≠ [] := by
  induction lines generalizing p with
  | nil => exact fun l hl => absurd hl List.not_mem_nil
  | cons line lines ih =>
    rw [takeLines_cons] at h
    obtain ⟨q, hq, hrest⟩ := Option.bind_eq_some_iff.mp h
    obtain ⟨hblank, -, hs', -⟩ := takeLine_eq_some hq
    rintro l (_ | ⟨_, hl⟩) rfl
    · exact hblank ⟨hs, rfl⟩
    · exact ih hs' hrest [] hl rfl

/-- The lines that a parser stores and the blank line are a header block. -/
lemma headerBlock_of_takeLines (hs : p.state ≠ .headers)
    (h : p.takeLines codecs lines = some g) (hg : g.state = .headers)
    (hlines : ∀ l ∈ lines, Unbroken 13 10 l) : HeaderBlock (wireLines lines ++ CRLF) := by
  cases lines with
  | nil =>
    obtain rfl := Option.some.inj h
    exact absurd hg hs
  | cons first headers =>
    rw [takeLines_cons] at h
    obtain ⟨q, hq, hrest⟩ := Option.bind_eq_some_iff.mp h
    have hne := takeLines_ne_nil (takeLine_eq_some hq).2.2.1 hrest
    exact ⟨first, headers, hlines first List.mem_cons_self,
      fun l hl => ⟨hlines l (List.mem_cons_of_mem _ hl), hne l hl⟩, rfl⟩

/-- A line that is refused leaves the parser failed. -/
lemma readLine_error {e : Exn} (h : (p.readLine codecs line).1 = .error e) :
    (p.readLine codecs line).2.state = .error := by
  revert h
  unfold readLine
  split_ifs
  · unfold parseHeaderLine
    dsimp only
    split
    · exact fun _ => rfl
    · split_ifs
      · exact fun _ => rfl
      · exact fun h => by cases h
  · unfold parseFirstLine
    split
    · unfold parseRequestLine
      split
      · dsimp only
        split_ifs
        · exact fun _ => rfl
        · exact fun h => by cases h
        · exact fun _ => rfl
      · exact fun _ => rfl
    · unfold parseStatusLine
      split
      · dsimp only
        split
        · exact fun _ => rfl
        · split_ifs
          · exact fun _ => rfl
          · exact fun h => by cases h
      · exact fun _ => rfl
    · exact fun _ => rfl
    · exact fun _ => rfl

/-! ## One chunk -/

/-- Where the loop of `feed` stops with `rest` behind the lines that it stored: at an open line, at
the blank line, or at a line that is refused. -/
inductive Stops (codecs : Codecs) (g : HandshakeParser) (rest : List UInt8) :
    HandshakeParser → Prop
  | waits {b : LiveBuffer UInt8} : b.live = rest → Unbroken 13 10 rest →
    Stops codecs g rest { g with buffer := b }
  | blank {b : LiveBuffer UInt8} {tail : List UInt8} : rest = CRLF ++ tail → g.state = .headers →
    Stops codecs g rest (({ g with buffer := b } : HandshakeParser).finalize codecs).2
  | refused {line tail : List UInt8} {q : HandshakeParser} : rest = line ++ CRLF ++ tail →
    Unbroken 13 10 line → ¬ (g.state = .headers ∧ line = []) → g.takeLine codecs line = none →
    q.state = .error → Stops codecs g rest q

/-- **The loop of `feed` stores lines until it stops.**

**Proof sketch.** Induction on the rounds, one for every line in the buffer. -/
lemma feedLoop_stops (codecs : Codecs) (f : HandshakeParser) {b : LiveBuffer UInt8} {rounds : ℕ}
    (hrounds : b.live.length < rounds) :
    ∃ lines g rest, f.takeLines codecs lines = some g ∧ (∀ l ∈ lines, Unbroken 13 10 l) ∧
      loopLines codecs rounds { f with buffer := b } = lines ∧ b.live = wireLines lines ++ rest ∧
      Stops codecs g rest (feedLoop codecs rounds { f with buffer := b }).2 := by
  induction rounds generalizing f b with
  | zero => omega
  | succ rounds ih =>
    rw [loopLines, LiveBuffer.liveFind_eq]
    rcases hfind : findSlice CRLF b.live with _ | index
    · rw [feedLoop_wait rounds hfind]
      exact ⟨[], f, b.live, rfl, fun l hl => absurd hl List.not_mem_nil, rfl, rfl,
        .waits rfl (findSlice_eq_none_iff_unbroken.mp hfind)⟩
    · dsimp only
      rw [LiveBuffer.liveSlice_zero, takeLine_buffer]
      have hline : Unbroken 13 10 (b.live.take index) := by
        rw [← findSlice_eq_none_iff_unbroken]
        exact findSlice_take_eq_none hfind (by simp)
      have hlive : b.live = b.live.take index ++ CRLF ++ b.live.drop (index + 2) := by
        rw [List.append_assoc]
        exact eq_of_findSlice hfind
      by_cases hblank : f.state = .headers ∧ b.live.take index = []
      · rw [takeLine, if_pos hblank, feedLoop_found_blank rounds hfind hblank]
        rw [hblank.2, List.nil_append] at hlive
        exact ⟨[], f, b.live, rfl, fun l hl => absurd hl List.not_mem_nil, rfl, rfl,
          .blank hlive hblank.1⟩
      · have hloop := @feedLoop_found codecs { f with buffer := b } index rounds hfind hblank
        dsimp only at hloop
        rw [readLine_buffer] at hloop
        rcases hread : f.readLine codecs (b.live.take index) with ⟨e | u, q⟩
        · -- the line is refused
          have hnone : f.takeLine codecs (b.live.take index) = none := by
            rw [takeLine, if_neg hblank, hread]
          have herror := @readLine_error codecs f _ e (by rw [hread])
          rw [hread] at hloop herror
          rw [hnone, hloop]
          exact ⟨[], f, b.live, rfl, fun l hl => absurd hl List.not_mem_nil, rfl, rfl,
            .refused hlive hline hblank hnone herror⟩
        · have hsome : f.takeLine codecs (b.live.take index) = some q := by
            rw [takeLine, if_neg hblank, hread]
          have hlen := findSlice_le hfind
          have hcrlf : CRLF.length = 2 := rfl
          obtain ⟨lines, g, rest, hlines, hunbroken, hstored, hrest, hstops⟩ :=
            @ih q (b.consume (index + 2)) (by
              rw [LiveBuffer.live_consume, List.length_drop]
              omega)
          rw [hread] at hloop
          rw [hsome, hloop]
          refine ⟨b.live.take index :: lines, g, rest, ?_, ?_, ?_, ?_, hstops⟩
          · rw [takeLines_cons, hsome]
            exact hlines
          · rintro l (_ | ⟨_, hl⟩)
            · exact hline
            · exact hunbroken l hl
          · exact congrArg (b.live.take index :: ·) hstored
          · rw [LiveBuffer.live_consume] at hrest
            rw [wireLines_cons, ← hrest]
            exact hlive

/-! ## Runs -/

/-- Nothing is stored any more by a parser that is done or has failed. -/
lemma storedLines_of_terminal (codecs : Codecs) (h : p.state = .done ∨ p.state = .error)
    (chunks : List (List UInt8)) : p.storedLines codecs chunks = [] := by
  induction chunks with
  | nil => rfl
  | cons chunk chunks ih =>
    have hfeed : p.feed codecs chunk = (.ok (), p) := if_pos h
    rw [storedLines, feedLines, if_pos h, hfeed]
    exact ih

/-- How a run ends that has stored `stored`, with `rest` of the stream behind it: at an open line,
at a chunk that is too long, at the blank line, or at a line that is refused. -/
inductive Ends (codecs : Codecs) (g : HandshakeParser) (stored rest data : List UInt8)
    (chunks : List (List UInt8)) : HandshakeParser → Prop
  | waits {b : LiveBuffer UInt8} : b.live = rest → Unbroken 13 10 rest →
    ¬ (g.state = .done ∨ g.state = .error) → (∀ n, Passes g.maxHeaderBytes n data chunks) →
    Ends codecs g stored rest data chunks { g with buffer := b }
  | tooLong {line tail : List UInt8} {q : HandshakeParser} : rest = line ++ tail →
    Unbroken 13 10 line → Passes g.maxHeaderBytes stored.length data chunks →
    (∀ n, (stored ++ line).length < n → ¬ Passes g.maxHeaderBytes n data chunks) →
    q.state = .error → Ends codecs g stored rest data chunks q
  | blank {b : LiveBuffer UInt8} {tail : List UInt8} : rest = CRLF ++ tail → g.state = .headers →
    Passes g.maxHeaderBytes (stored ++ CRLF).length data chunks →
    Ends codecs g stored rest data chunks (({ g with buffer := b } : HandshakeParser).finalize codecs).2
  | refused {line tail : List UInt8} {q : HandshakeParser} : rest = line ++ CRLF ++ tail →
    Unbroken 13 10 line → ¬ (g.state = .headers ∧ line = []) → g.takeLine codecs line = none →
    Passes g.maxHeaderBytes stored.length data chunks → q.state = .error →
    Ends codecs g stored rest data chunks q

/-- A chunk that fits in front of a run. -/
lemma Ends.cons {stored rest data chunk : List UInt8} {chunks : List (List UInt8)}
    (hfits : (openLine data).length + chunk.length ≤ g.maxHeaderBytes)
    (h : Ends codecs g stored rest (data ++ chunk) chunks p) :
    Ends codecs g stored rest data (chunk :: chunks) p := by
  cases h with
  | waits hb hopen hactive hpasses => exact .waits hb hopen hactive fun n => ⟨fun _ => hfits, hpasses n⟩
  | tooLong hrest hline hpasses hnot herror =>
    exact .tooLong hrest hline ⟨fun _ => hfits, hpasses⟩ (fun n hn hall => hnot n hn hall.2) herror
  | blank hrest hs hpasses => exact .blank hrest hs ⟨fun _ => hfits, hpasses⟩
  | refused hrest hline hblank hnone hpasses herror =>
    exact .refused hrest hline hblank hnone ⟨fun _ => hfits, hpasses⟩ herror

/-- Lines are no part of the open line. -/
lemma openLine_wireLines {rest : List UInt8} (hlines : ∀ l ∈ lines, Unbroken 13 10 l)
    (hrest : Unbroken 13 10 rest) : openLine (wireLines lines ++ rest) = rest := by
  induction lines with
  | nil => exact openLine_of_unbroken hrest
  | cons line lines ih =>
    rw [wireLines_cons]
    have hopen := openLine_line_append (by decide : (13 : UInt8) ≠ 10)
      (hlines line List.mem_cons_self) (wireLines lines ++ rest)
    exact hopen.trans (ih fun l hl => hlines l (List.mem_cons_of_mem _ hl))

/-- **A run stores lines until it ends.**

**Proof sketch.** Induction on the chunks. A chunk that does not fit behind the open line is the end
of the run; of any other the loop stores the lines up to where it stops, and if it stops at an open
line the run goes on with that line. -/
lemma run_ends {p₀ : HandshakeParser} {b : LiveBuffer UInt8} {data : List UInt8}
    {chunks : List (List UInt8)} (hf : p₀.takeLines codecs lines = some f)
    (hlines : ∀ l ∈ lines, Unbroken 13 10 l) (hactive : ¬ (f.state = .done ∨ f.state = .error))
    (hb : b.live = openLine data) (hdata : data = wireLines lines ++ openLine data) :
    ∃ more g rest, p₀.takeLines codecs (lines ++ more) = some g ∧
      (∀ l ∈ lines ++ more, Unbroken 13 10 l) ∧
      ({ f with buffer := b } : HandshakeParser).storedLines codecs chunks = more ∧
      data ++ chunks.flatten = wireLines (lines ++ more) ++ rest ∧
      Ends codecs g (wireLines (lines ++ more)) rest data chunks
        (({ f with buffer := b } : HandshakeParser).feedAll codecs chunks) := by
  induction chunks generalizing f b data lines with
  | nil =>
    have hopen : Unbroken 13 10 (openLine data) := unbroken_openLine data
    refine ⟨[], f, openLine data, ?_, ?_, rfl, ?_, .waits hb hopen hactive fun _ => trivial⟩
    · rw [List.append_nil]
      exact hf
    · rw [List.append_nil]
      exact hlines
    · rw [List.append_nil, List.flatten_nil, List.append_nil]
      exact hdata
  | cons chunk chunks ih =>
    have hfeedAll : ({ f with buffer := b } : HandshakeParser).feedAll codecs (chunk :: chunks) =
        (({ f with buffer := b } : HandshakeParser).feed codecs chunk).2.feedAll codecs chunks := rfl
    have hlive : (b.extend chunk).live = openLine data ++ chunk := by
      rw [LiveBuffer.live_extend, hb]
    have hstream : data ++ (chunk :: chunks).flatten =
        wireLines lines ++ ((b.extend chunk).live ++ chunks.flatten) := by
      rw [List.flatten_cons, hlive]
      nth_rewrite 1 [hdata]
      simp only [List.append_assoc]
    rw [storedLines, feedLines, if_neg hactive, hfeedAll, feed, if_neg hactive]
    dsimp only
    rw [LiveBuffer.liveLen_eq]
    by_cases hfits : (openLine data).length + chunk.length ≤ f.maxHeaderBytes
    · have hnot : ¬ (b.extend chunk).live.length > f.maxHeaderBytes := by
        rw [hlive, List.length_append]
        omega
      rw [if_neg hnot, if_neg hnot]
      obtain ⟨lines', g, rest, hlines', hunbroken, hstored, hrest, hstops⟩ :=
        feedLoop_stops codecs f (Nat.lt_succ_self (b.extend chunk).live.length)
      have hg : p₀.takeLines codecs (lines ++ lines') = some g := by
        rw [takeLines_append, hf]
        exact hlines'
      have hall : ∀ l ∈ lines ++ lines', Unbroken 13 10 l := by
        intro l hl
        rcases List.mem_append.mp hl with hl | hl
        · exact hlines l hl
        · exact hunbroken l hl
      have hsplit : data ++ chunk = wireLines (lines ++ lines') ++ rest := by
        rw [wireLines_append, List.append_assoc, ← hrest, hlive]
        nth_rewrite 1 [hdata]
        rw [List.append_assoc]
      have hsplit' : data ++ (chunk :: chunks).flatten =
          wireLines (lines ++ lines') ++ (rest ++ chunks.flatten) := by
        rw [List.flatten_cons, ← List.append_assoc, hsplit, List.append_assoc]
      have hcap := (takeLines_spec hlines').2
      rw [← hcap] at hfits
      have hlen := congrArg List.length hsplit
      rw [hstored]
      generalize feedLoop codecs ((b.extend chunk).live.length + 1)
        { f with buffer := b.extend chunk } = result at hstops
      obtain ⟨_, q⟩ := result
      cases hstops with
      | @waits b' hb' hopen =>
        have hopenLine : openLine (data ++ chunk) = rest := by
          rw [hsplit]
          exact openLine_wireLines hall hopen
        have hactive' : ¬ (g.state = .done ∨ g.state = .error) := by
          rcases (takeLines_spec hlines').1 with ⟨-, rfl⟩ | hs
          · exact hactive
          · simp [hs]
        obtain ⟨more, g', rest', hg', hall', hmore, hdata', hends⟩ :=
          ih hg hall hactive' (hb'.trans hopenLine.symm) (by rw [hopenLine]; exact hsplit)
        have hcap' := (takeLines_spec hg').2.trans (takeLines_spec hg).2.symm
        refine ⟨lines' ++ more, g', rest', ?_, ?_, ?_, ?_, ?_⟩
        · rw [← List.append_assoc]
          exact hg'
        · rw [← List.append_assoc]
          exact hall'
        · rw [hmore]
        · rw [← List.append_assoc, ← hdata', List.append_assoc, List.flatten_cons]
        · rw [← List.append_assoc]
          exact hends.cons (by rw [hcap']; exact hfits)
      | @blank b' tail htail hs =>
        have hterminal := @finalize_terminal codecs { g with buffer := b' }
        refine ⟨lines', g, rest ++ chunks.flatten, hg, hall, ?_, hsplit', ?_⟩
        · rw [storedLines_of_terminal codecs hterminal, List.append_nil]
        · rw [feedAll_of_terminal codecs hterminal]
          refine .blank (by rw [htail, List.append_assoc]) hs ⟨fun _ => hfits, passes_of_le ?_ _⟩
          rw [hlen, htail]
          simp only [List.length_append]
          omega
      | refused htail hline hblank hnone herror =>
        refine ⟨lines', g, rest ++ chunks.flatten, hg, hall, ?_, hsplit', ?_⟩
        · rw [storedLines_of_terminal codecs (.inr herror), List.append_nil]
        · rw [feedAll_of_terminal codecs (.inr herror)]
          refine .refused (by rw [htail, List.append_assoc]) hline hblank hnone
            ⟨fun _ => hfits, passes_of_le ?_ _⟩ herror
          rw [hlen, List.length_append]
          omega
    · have hover : (b.extend chunk).live.length > f.maxHeaderBytes := by
        rw [hlive, List.length_append]
        omega
      have herror : (fail { f with buffer := b.extend chunk }
          s!"handshake exceeded max_header_bytes={f.maxHeaderBytes}").2.state = .error := rfl
      rw [if_pos hover, if_pos hover, storedLines_of_terminal codecs (.inr herror),
        feedAll_of_terminal codecs (.inr herror)]
      have hlen := congrArg List.length hdata
      rw [List.length_append] at hlen
      refine ⟨[], f, openLine data ++ (chunk ++ chunks.flatten), ?_, ?_, rfl, ?_, ?_⟩
      · rw [List.append_nil]
        exact hf
      · rw [List.append_nil]
        exact hlines
      · rw [List.append_nil, hstream, hlive, List.append_assoc]
      · rw [List.append_nil]
        refine .tooLong rfl (unbroken_openLine data) (passes_of_le (by omega) _) ?_ herror
        intro n hn hpasses
        rw [List.length_append] at hn
        exact hfits (hpasses.1 (by omega))

/-- What is wrong with a header block, if anything is. -/
def problem (codecs : Codecs) (p : HandshakeParser) : Option String :=
  match p.role with
  | .request => p.requestProblem codecs
  | .response expectedAccept => p.responseProblem codecs expectedAccept

/-- A header block with which nothing is wrong is accepted. -/
lemma finalize_eq (p : HandshakeParser) :
    p.finalize codecs =
      match p.problem codecs with
      | some message => p.fail message
      | none => (.ok (), p.commitDone) := rfl

/-- Nothing in the buffer makes a header block wrong. -/
lemma problem_buffer (b : LiveBuffer UInt8) :
    ({ g with buffer := b } : HandshakeParser).problem codecs = g.problem codecs := by
  obtain ⟨role⟩ := g
  cases role <;> rfl

/-- A parser that accepts a header block is done, and one that is done has accepted it. -/
lemma finalize_done_iff (b : LiveBuffer UInt8) :
    (({ g with buffer := b } : HandshakeParser).finalize codecs).2.state = .done ↔
      (g.finalize codecs).1 = .ok () := by
  rw [finalize_eq, finalize_eq, problem_buffer]
  cases g.problem codecs with
  | some message => exact iff_of_false (by simp [fail]) (by simp [fail])
  | none => exact iff_of_true rfl rfl

section Run

variable {role : HandshakeRole} {cap : ℕ} {chunks : List (List UInt8)} {rest : List UInt8}

/-- A new parser waits for its first line. -/
lemma newCapped_waits (role : HandshakeRole) (cap : ℕ) :
    (newCapped role cap).state ≠ .headers ∧
      ¬ ((newCapped role cap).state = .done ∨ (newCapped role cap).state = .error) := by
  cases role <;> simp [newCapped, HandshakeRole.initialState]

/-- A run of a new parser. -/
theorem run_cases (codecs : Codecs) (role : HandshakeRole) (cap : ℕ) (chunks : List (List UInt8)) :
    ∃ g rest,
      (newCapped role cap).takeLines codecs ((newCapped role cap).storedLines codecs chunks) =
        some g ∧
      (∀ l ∈ (newCapped role cap).storedLines codecs chunks, Unbroken 13 10 l) ∧
      chunks.flatten = wireLines ((newCapped role cap).storedLines codecs chunks) ++ rest ∧
      Ends codecs g (wireLines ((newCapped role cap).storedLines codecs chunks)) rest [] chunks
        ((newCapped role cap).feedAll codecs chunks) := by
  obtain ⟨lines, g, rest, hg, hlines, hstored, hstream, hends⟩ :=
    @run_ends codecs (newCapped role cap) [] (newCapped role cap) {} [] chunks rfl
      (fun l hl => absurd hl List.not_mem_nil) (newCapped_waits role cap).2 rfl rfl
  have hstored' : (newCapped role cap).storedLines codecs chunks = lines := hstored
  rw [hstored']
  exact ⟨g, rest, hg, hlines, hstream, hends⟩

/-- A run has not ended before a line that the parser stores. -/
lemma Ends.not_next {stored l tail : List UInt8} {n : ℕ} {q : HandshakeParser}
    (h : Ends codecs g stored rest [] chunks p) (hnext : g.takeLine codecs l = some q)
    (hl : Unbroken 13 10 l) (hrest : rest = l ++ CRLF ++ tail)
    (hn : (stored ++ (l ++ CRLF)).length ≤ n) : ¬ Passes g.maxHeaderBytes n [] chunks := by
  intro hpasses
  cases h with
  | waits _ hopen _ _ => exact unbroken_ne_line hopen hrest
  | @tooLong line tail' _ hrest' hline _ hnot _ =>
    refine hnot n ?_ hpasses
    by_contra hlong
    simp only [List.length_append] at hlong hn
    obtain ⟨behind, hbehind⟩ : ∃ behind, line = l ++ CRLF ++ behind :=
      exists_of_length_le (hrest'.symm.trans hrest) (by rw [List.length_append]; omega)
    exact unbroken_ne_line hline hbehind
  | blank hrest' hs _ =>
    obtain ⟨rfl, -⟩ := line_unique hl unbroken_nil (hrest.symm.trans hrest')
    exact (takeLine_eq_some hnext).1 ⟨hs, rfl⟩
  | refused hrest' hline _ hnone _ _ =>
    obtain ⟨rfl, -⟩ := line_unique hl hline (hrest.symm.trans hrest')
    rw [hnone] at hnext
    cases hnext

/-- A run has not ended before a blank line that the parser accepts. -/
lemma Ends.not_blank {stored tail : List UInt8} {n : ℕ}
    (h : Ends codecs g stored rest [] chunks p) (hs : g.state = .headers)
    (hok : (g.finalize codecs).1 = .ok ()) (hrest : rest = CRLF ++ tail)
    (hn : (stored ++ CRLF).length ≤ n) (hpasses : Passes g.maxHeaderBytes n [] chunks) :
    p.state = .done := by
  cases h with
  | waits _ hopen _ _ => exact (@unbroken_ne_line _ [] _ hopen hrest).elim
  | @tooLong line tail' _ hrest' hline _ hnot _ =>
    refine (hnot n ?_ hpasses).elim
    by_contra hlong
    simp only [List.length_append] at hlong hn
    obtain ⟨behind, hbehind⟩ : ∃ behind, line = CRLF ++ behind :=
      exists_of_length_le (hrest'.symm.trans hrest) (by omega)
    exact @unbroken_ne_line _ [] _ hline hbehind
  | blank _ _ _ => exact (finalize_done_iff _).mpr hok
  | refused hrest' hline hblank _ _ _ =>
    obtain ⟨rfl, -⟩ := line_unique unbroken_nil hline (hrest.symm.trans hrest')
    exact (hblank ⟨hs, rfl⟩).elim

/-- A run that is done has ended at the blank line. -/
lemma Ends.of_done {stored data : List UInt8} (h : Ends codecs g stored rest data chunks p)
    (hdone : p.state = .done) :
    (∃ tail, rest = CRLF ++ tail) ∧ g.state = .headers ∧ (g.finalize codecs).1 = .ok () ∧
      Passes g.maxHeaderBytes (stored ++ CRLF).length data chunks := by
  cases h with
  | waits _ _ hactive _ => exact absurd (.inl hdone) hactive
  | tooLong _ _ _ _ herror => exact absurd (herror.symm.trans hdone) (by decide)
  | blank hrest hs hpasses => exact ⟨⟨_, hrest⟩, hs, (finalize_done_iff _).mp hdone, hpasses⟩
  | refused _ _ _ _ _ herror => exact absurd (herror.symm.trans hdone) (by decide)

/-- The chunks of what has been stored have passed. -/
lemma Ends.passes {stored data : List UInt8} (h : Ends codecs g stored rest data chunks p) :
    Passes g.maxHeaderBytes stored.length data chunks := by
  cases h with
  | waits _ _ _ hpasses => exact hpasses _
  | tooLong _ _ hpasses _ _ => exact hpasses
  | blank _ _ hpasses => exact hpasses.mono (by rw [List.length_append]; omega)
  | refused _ _ _ _ hpasses _ => exact hpasses

/-- **What a parser agrees to it has stored or accepted**, if no chunk was refused for its length.
-/
lemma stored_of_passes {message : List UInt8} (hmessage : Agreeable codecs role cap message)
    (hpre : message <+: chunks.flatten) (hpasses : Passes cap message.length [] chunks) :
    message.length ≤ (wireLines ((newCapped role cap).storedLines codecs chunks)).length ∨
      ((newCapped role cap).feedAll codecs chunks).state = .done ∧ HeaderBlock message := by
  obtain ⟨g, rest, hg, hunbroken, hstream, hends⟩ := run_cases codecs role cap chunks
  have hfirst := (newCapped_waits role cap).1
  have hcap : g.maxHeaderBytes = cap := (takeLines_spec hg).2
  obtain ⟨tail, htail⟩ := hpre
  generalize (newCapped role cap).storedLines codecs chunks = stored at *
  rw [← hcap] at hpasses
  -- a run does not end before a line of the message
  have hnext : ∀ {l : List UInt8} {more : List (List UInt8)} {f : HandshakeParser}
      {behind : List UInt8}, (newCapped role cap).takeLines codecs (stored ++ l :: more) = some f →
      (∀ l' ∈ stored ++ l :: more, Unbroken 13 10 l') →
      chunks.flatten = wireLines (stored ++ l :: more) ++ behind →
      (wireLines (stored ++ l :: more)).length ≤ message.length → False := by
    intro l more f behind hf hl hbehind hlen
    rw [takeLines_append, hg, Option.bind_some, takeLines_cons] at hf
    obtain ⟨q, hq, -⟩ := Option.bind_eq_some_iff.mp hf
    rw [hstream, wireLines_append, List.append_assoc] at hbehind
    have hrest := List.append_cancel_left hbehind
    rw [wireLines_cons] at hrest
    rw [wireLines_append, ← List.append_nil (wireLines (l :: more)), wireLines_cons] at hlen
    refine hends.not_next hq (hl l (by simp)) hrest ?_ hpasses
    simp only [List.length_append] at hlen ⊢
    omega
  cases hmessage with
  | @lines ls f hf hl =>
    rcases wireLines_compare hl hunbroken (htail.trans hstream) with ⟨more, rfl⟩ | ⟨l, more, rfl⟩
    · left
      rw [wireLines_append, List.length_append]
      omega
    · exact (hnext hf hl htail.symm le_rfl).elim
  | @block ls f hf hl hs hok =>
    rw [List.append_assoc] at htail
    rcases wireLines_compare hl hunbroken (htail.trans hstream) with ⟨more, rfl⟩ | ⟨l, more, rfl⟩
    · rw [hstream, wireLines_append, List.append_assoc] at htail
      have hrest := List.append_cancel_left htail
      cases more with
      | nil =>
        rw [List.append_nil] at hends hg
        obtain rfl := Option.some.inj (hf.symm.trans hg)
        exact .inr ⟨hends.not_blank hs hok hrest.symm le_rfl hpasses,
          headerBlock_of_takeLines hfirst hf hs hl⟩
      | cons l more =>
        rw [wireLines_cons] at hrest
        rw [takeLines_append, hf, Option.bind_some, takeLines_cons] at hg
        obtain ⟨q, hq, -⟩ := Option.bind_eq_some_iff.mp hg
        obtain ⟨rfl, -⟩ := line_unique unbroken_nil (hunbroken l (by simp)) hrest
        exact ((takeLine_eq_some hq).1 ⟨hs, rfl⟩).elim
    · exact (hnext hf hl htail.symm (by rw [List.length_append]; omega)).elim

/-- A parser that is done has accepted the lines that it stored, and the blank line. -/
lemma block_of_done (hdone : ((newCapped role cap).feedAll codecs chunks).state = .done) :
    let block := wireLines ((newCapped role cap).storedLines codecs chunks) ++ CRLF
    HeaderBlock block ∧ block <+: chunks.flatten ∧ Agreeable codecs role cap block ∧
      Passes cap block.length [] chunks := by
  obtain ⟨g, rest, hg, hunbroken, hstream, hends⟩ := run_cases codecs role cap chunks
  have hfirst := (newCapped_waits role cap).1
  have hcap : g.maxHeaderBytes = cap := (takeLines_spec hg).2
  obtain ⟨⟨tail, hrest⟩, hs, hok, hpasses⟩ := hends.of_done hdone
  refine ⟨headerBlock_of_takeLines hfirst hg hs hunbroken, ⟨tail, ?_⟩,
    .block hg hunbroken hs hok, hcap ▸ hpasses⟩
  rw [List.append_assoc, ← hrest, hstream]

/-- A parser to which a header block was fed is done or has failed. -/
lemma terminal_of_block {block : List UInt8} (hblock : HeaderBlock block)
    (hpre : block <+: chunks.flatten) :
    ((newCapped role cap).feedAll codecs chunks).state = .done ∨
      ((newCapped role cap).feedAll codecs chunks).state = .error := by
  obtain ⟨g, rest, hg, hunbroken, hstream, hends⟩ := run_cases codecs role cap chunks
  obtain ⟨first, headers, hfirst, hheaders, rfl⟩ := hblock
  obtain ⟨tail, htail⟩ := hpre
  rw [List.append_assoc] at htail
  have hall : ∀ l ∈ first :: headers, Unbroken 13 10 l := by
    rintro l (_ | ⟨_, hl⟩)
    · exact hfirst
    · exact (hheaders l hl).1
  generalize (newCapped role cap).feedAll codecs chunks = p at *
  cases hends with
  | waits _ hopen _ _ =>
    exfalso
    generalize (newCapped role cap).storedLines codecs chunks = stored at *
    have heq := htail.trans hstream
    rcases wireLines_compare hall hunbroken heq with ⟨more, rfl⟩ | ⟨l, more, hmore⟩
    · rw [wireLines_append, List.append_assoc] at heq
      have hrest := List.append_cancel_left heq
      cases more with
      | nil => exact @unbroken_ne_line _ [] _ hopen hrest.symm
      | cons l more =>
        rw [wireLines_cons] at hrest
        obtain ⟨rfl, -⟩ := line_unique unbroken_nil (hunbroken l (by simp)) hrest
        rw [List.cons_append, takeLines_cons] at hg
        obtain ⟨q, hq, hg'⟩ := Option.bind_eq_some_iff.mp hg
        exact takeLines_ne_nil (takeLine_eq_some hq).2.2.1 hg' [] (by simp) rfl
    · rw [hmore, wireLines_append, List.append_assoc] at heq
      have hrest := List.append_cancel_left heq
      rw [wireLines_cons] at hrest
      exact unbroken_ne_line hopen hrest.symm
  | tooLong _ _ _ _ herror => exact .inr herror
  | blank _ _ _ => exact finalize_terminal _
  | refused _ _ _ _ _ herror => exact .inr herror

/-- **When the cap bounds what is stored**: every longer beginning of the stream that the parser
does not object to has a chunk that is too long together with the line that is open when it comes,
no later than the chunk that completes it.

**Proof sketch.** A run stores what the parser agrees to, as far as no chunk is refused for its
length, and the chunks of what it has stored, or of the block it has accepted, have not been
refused. -/
theorem bounded_iff (codecs : Codecs) (role : HandshakeRole) (cap : ℕ)
    (chunks : List (List UInt8)) :
    Bounded codecs role cap chunks ↔
      ∀ message, Agreeable codecs role cap message → message <+: chunks.flatten →
        cap < message.length → ¬ Passes cap message.length [] chunks := by
  constructor
  · intro h message hmessage hpre hlong hpasses
    -- no block longer than the cap is accepted
    have hnot : ∀ block, HeaderBlock block → block <+: chunks.flatten → cap < block.length →
        ((newCapped role cap).feedAll codecs chunks).state ≠ .done := by
      intro block hblock hblockPre hlen hdone
      obtain ⟨block', hblock', hpre', hlen'⟩ := h.accepts hdone
      rw [headerBlock_unique hblock hblock' hblockPre hpre'] at hlen
      omega
    rcases stored_of_passes hmessage hpre hpasses with hle | ⟨hdone, hblock⟩
    · by_cases hdone : ((newCapped role cap).feedAll codecs chunks).state = .done
      · obtain ⟨hblock, hpre', -, -⟩ := block_of_done hdone
        exact hnot _ hblock hpre' (by rw [List.length_append]; omega) hdone
      · have := h.stores hdone
        omega
    · exact hnot message hblock hpre hlong hdone
  · intro h
    have haccepts : ((newCapped role cap).feedAll codecs chunks).state = .done →
        ∃ block, HeaderBlock block ∧ block <+: chunks.flatten ∧ block.length ≤ cap := by
      intro hdone
      obtain ⟨hblock, hpre, hagreeable, hpasses⟩ := block_of_done hdone
      refine ⟨_, hblock, hpre, ?_⟩
      by_contra hlong
      exact h _ hagreeable hpre (by omega) hpasses
    refine ⟨haccepts, fun _ => ?_, fun block hblock hpre hlong => ?_⟩
    · obtain ⟨g, rest, hg, hunbroken, hstream, hends⟩ := run_cases codecs role cap chunks
      have hcap : g.maxHeaderBytes = cap := (takeLines_spec hg).2
      by_contra hlong
      exact h _ (.lines hg hunbroken) ⟨rest, hstream.symm⟩ (by omega) (hcap ▸ hends.passes)
    · rcases terminal_of_block hblock hpre with hdone | herror
      · obtain ⟨block', hblock', hpre', hlen'⟩ := haccepts hdone
        rw [headerBlock_unique hblock hblock' hpre hpre'] at hlong
        omega
      · exact herror

end Run

/-- Lines as they arrive, each in a chunk of its own. -/
def lineChunks (lines : List String) : List (List UInt8) :=
  lines.map fun line => line.toList.map asciiByte ++ CRLF

/-- A request of 140 and a response of 129 bytes are accepted with a cap of 64, line by line. -/
theorem unbounded_line_by_line :
    ¬ Bounded sampleCodecs .request 64 (lineChunks ["GET / HTTP/1.1", "Host: h",
        "Upgrade: websocket", "Connection: Upgrade",
        "Sec-WebSocket-Key: dGhlIHNhbXBsZSBub25jZQ==", "Sec-WebSocket-Version: 13", ""]) ∧
      ¬ Bounded sampleCodecs (.response SAMPLE_TOKEN) 64 (lineChunks
        ["HTTP/1.1 101 Switching Protocols", "Upgrade: websocket", "Connection: Upgrade",
          "Sec-WebSocket-Accept: s3pPLMBiTxaQ9kYGzzhZRbK+xOo=", ""]) := by
  constructor
  · intro h
    have hdone : ((newCapped .request 64).feedAll sampleCodecs (lineChunks ["GET / HTTP/1.1",
        "Host: h", "Upgrade: websocket", "Connection: Upgrade",
        "Sec-WebSocket-Key: dGhlIHNhbXBsZSBub25jZQ==", "Sec-WebSocket-Version: 13", ""])).state =
          .done := by decide +kernel
    obtain ⟨block, hblock, hpre, hlen⟩ := h.accepts hdone
    obtain ⟨hstored, hpre', -⟩ := block_of_done hdone
    rw [headerBlock_unique hblock hstored hpre hpre'] at hlen
    revert hlen
    decide +kernel
  · intro h
    have hdone : ((newCapped (.response SAMPLE_TOKEN) 64).feedAll sampleCodecs (lineChunks
        ["HTTP/1.1 101 Switching Protocols", "Upgrade: websocket", "Connection: Upgrade",
          "Sec-WebSocket-Accept: s3pPLMBiTxaQ9kYGzzhZRbK+xOo=", ""])).state = .done := by
      decide +kernel
    obtain ⟨block, hblock, hpre, hlen⟩ := h.accepts hdone
    obtain ⟨hstored, hpre', -⟩ := block_of_done hdone
    rw [headerBlock_unique hblock hstored hpre hpre'] at hlen
    revert hlen
    decide +kernel

end HandshakeParser

end ChuMicro.Websockets
