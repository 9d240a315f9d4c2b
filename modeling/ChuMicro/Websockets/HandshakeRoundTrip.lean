import ChuMicro.Lib.Lines
import ChuMicro.Websockets.Handshake

/-!
# The opening handshake in pieces

What the two encoders of the opening handshake write is what the two parsers read, however the bytes
are cut. The one thing that a cut decides is the cap on header bytes: `feed` compares all bytes that
wait to be read with it, those behind the blank line included.

## Main definitions

* `Websockets.HandshakeParser.feedAll` — a parser is fed some chunks.
* `Websockets.Fits` — no chunk of a message is refused for its length.

## Main results

* `Websockets.HandshakeParser.feedAll_reads` — a parser reads a message line by line.
* `Websockets.handshake_iff` — a handshake succeeds if and only if its chunks fit.
-/

namespace ChuMicro.Websockets

open Buffers Http

/-- The line that has not ended at the end of `data`. -/
def openLine (data : List UInt8) : List UInt8 := Buffers.openLine 13 10 data

/-- Some lines as bytes. -/
def wireLines (lines : List (List UInt8)) : List UInt8 := lines.flatMap (· ++ CRLF)

/-- The first of some lines. -/
lemma wireLines_cons (line : List UInt8) (lines : List (List UInt8)) (rest : List UInt8) :
    wireLines (line :: lines) ++ rest = line ++ CRLF ++ (wireLines lines ++ rest) := by
  simp only [wireLines, List.flatMap_cons, List.append_assoc]

/-- **No chunk is refused for its length** of a message of `length` bytes of which `data` have been
fed: each chunk fits the cap together with the open line, and nothing follows the chunk that
completes the message. -/
def Fits (cap length : ℕ) : List UInt8 → List (List UInt8) → Prop
  | _, [] => True
  | data, chunk :: chunks =>
    (if length ≤ data.length then chunk = [] else (openLine data).length + chunk.length ≤ cap) ∧
      Fits cap length (data ++ chunk) chunks

/-- Whether the chunks fit can be computed. -/
instance decidableFits (cap length : ℕ) :
    ∀ (data : List UInt8) (chunks : List (List UInt8)), Decidable (Fits cap length data chunks)
  | _, [] => .isTrue trivial
  | data, chunk :: chunks =>
    have := decidableFits cap length (data ++ chunk) chunks
    inferInstanceAs (Decidable ((if length ≤ data.length then chunk = [] else
      (openLine data).length + chunk.length ≤ cap) ∧ Fits cap length (data ++ chunk) chunks))

variable {data : List UInt8} {text : Str}

/-- Behind the message only empty chunks are not too much. -/
lemma fits_of_le {cap length : ℕ} (h : length ≤ data.length) (chunks : List (List UInt8)) :
    Fits cap length data chunks ↔ chunks.flatten = [] := by
  induction chunks generalizing data with
  | nil => simp [Fits]
  | cons chunk chunks ih =>
    rw [Fits, if_pos h, ih (by rw [List.length_append]; omega), List.flatten_cons,
      List.append_eq_nil_iff]

open HandshakeParser LiveBuffer

namespace HandshakeParser

variable {codecs : Codecs} {p f g : HandshakeParser} {line : List UInt8} {lines : List (List UInt8)}

/-! ## One line -/

/-- A line that does not end the message is read. -/
def readLine (codecs : Codecs) (p : HandshakeParser) (line : List UInt8) :
    Except Exn Unit × HandshakeParser :=
  if p.state = .headers then p.parseHeaderLine codecs line else p.parseFirstLine codecs line

/-- The first line of a parser that waits for it. -/
lemma readLine_first (h : p.state ≠ .headers) (line : List UInt8) :
    p.readLine codecs line = p.parseFirstLine codecs line := if_neg h

/-- A header line. -/
lemma readLine_header (h : p.state = .headers) (line : List UInt8) :
    p.readLine codecs line = p.parseHeaderLine codecs line := if_pos h

/-- What a line is read as does not depend on the buffer. -/
lemma readLine_buffer (codecs : Codecs) (p : HandshakeParser) (b : LiveBuffer UInt8)
    (line : List UInt8) :
    ({ p with buffer := b } : HandshakeParser).readLine codecs line =
      ((p.readLine codecs line).1, { (p.readLine codecs line).2 with buffer := b }) := by
  have hheader : ({ p with buffer := b } : HandshakeParser).parseHeaderLine codecs line =
      ((p.parseHeaderLine codecs line).1,
        { (p.parseHeaderLine codecs line).2 with buffer := b }) := by
    unfold parseHeaderLine
    dsimp only
    split
    · rfl
    · split_ifs <;> rfl
  have hstatus : ∀ text, ({ p with buffer := b } : HandshakeParser).parseStatusLine text =
      ((p.parseStatusLine text).1, { (p.parseStatusLine text).2 with buffer := b }) := by
    intro text
    unfold parseStatusLine
    split
    · dsimp only
      split
      · rfl
      · split_ifs <;> rfl
    · rfl
  have hrequest : ∀ text, ({ p with buffer := b } : HandshakeParser).parseRequestLine text =
      ((p.parseRequestLine text).1, { (p.parseRequestLine text).2 with buffer := b }) := by
    intro text
    unfold parseRequestLine
    split
    · dsimp only
      split_ifs <;> rfl
    · rfl
  have hfirst : ({ p with buffer := b } : HandshakeParser).parseFirstLine codecs line =
      ((p.parseFirstLine codecs line).1,
        { (p.parseFirstLine codecs line).2 with buffer := b }) := by
    obtain ⟨role⟩ := p
    unfold parseFirstLine
    cases decodeAscii line <;> cases role
    · rfl
    · rfl
    · exact hrequest _
    · exact hstatus _
  unfold readLine
  dsimp only
  split_ifs
  · exact hheader
  · exact hfirst

/-- A line that is read keeps the cap, and headers come next. -/
lemma readLine_ok (h : (p.readLine codecs line).1 = .ok ()) :
    (p.readLine codecs line).2.state = .headers ∧
      (p.readLine codecs line).2.maxHeaderBytes = p.maxHeaderBytes := by
  revert h
  unfold readLine
  split_ifs with hs
  · unfold parseHeaderLine
    dsimp only
    split
    · exact fun h => by cases h
    · split_ifs
      · exact fun h => by cases h
      · exact fun _ => ⟨hs, rfl⟩
  · unfold parseFirstLine
    split
    · unfold parseRequestLine
      split
      · dsimp only
        split_ifs
        · exact fun h => by cases h
        · exact fun _ => ⟨rfl, rfl⟩
        · exact fun h => by cases h
      · exact fun h => by cases h
    · unfold parseStatusLine
      split
      · dsimp only
        split
        · exact fun h => by cases h
        · split_ifs
          · exact fun h => by cases h
          · exact fun _ => ⟨rfl, rfl⟩
      · exact fun h => by cases h
    · exact fun h => by cases h
    · exact fun h => by cases h

/-! ## The loop -/

/-- The loop waits for the end of a line. -/
lemma feedLoop_wait (rounds : ℕ) (h : findSlice CRLF p.buffer.live = none) :
    feedLoop codecs (rounds + 1) p = (.ok (), p) := by
  rw [feedLoop, liveFind_eq, h]

/-- The loop ends at a blank line. -/
lemma feedLoop_found_blank {index : ℕ} (rounds : ℕ)
    (hfind : findSlice CRLF p.buffer.live = some index)
    (hblank : p.state = .headers ∧ p.buffer.live.take index = []) :
    feedLoop codecs (rounds + 1) p =
      ({ p with buffer := p.buffer.consume (index + 2) } : HandshakeParser).finalize codecs := by
  rw [feedLoop, liveFind_eq, hfind]
  dsimp only
  rw [liveSlice_zero, if_pos hblank]

/-- The loop reads any other line, and goes on unless that fails. -/
lemma feedLoop_found {index : ℕ} (rounds : ℕ) (hfind : findSlice CRLF p.buffer.live = some index)
    (hblank : ¬ (p.state = .headers ∧ p.buffer.live.take index = [])) :
    let read := ({ p with buffer := p.buffer.consume (index + 2) } : HandshakeParser).readLine
      codecs (p.buffer.live.take index)
    feedLoop codecs (rounds + 1) p =
      match read.1 with
      | .error e => (.error e, read.2)
      | .ok () => feedLoop codecs rounds read.2 := by
  rw [feedLoop, liveFind_eq, hfind]
  dsimp only
  rw [liveSlice_zero, if_neg hblank]
  rfl

variable {b : LiveBuffer UInt8} {rest l tail : List UInt8}

/-- The loop reads the first line of a buffer. -/
lemma feedLoop_line (codecs : Codecs) (rounds : ℕ) (hline : Unbroken 13 10 line)
    (hlive : b.live = line ++ CRLF ++ rest) (hblank : ¬ (f.state = .headers ∧ line = []))
    (hread : (f.readLine codecs line).1 = .ok ()) :
    ∃ b', feedLoop codecs (rounds + 1) { f with buffer := b } =
      feedLoop codecs rounds { (f.readLine codecs line).2 with buffer := b' } ∧ b'.live = rest := by
  have hfind : findSlice CRLF b.live = some line.length := by
    rw [hlive]
    exact findSlice_unbroken_append (by decide) hline rest
  have htake : b.live.take line.length = line := by
    rw [hlive, List.append_assoc, List.take_left]
  refine ⟨b.consume (line.length + 2), ?_, ?_⟩
  · rw [feedLoop_found rounds hfind (by rw [htake]; exact hblank), htake,
      readLine_buffer codecs f (b.consume (line.length + 2)) line, hread]
  · rw [live_consume, hlive]
    exact List.drop_left' (by simp [CRLF])

/-- The loop comes to the end of a message. -/
lemma feedLoop_blank (codecs : Codecs) (rounds : ℕ) (hlive : b.live = CRLF ++ rest)
    (hs : f.state = .headers) :
    ∃ b', feedLoop codecs (rounds + 1) { f with buffer := b } =
      ({ f with buffer := b' } : HandshakeParser).finalize codecs ∧ b'.live = rest := by
  have hfind : findSlice CRLF b.live = some 0 := by
    rw [hlive]
    exact findSlice_unbroken_append (by decide) unbroken_nil rest
  refine ⟨b.consume 2, feedLoop_found_blank rounds hfind ⟨hs, rfl⟩, ?_⟩
  rw [live_consume, hlive]
  rfl

/-! ## The lines of a message -/

/-- From `f` a parser reads some lines and comes to `g`, where the blank line is due. -/
inductive Reads (codecs : Codecs) :
    HandshakeParser → List (List UInt8) → HandshakeParser → Prop
  | nil {f : HandshakeParser} : f.state = .headers → Reads codecs f [] f
  | cons {f g : HandshakeParser} {line : List UInt8} {lines : List (List UInt8)} :
    Unbroken 13 10 line → ¬ (f.state = .headers ∧ line = []) →
    (f.readLine codecs line).1 = .ok () → Reads codecs (f.readLine codecs line).2 lines g →
    Reads codecs f (line :: lines) g

/-- A buffer that ends before a line end is unbroken. -/
lemma unbroken_of_short {rest' : List UInt8} (hline : Unbroken 13 10 line)
    (hstream : l ++ rest = line ++ CRLF ++ rest') (hshort : l.length < (line ++ CRLF).length) :
    Unbroken 13 10 l := by
  have htake : l = (line ++ CRLF ++ rest').take l.length := by rw [← hstream, List.take_left]
  rw [List.length_append] at hshort
  rw [← findSlice_eq_none_iff_unbroken, htake]
  exact findSlice_take_eq_none (findSlice_unbroken_append (by decide) hline rest') hshort

/-- A buffer as long as the beginning of a stream begins with it. -/
lemma exists_of_length_le {message : List UInt8} (hstream : l ++ rest = message ++ tail)
    (hle : message.length ≤ l.length) : ∃ behind, l = message ++ behind := by
  have hprefix : message <+: l :=
    List.prefix_of_prefix_length_le ⟨tail, hstream.symm⟩ ⟨rest, rfl⟩ hle
  exact hprefix.imp fun _ h => h.symm

/-- A buffer with more behind it than there is behind the message ends inside the message. -/
lemma length_lt_of_rest {message : List UInt8} (hstream : l ++ rest = message ++ tail)
    (hrest : tail.length < rest.length) : l.length < message.length := by
  have hlen := congrArg List.length hstream
  simp only [List.length_append] at hlen
  omega

/-- **The loop waits inside of a message** with the open line in the buffer.

**Proof sketch.** Induction on the lines. If the first of them has not ended the loop waits at once;
otherwise it is read and what follows it is the rest of the buffer. -/
lemma feedLoop_within (h : Reads codecs f lines g) {rounds : ℕ}
    (hstream : b.live ++ rest = wireLines lines ++ (CRLF ++ tail))
    (hrest : tail.length < rest.length) (hrounds : b.live.length < rounds) :
    ∃ f' left b',
      feedLoop codecs rounds { f with buffer := b } = (.ok (), { f' with buffer := b' }) ∧
      Reads codecs f' left g ∧ b'.live = openLine b.live ∧
      b'.live ++ rest = wireLines left ++ (CRLF ++ tail) ∧
      (f'.state = f.state ∨ f'.state = .headers) ∧ f'.maxHeaderBytes = f.maxHeaderBytes := by
  obtain ⟨rounds, rfl⟩ : ∃ n, rounds = n + 1 := ⟨rounds - 1, by omega⟩
  induction h generalizing b rounds with
  | @nil f hs =>
    have hblank : b.live ++ rest = CRLF ++ tail := hstream
    have hopen := unbroken_of_short unbroken_nil hblank (length_lt_of_rest hblank hrest)
    refine ⟨f, [], b, feedLoop_wait rounds (findSlice_eq_none_iff_unbroken.mpr hopen), .nil hs,
      (openLine_of_unbroken hopen).symm, hstream, .inl rfl, rfl⟩
  | @cons f g line lines hline hblank hread hreads ih =>
    rw [wireLines_cons] at hstream
    by_cases hshort : b.live.length < (line ++ CRLF).length
    · -- the line has not ended
      have hopen := unbroken_of_short hline hstream hshort
      refine ⟨f, line :: lines, b, feedLoop_wait rounds (findSlice_eq_none_iff_unbroken.mpr hopen),
        .cons hline hblank hread hreads, (openLine_of_unbroken hopen).symm, ?_, .inl rfl, rfl⟩
      rw [wireLines_cons]
      exact hstream
    · obtain ⟨behind, hlive⟩ : ∃ behind, b.live = line ++ CRLF ++ behind :=
        exists_of_length_le hstream (by omega)
      obtain ⟨b', hloop, hb'⟩ := feedLoop_line codecs rounds hline hlive hblank hread
      have hlen := congrArg List.length hlive
      simp only [List.length_append] at hlen
      have hcrlf : CRLF.length = 2 := rfl
      obtain ⟨n, rfl⟩ : ∃ n, rounds = n + 1 := ⟨rounds - 1, by omega⟩
      rw [hlive, List.append_assoc _ behind, List.append_cancel_left_eq, ← hb'] at hstream
      obtain ⟨f', left, b'', hloop', hreads', hb'', hstream', hs, hcap⟩ :=
        ih hstream n (by rw [hb']; omega)
      have hnext := readLine_ok hread
      refine ⟨f', left, b'', hloop.trans hloop', hreads', ?_, hstream', ?_, hcap.trans hnext.2⟩
      · rw [hb'', hb', hlive]
        exact (openLine_line_append (by decide) hline behind).symm
      · rw [hnext.1, or_self] at hs
        exact .inr hs

/-- **The loop ends behind a message** with what follows it in the buffer.

**Proof sketch.** Induction on the lines, all of which are in the buffer. -/
lemma feedLoop_behind (h : Reads codecs f lines g) {rounds : ℕ}
    (hstream : b.live ++ rest = wireLines lines ++ (CRLF ++ tail))
    (hrest : rest.length ≤ tail.length) (hrounds : b.live.length < rounds) :
    ∃ b', feedLoop codecs rounds { f with buffer := b } =
      ({ g with buffer := b' } : HandshakeParser).finalize codecs ∧ b'.live ++ rest = tail := by
  obtain ⟨rounds, rfl⟩ : ∃ n, rounds = n + 1 := ⟨rounds - 1, by omega⟩
  have hlen := congrArg List.length hstream
  simp only [List.length_append] at hlen
  induction h generalizing b rounds with
  | @nil f hs =>
    have hblank : b.live ++ rest = CRLF ++ tail := hstream
    obtain ⟨behind, hlive⟩ : ∃ behind, b.live = CRLF ++ behind :=
      exists_of_length_le hblank (by omega)
    obtain ⟨b', hloop, hb'⟩ := feedLoop_blank codecs rounds hlive hs
    refine ⟨b', hloop, ?_⟩
    rw [hlive, List.append_assoc, List.append_cancel_left_eq] at hblank
    rw [hb', hblank]
  | @cons f g line lines hline hblank hread hreads ih =>
    rw [wireLines_cons] at hstream
    simp only [wireLines, List.flatMap_cons, List.length_append] at hlen
    obtain ⟨behind, hlive⟩ : ∃ behind, b.live = line ++ CRLF ++ behind :=
      exists_of_length_le hstream (by rw [List.length_append]; omega)
    obtain ⟨b', hloop, hb'⟩ := feedLoop_line codecs rounds hline hlive hblank hread
    have hlong := congrArg List.length hlive
    simp only [List.length_append] at hlong
    have hcrlf : CRLF.length = 2 := rfl
    obtain ⟨n, rfl⟩ : ∃ n, rounds = n + 1 := ⟨rounds - 1, by omega⟩
    rw [hlive, List.append_assoc _ behind, List.append_cancel_left_eq, ← hb'] at hstream
    obtain ⟨b'', hloop', hb''⟩ := ih hstream n (by rw [hb']; omega) (by
      rw [hb', wireLines]
      omega)
    exact ⟨b'', hloop.trans hloop', hb''⟩

/-! ## Chunks -/

/-- Feed chunks one after the other. A parser that raised stays in its error state. -/
def feedAll (codecs : Codecs) (p : HandshakeParser) (chunks : List (List UInt8)) :
    HandshakeParser :=
  chunks.foldl (fun p chunk => (p.feed codecs chunk).2) p

/-- A parser that is done or has failed stays as it is. -/
lemma feedAll_of_terminal (codecs : Codecs) (h : p.state = .done ∨ p.state = .error)
    (chunks : List (List UInt8)) : p.feedAll codecs chunks = p := by
  induction chunks with
  | nil => rfl
  | cons chunk chunks ih =>
    have hfeed : p.feed codecs chunk = (.ok (), p) := if_pos h
    rw [feedAll, List.foldl_cons, hfeed]
    exact ih

/-- Behind a message a parser is done or has failed. -/
lemma finalize_terminal (p : HandshakeParser) :
    (p.finalize codecs).2.state = .done ∨ (p.finalize codecs).2.state = .error := by
  unfold finalize
  dsimp only
  split
  · exact .inr rfl
  · exact .inl rfl

/-- A request parser that finds nothing wrong is done. -/
lemma finalize_request (hrole : p.role = .request) (h : p.requestProblem codecs = none) :
    p.finalize codecs = (.ok (), p.commitDone) := by
  rw [finalize, hrole]
  dsimp only
  rw [h]

/-- A response parser that finds nothing wrong is done. -/
lemma finalize_response {expectedAccept : Str} (hrole : p.role = .response expectedAccept)
    (h : p.responseProblem codecs expectedAccept = none) :
    p.finalize codecs = (.ok (), p.commitDone) := by
  rw [finalize, hrole]
  dsimp only
  rw [h]

/-- A response parser that finds something wrong fails. -/
lemma finalize_response_error {expectedAccept : Str} (hrole : p.role = .response expectedAccept)
    (h : p.responseProblem codecs expectedAccept ≠ none) :
    (p.finalize codecs).2.state = .error := by
  obtain ⟨message, hmessage⟩ := Option.ne_none_iff_exists'.mp h
  rw [finalize, hrole]
  dsimp only
  rw [hmessage]
  rfl

/-- Of a message with `tail` behind it that is read to `g`, `data` have been fed and `rest` not. -/
structure Waiting (codecs : Codecs) (g : HandshakeParser) (tail : List UInt8) (p : HandshakeParser)
    (data rest : List UInt8) : Prop where
  live : p.buffer.live = openLine data
  active : ¬ (p.state = .done ∨ p.state = .error)
  reads : ∃ f lines b, p = { f with buffer := b } ∧ Reads codecs f lines g ∧
    openLine data ++ rest = wireLines lines ++ (CRLF ++ tail)

namespace Waiting

variable {tail data rest chunk : List UInt8}

/-- A chunk that does not fit the cap with the open line is refused. -/
lemma feed_refused (h : Waiting codecs g tail p data rest)
    (hfits : p.maxHeaderBytes < (openLine data).length + chunk.length) :
    (p.feed codecs chunk).2.state = .error := by
  rw [feed, if_neg h.active]
  dsimp only
  rw [if_pos (by rw [liveLen_eq, live_extend, List.length_append, h.live]
                 exact hfits)]
  rfl

/-- A chunk that fits is read line by line. -/
lemma feed_eq (h : Waiting codecs g tail p data rest)
    (hfits : (openLine data).length + chunk.length ≤ p.maxHeaderBytes) :
    p.feed codecs chunk = feedLoop codecs ((openLine data ++ chunk).length + 1)
      { p with buffer := p.buffer.extend chunk } := by
  rw [feed, if_neg h.active]
  dsimp only
  rw [liveLen_eq, live_extend, h.live, if_neg (by
    rw [List.length_append]
    omega)]

/-- A chunk inside the message. -/
lemma feed_within (h : Waiting codecs g tail p data (chunk ++ rest))
    (hfits : (openLine data).length + chunk.length ≤ p.maxHeaderBytes)
    (hrest : tail.length < rest.length) :
    Waiting codecs g tail (p.feed codecs chunk).2 (data ++ chunk) rest ∧
      (p.feed codecs chunk).2.maxHeaderBytes = p.maxHeaderBytes := by
  obtain ⟨f, lines, b, hp, hreads, hstream⟩ := h.reads
  have hlive : (p.buffer.extend chunk).live = openLine data ++ chunk := by
    rw [live_extend, h.live]
  rw [← List.append_assoc, ← hlive] at hstream
  obtain ⟨f', left, b', hloop, hreads', hb', hstream', hs, hcap⟩ :=
    feedLoop_within hreads hstream hrest (Nat.lt_succ_self _)
  have hfeed : p.feed codecs chunk = (.ok (), { f' with buffer := b' }) := by
    rw [h.feed_eq hfits, ← hlive, ← hloop, hp]
  have hopen : b'.live = openLine (data ++ chunk) := by
    rw [hb', hlive]
    exact (openLine_append data chunk).symm
  rw [hfeed]
  refine ⟨⟨hopen, ?_, f', left, b', rfl, hreads', hopen ▸ hstream'⟩, ?_⟩
  · have hactive := h.active
    rw [hp] at hactive
    rcases hs with hs | hs
    · rw [← hs] at hactive
      exact hactive
    · simp [hs]
  · rw [hp]
    exact hcap

/-- The chunk that completes the message. -/
lemma feed_behind (h : Waiting codecs g tail p data (chunk ++ rest))
    (hfits : (openLine data).length + chunk.length ≤ p.maxHeaderBytes)
    (hrest : rest.length ≤ tail.length) :
    ∃ b, p.feed codecs chunk = ({ g with buffer := b } : HandshakeParser).finalize codecs ∧
      b.live ++ rest = tail := by
  obtain ⟨f, lines, b, hp, hreads, hstream⟩ := h.reads
  have hlive : (p.buffer.extend chunk).live = openLine data ++ chunk := by
    rw [live_extend, h.live]
  rw [← List.append_assoc, ← hlive] at hstream
  obtain ⟨b', hloop, hb'⟩ := feedLoop_behind hreads hstream hrest (Nat.lt_succ_self _)
  refine ⟨b', ?_, hb'⟩
  rw [h.feed_eq hfits, ← hlive, ← hloop, hp]

/-- **A parser reads a message in every cut whose chunks fit**, and only then keeps what follows.

**Proof sketch.** Induction on the chunks. While the message is not complete the parser waits, with
the open line in its buffer, unless a chunk is refused; the chunk that completes it brings the
parser to its end, and what is fed then is ignored. -/
lemma feedAll {chunks : List (List UInt8)} {length : ℕ}
    (h : Waiting codecs g tail p data chunks.flatten) (hrest : tail.length < chunks.flatten.length)
    (hlength : data.length + chunks.flatten.length = length + tail.length) :
    (p.feedAll codecs chunks).state = .error ∧ ¬ Fits p.maxHeaderBytes length data chunks ∨
      ∃ b more, p.feedAll codecs chunks =
          (({ g with buffer := b } : HandshakeParser).finalize codecs).2 ∧ b.live ++ more = tail ∧
        (Fits p.maxHeaderBytes length data chunks ↔ more = []) := by
  induction chunks generalizing p data with
  | nil =>
    rw [List.flatten_nil, List.length_nil] at hrest
    omega
  | cons chunk chunks ih =>
    rw [List.flatten_cons] at h hrest hlength
    rw [List.length_append] at hrest hlength
    rw [Fits, if_neg (by omega), feedAll, List.foldl_cons]
    by_cases hfits : (openLine data).length + chunk.length ≤ p.maxHeaderBytes
    · by_cases hwithin : tail.length < chunks.flatten.length
      · obtain ⟨hwaiting, hcap⟩ := h.feed_within hfits hwithin
        have hrun := ih hwaiting hwithin (by rw [List.length_append]; omega)
        rw [hcap] at hrun
        rw [and_iff_right hfits]
        exact hrun
      · obtain ⟨b, hfeed, hb⟩ := h.feed_behind hfits (by omega)
        refine .inr ⟨b, chunks.flatten, ?_, hb, ?_⟩
        · rw [hfeed]
          exact feedAll_of_terminal codecs (finalize_terminal _) chunks
        · rw [and_iff_right hfits, fits_of_le (by rw [List.length_append]; omega)]
    · have herror : (p.feed codecs chunk).2.state = .error := h.feed_refused (by omega)
      refine .inl ⟨?_, fun hall => hfits hall.1⟩
      have hsame := feedAll_of_terminal codecs (.inr herror) chunks
      rw [feedAll] at hsame
      rw [hsame, herror]

end Waiting

end HandshakeParser

/-! ## Text on one line -/

/-- Text with no CR LF in it. -/
def OneLine (text : Str) : Prop := Unbroken '\r' '\n' text

instance (text : Str) : Decidable (OneLine text) := inferInstanceAs (Decidable (Unbroken _ _ _))

/-- ASCII text on one line, as bytes. -/
lemma OneLine.unbroken (h : OneLine text) (hascii : IsAscii text) :
    Unbroken 13 10 (text.map asciiByte) := by
  refine (List.isChain_map asciiByte).mpr (List.IsChain.imp_of_mem_imp ?_ h)
  rintro c d hc hd hne ⟨hcr, hlf⟩
  exact hne ⟨asciiByte_inj (hascii c hc) (by decide) hcr,
    asciiByte_inj (hascii d hd) (by decide) hlf⟩

/-- Text without a CR is on one line. -/
lemma oneLine_of_notMem (h : '\r' ∉ text) : OneLine text := unbroken_of_notMem h

/-- A header whose line is read as the header of that name. -/
structure InjectionFree (p : Str × Str) : Prop where
  ne_nil : p.1 ≠ []
  notMem_colon : ':' ∉ p.1
  strip_eq : strip p.1 = p.1
  oneLine_name : OneLine p.1
  oneLine_value : OneLine p.2

/-- A value on one line under a name that can be read back. -/
lemma InjectionFree.of_name {name value : Str}
    (hname : name ≠ [] ∧ ':' ∉ name ∧ strip name = name ∧ OneLine name) (hvalue : OneLine value) :
    InjectionFree (name, value) :=
  ⟨hname.1, hname.2.1, hname.2.2.1, hname.2.2.2, hvalue⟩

/-- The line of such a header is one line. -/
lemma InjectionFree.oneLine {p : Str × Str} (h : InjectionFree p) : OneLine (headerText p) := by
  have hvalue : Unbroken '\r' '\n' (' ' :: p.2) :=
    Unbroken.append_cons unbroken_nil h.oneLine_value (by decide) (by decide)
  rw [headerText, List.append_assoc]
  exact Unbroken.append_cons h.oneLine_name hvalue (by decide) (by decide)

/-- What `asciiBytes` makes of text it does not refuse. -/
lemma asciiBytes_eq_ok (h : asciiBytes text = .ok data) :
    IsAscii text ∧ data = text.map asciiByte := by
  unfold asciiBytes liftPy at h
  cases henc : encodeAscii text with
  | error e => rw [henc] at h; cases h
  | ok data' =>
    rw [henc] at h
    cases h
    exact encodeAscii_eq_ok.mp henc

/-- Parts of ASCII text are ASCII. -/
lemma isAscii_append {text' : Str} : IsAscii (text ++ text') ↔ IsAscii text ∧ IsAscii text' := by
  simp only [IsAscii, List.mem_append, or_imp, forall_and]

/-! ## The messages, line by line -/

/-- The lines of some headers. -/
def headerBytes (headers : List (Str × Str)) : List (List UInt8) :=
  headers.map fun p => (headerText p).map asciiByte

/-- What the header lines of a message are. -/
lemma encodeHeaders_eq_ok {headers : List (Str × Str)} (h : encodeHeaders headers = .ok data) :
    data = wireLines (headerBytes headers) ++ CRLF ∧ ∀ p ∈ headers, IsAscii (headerText p) := by
  induction headers generalizing data with
  | nil =>
    cases h
    exact ⟨rfl, by simp⟩
  | cons p headers ih =>
    obtain ⟨name, value⟩ := p
    rw [encodeHeaders] at h
    obtain ⟨first, hfirst, h⟩ := bind_eq_ok.mp h
    obtain ⟨rest, hrest, h⟩ := bind_eq_ok.mp h
    cases h
    obtain ⟨rfl, hlines⟩ := ih hrest
    obtain ⟨hascii, rfl⟩ := asciiBytes_eq_ok hfirst
    refine ⟨?_, ?_⟩
    · have hcons : headerBytes ((name, value) :: headers) =
          (headerText (name, value)).map asciiByte :: headerBytes headers := rfl
      rw [hcons, wireLines_cons, List.map_append]
      rfl
    · intro p hp
      rcases List.mem_cons.mp hp with rfl | hp
      · exact (isAscii_append.mp hascii).1
      · exact hlines p hp

/-- The text of the request line. -/
def requestText (path : Str) : Str := "GET ".toList ++ path ++ " HTTP/1.1".toList

/-- The text of the status line. -/
def STATUS_TEXT : Str := "HTTP/1.1 101 Switching Protocols".toList

/-- The headers that a request must have. -/
def requestHeaders (host : Str) (port : ℕ) (key : Str) : List (Str × Str) :=
  [("Host".toList, if port = 80 ∨ port = 443 then host else host ++ ":".toList ++ formatInt port),
    ("Upgrade".toList, "websocket".toList), ("Connection".toList, "Upgrade".toList),
    ("Sec-WebSocket-Key".toList, key), ("Sec-WebSocket-Version".toList, WS_VERSION)]

/-- The headers that a response must have. -/
def responseHeaders (acceptToken : Str) : List (Str × Str) :=
  [("Upgrade".toList, "websocket".toList), ("Connection".toList, "Upgrade".toList),
    ("Sec-WebSocket-Accept".toList, acceptToken)]

section Messages

variable {codecs : Codecs} {host path key token : Str} {port : ℕ} {extraHeaders : List (Str × Str)}
  {request response : List UInt8}

/-- The bytes of a request. -/
lemma encodeClientHandshake_eq_ok
    (h : encodeClientHandshake codecs host port path key extraHeaders = .ok request) :
    let merged := (({} : CaseInsensitiveDict).setAll codecs.lower extraHeaders).setAll codecs.lower
      (requestHeaders host port key)
    request = wireLines ((requestText path).map asciiByte :: headerBytes merged.items) ++ CRLF ∧
      IsAscii (requestText path) ∧ ∀ p ∈ merged.items, IsAscii (headerText p) := by
  unfold encodeClientHandshake at h
  obtain ⟨first, hfirst, h⟩ := bind_eq_ok.mp h
  obtain ⟨lines, hlines, h⟩ := bind_eq_ok.mp h
  cases h
  obtain ⟨rfl, hascii⟩ := encodeHeaders_eq_ok hlines
  obtain ⟨hrequest, rfl⟩ := asciiBytes_eq_ok hfirst
  have hline : "GET ".toList ++ path ++ " HTTP/1.1\r\n".toList =
      requestText path ++ "\r\n".toList := by
    rw [requestText, List.append_assoc _ " HTTP/1.1".toList]
    rfl
  rw [hline] at hrequest ⊢
  refine ⟨?_, (isAscii_append.mp hrequest).1, hascii⟩
  rw [wireLines_cons, List.map_append]
  rfl

/-- The bytes of a response. -/
lemma encodeServerHandshakeResponse_eq_ok (htoken : deriveAcceptKey codecs key = .ok token)
    (h : encodeServerHandshakeResponse codecs key = .ok response) :
    let merged := ({} : CaseInsensitiveDict).setAll codecs.lower (responseHeaders token)
    response = wireLines (STATUS_TEXT.map asciiByte :: headerBytes merged.items) ++ CRLF ∧
      ∀ p ∈ merged.items, IsAscii (headerText p) := by
  unfold encodeServerHandshakeResponse at h
  obtain ⟨acceptToken, haccept, h⟩ := bind_eq_ok.mp h
  obtain ⟨lines, hlines, h⟩ := bind_eq_ok.mp h
  cases h
  rw [htoken] at haccept
  cases haccept
  obtain ⟨rfl, hascii⟩ := encodeHeaders_eq_ok hlines
  refine ⟨?_, hascii⟩
  rw [wireLines_cons]
  rfl

end Messages

/-! ## The messages as they are read -/

namespace HandshakeParser

section ReadBack

variable {codecs : Codecs} {f : HandshakeParser}

/-- A header line is read as it was written. -/
lemma parseHeaderLine_headerText {p : Str × Str} (h : InjectionFree p)
    (hascii : IsAscii (headerText p)) :
    f.parseHeaderLine codecs ((headerText p).map asciiByte) =
      (.ok (), { f with headers := f.headers.set codecs.lower p.1 (strip p.2) }) := by
  have hdecode : ((headerText p).map asciiByte).map asciiChar = headerText p := by
    rw [List.map_map]
    exact (List.map_congr_left fun c hc => asciiChar_asciiByte (hascii c hc)).trans (List.map_id _)
  have hfind : findSlice [':'] (headerText p) = some p.1.length := by
    rw [headerText, List.append_assoc]
    exact findSlice_singleton_append h.notMem_colon (' ' :: p.2)
  have htake : (headerText p).take p.1.length = p.1 := by
    rw [headerText, List.append_assoc, List.take_left]
  have hdrop : (headerText p).drop (p.1.length + 1) = ' ' :: p.2 := by
    rw [headerText, List.append_assoc, ← List.drop_drop, List.drop_left]
    rfl
  rw [parseHeaderLine, hdecode]
  dsimp only
  rw [hfind]
  dsimp only
  rw [htake, hdrop, h.strip_eq, if_neg h.ne_nil, strip_cons (by decide)]

/-- **Header lines are read one by one.** -/
lemma reads_headerBytes {headers : List (Str × Str)} (hs : f.state = .headers)
    (hok : ∀ p ∈ headers, InjectionFree p ∧ IsAscii (headerText p)) :
    Reads codecs f (headerBytes headers)
      { f with headers :=
          f.headers.setAll codecs.lower (headers.map fun p => (p.1, strip p.2)) } := by
  induction headers generalizing f with
  | nil => exact .nil hs
  | cons p headers ih =>
    obtain ⟨hp, hascii⟩ := hok p List.mem_cons_self
    have hread : f.readLine codecs ((headerText p).map asciiByte) =
        (.ok (), { f with headers := f.headers.set codecs.lower p.1 (strip p.2) }) := by
      rw [readLine_header hs, parseHeaderLine_headerText hp hascii]
    have hne : (headerText p).map asciiByte ≠ [] := by
      simp [headerText, hp.ne_nil]
    have hrest := ih (f := { f with headers := f.headers.set codecs.lower p.1 (strip p.2) }) hs
      fun q hq => hok q (List.mem_cons_of_mem p hq)
    refine .cons (hp.oneLine.unbroken hascii) (fun hcon => hne hcon.2) (by rw [hread]) ?_
    rw [hread]
    exact hrest

/-- The headers that have been read are those that were written, with stripped values. -/
lemma get_readBack {d : CaseInsensitiveDict} (h : d.Keyed codecs.lower) {p : Str × Str}
    (hp : d.find? (codecs.lower p.1) = some p) :
    (({} : CaseInsensitiveDict).setAll codecs.lower
      (d.items.map fun p => (p.1, strip p.2))).get codecs.lower p.1 = some (strip p.2) := by
  rw [CaseInsensitiveDict.get, CaseInsensitiveDict.find?_setAll_items h, hp]
  rfl

end ReadBack

end HandshakeParser

/-! ## Keys and tokens -/

/-- A character that base64 may use: printable and no blank. -/
def IsGraph (c : Char) : Prop := 33 ≤ c.toNat ∧ c.toNat ≤ 126

instance (c : Char) : Decidable (IsGraph c) := inferInstanceAs (Decidable (_ ∧ _))

/-- `binascii` encodes some bytes as documented: in printable characters on one line, none only
where there are no bytes, from which the bytes are decoded. -/
def EncodesBase64 (codecs : Codecs) (data : List UInt8) : Prop :=
  ∃ text : Str, codecs.b2aBase64 data = text.map asciiByte ++ [10] ∧ (∀ c ∈ text, IsGraph c) ∧
    (text = [] → data = []) ∧ codecs.a2bBase64 (text.map asciiByte) = .ok data

section Graph

variable {text : Str} (h : ∀ c ∈ text, IsGraph c)

include h

/-- Text of such characters is ASCII. -/
lemma isAscii_of_isGraph : IsAscii text := by
  intro c hc
  have := (h c hc).2
  omega

/-- It is on one line. -/
lemma oneLine_of_isGraph : OneLine text :=
  oneLine_of_notMem fun hcr => absurd (h _ hcr).1 (by decide)

/-- There is nothing to strip. -/
lemma strip_of_isGraph : strip text = text := by
  apply strip_eq_self
  intro c hc
  obtain ⟨hlow, hhigh⟩ := h c hc
  rw [isSpace, ← Bool.not_eq_true]
  simp only [Bool.or_eq_true, Bool.and_eq_true, decide_eq_true_eq, beq_iff_eq]
  omega

/-- The end of the line is stripped. -/
lemma stripLineEnd_of_isGraph : stripLineEnd (text.map asciiByte ++ [10]) = .ok text := by
  have hbyte : ∀ byte ∈ text.map asciiByte, byte ≠ 10 ∧ byte ≠ 13 := by
    intro byte hbyte
    obtain ⟨c, hc, rfl⟩ := List.mem_map.mp hbyte
    have hc' := isAscii_of_isGraph h c hc
    have hlow := (h c hc).1
    constructor <;> intro heq <;>
      have hnat := congrArg UInt8.toNat heq <;> rw [toNat_asciiByte hc'] at hnat
    · exact absurd (hnat ▸ hlow) (by decide)
    · exact absurd (hnat ▸ hlow) (by decide)
  have hdrop : ∀ (b : UInt8), (∀ byte ∈ text.map asciiByte, byte ≠ b) →
      (text.map asciiByte).rdropWhile (· = b) = text.map asciiByte := by
    intro b hb
    rw [List.rdropWhile_eq_self_iff]
    intro hne
    simpa using hb _ (List.getLast_mem hne)
  rw [stripLineEnd, List.rdropWhile_concat_pos _ _ _ (by simp), hdrop 10 fun _ hb => (hbyte _ hb).1,
    hdrop 13 fun _ hb => (hbyte _ hb).2, decodeAscii_map (isAscii_of_isGraph h)]
  rfl

end Graph

/-- **What a key is**: printable text that decodes to the bytes it was made of. -/
lemma makeWebsocketKey_eq_ok {codecs : Codecs} {nonce : List UInt8} {key : Str}
    (h : makeWebsocketKey codecs nonce = .ok key) (hbase : EncodesBase64 codecs nonce) :
    (∀ c ∈ key, IsGraph c) ∧ (key = [] → nonce = []) ∧
      codecs.a2bBase64 (key.map asciiByte) = .ok nonce := by
  obtain ⟨text, htext, hgraph, hnil, hdecode⟩ := hbase
  rw [makeWebsocketKey, htext, stripLineEnd_of_isGraph hgraph] at h
  cases h
  exact ⟨hgraph, hnil, hdecode⟩

/-- What an accept token is. -/
lemma deriveAcceptKey_eq_ok {codecs : Codecs} {key token : Str}
    (h : deriveAcceptKey codecs key = .ok token)
    (hbase : EncodesBase64 codecs (codecs.sha1 ((key ++ WS_MAGIC_GUID).map asciiByte))) :
    ∀ c ∈ token, IsGraph c := by
  obtain ⟨data, hdata, h⟩ := bind_eq_ok.mp h
  obtain ⟨-, rfl⟩ := asciiBytes_eq_ok hdata
  obtain ⟨text, htext, hgraph, -⟩ := hbase
  rw [htext, stripLineEnd_of_isGraph hgraph] at h
  cases h
  exact hgraph

/-! ## Requests -/

namespace HandshakeParser

/-- A new parser with a cap of its own. -/
def newCapped (role : HandshakeRole) (maxHeaderBytes : ℕ) : HandshakeParser :=
  { role, maxHeaderBytes, state := role.initialState }

/-- A parser that has been fed nothing waits for a message that it can read. -/
lemma waiting_newCapped {codecs : Codecs} {g : HandshakeParser} {role : HandshakeRole} {cap : ℕ}
    {lines : List (List UInt8)} {message tail : List UInt8} {chunks : List (List UInt8)}
    (hreads : Reads codecs (newCapped role cap) lines g)
    (hmessage : message = wireLines lines ++ CRLF) (hchunks : chunks.flatten = message ++ tail) :
    Waiting codecs g tail (newCapped role cap) [] chunks.flatten := by
  refine ⟨rfl, ?_, newCapped role cap, lines, {}, rfl, hreads, ?_⟩
  · cases role <;> simp [newCapped, HandshakeRole.initialState]
  · rw [hchunks, hmessage, List.append_assoc]
    rfl

/-- **A message that a parser can read, in pieces.** -/
theorem feedAll_reads {codecs : Codecs} {g : HandshakeParser} {role : HandshakeRole} {cap : ℕ}
    {lines : List (List UInt8)} {message tail : List UInt8} {chunks : List (List UInt8)}
    (hreads : Reads codecs (newCapped role cap) lines g)
    (hmessage : message = wireLines lines ++ CRLF) (hchunks : chunks.flatten = message ++ tail) :
    ((newCapped role cap).feedAll codecs chunks).state = .error ∧
        ¬ Fits cap message.length [] chunks ∨
      ∃ b more, (newCapped role cap).feedAll codecs chunks =
          (({ g with buffer := b } : HandshakeParser).finalize codecs).2 ∧ b.live ++ more = tail ∧
        (Fits cap message.length [] chunks ↔ more = []) := by
  have hlen := congrArg List.length hchunks
  have hpos := congrArg List.length hmessage
  have hcrlf : CRLF.length = 2 := rfl
  rw [List.length_append] at hlen hpos
  exact (waiting_newCapped hreads hmessage hchunks).feedAll (by omega) (by simpa using hlen)

section Accepted

variable {codecs : Codecs} {host path key token : Str} {port cap : ℕ}
  {extraHeaders : List (Str × Str)} {request response tail : List UInt8}
  {chunks : List (List UInt8)}

/-- The mandatory headers and their names. -/
lemma nodup_requestHeaders (hlower : LowersAscii codecs.lower) :
    ((requestHeaders host port key).map fun p => codecs.lower p.1).Nodup := by
  have hnames : (requestHeaders host port key).map (fun p => codecs.lower p.1) =
      ["host".toList, "upgrade".toList, "connection".toList, "sec-websocket-key".toList,
        "sec-websocket-version".toList] := by
    simp only [requestHeaders, List.map_cons, List.map_nil]
    rw [hlower _ (by decide), hlower _ (by decide), hlower _ (by decide), hlower _ (by decide),
      hlower _ (by decide)]
    decide
  rw [hnames]
  decide

@[inherit_doc nodup_requestHeaders]
lemma nodup_responseHeaders (hlower : LowersAscii codecs.lower) :
    ((responseHeaders token).map fun p => codecs.lower p.1).Nodup := by
  have hnames : (responseHeaders token).map (fun p => codecs.lower p.1) =
      ["upgrade".toList, "connection".toList, "sec-websocket-accept".toList] := by
    simp only [responseHeaders, List.map_cons, List.map_nil]
    rw [hlower _ (by decide), hlower _ (by decide), hlower _ (by decide)]
    decide
  rw [hnames]
  decide

/-- A parser that has read the mandatory upgrade headers finds nothing wrong with them. -/
lemma upgradeProblem_eq_none {g : HandshakeParser} (hlower : LowersAscii codecs.lower)
    (hupgrade : g.headers.get codecs.lower "Upgrade".toList = some (strip "websocket".toList))
    (hconnection : g.headers.get codecs.lower "Connection".toList = some (strip "Upgrade".toList))
    (roleLabel : String) : g.upgradeProblem codecs roleLabel = none := by
  have hwebsocket : codecs.lower ((g.headers.get codecs.lower "Upgrade".toList).getD []) =
      "websocket".toList := by
    rw [hupgrade, Option.getD_some, hlower _ (by decide)]
    decide
  have hkeepUpgrade : codecs.lower ((g.headers.get codecs.lower "Connection".toList).getD []) =
      "upgrade".toList := by
    rw [hconnection, Option.getD_some, hlower _ (by decide)]
    decide
  rw [upgradeProblem, hwebsocket, hkeepUpgrade, if_neg (by decide), if_neg (by decide)]

/-- The mandatory headers of a request can be read back. -/
lemma injectionFree_requestHeaders (hhost : OneLine host) (hkey : ∀ c ∈ key, IsGraph c) :
    ∀ p ∈ requestHeaders host port key, InjectionFree p := by
  have hport : OneLine (formatInt port) :=
    oneLine_of_notMem fun hcr => absurd (formatInt_chars port _ hcr).2 (by decide)
  have hvalue : OneLine (if port = 80 ∨ port = 443 then host
      else host ++ ":".toList ++ formatInt port) := by
    split_ifs
    · exact hhost
    · rw [List.append_assoc]
      exact Unbroken.append_cons hhost hport (by decide) (by decide)
  intro p hp
  simp only [requestHeaders, List.mem_cons, List.not_mem_nil, or_false] at hp
  rcases hp with rfl | rfl | rfl | rfl | rfl
  · exact .of_name (by decide) hvalue
  · exact .of_name (by decide) (by decide)
  · exact .of_name (by decide) (by decide)
  · exact .of_name (by decide) (oneLine_of_isGraph hkey)
  · exact .of_name (by decide) (by decide)

/-- The mandatory headers of a response can be read back. -/
lemma injectionFree_responseHeaders (htoken : ∀ c ∈ token, IsGraph c) :
    ∀ p ∈ responseHeaders token, InjectionFree p := by
  intro p hp
  simp only [responseHeaders, List.mem_cons, List.not_mem_nil, or_false] at hp
  rcases hp with rfl | rfl | rfl
  · exact .of_name (by decide) (by decide)
  · exact .of_name (by decide) (by decide)
  · exact .of_name (by decide) (oneLine_of_isGraph htoken)

variable {d : CaseInsensitiveDict}

/-- What all headers of two lists satisfy, the items of the merged map satisfy. -/
lemma forall_items_setAll {P : Str × Str → Prop} {headers : List (Str × Str)}
    (h : ∀ p ∈ d.items, P p) (hnew : ∀ p ∈ headers, P p) :
    ∀ p ∈ (d.setAll codecs.lower headers).items, P p := by
  intro p hp
  obtain ⟨e, he, rfl⟩ := List.mem_map.mp hp
  have hentries : ∀ e ∈ d.entries, P e.2 := fun e he => h e.2 (List.mem_map_of_mem he)
  exact CaseInsensitiveDict.forall_setAll (P := fun e => P e.2) hentries hnew e he

/-- Headers that are set stand under their lower-case names. -/
lemma keyed_setAll (h : d.Keyed codecs.lower) (headers : List (Str × Str)) :
    (d.setAll codecs.lower headers).Keyed codecs.lower :=
  CaseInsensitiveDict.forall_setAll h fun _ _ => rfl

/-- The request line is read as it was written. -/
lemma readLine_requestText (hpath : ' ' ∉ path) (hascii : IsAscii (requestText path)) :
    (newCapped .request cap).readLine codecs ((requestText path).map asciiByte) =
      (.ok (), { newCapped .request cap with
        method := "GET".toList, path, httpVersion := "HTTP/1.1".toList, state := .headers }) := by
  have hsplit : (requestText path).splitOn ' ' = ["GET".toList, path, "HTTP/1.1".toList] := by
    have hjoin : requestText path = [' '].intercalate ["GET".toList, path, "HTTP/1.1".toList] := by
      simp [requestText, List.intercalate]
    rw [hjoin, List.splitOn_intercalate]
    · intro part hpart
      simp only [List.mem_cons, List.not_mem_nil, or_false] at hpart
      rcases hpart with rfl | rfl | rfl
      · decide
      · exact hpath
      · decide
    · simp
  rw [readLine_first (by simp [newCapped, HandshakeRole.initialState]), parseFirstLine,
    decodeAscii_map hascii]
  have hrole : (newCapped .request cap).role = .request := rfl
  rw [hrole]
  dsimp only
  rw [parseRequestLine, hsplit]
  dsimp only
  rw [if_neg (by decide), if_neg (by decide)]

/-- The status line is read as it was written. -/
lemma readLine_statusText (expectedAccept : Str) :
    (newCapped (.response expectedAccept) cap).readLine codecs (STATUS_TEXT.map asciiByte) =
      (.ok (), { newCapped (.response expectedAccept) cap with
        httpVersion := "HTTP/1.1".toList, statusCode := some 101,
        reason := "Switching Protocols".toList, state := .headers }) := by
  have hsplit : splitStatusLine STATUS_TEXT =
      ["HTTP/1.1".toList, "101".toList, "Switching Protocols".toList] := by decide
  have hcode : pyInt 10 "101".toList = some 101 := by decide
  rw [readLine_first (by simp [newCapped, HandshakeRole.initialState]), parseFirstLine,
    decodeAscii_map (by decide)]
  have hrole : (newCapped (.response expectedAccept) cap).role = .response expectedAccept := rfl
  rw [hrole]
  dsimp only
  rw [parseStatusLine, hsplit]
  dsimp only
  rw [hcode]
  rfl

/-- A request parser behind the lines of a request. -/
def behindRequest (codecs : Codecs) (cap : ℕ) (path : Str) (merged : CaseInsensitiveDict) :
    HandshakeParser :=
  { newCapped .request cap with
    method := "GET".toList
    path
    httpVersion := "HTTP/1.1".toList
    state := .headers
    headers := ({} : CaseInsensitiveDict).setAll codecs.lower
      (merged.items.map fun p => (p.1, strip p.2)) }

/-- A response parser behind the lines of a response. -/
def behindResponse (codecs : Codecs) (cap : ℕ) (expectedAccept : Str)
    (merged : CaseInsensitiveDict) : HandshakeParser :=
  { newCapped (.response expectedAccept) cap with
    httpVersion := "HTTP/1.1".toList
    statusCode := some 101
    reason := "Switching Protocols".toList
    state := .headers
    headers := ({} : CaseInsensitiveDict).setAll codecs.lower
      (merged.items.map fun p => (p.1, strip p.2)) }

/-- **A request can be read line by line.** -/
lemma reads_request {merged : CaseInsensitiveDict} (hpath : ' ' ∉ path) (hline : OneLine path)
    (hascii : IsAscii (requestText path))
    (hitems : ∀ p ∈ merged.items, InjectionFree p ∧ IsAscii (headerText p)) :
    Reads codecs (newCapped .request cap)
      ((requestText path).map asciiByte :: headerBytes merged.items)
      (behindRequest codecs cap path merged) := by
  have hread := @readLine_requestText codecs path cap hpath hascii
  have htext : OneLine (requestText path) := by
    have hversion : Unbroken '\r' '\n' "HTTP/1.1".toList := by decide
    have hget : Unbroken '\r' '\n' "GET".toList := by decide
    exact (hget.append_cons hline (by decide) (by decide)).append_cons hversion (by decide)
      (by decide)
  refine .cons (htext.unbroken hascii) ?_ (by rw [hread]) ?_
  · simp [newCapped, HandshakeRole.initialState]
  · rw [hread]
    exact reads_headerBytes rfl hitems

/-- **A response can be read line by line.** -/
lemma reads_response {merged : CaseInsensitiveDict} (expectedAccept : Str)
    (hitems : ∀ p ∈ merged.items, InjectionFree p ∧ IsAscii (headerText p)) :
    Reads codecs (newCapped (.response expectedAccept) cap)
      (STATUS_TEXT.map asciiByte :: headerBytes merged.items)
      (behindResponse codecs cap expectedAccept merged) := by
  have hread := @readLine_statusText codecs cap expectedAccept
  have htext : OneLine STATUS_TEXT := by decide
  refine .cons (htext.unbroken (by decide)) ?_ (by rw [hread]) ?_
  · simp [newCapped, HandshakeRole.initialState]
  · rw [hread]
    exact reads_headerBytes rfl hitems

/-- Nothing is wrong with a request that has the mandatory headers. -/
lemma requestProblem_behindRequest {nonce : List UInt8} (hlower : LowersAscii codecs.lower)
    (hkeyed : d.Keyed codecs.lower) (hgraph : ∀ c ∈ key, IsGraph c) (hne : key ≠ [])
    (hnonce : nonce.length = 16) (hdecode : codecs.a2bBase64 (key.map asciiByte) = .ok nonce) :
    let g := behindRequest codecs cap path (d.setAll codecs.lower (requestHeaders host port key))
    g.requestProblem codecs = none ∧ g.clientKey codecs = key := by
  intro g
  have hfound : ∀ p ∈ requestHeaders host port key,
      g.headers.get codecs.lower p.1 = some (strip p.2) := fun p hp =>
    get_readBack (keyed_setAll hkeyed _)
      (CaseInsensitiveDict.find?_setAll_of_mem (nodup_requestHeaders hlower) hp)
  have hupgrade := hfound ("Upgrade".toList, "websocket".toList) (by simp [requestHeaders])
  have hconnection := hfound ("Connection".toList, "Upgrade".toList) (by simp [requestHeaders])
  have hversion := hfound ("Sec-WebSocket-Version".toList, WS_VERSION) (by simp [requestHeaders])
  have hkey := hfound ("Sec-WebSocket-Key".toList, key) (by simp [requestHeaders])
  have hclient : g.clientKey codecs = key := by
    rw [clientKey, hkey, Option.getD_some, strip_of_isGraph hgraph]
  have hok : (g.headers.get codecs.lower "Sec-WebSocket-Version".toList).getD [] = WS_VERSION := by
    rw [hversion]
    decide
  refine ⟨?_, hclient⟩
  rw [requestProblem, upgradeProblem_eq_none hlower hupgrade hconnection, hclient, hok]
  dsimp only
  rw [if_neg (by decide), if_neg hne, encodeAscii_eq_ok.mpr ⟨isAscii_of_isGraph hgraph, rfl⟩]
  dsimp only
  rw [hdecode]
  exact if_neg (by simp [hnonce])

/-- What is wrong with a response that has the mandatory headers: nothing, or its token. -/
lemma responseProblem_behindResponse {expectedAccept : Str} (hlower : LowersAscii codecs.lower)
    (hgraph : ∀ c ∈ token, IsGraph c) :
    (behindResponse codecs cap expectedAccept (({} : CaseInsensitiveDict).setAll codecs.lower
      (responseHeaders token))).responseProblem codecs expectedAccept = none ↔
        expectedAccept = token := by
  have hkeyed : ({} : CaseInsensitiveDict).Keyed codecs.lower := fun _ he => absurd he (by simp)
  generalize hg : behindResponse codecs cap expectedAccept (({} : CaseInsensitiveDict).setAll
    codecs.lower (responseHeaders token)) = g
  have hfound : ∀ p ∈ responseHeaders token,
      g.headers.get codecs.lower p.1 = some (strip p.2) := fun p hp => by
    rw [← hg]
    exact get_readBack (keyed_setAll hkeyed _)
      (CaseInsensitiveDict.find?_setAll_of_mem (nodup_responseHeaders hlower) hp)
  have hupgrade := hfound ("Upgrade".toList, "websocket".toList) (by simp [responseHeaders])
  have hconnection := hfound ("Connection".toList, "Upgrade".toList) (by simp [responseHeaders])
  have haccept := hfound ("Sec-WebSocket-Accept".toList, token) (by simp [responseHeaders])
  rw [strip_of_isGraph hgraph] at haccept
  rw [responseProblem, upgradeProblem_eq_none hlower hupgrade hconnection, haccept]
  dsimp only [Option.getD_some]
  by_cases h : expectedAccept = token
  · rw [if_neg (by simp [h])]
    simp [h]
  · rw [if_pos (Ne.symm h)]
    simp [h]

end Accepted

/-! ## Paths -/

section Path

variable {codecs : Codecs} {p : HandshakeParser} {line : List UInt8}

/-- A line of bytes is decoded to text on one line. -/
lemma oneLine_of_unbroken {data : List UInt8} {text : Str} (h : Unbroken 13 10 data)
    (hdecode : decodeAscii data = .ok text) : OneLine text := by
  unfold decodeAscii at hdecode
  split_ifs at hdecode with hascii
  cases hdecode
  have hchar : ∀ byte ∈ data, (asciiChar byte).toNat = byte.toNat := by
    intro byte hbyte
    have hvalid : byte.toNat.isValidChar := .inl (by have := hascii byte hbyte; omega)
    rw [asciiChar, Char.ofNat, dif_pos hvalid]
    rfl
  refine (List.isChain_map asciiChar).mpr (List.IsChain.imp_of_mem_imp ?_ h)
  rintro x y hx hy hne ⟨hcr, hlf⟩
  have hx' := hchar x hx
  have hy' := hchar y hy
  rw [hcr] at hx'
  rw [hlf] at hy'
  exact hne ⟨UInt8.toNat_inj.mp hx'.symm, UInt8.toNat_inj.mp hy'.symm⟩

/-- The path that a line is read to is on one line. -/
lemma oneLine_readLine (h : OneLine p.path) (hline : Unbroken 13 10 line) :
    OneLine (p.readLine codecs line).2.path := by
  unfold readLine
  split_ifs
  · unfold parseHeaderLine
    dsimp only
    split
    · exact h
    · split_ifs <;> exact h
  · unfold parseFirstLine
    split
    · next text hdecode _ =>
      have htext := oneLine_of_unbroken hline hdecode
      unfold parseRequestLine
      split
      · next method path version hsplit =>
        have hpath : path <:+: text := by
          refine ⟨method ++ [' '], ' ' :: version, ?_⟩
          have hjoin : [' '].intercalate (text.splitOn ' ') = text := List.intercalate_splitOn ' '
          rw [← hjoin, hsplit]
          simp [List.intercalate]
        dsimp only
        split_ifs <;> exact htext.infix hpath
      · exact h
    · unfold parseStatusLine
      split
      · dsimp only
        split
        · exact h
        · split_ifs <;> exact h
      · exact h
    · exact h
    · exact h

/-- **The path of a parser is always on one line.** -/
lemma oneLine_feedLoop (rounds : ℕ) (h : OneLine p.path) :
    OneLine (feedLoop codecs rounds p).2.path := by
  induction rounds generalizing p with
  | zero => exact h
  | succ rounds ih =>
    rcases hfind : findSlice CRLF p.buffer.live with _ | index
    · rw [feedLoop_wait rounds hfind]
      exact h
    · have hline : Unbroken 13 10 (p.buffer.live.take index) := by
        rw [← findSlice_eq_none_iff_unbroken]
        exact findSlice_take_eq_none hfind (by simp)
      by_cases hblank : p.state = .headers ∧ p.buffer.live.take index = []
      · rw [feedLoop_found_blank rounds hfind hblank]
        unfold finalize
        dsimp only
        split <;> exact h
      · rw [feedLoop_found rounds hfind hblank]
        have hread := @oneLine_readLine codecs { p with buffer := p.buffer.consume (index + 2) } _ h
          hline
        split
        · exact hread
        · exact ih hread

/-- The same for chunks. -/
lemma oneLine_feedAll (h : OneLine p.path) (chunks : List (List UInt8)) :
    OneLine (p.feedAll codecs chunks).path := by
  induction chunks generalizing p with
  | nil => exact h
  | cons chunk chunks ih =>
    rw [feedAll, List.foldl_cons]
    refine ih ?_
    rw [feed]
    split_ifs
    · exact h
    · dsimp only
      split_ifs
      · exact h
      · exact oneLine_feedLoop _ h

end Path

end HandshakeParser

/-! ## Accepted handshakes -/

/-- A request has been accepted: its path and key, and what stood behind it. -/
structure AcceptedRequest (codecs : Codecs) (p : HandshakeParser) (path key : Str)
    (leftover : List UInt8) : Prop where
  state : p.state = .done
  path : p.path = path
  clientKey : p.clientKey codecs = key
  leftover : p.leftover = leftover

/-- A response has been accepted, and what stood behind it. -/
structure AcceptedResponse (p : HandshakeParser) (leftover : List UInt8) : Prop where
  state : p.state = .done
  leftover : p.leftover = leftover

section RoundTrip

variable {codecs : Codecs} {host path key token : Str} {port cap : ℕ}
  {extraHeaders : List (Str × Str)} {nonce request response tail : List UInt8}
  {chunks : List (List UInt8)}

/-- The empty map of headers. -/
lemma keyed_empty : ({} : CaseInsensitiveDict).Keyed codecs.lower := fun _ he =>
  absurd he (by simp)

/-- A request whose lines bring a parser to where nothing is wrong. -/
lemma accepted_of_reads {g : HandshakeParser} {lines : List (List UInt8)}
    (hreads : HandshakeParser.Reads codecs (newCapped .request cap) lines g)
    (hrole : g.role = .request) (hproblem : g.requestProblem codecs = none)
    (hrequest : request = wireLines lines ++ CRLF) (hchunks : chunks.flatten = request ++ tail) :
    AcceptedRequest codecs ((newCapped .request cap).feedAll codecs chunks) g.path
      (g.clientKey codecs) tail ↔ Fits cap request.length [] chunks := by
  rcases feedAll_reads hreads hrequest hchunks with
    ⟨herror, hfits⟩ | ⟨b, more, hend, hb, hfits⟩
  · refine iff_of_false (fun h => ?_) hfits
    exact absurd (h.state.symm.trans herror) (by simp)
  · have hdone := hend.trans (congrArg Prod.snd
      (finalize_request (p := { g with buffer := b }) hrole hproblem))
    rw [hfits, ← hb, hdone]
    constructor
    · intro h
      exact List.self_eq_append_right.mp h.leftover
    · rintro rfl
      exact ⟨rfl, rfl, rfl, (List.append_nil _).symm⟩

/-- A response whose lines bring a parser to where at most the token is wrong. -/
lemma answered_of_reads {g : HandshakeParser} {lines : List (List UInt8)} {expectedAccept : Str}
    (hreads : HandshakeParser.Reads codecs
      (newCapped (.response expectedAccept) cap) lines g)
    (hrole : g.role = .response expectedAccept)
    (hproblem : g.responseProblem codecs expectedAccept = none ↔ expectedAccept = token)
    (hresponse : response = wireLines lines ++ CRLF) (hchunks : chunks.flatten = response ++ tail) :
    let p := (newCapped (.response expectedAccept) cap).feedAll codecs chunks
    (expectedAccept = token → (AcceptedResponse p tail ↔ Fits cap response.length [] chunks)) ∧
      (expectedAccept ≠ token → p.state = .error) := by
  rcases feedAll_reads hreads hresponse hchunks with
    ⟨herror, hfits⟩ | ⟨b, more, hend, hb, hfits⟩
  · refine ⟨fun _ => iff_of_false (fun h => ?_) hfits, fun _ => herror⟩
    exact absurd (h.state.symm.trans herror) (by simp)
  · rw [hfits, ← hb, hend]
    constructor
    · intro heq
      rw [finalize_response (p := { g with buffer := b }) hrole (hproblem.mpr heq)]
      constructor
      · intro h
        exact List.self_eq_append_right.mp h.leftover
      · rintro rfl
        exact ⟨rfl, (List.append_nil _).symm⟩
    · intro hne
      exact finalize_response_error (p := { g with buffer := b }) hrole
        fun h => hne (hproblem.mp h)

/-- **A request is accepted if and only if its path is on one line and its chunks fit.** -/
lemma acceptedRequest_iff (hlower : LowersAscii codecs.lower) (hnonce : nonce.length = 16)
    (hbase : EncodesBase64 codecs nonce) (hkey : makeWebsocketKey codecs nonce = .ok key)
    (hhost : OneLine host) (hpath : ' ' ∉ path) (hextra : ∀ p ∈ extraHeaders, InjectionFree p)
    (hrequest : encodeClientHandshake codecs host port path key extraHeaders = .ok request)
    (hchunks : chunks.flatten = request ++ tail) :
    AcceptedRequest codecs ((newCapped .request cap).feedAll codecs chunks) path key
      tail ↔ OneLine path ∧ Fits cap request.length [] chunks := by
  obtain ⟨hgraph, hnil, hdecode⟩ := makeWebsocketKey_eq_ok hkey hbase
  have hne : key ≠ [] := fun h => by simp [hnil h] at hnonce
  obtain ⟨hbytes, hline, hascii⟩ := encodeClientHandshake_eq_ok hrequest
  have hfree : ∀ p ∈ ((({} : CaseInsensitiveDict).setAll codecs.lower extraHeaders).setAll
      codecs.lower (requestHeaders host port key)).items, InjectionFree p :=
    forall_items_setAll (forall_items_setAll
      (fun _ hp => absurd hp (by simp [CaseInsensitiveDict.items])) hextra)
      (injectionFree_requestHeaders hhost hgraph)
  by_cases hone : OneLine path
  · -- every line can be read, and the headers that are due are found
    rw [and_iff_right hone]
    have hreads := @HandshakeParser.reads_request codecs path cap _ hpath hone hline fun p hp =>
      ⟨hfree p hp, hascii p hp⟩
    obtain ⟨hproblem, hclient⟩ := @HandshakeParser.requestProblem_behindRequest codecs host path key
      port cap _ _ hlower (keyed_setAll keyed_empty extraHeaders) hgraph hne hnonce
      hdecode
    have haccepted := accepted_of_reads hreads rfl hproblem hbytes hchunks
    rw [hclient] at haccepted
    exact haccepted
  · -- no parser ever has such a path
    refine iff_of_false (fun h => hone ?_) fun h => hone h.1
    have hline : OneLine (newCapped .request cap).path := unbroken_nil
    rw [← h.path]
    exact oneLine_feedAll hline chunks

/-- **A response is accepted by a parser with its token if and only if its chunks fit**, and by no
parser with another. -/
lemma acceptedResponse_iff (hlower : LowersAscii codecs.lower)
    (hbase : EncodesBase64 codecs (codecs.sha1 ((key ++ WS_MAGIC_GUID).map asciiByte)))
    (htoken : deriveAcceptKey codecs key = .ok token)
    (hresponse : encodeServerHandshakeResponse codecs key = .ok response)
    (hchunks : chunks.flatten = response ++ tail) (expectedAccept : Str) :
    let p := (newCapped (.response expectedAccept) cap).feedAll codecs chunks
    (expectedAccept = token → (AcceptedResponse p tail ↔ Fits cap response.length [] chunks)) ∧
      (expectedAccept ≠ token → p.state = .error) := by
  intro p
  have hgraph := deriveAcceptKey_eq_ok htoken hbase
  obtain ⟨hbytes, hascii⟩ := encodeServerHandshakeResponse_eq_ok htoken hresponse
  have hfree : ∀ p ∈ (({} : CaseInsensitiveDict).setAll codecs.lower (responseHeaders token)).items,
      InjectionFree p :=
    forall_items_setAll
      (fun _ hp => absurd hp (by simp [CaseInsensitiveDict.items]))
      (injectionFree_responseHeaders hgraph)
  exact answered_of_reads (reads_response expectedAccept
    fun p hp => ⟨hfree p hp, hascii p hp⟩) rfl
    (@HandshakeParser.responseProblem_behindResponse codecs token cap expectedAccept hlower hgraph)
    hbytes hchunks

/-- **The opening handshake.** The request of a client is accepted with its path and key if and only
if the path is on one line and the chunks fit; the answer of a server is accepted by the parser with
the token of the key if and only if the chunks fit, and never by a parser with another token. What
stands behind the blank line is kept. -/
theorem handshake_iff {requestCap responseCap : ℕ} {requestTail responseTail : List UInt8}
    {requestChunks responseChunks : List (List UInt8)} (hlower : LowersAscii codecs.lower)
    (hnonce : nonce.length = 16) (hbase : EncodesBase64 codecs nonce)
    (hdigest : EncodesBase64 codecs (codecs.sha1 ((key ++ WS_MAGIC_GUID).map asciiByte)))
    (hkey : makeWebsocketKey codecs nonce = .ok key) (hhost : OneLine host) (hpath : ' ' ∉ path)
    (hextra : ∀ p ∈ extraHeaders, InjectionFree p)
    (hrequest : encodeClientHandshake codecs host port path key extraHeaders = .ok request)
    (htoken : deriveAcceptKey codecs key = .ok token)
    (hresponse : encodeServerHandshakeResponse codecs key = .ok response)
    (hrequestChunks : requestChunks.flatten = request ++ requestTail)
    (hresponseChunks : responseChunks.flatten = response ++ responseTail) :
    (AcceptedRequest codecs
        ((newCapped .request requestCap).feedAll codecs requestChunks) path key
        requestTail ↔
      OneLine path ∧ Fits requestCap request.length [] requestChunks) ∧
    (AcceptedResponse
        ((newCapped (.response token) responseCap).feedAll codecs responseChunks)
        responseTail ↔
      Fits responseCap response.length [] responseChunks) ∧
    ∀ expectedAccept, expectedAccept ≠ token →
      ((newCapped (.response expectedAccept) responseCap).feedAll codecs
        responseChunks).state = .error := by
  have hanswer := @acceptedResponse_iff codecs key token responseCap response responseTail
    responseChunks hlower hdigest htoken hresponse hresponseChunks
  exact ⟨acceptedRequest_iff hlower hnonce hbase hkey hhost hpath hextra hrequest hrequestChunks,
    (hanswer token).1 rfl, fun expectedAccept => (hanswer expectedAccept).2⟩

end RoundTrip

/-- A nonce, its key, the digest of the key and its token. -/
def SAMPLE_NONCE : List UInt8 := "the sample nonce".toList.map asciiByte
@[inherit_doc SAMPLE_NONCE] def SAMPLE_KEY : Str := "dGhlIHNhbXBsZSBub25jZQ==".toList
@[inherit_doc SAMPLE_NONCE] def SAMPLE_DIGEST : List UInt8 :=
  [0xb3, 0x7a, 0x4f, 0x2c, 0xc0, 0x62, 0x4f, 0x16, 0x90, 0xf6, 0x46, 0x06, 0xcf, 0x38, 0x59, 0x45,
    0xb2, 0xbe, 0xc4, 0xea]
@[inherit_doc SAMPLE_NONCE] def SAMPLE_TOKEN : Str := "s3pPLMBiTxaQ9kYGzzhZRbK+xOo=".toList

/-- Codecs that know the sample. -/
def sampleCodecs : Codecs where
  sha1 data := if data = (SAMPLE_KEY ++ WS_MAGIC_GUID).map asciiByte then SAMPLE_DIGEST else []
  b2aBase64 data :=
    (if data = SAMPLE_NONCE then SAMPLE_KEY.map asciiByte
      else if data = SAMPLE_DIGEST then SAMPLE_TOKEN.map asciiByte else []) ++ [10]
  a2bBase64 data :=
    .ok (if data = SAMPLE_KEY.map asciiByte then SAMPLE_NONCE
      else if data = SAMPLE_TOKEN.map asciiByte then SAMPLE_DIGEST else [])
  lower := lowerAscii
  decodeErrorText _ := "ordinal not in range(128)"
  encodeErrorText _ := "ordinal not in range(128)"

/-- A request with a header of the client's own, as it arrives: cut in the middle of lines, and with
the beginning of a frame behind it. -/
def sampleRequestChunks : List (List UInt8) :=
  ["GET /chat HT", "TP/1.1\r\nx-id: 7 \r\nHost: h:8080\r\nUpgrade: websocket\r",
    "\nConnection: Upgrade\r\nSec-WebSocket-Key: dGhlIHNhbXBsZSBub25jZQ==\r\nSec-WebSocket-V",
    "ersion: 13\r\n\r\nab"].map (·.toList.map asciiByte)

/-- The response, as it arrives. -/
def sampleResponseChunks : List (List UInt8) :=
  ["HTTP/1.1 101 Switching Protocols\r\nUpgrade: websocket\r\nConnection: Upgr",
    "ade\r\nSec-WebSocket-Accept: s3pPLMBiTxaQ9kYGzzhZRbK+xOo=\r\n\r", "\na"].map
    (·.toList.map asciiByte)

/-- Both are accepted, and what stands behind them is kept. -/
theorem handshake_iff_sample :
    AcceptedRequest sampleCodecs
      ((newCapped .request 256).feedAll sampleCodecs sampleRequestChunks)
      "/chat".toList SAMPLE_KEY [97, 98] ∧
    AcceptedResponse
      ((newCapped (.response SAMPLE_TOKEN) 96).feedAll sampleCodecs
        sampleResponseChunks) [97] := by
  have hbase : ∀ (data : List UInt8) (text : Str),
      sampleCodecs.b2aBase64 data = text.map asciiByte ++ [10] → (∀ c ∈ text, IsGraph c) →
      text ≠ [] → sampleCodecs.a2bBase64 (text.map asciiByte) = .ok data →
      EncodesBase64 sampleCodecs data := fun data text hencode hgraph hne hdecode =>
    ⟨text, hencode, hgraph, fun h => absurd h hne, hdecode⟩
  obtain ⟨hrequest, hresponse, -⟩ := @handshake_iff sampleCodecs "h".toList "/chat".toList
    SAMPLE_KEY SAMPLE_TOKEN 8080 [("x-id".toList, "7 ".toList)] SAMPLE_NONCE
    (sampleRequestChunks.flatten.dropLast.dropLast) sampleResponseChunks.flatten.dropLast 256 96
    [97, 98] [97] sampleRequestChunks sampleResponseChunks lowersAscii_lowerAscii (by decide)
    (hbase _ SAMPLE_KEY (by decide +kernel) (by decide) (by decide) (by decide +kernel))
    (hbase _ SAMPLE_TOKEN (by decide +kernel) (by decide) (by decide) (by decide +kernel))
    (by decide +kernel) (by decide) (by decide)
    (by
      intro p hp
      obtain rfl := List.mem_singleton.mp hp
      exact .of_name (by decide) (by decide))
    (by decide +kernel) (by decide +kernel) (by decide +kernel) (by decide +kernel)
    (by decide +kernel)
  exact ⟨hrequest.mpr ⟨by decide, by decide +kernel⟩, hresponse.mpr (by decide +kernel)⟩

/-- A request exactly as long as the cap that arrives with one byte of a frame behind it is
refused. -/
theorem refused_with_early_frame :
    ∃ request, SAMPLE_NONCE.length = 16 ∧
      makeWebsocketKey sampleCodecs SAMPLE_NONCE = .ok SAMPLE_KEY ∧
      encodeClientHandshake sampleCodecs "h".toList 80 "/".toList SAMPLE_KEY [] = .ok request ∧
      ¬ AcceptedRequest sampleCodecs ((newCapped .request request.length).feedAll
        sampleCodecs [request ++ [137]]) "/".toList SAMPLE_KEY [137] := by
  refine ⟨("GET / HTTP/1.1\r\nHost: h\r\nUpgrade: websocket\r\nConnection: Upgrade\r\n" ++
    "Sec-WebSocket-Key: dGhlIHNhbXBsZSBub25jZQ==\r\nSec-WebSocket-Version: 13\r\n\r\n").toList.map
      asciiByte, by decide, by decide +kernel, by decide +kernel, fun h => ?_⟩
  have hstate := h.state
  revert hstate
  decide +kernel

end ChuMicro.Websockets
