import ChuMicro.Websockets.FrameStream

/-!
# The frame codec, end to end

A sequence of frames goes through `encode_frame`, the bytes arrive in pieces, and a caller feeds the
pieces to a `FrameParser`, resetting it whenever a frame is ready. Fresh parsers are scanners in the
sense of `Streaming.Scanner`, and the caller's loop is a reader of that scanner, so the cut into
pieces does not matter; `scan_encodeFrame` says what is read.

## Main definitions

* `Websockets.WireFrame` — a frame as a peer sends it.
* `Websockets.frameScanner` — a fresh parser as a scanner.
* `Websockets.readChunk` — the caller's loop over one piece.
* `Websockets.readChunks` — the loop over all pieces, with the bytes consumed.

## Main results

* `Websockets.readChunk_spec` — one piece, in terms of the scanner.
* `Websockets.readChunks_encodeFrames` — encoded frames are read back, whatever the cut and the cap.
-/

namespace ChuMicro.Websockets

open Streaming

/-! ## Frames of a peer -/

/-- A frame as a peer sends it. -/
structure WireFrame where
  fin : Bool
  opcode : ℕ
  payload : List UInt8
  mask : Option (List UInt8)

namespace WireFrame

/-- The frames the protocol knows: data frames, and control frames that are final and short; the
mask key, if there is one, has four bytes. -/
structure Proper (f : WireFrame) : Prop where
  opcode_mem : f.opcode ∈ CONTROL_OPCODES ∨ f.opcode ∈ DATA_OPCODES
  fin_of_control : f.opcode ∈ CONTROL_OPCODES → f.fin = true
  short_of_control : f.opcode ∈ CONTROL_OPCODES → f.payload.length ≤ MAX_CONTROL_PAYLOAD_BYTES
  key_length : ∀ key, f.mask = some key → key.length = 4

/-- What a parser with the cap `cap` says of the frame. -/
def parsed (cap : ℕ) (f : WireFrame) : Frame :=
  parsedFrame cap f.opcode f.payload f.fin f.mask.isSome

end WireFrame

/-- The bytes of frames, one after the other. -/
def encodeFrames : List WireFrame → Except Exn (List UInt8)
  | [] => .ok []
  | f :: fs => do
    let b ← encodeFrame f.opcode f.payload f.fin f.mask
    let bs ← encodeFrames fs
    .ok (b ++ bs)

/-- A proper frame can be encoded if its length fits in eight bytes, which the length of every
Python object does. -/
lemma encodeFrame_of_proper {f : WireFrame} (h : f.Proper) (hlen : f.payload.length < 2 ^ 64) :
    ∃ b, encodeFrame f.opcode f.payload f.fin f.mask = .ok b := by
  have hfield : ∀ bit, ∃ field, lengthField bit f.payload.length = .ok field := by
    intro bit
    unfold lengthField
    split_ifs with hsmall hmid
    · exact ⟨_, rfl⟩
    · exact ⟨_, by rw [pack, if_pos (by norm_num; omega)]; rfl⟩
    · exact ⟨_, by rw [pack, if_pos (by norm_num at hlen ⊢; omega)]; rfl⟩
  obtain ⟨field, hf⟩ := hfield (if f.mask.isSome then 0x80 else 0)
  have hctl : ¬ (f.opcode ∈ CONTROL_OPCODES ∧ f.payload.length > MAX_CONTROL_PAYLOAD_BYTES) := by
    rintro ⟨hop, hbig⟩
    exact absurd (h.short_of_control hop) (by omega)
  have hkey : ¬ (f.mask.any fun key => key.length ≠ 4) = true := by
    cases hm : f.mask with
    | none => simp
    | some key => simp [h.key_length key hm]
  rw [encodeFrame, if_neg hctl, if_neg hkey, hf, ok_bind]
  cases f.mask with
  | none => exact ⟨_, rfl⟩
  | some key => exact ⟨_, rfl⟩

/-- So can a sequence of proper frames. -/
lemma encodeFrames_of_proper {fs : List WireFrame} (h : ∀ f ∈ fs, f.Proper)
    (hlen : ∀ f ∈ fs, f.payload.length < 2 ^ 64) : ∃ bytes, encodeFrames fs = .ok bytes := by
  induction fs with
  | nil => exact ⟨[], rfl⟩
  | cons f fs ih =>
    obtain ⟨b, hb⟩ := encodeFrame_of_proper (h f List.mem_cons_self) (hlen f List.mem_cons_self)
    obtain ⟨bs, hbs⟩ := ih (fun g hg => h g (List.mem_cons_of_mem f hg))
      (fun g hg => hlen g (List.mem_cons_of_mem f hg))
    exact ⟨b ++ bs, by rw [encodeFrames, hb, ok_bind, hbs, ok_bind]⟩

/-! ## The scanner of a fresh parser -/

/-- A parser between two frames, as a scanner. -/
def frameScanner (cap : ℕ) : Scanner UInt8 Exn Frame where
  scan := (FrameParser.fresh cap none).scan
  item_pos h := FrameParser.scan_item_pos (waiting_fresh cap none) h
  item_le h := FrameParser.scan_item_le (.inr (waiting_fresh cap none)) h
  item_append h t := by
    rw [FrameParser.scan_append (.inr (waiting_fresh cap none)) t (by rw [h]; simp), h]
  fail_append h t := by
    rw [FrameParser.scan_append (.inr (waiting_fresh cap none)) t (by rw [h]; simp), h]

variable {cap : ℕ} {p : FrameParser} {pending : List UInt8}

open FrameParser

/-- **Encoded frames scan to the frames they are**, and nothing is left.

**Proof sketch.** Induction on the frames, with `scan_encodeFrame` for the first one. -/
lemma all_encodeFrames {fs : List WireFrame} {bytes : List UInt8} (h : ∀ f ∈ fs, f.Proper)
    (henc : encodeFrames fs = .ok bytes) :
    (frameScanner cap).all bytes = ⟨fs.map (WireFrame.parsed cap), none, []⟩ := by
  induction fs generalizing bytes with
  | nil =>
    cases henc
    exact Scanner.all_of_more _ (scan_short (waiting_fresh cap none) Nat.two_pos)
  | cons f fs ih =>
    obtain ⟨b, hb, henc⟩ := bind_eq_ok.mp henc
    obtain ⟨bs, hbs, henc⟩ := bind_eq_ok.mp henc
    cases henc
    have hf := h f List.mem_cons_self
    have hscan : (frameScanner cap).scan (b ++ bs) = .item (f.parsed cap) b.length :=
      scan_encodeFrame hb hf.opcode_mem hf.fin_of_control
    rw [Scanner.all_of_item _ hscan, List.drop_left,
      ih (fun g hg => h g (List.mem_cons_of_mem f hg)) hbs]
    rfl

/-! ## The caller's loop -/

/-- What a caller sees of one piece: the frames that are ready, the error after them, the bytes the
parser has consumed, and the parser. -/
structure Read where
  frames : List Frame
  error : Option Exn
  consumed : ℕ
  parser : FrameParser

/-- Put a frame in front of what is read. -/
def Read.cons (f : Frame) (r : Read) : Read := { r with frames := f :: r.frames }

/-- Feed `chunk` from `offset` on, resetting the parser after each `FRAME_READY`. Every round
consumes a byte, so as many rounds as there are bytes are enough. -/
def readLoop (chunk : List UInt8) : ℕ → ℕ → FrameParser → Read
  | 0, offset, p => ⟨[], none, offset, p⟩
  | rounds + 1, offset, p =>
    if offset ≥ chunk.length then ⟨[], none, offset, p⟩
    else
      match p.feed chunk offset with
      | (.error e, p') => ⟨[], some e, offset, p'⟩
      | (.ok consumed, p') =>
        if p'.state = .frameReady then
          (readLoop chunk rounds (offset + consumed) p'.reset).cons p'.frame
        else readLoop chunk rounds (offset + consumed) p'

/-- The caller's loop over one piece. -/
def readChunk (p : FrameParser) (chunk : List UInt8) : Read := readLoop chunk chunk.length 0 p

/-- The caller's loop over all pieces, up to the first error. -/
def readChunks (p : FrameParser) : List (List UInt8) → Read
  | [] => ⟨[], none, 0, p⟩
  | chunk :: chunks =>
    match readChunk p chunk with
    | ⟨fs, some e, n, p'⟩ => ⟨fs, some e, n, p'⟩
    | ⟨fs, none, n, p'⟩ =>
      let r := readChunks p' chunks
      ⟨fs ++ r.frames, r.error, n + r.consumed, r.parser⟩

/-- `p` has taken the bytes `pending` of a frame that is not complete. Between two frames it is as
`reset` leaves it. -/
structure FrameParser.Holding (cap : ℕ) (p : FrameParser) (pending : List UInt8) : Prop where
  resumes : Resumes (fresh cap none) pending p
  between : pending = [] → p = fresh cap none

/-- A parser between two frames holds nothing. -/
lemma holding_fresh (cap : ℕ) : (fresh cap none).Holding cap [] where
  resumes := ⟨waiting_fresh cap none, rfl, rfl, fun t => by
    rw [List.nil_append]
    cases (fresh cap none).scan t <;> simp⟩
  between _ := rfl

/-- A parser that holds a part of a frame needs more bytes. -/
lemma FrameParser.Holding.scan_eq (h : p.Holding cap pending) (t : List UInt8) :
    (frameScanner cap).scan (pending ++ t) = shift pending.length (p.scan t) :=
  h.resumes.scan_append t

/-- What the loop reads is what the scanner reads. -/
structure Read.Agrees (r : Read) (cap total : ℕ) (o : Output UInt8 Exn Frame) : Prop where
  frames : r.frames = o.items
  error : r.error = o.error
  consumed : o.error = none → r.consumed = total
  parser : o.error = none → r.parser.Holding cap o.rest

/-- **The caller's loop** reads what the scanner reads of the bytes the parser holds and the rest of
the piece.

**Proof sketch.** Induction on the rounds. A feed that completes a frame leaves a parser that is
reset to a fresh one; one that does not has taken all there is. -/
lemma readLoop_spec (chunk : List UInt8) (rounds offset : ℕ) (h : p.Holding cap pending)
    (hr : chunk.length - offset ≤ rounds) (ho : offset ≤ chunk.length) :
    (readLoop chunk rounds offset p).Agrees cap chunk.length
      ((frameScanner cap).all (pending ++ chunk.drop offset)) := by
  have hstop : ∀ q : FrameParser, ∀ held, q.Holding cap held →
      Read.Agrees ⟨[], none, chunk.length, q⟩ cap chunk.length ((frameScanner cap).all held) := by
    intro q held hq
    have hmore : (frameScanner cap).scan held = .more := by
      have hshort := @FrameParser.scan_short q [] hq.resumes.waiting
        hq.resumes.waiting.need_pos
      rw [← List.append_nil held, hq.scan_eq, hshort, shift_more]
    rw [Scanner.all_of_more _ hmore]
    exact ⟨rfl, rfl, fun _ => rfl, fun _ => hq⟩
  induction rounds generalizing offset p pending with
  | zero =>
    obtain rfl : offset = chunk.length := by omega
    rw [List.drop_length, List.append_nil]
    exact hstop p pending h
  | succ rounds ih =>
    rw [readLoop]
    by_cases hend : offset ≥ chunk.length
    · obtain rfl : offset = chunk.length := by omega
      rw [if_pos le_rfl, List.drop_length, List.append_nil]
      exact hstop p pending h
    rw [if_neg hend]
    have hfeed := @FrameParser.feed_spec p chunk offset h.resumes.waiting
    have hscan := h.scan_eq (chunk.drop offset)
    have hlen : (chunk.drop offset).length = chunk.length - offset := List.length_drop
    cases hs : p.scan (chunk.drop offset) with
    | more =>
      obtain ⟨hout, hres⟩ := hfeed.more hs
      rcases hf : p.feed chunk offset with ⟨_ | consumed, p'⟩
      · rw [hf] at hout
        cases hout
      · rw [hf] at hout hres
        cases hout
        dsimp only at hres ⊢
        rw [if_neg hres.waiting.not_ready, hlen, show offset + (chunk.length - offset) = chunk.length
          by omega]
        have hhold : p'.Holding cap (pending ++ chunk.drop offset) := by
          refine ⟨⟨hres.waiting, hres.cap.trans h.resumes.cap,
            hres.lastError.trans h.resumes.lastError, fun t => ?_⟩, fun hnil => ?_⟩
          · rw [List.append_assoc, h.resumes.scan_append, hres.scan_append, shift_shift,
              List.length_append]
          · have := (List.append_eq_nil_iff.mp hnil).2
            rw [List.drop_eq_nil_iff] at this
            omega
        have hagree := ih chunk.length hhold (by omega) le_rfl
        rwa [List.drop_length, List.append_nil] at hagree
    | fail e =>
      obtain ⟨hout, -⟩ := hfeed.fail e hs
      rw [hs, shift_fail] at hscan
      rw [Scanner.all_of_fail _ hscan]
      rcases hf : p.feed chunk offset with ⟨e' | consumed, p'⟩
      · rw [hf] at hout
        cases hout
        exact ⟨rfl, rfl, fun h => absurd h (by simp), fun h => absurd h (by simp)⟩
      · rw [hf] at hout
        cases hout
    | item f n =>
      obtain ⟨hout, hread⟩ := hfeed.item f n hs
      rw [hs, shift_item] at hscan
      have hpos := scan_item_pos h.resumes.waiting hs
      have hle := scan_item_le (.inr h.resumes.waiting) hs
      rw [Scanner.all_of_item _ hscan]
      rcases hf : p.feed chunk offset with ⟨e' | consumed, p'⟩
      · rw [hf] at hout
        cases hout
      · rw [hf] at hout hread
        cases hout
        dsimp only
        rw [if_pos hread.ready]
        have hreset : p'.reset = fresh cap none := by
          rw [reset, hread.cap, hread.lastError, h.resumes.cap, h.resumes.lastError]
          rfl
        have hagree := ih (offset + n) (holding_fresh cap) (by omega) (by omega)
        rw [← hreset] at hagree
        rw [List.nil_append] at hagree
        have hdrop : (pending ++ chunk.drop offset).drop (pending.length + n) =
            chunk.drop (offset + n) := by
          rw [List.drop_append, List.drop_eq_nil_of_le (by omega), List.nil_append,
            List.drop_drop, show pending.length + n - pending.length = n by omega]
        rw [hdrop]
        refine ⟨?_, hagree.error, hagree.consumed, hagree.parser⟩
        change p'.frame :: _ = [f] ++ _
        rw [hread.frame_eq, hagree.frames]
        rfl

/-- One piece. -/
theorem readChunk_spec (chunk : List UInt8) (h : p.Holding cap pending) :
    (readChunk p chunk).Agrees cap chunk.length ((frameScanner cap).all (pending ++ chunk)) := by
  exact readLoop_spec chunk chunk.length 0 h (Nat.sub_le _ _) (Nat.zero_le _)

/-- All pieces.

**Proof sketch.** Induction on the pieces, with `Scanner.all_append`. -/
lemma readChunks_spec (chunks : List (List UInt8)) (h : p.Holding cap pending)
    (hok : ((frameScanner cap).all (pending ++ chunks.flatten)).error = none) :
    (readChunks p chunks).Agrees cap chunks.flatten.length
      ((frameScanner cap).all (pending ++ chunks.flatten)) := by
  induction chunks generalizing p pending with
  | nil =>
    have hagree := readChunk_spec [] h
    rw [List.flatten_nil]
    exact hagree
  | cons chunk chunks ih =>
    rw [List.flatten_cons, ← List.append_assoc] at hok ⊢
    have hagree := readChunk_spec chunk h
    have hfirst : ((frameScanner cap).all (pending ++ chunk)).error = none := by
      by_contra hne
      obtain ⟨e, he⟩ := Option.ne_none_iff_exists'.mp hne
      have hbad := ((frameScanner cap).all_append_of_error _ chunks.flatten he).2
      rw [hok] at hbad
      cases hbad
    rw [Scanner.all_append _ _ _ hfirst] at hok ⊢
    have hrest := ih (hagree.parser hfirst) hok
    rcases hread : readChunk p chunk with ⟨fs, e, n, p'⟩
    rw [hread] at hagree hrest
    obtain rfl : e = none := hagree.error.trans hfirst
    have hn : n = chunk.length := hagree.consumed hfirst
    simp only [readChunks, hread]
    refine ⟨?_, hrest.error, fun _ => ?_, hrest.parser⟩
    · exact congrArg₂ (· ++ ·) hagree.frames hrest.frames
    · rw [List.length_append, hn, hrest.consumed hok]

/-- **The frame codec.** Proper frames can be encoded, and whatever pieces their bytes arrive in, a
parser with any cap reads exactly these frames in order, consumes every byte and is ready for the
next frame. A frame whose payload exceeds the cap is reported as oversized with its true length, and
every other frame with its payload. -/
theorem readChunks_encodeFrames (cap : ℕ) (fs : List WireFrame) (h : ∀ f ∈ fs, f.Proper) :
    ((∀ f ∈ fs, f.payload.length < 2 ^ 64) → ∃ bytes, encodeFrames fs = .ok bytes) ∧
    ∀ chunks : List (List UInt8), encodeFrames fs = .ok chunks.flatten →
      readChunks (fresh cap none) chunks =
        ⟨fs.map fun f =>
            { fin := f.fin, opcode := f.opcode, hadMask := f.mask.isSome
              reportedLength := f.payload.length, oversized := f.payload.length > cap
              payload := if f.payload.length > cap then [] else f.payload },
          none, chunks.flatten.length, fresh cap none⟩ := by
  refine ⟨encodeFrames_of_proper h, fun chunks henc => ?_⟩
  have hall := @all_encodeFrames cap fs chunks.flatten h henc
  have hagree := readChunks_spec chunks (holding_fresh cap)
    (by rw [List.nil_append, hall])
  rw [List.nil_append, hall] at hagree
  rcases hread : readChunks (fresh cap none) chunks with ⟨frames, e, n, p⟩
  rw [hread] at hagree
  obtain rfl : frames = _ := hagree.frames
  obtain rfl : e = none := hagree.error
  obtain rfl : n = _ := hagree.consumed rfl
  obtain rfl : p = _ := (hagree.parser rfl).between rfl
  rfl

/-- A masked text frame and a final pong, with a cap that only the pong fits, in three pieces. -/
theorem readChunks_encodeFrames_split :
    readChunks (fresh 2 none) [[0x01, 0x83, 1], [2, 3, 4, 0x49, 0x4b], [0x4a, 0x8a, 0]] =
      ⟨[⟨false, OPCODE_TEXT, true, 3, true, []⟩, ⟨true, OPCODE_PONG, false, 0, false, []⟩],
        none, 11, fresh 2 none⟩ :=
  (readChunks_encodeFrames 2
    [⟨false, OPCODE_TEXT, [0x48, 0x49, 0x49], some [1, 2, 3, 4]⟩, ⟨true, OPCODE_PONG, [], none⟩]
    (by
      intro f hf
      simp only [List.mem_cons, List.not_mem_nil, or_false] at hf
      rcases hf with rfl | rfl
      · exact ⟨by decide, by decide, by decide, by simp⟩
      · exact ⟨by decide, by decide, by decide, by simp⟩)).2 _ (by rfl)

end ChuMicro.Websockets
