import ChuMicro.Repl.LineEndings
import ChuMicro.Repl.Patterns

/-!
# Following the output of a board

`chumicro_repl/_follow.py`: `tail` reads a serial port until its window elapses, decodes what comes,
feeds it to the pattern detector and ends early when a failure is detected. When the device drops it
waits for the port to come back and starts over with a fresh decoder and a fresh detector. What is
read, and how a wait for the port ends, is what the world does and is given as a list; the window
elapses at its end.

## Main definitions

* `Repl.tail` — `tail`.
* `Repl.received` — the text that a run receives.
* `Repl.Fails` — a text with a failure in it.

## Main results

* `Repl.tailLoop_of_fails`, `Repl.tailLoop_of_not_fails` — one chunk ends the run exactly where the
  window holds a failure with it.
-/

namespace ChuMicro.Repl

/-! ## The loop -/

/-- `ExitCode`. -/
inductive ExitCode where
  | ok
  | tracebackDetected
  | interrupted
  | disconnected
  deriving DecidableEq, Repr

/-- `_FAIL_PATTERN_KINDS`. -/
def FAIL_PATTERN_KINDS : List PatternKind := [.traceback, .hardFault, .safeMode]

/-- How `_attempt_reconnect` ends. -/
inductive Reconnect where
  | reopened
  | givenUp
  | interrupted

/-- What `read_chunk` does in one round: it returns bytes, or none while the link is quiet, or the
user interrupts it, or it finds the device gone, with what a wait for it would bring. -/
inductive Read where
  | chunk (data : List UInt8)
  | interrupted
  | dropped (reconnect : Reconnect)

/-- The loop of `tail`; `reconnects` says whether `reconnect_seconds` is positive. -/
def tailLoop (failOnTraceback reconnects : Bool) :
    Utf8StreamDecoder → StreamingPatternDetector → List Read → ExitCode
  | _, _, [] => .ok
  | _, _, .interrupted :: _ => .interrupted
  | _, _, .dropped reconnect :: reads =>
    if reconnects then
      match reconnect with
      | .reopened => tailLoop failOnTraceback reconnects .new .new reads
      | .givenUp => .disconnected
      | .interrupted => .interrupted
    else .disconnected
  | decoder, detector, .chunk data :: reads =>
    if data = [] then tailLoop failOnTraceback reconnects decoder detector reads
    else if (decoder.decode data).1 = [] then
      tailLoop failOnTraceback reconnects (decoder.decode data).2 detector reads
    else if failOnTraceback && (detector.feed (decoder.decode data).1).1.any
        (fun found => FAIL_PATTERN_KINDS.contains found.kind) then .tracebackDetected
    else
      tailLoop failOnTraceback reconnects (decoder.decode data).2
        (detector.feed (decoder.decode data).1).2 reads

/-- `tail`. -/
def tail (failOnTraceback reconnects : Bool) (reads : List Read) : ExitCode :=
  tailLoop failOnTraceback reconnects .new .new reads

/-- The text that a run receives, did it not end early. -/
def receivedFrom (reconnects : Bool) : Utf8StreamDecoder → List Read → Str
  | _, [] => []
  | _, .interrupted :: _ => []
  | _, .dropped reconnect :: reads =>
    if reconnects then
      match reconnect with
      | .reopened => receivedFrom reconnects .new reads
      | .givenUp => []
      | .interrupted => []
    else []
  | decoder, .chunk data :: reads =>
    (decoder.decode data).1 ++ receivedFrom reconnects (decoder.decode data).2 reads

@[inherit_doc receivedFrom] def received (reconnects : Bool) (reads : List Read) : Str :=
  receivedFrom reconnects .new reads

/-! ## When a chunk ends the run -/

/-- **A text with a failure.** -/
def Fails (text : Str) : Prop := HasTraceback text ∨ HasSafeMode text ∨ HasHardFault text

section Loop

variable {reconnects : Bool} {decoder : Utf8StreamDecoder} {detector : StreamingPatternDetector}
  {data : List UInt8} {reads : List Read}

/-- A failing kind is reported where the buffer and the new text hold a failure. -/
lemma any_feed_iff {text : Str} (htext : text ≠ []) :
    (detector.feed text).1.any (fun found => FAIL_PATTERN_KINDS.contains found.kind) = true ↔
      Fails (detector.buffer ++ text) := by
  have hkind : ∀ entry ∈ PATTERNS, (∃ found ∈ (detector.feed text).1, found.kind = entry.1) ↔
      entry.2.finditer (detector.buffer ++ text) ≠ [] := fun entry h =>
    StreamingPatternDetector.exists_kind_feed_iff h htext
  have htraceback := hkind (.traceback, TRACEBACK_PATTERN) (by simp [PATTERNS])
  have hsafe := hkind (.safeMode, SAFE_MODE_PATTERN) (by simp [PATTERNS])
  have hhard := hkind (.hardFault, HARD_FAULT_PATTERN) (by simp [PATTERNS])
  dsimp only at htraceback hsafe hhard
  rw [finditer_traceback] at htraceback
  rw [finditer_safeMode] at hsafe
  rw [finditer_hardFault] at hhard
  rw [Fails, ← htraceback, ← hsafe, ← hhard, List.any_eq_true]
  simp only [FAIL_PATTERN_KINDS, List.contains_eq_mem, List.mem_cons, List.not_mem_nil, or_false,
    decide_eq_true_eq]
  constructor
  · rintro ⟨found, hfound, h | h | h⟩
    · exact .inl ⟨found, hfound, h⟩
    · exact .inr (.inr ⟨found, hfound, h⟩)
    · exact .inr (.inl ⟨found, hfound, h⟩)
  · rintro (⟨found, hfound, h⟩ | ⟨found, hfound, h⟩ | ⟨found, hfound, h⟩)
    · exact ⟨found, hfound, .inl h⟩
    · exact ⟨found, hfound, .inr (.inr h)⟩
    · exact ⟨found, hfound, .inr (.inl h)⟩

/-- Nothing is fed where nothing is decoded. -/
lemma tailLoop_of_nil (h : (decoder.decode data).1 = []) :
    tailLoop true reconnects decoder detector (.chunk data :: reads) =
      tailLoop true reconnects (decoder.decode data).2 detector reads := by
  rw [tailLoop, if_pos h]
  split_ifs with hdata
  · rw [hdata]
    rfl
  · rfl

/-- Where something is decoded, something was read. -/
lemma ne_nil_of_decode (h : (decoder.decode data).1 ≠ []) : data ≠ [] := by
  rintro rfl
  exact h rfl

/-- **A failure** in the window ends the run. -/
theorem tailLoop_of_fails (h : (decoder.decode data).1 ≠ [])
    (hfails : Fails (detector.buffer ++ (decoder.decode data).1)) :
    tailLoop true reconnects decoder detector (.chunk data :: reads) = .tracebackDetected := by
  rw [tailLoop, if_neg (ne_nil_of_decode h), if_neg h, if_pos]
  rwa [Bool.true_and, any_feed_iff h]

/-- **Without a failure** in the window the run goes on. -/
theorem tailLoop_of_not_fails (h : (decoder.decode data).1 ≠ [])
    (hfails : ¬ Fails (detector.buffer ++ (decoder.decode data).1)) :
    tailLoop true reconnects decoder detector (.chunk data :: reads) =
      tailLoop true reconnects (decoder.decode data).2
        (detector.feed (decoder.decode data).1).2 reads := by
  rw [tailLoop, if_neg (ne_nil_of_decode h), if_neg h, if_neg]
  rwa [Bool.true_and, any_feed_iff h]

end Loop

end ChuMicro.Repl
