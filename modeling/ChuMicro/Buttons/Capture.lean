import ChuMicro.Lib.Debounce
import ChuMicro.Lib.Ring
import ChuMicro.Timing

/-!
# Captured buttons

`MpButtonSource` of `chumicro_buttons/_adapters/mp.py`: an interrupt stores every raw edge of the
pins in a ring, and the passes of the loop drain the ring and publish debounced edges.

Interrupts come at any time, also while `next_event` runs. So a pass is modelled in steps: one round
of the loop that folds the captured edges, or one round of the sweep over the keys, with interrupts
between any two of them. A pass is `poll` and as many calls of `next_event` as it takes until one
returns `False`, which is what `Button.check` and `Buttons.check` do.

The fields of a `Capture` from `published` on are read by no function of the source: the edges it
has published, the raw edges there have been with their real times, how many of them have been
folded, and the real time of the last pass.

## Main definitions

* `Buttons.MpButtonSource` — the source, with `captureEdge`, `foldEdge` and `sweep`.
* `Buttons.Capture` — a source with its pins and the pass it is in.
* `Buttons.Op` — interrupts, passes that start, and their steps.
-/

namespace ChuMicro.Buttons

open Buffers

/-! ## The source -/

/-- `DEFAULT_RING_DEPTH`. -/
def DEFAULT_RING_DEPTH : ℕ := 32

/-- The arguments of a source. -/
structure Config where
  keyCount : ℕ
  activeLow : Bool := true
  settleMs : ℤ := 10
  ringDepth : ℕ := DEFAULT_RING_DEPTH

/-- `_pressed_level`. -/
def Config.pressedLevel (config : Config) : ℕ := if config.activeLow then 0 else 1

/-- Whether a level of a pin means that its key is pressed. -/
def Config.sample (config : Config) (level : ℕ) : Bool := level = config.pressedLevel

/-- The entries of `_believed`, `_pending` and `_change_ms` for a key. -/
structure Key where
  believed : Bool := false
  pending : Bool
  changeMs : ℤ
  deriving DecidableEq, Repr

/-- What the loop of `next_event` does to the entries for the key of a captured edge, and what it
publishes: whether the key is pressed, and since when. -/
def Key.fold (settleMs : ℤ) (entry : Key) (sample : Bool) (atMs : ℤ) : Option (Bool × ℤ) × Key :=
  if sample = entry.pending then (none, entry)
  else if entry.pending ≠ entry.believed ∧ ticksDiff atMs entry.changeMs ≥ settleMs then
    (some (entry.pending, entry.changeMs), ⟨entry.pending, sample, atMs⟩)
  else
    -- back before its window closed, or the first step away
    (none, { entry with
      pending := sample
      changeMs := if sample ≠ entry.believed then atMs else entry.changeMs })

/-- What the sweep of `next_event` does to the entries for a key, and what it publishes. -/
def Key.sweep (settleMs : ℤ) (entry : Key) (nowMs : ℤ) : Option (Bool × ℤ) × Key :=
  if entry.pending ≠ entry.believed ∧ ticksDiff nowMs entry.changeMs ≥ settleMs then
    (some (entry.pending, entry.changeMs), { entry with believed := entry.pending })
  else (none, entry)

/-- `event_key`, `event_pressed` and `event_ms`. -/
structure Event where
  key : ℕ
  pressed : Bool
  ms : ℤ
  deriving DecidableEq, Repr

/-- `MpButtonSource`. A slot of the ring is an entry of `_edge_codes` and one of `_edge_times`. -/
structure MpButtonSource where
  config : Config
  ring : WrapRing (ℕ × ℤ)
  overflowed : Bool := false
  droppedEdges : Bool := false
  keys : ℕ → Key
  sweepKey : ℕ := 0
  nowMs : ℤ

namespace MpButtonSource

/-- `MpButtonSource(pins, ...)`, for the levels that the pins have. -/
def new (config : Config) (levels : ℕ → ℕ) (startedMs : ℤ) : MpButtonSource where
  config := config
  ring := { slots := List.replicate config.ringDepth (0, 0) }
  keys := fun key => { pending := config.sample (levels key), changeMs := startedMs }
  nowMs := startedMs

/-- The ring would drop an edge. -/
def Full (s : MpButtonSource) : Prop := s.ring.next s.ring.writeIndex = s.ring.readIndex

instance (s : MpButtonSource) : Decidable s.Full := inferInstanceAs (Decidable (_ = _))

/-- `_capture_edge`, at the tick `ms`. -/
def captureEdge (s : MpButtonSource) (key level : ℕ) (ms : ℤ) : MpButtonSource :=
  match s.ring.push (key <<< 1 ||| level, ms) with
  | none => { s with overflowed := true, droppedEdges := true }
  | some ring => { s with ring := ring }

/-- `poll`. -/
def poll (s : MpButtonSource) (nowMs : ℤ) : MpButtonSource := { s with nowMs := nowMs }

/-- Change the entries for a key. -/
def setKey (s : MpButtonSource) (key : ℕ) (entry : Key) : MpButtonSource :=
  { s with keys := Function.update s.keys key entry }

/-- The round of the loop of `next_event` for a captured edge, and what it publishes. -/
def foldEdge (s : MpButtonSource) (code : ℕ) (atMs : ℤ) : Option Event × MpButtonSource :=
  let keyIndex := code >>> 1
  let (event, entry) := (s.keys keyIndex).fold s.config.settleMs (s.config.sample (code &&& 1)) atMs
  (event.map fun (pressed, ms) => ⟨keyIndex, pressed, ms⟩, s.setKey keyIndex entry)

/-- The part of `next_event` that reads the pins again when edges have been dropped. -/
def rereadPins (s : MpButtonSource) (pins : ℕ → ℕ) : MpButtonSource :=
  if s.droppedEdges then
    { s with
      droppedEdges := false
      keys := fun key =>
        let entry := s.keys key
        let sample := s.config.sample (pins key)
        if key < s.config.keyCount ∧ sample ≠ entry.pending then
          { entry with
            pending := sample
            changeMs := if sample ≠ entry.believed then s.nowMs else entry.changeMs }
        else entry }
  else s

/-- The round of the sweep for a key, and what it publishes. -/
def sweep (s : MpButtonSource) (key : ℕ) : Option Event × MpButtonSource :=
  match (s.keys key).sweep s.config.settleMs s.nowMs with
  | (some (pressed, ms), entry) =>
    (some ⟨key, pressed, ms⟩, { s.setKey key entry with sweepKey := key + 1 })
  | (none, _) => (none, s)

end MpButtonSource

/-! ## Passes -/

/-- A raw edge of a pin at a real time. -/
structure Edge where
  key : ℕ
  level : ℕ
  time : ℤ
  deriving DecidableEq, Repr

/-- Where a pass is: not in one, in the loop over the captured edges, or in the sweep. -/
inductive Phase where
  | idle
  | folding
  | sweeping (key : ℕ)
  deriving DecidableEq, Repr

/-- A source with its pins and the pass it is in. -/
structure Capture where
  source : MpButtonSource
  pins : ℕ → ℕ
  phase : Phase := .idle
  published : List Event := []
  edges : List Edge := []
  folded : ℕ := 0
  now : ℤ

/-- What happens to a source. -/
inductive Op where
  | interrupt (e : Edge)
  | poll (time : ℤ)
  | step
  deriving DecidableEq, Repr

namespace Capture

/-- A source that has just been made. -/
def new (config : Config) (levels : ℕ → ℕ) (start : ℤ) : Capture where
  source := .new config levels (ticksMs start)
  pins := levels
  now := start

/-- One round of `next_event`. When a round has published an edge the next call begins. -/
def step (c : Capture) : Capture :=
  match c.phase with
  | .idle => c
  | .folding =>
    match c.source.ring.pop with
    | some ((code, atMs), ring) =>
      let (event, source) := { c.source with ring := ring }.foldEdge code atMs
      { c with source := source, published := c.published ++ event.toList, folded := c.folded + 1 }
    | none =>
      let source := c.source.rereadPins c.pins
      { c with source := source, phase := .sweeping source.sweepKey }
  | .sweeping key =>
    if key < c.source.config.keyCount then
      match c.source.sweep key with
      | (some event, source) =>
        { c with source := source, published := c.published ++ [event], phase := .folding }
      | (none, source) => { c with source := source, phase := .sweeping (key + 1) }
    else { c with source := { c.source with sweepKey := 0 }, phase := .idle }

/-- The source after something has happened. -/
def apply (c : Capture) : Op → Capture
  | .interrupt e =>
    { c with
      source := c.source.captureEdge e.key e.level (ticksMs e.time)
      pins := Function.update c.pins e.key e.level
      edges := c.edges ++ [e] }
  | .poll time => { c with source := c.source.poll (ticksMs time), phase := .folding, now := time }
  | .step => c.step

/-- The source after a schedule. -/
def run (c : Capture) (ops : List Op) : Capture := ops.foldl apply c

/-- What happens along a schedule meets a condition. -/
def Along (P : Capture → Op → Prop) (c : Capture) : List Op → Prop
  | [] => True
  | op :: ops => P c op ∧ Along P (c.apply op) ops

/-- What can happen: an interrupt of a pin when the ring is not full, a pass when none is running,
and a step of a running one. Time does not go back. -/
def Allowed (c : Capture) : Op → Prop
  | .interrupt e => e.key < c.source.config.keyCount ∧ e.level < 2 ∧ c.now ≤ e.time ∧
      (∀ e' ∈ c.edges, e'.time ≤ e.time) ∧ ¬ c.source.Full
  | .poll time => c.phase = .idle ∧ c.now ≤ time ∧ ∀ e ∈ c.edges, e.time ≤ time
  | .step => c.phase ≠ .idle

instance (c : Capture) : (op : Op) → Decidable (c.Allowed op)
  | .interrupt _ => inferInstanceAs (Decidable (_ ∧ _))
  | .poll _ => inferInstanceAs (Decidable (_ ∧ _))
  | .step => inferInstanceAs (Decidable (_ ≠ _))

instance instDecidableAlong (P : Capture → Op → Prop) [∀ c op, Decidable (P c op)] (c : Capture) :
    (ops : List Op) → Decidable (Along P c ops)
  | [] => inferInstanceAs (Decidable True)
  | op :: ops =>
    have := instDecidableAlong P (c.apply op) ops
    inferInstanceAs (Decidable (_ ∧ _))

/-- The edges that a source has published for a key. -/
def publishedFor (c : Capture) (key : ℕ) : List (Bool × ℤ) :=
  c.published.filterMap fun event => if event.key = key then some (event.pressed, event.ms) else none

/-- The raw changes of a key among edges. -/
def changesFor (config : Config) (edges : List Edge) (key : ℕ) : List (Bool × ℤ) :=
  edges.filterMap fun e => if e.key = key then some (config.sample e.level, e.time) else none

/-- The stretches in which a key is down or up, told by edges. -/
def rawStretches (config : Config) (levels : ℕ → ℕ) (start : ℤ) (edges : List Edge) (key : ℕ) :
    List (Signals.Stretch Bool) :=
  Signals.stretches (config.sample (levels key)) start (changesFor config edges key)

/-- Since when a key has been at its level, as far as its edges have been folded. -/
def since (levels : ℕ → ℕ) (start : ℤ) (c : Capture) (key : ℕ) : ℤ :=
  ((rawStretches c.source.config levels start (c.edges.take c.folded) key).getLast?.map
    (·.start)).getD start

/-- The key has left the level that was published for it. -/
def Away (c : Capture) (key : ℕ) : Prop := (c.source.keys key).pending ≠ (c.source.keys key).believed

instance (c : Capture) (key : ℕ) : Decidable (c.Away key) := inferInstanceAs (Decidable (_ ≠ _))

/-- A step that judges a key does so within half a tick period of the time that the key has left the
published level. -/
def Timely (levels : ℕ → ℕ) (start : ℤ) (c : Capture) : Op → Prop
  | .step =>
    match c.phase with
    | .idle => True
    | .folding => ∀ e ∈ c.edges[c.folded]?, c.Away e.key →
        |e.time - since levels start c e.key| < TICKS_HALFPERIOD
    | .sweeping key => c.Away key → |c.now - since levels start c key| < TICKS_HALFPERIOD
  | _ => True

instance (levels : ℕ → ℕ) (start : ℤ) (c : Capture) (op : Op) : Decidable (Timely levels start c op) := by
  unfold Timely
  split
  · split <;> infer_instance
  · infer_instance

end Capture

end ChuMicro.Buttons
