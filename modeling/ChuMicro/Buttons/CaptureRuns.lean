import ChuMicro.Buttons.Capture
import Mathlib.Algebra.Order.Group.Unbundled.Int

/-!
# What captured buttons publish

What a source publishes for a key is the debounced signal of its pin, whatever the schedule of
passes: a long stretch away from the published level is published when the edge that ends it is
folded, or before that by a sweep. A sweep that is ahead of the loop in this way has published what
the loop would.

Ticks tell times apart within half a period only, so a key must not be judged half a period after it
has left the published level.

## Main definitions

* `Buttons.Fresh`, `Buttons.Ahead` — the two states of a key.
* `Buttons.Inv` — what every schedule keeps.
* `Buttons.Capture.Late` — schedules that end late enough.

## Main results

* `Buttons.Inv.publishedFor_eq` — what has been published in the end.
* `Buttons.captured_schedule_independent` — schedules cannot be seen.
-/

namespace ChuMicro.Buttons

open Buffers Signals

/-! ## Codes -/

/-- The slot that an edge is stored in. -/
def Edge.slot (e : Edge) : ℕ × ℤ := (e.key <<< 1 ||| e.level, ticksMs e.time)

variable {e : Edge} {time : ℤ}

lemma slot_key (h : e.level < 2) : e.slot.1 >>> 1 = e.key := by
  rw [Edge.slot, ← Nat.shiftLeft_add_eq_or_of_lt (by simpa using h), Nat.shiftRight_eq_div_pow,
    Nat.shiftLeft_eq]
  omega

lemma slot_level (h : e.level < 2) : e.slot.1 &&& 1 = e.level := by
  rw [Edge.slot, ← Nat.shiftLeft_add_eq_or_of_lt (by simpa using h), Nat.and_one_is_mod,
    Nat.shiftLeft_eq]
  omega

/-! ## A key -/

/-- A change as it is published. -/
def told (change : Bool × ℤ) : Bool × ℤ := (change.1, ticksMs change.2)

/-- What has been published for a key is the debounced signal up to its last stretch. -/
structure Fresh (settle : ℤ) (closed : List (Stretch Bool)) (last : Bool × ℤ) (entry : Key)
    (published : List (Bool × ℤ)) : Prop where
  believed_eq : entry.believed = lastLevel false (debounced settle false closed)
  published_eq : published = (debounced settle false closed).map told
  change_eq : last.1 ≠ entry.believed → entry.changeMs = ticksMs last.2

/-- The last stretch has been published too, before its end, and it will end late enough. -/
structure Ahead (settle now : ℤ) (waiting : List ℤ) (closed : List (Stretch Bool)) (last : Bool × ℤ)
    (entry : Key) (published : List (Bool × ℤ)) : Prop where
  believed_eq : entry.believed = last.1
  left : last.1 ≠ lastLevel false (debounced settle false closed)
  published_eq : published = (debounced settle false closed ++ [last]).map told
  held : last.2 + settle ≤ now
  ends : ∀ time ∈ waiting, last.2 + settle ≤ time

/-- What is true of the entries for a key with these stretches. -/
structure View (settle now : ℤ) (waiting : List ℤ) (closed : List (Stretch Bool)) (last : Bool × ℤ)
    (entry : Key) (published : List (Bool × ℤ)) : Prop where
  pending_eq : entry.pending = last.1
  state : Fresh settle closed last entry published ∨
    Ahead settle now waiting closed last entry published

section Key

variable {settle now time : ℤ} {waiting : List ℤ} {closed : List (Stretch Bool)} {last : Bool × ℤ}
  {entry : Key} {published : List (Bool × ℤ)} {sample : Bool}

/-- A stretch that has ended is published if it was long and away. -/
lemma debounced_closed (settle : ℤ) (closed : List (Stretch Bool)) (last : Bool × ℤ) (time : ℤ) :
    debounced settle false (closed ++ [⟨last.1, last.2, some time⟩]) =
      debounced settle false closed ++
        if settle ≤ time - last.2 ∧ last.1 ≠ lastLevel false (debounced settle false closed) then [last]
        else [] := by
  rw [debounced_append, debounced, debounced]
  congr 1
  have hsettled : (⟨last.1, last.2, some time⟩ : Stretch Bool).Settled settle ↔
      settle ≤ time - last.2 := by simp [Stretch.Settled]
  simp only [hsettled]
  split_ifs <;> rfl

/-- **An edge is folded** as the debounced signal asks. -/
lemma View.fold (h : View settle now (time :: waiting) closed last entry published)
    (hne : sample ≠ last.1)
    (hintime : entry.pending ≠ entry.believed → |time - last.2| < TICKS_HALFPERIOD) :
    View settle now waiting (closed ++ [⟨last.1, last.2, some time⟩]) (sample, time)
      (entry.fold settle sample (ticksMs time)).2
      (published ++ (entry.fold settle sample (ticksMs time)).1.toList) := by
  have hpending : sample ≠ entry.pending := by
    rw [h.pending_eq]
    exact hne
  have hclosed := debounced_closed settle closed last time
  unfold Key.fold
  rw [if_neg hpending]
  rcases h.state with hfresh | hahead
  · by_cases haway : entry.pending ≠ entry.believed
    · -- the window of the last stretch is judged here
      have hchange := hfresh.change_eq (h.pending_eq ▸ haway)
      have hleft : last.1 ≠ lastLevel false (debounced settle false closed) := by
        rw [← hfresh.believed_eq, ← h.pending_eq]
        exact haway
      rw [hchange, ticksDiff_ticksMs (abs_lt.mp (hintime haway)).1.le (abs_lt.mp (hintime haway)).2]
      by_cases hlong : settle ≤ time - last.2
      · rw [if_pos ⟨haway, hlong⟩]
        rw [if_pos ⟨hlong, hleft⟩] at hclosed
        refine ⟨rfl, .inl ⟨?_, ?_, fun _ => rfl⟩⟩
        · rw [hclosed, lastLevel_append_singleton]
          exact h.pending_eq
        · rw [hclosed, List.map_append, ← hfresh.published_eq, h.pending_eq]
          rfl
      · rw [if_neg fun hconfirmed => hlong hconfirmed.2]
        rw [if_neg fun hconfirmed => hlong hconfirmed.1, List.append_nil] at hclosed
        have hback : sample = entry.believed := by
          rw [h.pending_eq] at haway
          cases hs : sample <;> cases hl : last.1 <;> cases hb : entry.believed <;> simp_all
        refine ⟨rfl, .inl ⟨?_, ?_, fun hstill => absurd hback hstill⟩⟩
        · rw [hclosed]
          exact hfresh.believed_eq
        · rw [hclosed, ← hfresh.published_eq]
          exact List.append_nil _
    · rw [if_neg fun hconfirmed => haway hconfirmed.1]
      rw [not_ne_iff] at haway
      have hhome : last.1 = lastLevel false (debounced settle false closed) := by
        rw [← hfresh.believed_eq, ← h.pending_eq]
        exact haway
      rw [if_neg fun hconfirmed => hconfirmed.2 hhome, List.append_nil] at hclosed
      have haway' : sample ≠ entry.believed := haway ▸ hpending
      refine ⟨rfl, .inl ⟨?_, ?_, fun _ => ?_⟩⟩
      · rw [hclosed]
        exact hfresh.believed_eq
      · rw [hclosed, ← hfresh.published_eq]
        exact List.append_nil _
      · exact if_pos haway'
  · -- what was published ahead has been held long enough
    have hhome : entry.pending = entry.believed := by rw [h.pending_eq, hahead.believed_eq]
    have hlong : settle ≤ time - last.2 := by
      have := hahead.ends time List.mem_cons_self
      omega
    rw [if_neg fun hconfirmed => hconfirmed.1 hhome]
    rw [if_pos ⟨hlong, hahead.left⟩] at hclosed
    have haway' : sample ≠ entry.believed := hhome ▸ hpending
    refine ⟨rfl, .inl ⟨?_, ?_, fun _ => ?_⟩⟩
    · rw [hclosed, lastLevel_append_singleton]
      exact hahead.believed_eq
    · rw [hclosed, ← hahead.published_eq]
      exact List.append_nil _
    · exact if_pos haway'

/-- An edge to the level that the key is at changes nothing. -/
lemma Key.fold_of_eq (h : sample = entry.pending) (settle atMs : ℤ) :
    entry.fold settle sample atMs = (none, entry) := if_pos h

/-- **A key is swept** as the debounced signal asks, and is then home or was not away for long. -/
lemma View.sweep (h : View settle now waiting closed last entry published)
    (hwaiting : ∀ time ∈ waiting, now ≤ time)
    (hintime : entry.pending ≠ entry.believed → |now - last.2| < TICKS_HALFPERIOD) :
    View settle now waiting closed last (entry.sweep settle (ticksMs now)).2
        (published ++ (entry.sweep settle (ticksMs now)).1.toList) ∧
      ((entry.sweep settle (ticksMs now)).2.pending = (entry.sweep settle (ticksMs now)).2.believed ∨
        now - last.2 < settle) := by
  unfold Key.sweep
  by_cases haway : entry.pending ≠ entry.believed
  · rcases h.state with hfresh | hahead
    · have hchange := hfresh.change_eq (h.pending_eq ▸ haway)
      have hleft : last.1 ≠ lastLevel false (debounced settle false closed) := by
        rw [← hfresh.believed_eq, ← h.pending_eq]
        exact haway
      rw [hchange, ticksDiff_ticksMs (abs_lt.mp (hintime haway)).1.le (abs_lt.mp (hintime haway)).2]
      by_cases hlong : settle ≤ now - last.2
      · rw [if_pos ⟨haway, hlong⟩]
        refine ⟨⟨h.pending_eq, .inr ⟨h.pending_eq, hleft, ?_, by omega, fun time htime => ?_⟩⟩, .inl rfl⟩
        · rw [List.map_append, ← hfresh.published_eq, h.pending_eq]
          rfl
        · have := hwaiting time htime
          omega
      · rw [if_neg fun hsettled => hlong hsettled.2]
        exact ⟨by simpa using h, .inr (by omega)⟩
    · exact absurd (h.pending_eq.trans hahead.believed_eq.symm) haway
  · rw [if_neg fun hsettled => haway hsettled.1]
    exact ⟨by simpa using h, .inl (not_ne_iff.mp haway)⟩

/-- Times that come later, and passes, leave a key as it is. -/
lemma View.mono {now' : ℤ} {waiting' : List ℤ}
    (h : View settle now waiting closed last entry published) (hnow : now ≤ now')
    (hwaiting : ∀ time ∈ waiting', time ∈ waiting ∨ now ≤ time) :
    View settle now' waiting' closed last entry published := by
  refine ⟨h.pending_eq, h.state.imp_right fun hahead => ?_⟩
  have hheld := hahead.held
  refine ⟨hahead.believed_eq, hahead.left, hahead.published_eq, by omega, fun time htime => ?_⟩
  rcases hwaiting time htime with hold | hnew
  · exact hahead.ends time hold
  · omega

/-- At the end of a signal everything has been published, when the key is home. -/
lemma View.published_eq (h : View settle now waiting closed last entry published)
    (hhome : entry.pending = entry.believed) :
    published = (debounced settle false (closed ++ [⟨last.1, last.2, none⟩])).map told := by
  have hopen : (⟨last.1, last.2, none⟩ : Stretch Bool).Settled settle := by simp [Stretch.Settled]
  rw [debounced_append, debounced]
  rcases h.state with hfresh | hahead
  · have hlast : last.1 = lastLevel false (debounced settle false closed) := by
      rw [← hfresh.believed_eq, ← hhome, h.pending_eq]
    rw [if_neg fun haway => haway.2 hlast, debounced, List.append_nil]
    exact hfresh.published_eq
  · rw [if_pos ⟨hopen, hahead.left⟩]
    exact hahead.published_eq

end Key

/-! ## What every schedule keeps -/

namespace Capture

/-- The times of the edges of a key that have not been folded. -/
def waitingFor (c : Capture) (key : ℕ) : List ℤ :=
  (c.edges.drop c.folded).filterMap fun e => if e.key = key then some e.time else none

/-- The keys below this one have been swept since the pass began. -/
def sweptTo (c : Capture) : ℕ :=
  match c.phase with
  | .idle => c.source.config.keyCount
  | .folding => c.source.sweepKey
  | .sweeping key => key

end Capture

/-- What is true of a key: its entries fit its stretches, and a sweep leaves it home or not away for
long. -/
def KeyInv (levels : ℕ → ℕ) (start : ℤ) (c : Capture) (key : ℕ) : Prop :=
  ∃ closed last,
    Capture.rawStretches c.source.config levels start (c.edges.take c.folded) key =
      closed ++ [⟨last.1, last.2, none⟩] ∧
    View c.source.config.settleMs c.now (c.waitingFor key) closed last (c.source.keys key)
      (c.publishedFor key) ∧
    (last.2 = start ∨ ∃ e ∈ c.edges, e.time = last.2) ∧
    (key < c.sweptTo →
      ¬ c.Away key ∨ c.now ≤ last.2 ∨ c.now - last.2 < c.source.config.settleMs)

/-- What every schedule keeps. -/
structure Inv (config : Config) (levels : ℕ → ℕ) (start : ℤ) (c : Capture) : Prop where
  config_eq : c.source.config = config
  ring : c.source.ring.Holds ((c.edges.drop c.folded).map Edge.slot)
  folded_le : c.folded ≤ c.edges.length
  levels_lt : ∀ e ∈ c.edges, e.level < 2
  kept : c.source.droppedEdges = false
  nowMs_eq : c.source.nowMs = ticksMs c.now
  waiting_le : c.phase ≠ .folding ∨ 0 < c.source.sweepKey → ∀ e ∈ c.edges.drop c.folded, c.now ≤ e.time
  idle_sweep : c.phase = .idle → c.source.sweepKey = 0
  key : ∀ key, KeyInv levels start c key

variable {config : Config} {levels : ℕ → ℕ} {start : ℤ} {c : Capture} {key : ℕ}

open Capture

/-- A key that nothing happens to. -/
lemma KeyInv.of_eq {c' : Capture} (h : KeyInv levels start c key)
    (hconfig : c'.source.config = c.source.config)
    (hchanges : changesFor c.source.config (c'.edges.take c'.folded) key =
      changesFor c.source.config (c.edges.take c.folded) key)
    (hwaiting : c'.waitingFor key = c.waitingFor key) (hedges : c'.edges = c.edges)
    (hentry : c'.source.keys key = c.source.keys key)
    (hpublished : c'.publishedFor key = c.publishedFor key)
    (hnow : c'.now = c.now) (hswept : key < c'.sweptTo → key < c.sweptTo) : KeyInv levels start c' key := by
  obtain ⟨closed, last, hraw, hview, hsince, hhome⟩ := h
  refine ⟨closed, last, ?_, ?_, ?_, fun hkey => ?_⟩
  · rw [hconfig, rawStretches, hchanges]
    exact hraw
  · rw [hconfig, hentry, hpublished, hwaiting, hnow]
    exact hview
  · rw [hedges]
    exact hsince
  · rw [Capture.Away, hentry, hnow, hconfig]
    exact hhome (hswept hkey)

/-- Since when the key has been at its level. -/
lemma since_eq {closed : List (Stretch Bool)} {last : Bool × ℤ}
    (h : rawStretches c.source.config levels start (c.edges.take c.folded) key =
      closed ++ [⟨last.1, last.2, none⟩]) : since levels start c key = last.2 := by
  rw [since, h, List.getLast?_append]
  rfl

/-- A source that has just been made. -/
lemma inv_new (config : Config) (levels : ℕ → ℕ) (start : ℤ) :
    Inv config levels start (.new config levels start) where
  config_eq := rfl
  ring := WrapRing.holds_new _
  folded_le := le_rfl
  levels_lt := by simp [new]
  kept := rfl
  nowMs_eq := rfl
  waiting_le := by simp [new]
  idle_sweep := fun _ => rfl
  key := fun key => by
    refine ⟨[], (config.sample (levels key), start), rfl, ⟨rfl, .inl ⟨rfl, rfl, fun _ => rfl⟩⟩, .inl rfl,
      fun _ => .inr (.inl le_rfl)⟩

/-! ## One step -/

/-- An interrupt stores its edge. -/
lemma Inv.interrupt (h : Inv config levels start c) (hallowed : c.Allowed (.interrupt e)) :
    Inv config levels start (c.apply (.interrupt e)) := by
  obtain ⟨-, hlevel, hnow, -, hroom⟩ := hallowed
  obtain ⟨ring, hpush⟩ : ∃ ring, c.source.ring.push e.slot = some ring := by
    rw [MpButtonSource.Full] at hroom
    rw [WrapRing.push, if_neg hroom]
    exact ⟨_, rfl⟩
  have hcapture : c.source.captureEdge e.key e.level (ticksMs e.time) = { c.source with ring := ring } := by
    rw [MpButtonSource.captureEdge, show (e.key <<< 1 ||| e.level, ticksMs e.time) = e.slot from rfl, hpush]
  have hdrop : (c.edges ++ [e]).drop c.folded = c.edges.drop c.folded ++ [e] :=
    List.drop_append_of_le_length h.folded_le
  have htake : (c.edges ++ [e]).take c.folded = c.edges.take c.folded :=
    List.take_append_of_le_length h.folded_le
  simp only [apply, hcapture]
  refine ⟨h.config_eq, ?_, ?_, ?_, h.kept, h.nowMs_eq, ?_, h.idle_sweep, fun key => ?_⟩
  · rw [hdrop, List.map_append]
    exact h.ring.push hpush
  · exact h.folded_le.trans (by simp)
  · intro e' he'
    rcases List.mem_append.mp he' with he' | he'
    · exact h.levels_lt e' he'
    · rw [List.mem_singleton.mp he']
      exact hlevel
  · intro hphase e' he'
    rw [hdrop] at he'
    rcases List.mem_append.mp he' with he' | he'
    · exact h.waiting_le hphase e' he'
    · rw [List.mem_singleton.mp he']
      exact hnow
  · obtain ⟨closed, last, hraw, hview, hsince, hhome⟩ := h.key key
    refine ⟨closed, last, by rw [htake]; exact hraw, hview.mono le_rfl fun time htime => ?_, ?_, hhome⟩
    · rw [waitingFor, hdrop, List.filterMap_append] at htime
      rcases List.mem_append.mp htime with htime | htime
      · exact .inl htime
      · have htime' : time = e.time := by
          simp only [List.filterMap_cons, List.filterMap_nil] at htime
          split_ifs at htime
          · simpa using htime
          · cases htime
        rw [htime']
        exact .inr hnow
    · exact hsince.imp_right fun ⟨e', he', heq⟩ => ⟨e', List.mem_append_left _ he', heq⟩

/-- A pass begins. -/
lemma Inv.poll (h : Inv config levels start c) (hallowed : c.Allowed (.poll time)) :
    Inv config levels start (c.apply (.poll time)) := by
  obtain ⟨hidle, hnow, -⟩ := hallowed
  have hsweep := h.idle_sweep hidle
  refine ⟨h.config_eq, h.ring, h.folded_le, h.levels_lt, h.kept, rfl, ?_, ?_, fun key => ?_⟩
  · rintro (hphase | hphase)
    · exact absurd rfl hphase
    · exact absurd hsweep hphase.ne'
  · intro hphase
    cases hphase
  · obtain ⟨closed, last, hraw, hview, hsince, -⟩ := h.key key
    refine ⟨closed, last, hraw, hview.mono hnow fun time htime => .inl htime, hsince, fun hkey => ?_⟩
    change key < c.source.sweepKey at hkey
    omega

/-- What an event adds to what has been published for a key. -/
lemma publishedFor_append {c' : Capture} {event : Option Event}
    (h : c'.published = c.published ++ event.toList) (key : ℕ) :
    c'.publishedFor key = c.publishedFor key ++
      (event.bind fun event =>
        if event.key = key then some (event.pressed, event.ms) else none).toList := by
  rw [publishedFor, h, List.filterMap_append, publishedFor]
  congr 1
  cases event with
  | none => rfl
  | some event =>
    simp only [Option.toList, List.filterMap_cons, List.filterMap_nil, Option.bind]
    split <;> simp_all

/-- The source after an edge has been folded into the entries for its key. -/
def Capture.afterFold (c : Capture) (e : Edge) (ring : WrapRing (ℕ × ℤ)) : Capture :=
  let folded := (c.source.keys e.key).fold c.source.config.settleMs (c.source.config.sample e.level)
    (ticksMs e.time)
  { c with
    source := { c.source with ring := ring, keys := Function.update c.source.keys e.key folded.2 }
    published := c.published ++ (folded.1.map fun change => Event.mk e.key change.1 change.2).toList
    folded := c.folded + 1 }

lemma step_fold (hphase : c.phase = .folding) {ring : WrapRing (ℕ × ℤ)}
    (hpop : c.source.ring.pop = some (e.slot, ring)) (hlevel : e.level < 2) :
    c.step = c.afterFold e ring := by
  rw [step, hphase]
  dsimp only
  rw [hpop]
  dsimp only [MpButtonSource.foldEdge]
  rw [slot_key hlevel, slot_level hlevel, show e.slot.2 = ticksMs e.time from rfl, afterFold, hphase]
  rfl

/-- The key of an edge that is folded. -/
lemma KeyInv.fold {ring : WrapRing (ℕ × ℤ)} (h : KeyInv levels start c e.key)
    (hphase : c.phase = .folding) {rest : List Edge} (hdrop : c.edges.drop c.folded = e :: rest)
    (hwaiting : 0 < c.source.sweepKey → c.now ≤ e.time)
    (htimely : c.Away e.key → |e.time - since levels start c e.key| < TICKS_HALFPERIOD) :
    KeyInv levels start (c.afterFold e ring) e.key := by
  obtain ⟨closed, last, hraw, hview, hsince, hhome⟩ := h
  have hnext : c.edges[c.folded]? = some e := by
    rw [← List.head?_drop, hdrop, List.head?_cons]
  have he : e ∈ c.edges := List.mem_of_getElem? hnext
  have hchanges : changesFor c.source.config (c.edges.take (c.folded + 1)) e.key =
      changesFor c.source.config (c.edges.take c.folded) e.key ++
        [(c.source.config.sample e.level, e.time)] := by
    rw [List.take_add_one, hnext, changesFor, List.filterMap_append]
    simp [changesFor]
  have hwait : c.waitingFor e.key = e.time :: (c.afterFold e ring).waitingFor e.key := by
    rw [waitingFor, hdrop, waitingFor, afterFold,
      ← List.drop_drop, hdrop]
    simp
  have hpublished : (c.afterFold e ring).publishedFor e.key = c.publishedFor e.key ++
      ((c.source.keys e.key).fold c.source.config.settleMs (c.source.config.sample e.level)
        (ticksMs e.time)).1.toList := by
    rw [publishedFor_append (c := c) rfl e.key]
    cases ((c.source.keys e.key).fold c.source.config.settleMs (c.source.config.sample e.level)
        (ticksMs e.time)).1 <;> simp
  have hentry : (c.afterFold e ring).source.keys e.key = ((c.source.keys e.key).fold
      c.source.config.settleMs (c.source.config.sample e.level) (ticksMs e.time)).2 :=
    Function.update_self ..
  have hraw' := stretches_append (l := c.source.config.sample e.level) (t := e.time) hraw
  rw [hwait] at hview
  by_cases hsame : c.source.config.sample e.level = last.1
  · rw [if_pos hsame] at hraw'
    rw [Key.fold_of_eq (hsame.trans hview.pending_eq.symm)] at hentry hpublished
    refine ⟨closed, last, ?_, ?_, hsince, fun hkey => ?_⟩
    · exact (congrArg _ hchanges).trans hraw'
    · rw [hentry, hpublished, Option.toList_none, List.append_nil]
      exact hview.mono le_rfl fun time htime => .inl (List.mem_cons_of_mem _ htime)
    · rw [Capture.Away, hentry]
      refine hhome ?_
      simpa only [sweptTo, afterFold, hphase] using hkey
  · rw [if_neg hsame] at hraw'
    have hview' := hview.fold hsame fun haway => by
      rw [← since_eq hraw]
      exact htimely haway
    refine ⟨closed ++ [⟨last.1, last.2, some e.time⟩], (c.source.config.sample e.level, e.time), ?_, ?_,
      .inr ⟨e, he, rfl⟩, fun hkey => .inr (.inl (hwaiting ?_))⟩
    · refine (congrArg _ hchanges).trans (hraw'.trans ?_)
      simp
    · rw [hentry, hpublished]
      exact hview'
    · have hkey' : e.key < c.source.sweepKey := by
        simpa only [sweptTo, afterFold, hphase] using hkey
      omega

/-- A captured edge is folded. -/
lemma Inv.fold (h : Inv config levels start c) (hphase : c.phase = .folding) {rest : List Edge}
    (hdrop : c.edges.drop c.folded = e :: rest) (htimely : Capture.Timely levels start c .step) :
    Inv config levels start c.step := by
  have hnext : c.edges[c.folded]? = some e := by
    rw [← List.head?_drop, hdrop, List.head?_cons]
  have hdrop' : c.edges.drop (c.folded + 1) = rest := by
    rw [← List.drop_drop, hdrop, List.drop_one, List.tail_cons]
  have hring := h.ring
  rw [hdrop, List.map_cons] at hring
  obtain ⟨ring, hpop, hring⟩ := hring.pop
  rw [step_fold hphase hpop (h.levels_lt e (List.mem_of_getElem? hnext))]
  have hwaiting : 0 < c.source.sweepKey → ∀ e' ∈ e :: rest, c.now ≤ e'.time := fun hsweep =>
    hdrop ▸ h.waiting_le (.inr hsweep)
  refine ⟨h.config_eq, ?_, ?_, h.levels_lt, h.kept, h.nowMs_eq, ?_, ?_, fun key => ?_⟩
  · change ring.Holds ((c.edges.drop (c.folded + 1)).map Edge.slot)
    rw [hdrop']
    exact hring
  · exact (List.getElem?_eq_some_iff.mp hnext).1
  · rintro hor
    change ∀ e' ∈ c.edges.drop (c.folded + 1), c.now ≤ e'.time
    rw [hdrop']
    have hsweep : 0 < c.source.sweepKey := hor.resolve_left fun hne => hne hphase
    exact fun e' he' => hwaiting hsweep e' (List.mem_cons_of_mem _ he')
  · intro hidle
    rw [afterFold, hphase] at hidle
    cases hidle
  · by_cases hkey : key = e.key
    · subst hkey
      refine (h.key e.key).fold hphase hdrop (fun hsweep => hwaiting hsweep e List.mem_cons_self) ?_
      rw [Capture.Timely, hphase] at htimely
      exact htimely e hnext
    · refine (h.key key).of_eq rfl ?_ ?_ rfl (Function.update_of_ne hkey ..) ?_ rfl ?_
      · change changesFor _ (c.edges.take (c.folded + 1)) key = _
        rw [List.take_add_one, hnext, changesFor, List.filterMap_append]
        simp [changesFor, Ne.symm hkey]
      · change List.filterMap _ (c.edges.drop (c.folded + 1)) = _
        rw [hdrop', waitingFor, hdrop, List.filterMap_cons, if_neg (Ne.symm hkey)]
      · rw [publishedFor_append (c := c) rfl key]
        cases ((c.source.keys e.key).fold c.source.config.settleMs (c.source.config.sample e.level)
          (ticksMs e.time)).1 <;> simp [Ne.symm hkey]
      · exact fun hswept => by simpa only [sweptTo, afterFold, hphase] using hswept

/-- The sweep begins when no edge is left. -/
lemma Inv.beginSweep (h : Inv config levels start c) (hphase : c.phase = .folding)
    (hdrop : c.edges.drop c.folded = []) : Inv config levels start c.step := by
  have hring := h.ring
  rw [hdrop, List.map_nil] at hring
  have hstep : c.step = { c with phase := .sweeping c.source.sweepKey } := by
    rw [step, hphase]
    dsimp only
    rw [hring.pop_nil]
    simp only [MpButtonSource.rereadPins, h.kept, Bool.false_eq_true, if_false]
  rw [hstep]
  refine ⟨h.config_eq, h.ring, h.folded_le, h.levels_lt, h.kept, h.nowMs_eq, fun _ => ?_, ?_, fun key => ?_⟩
  · rw [hdrop]
    exact fun e he => by cases he
  · intro hidle
    cases hidle
  · refine (h.key key).of_eq rfl rfl rfl rfl rfl rfl rfl fun hswept => ?_
    rw [sweptTo, hphase]
    exact hswept

/-- A sweep ends behind the last key. -/
lemma Inv.endSweep {swept : ℕ} (h : Inv config levels start c) (hphase : c.phase = .sweeping swept)
    (hlast : ¬ swept < c.source.config.keyCount) : Inv config levels start c.step := by
  rw [step, hphase]
  dsimp only
  rw [if_neg hlast]
  refine ⟨h.config_eq, h.ring, h.folded_le, h.levels_lt, h.kept, h.nowMs_eq, fun _ => ?_, fun _ => rfl,
    fun key => ?_⟩
  · exact h.waiting_le (.inl (by simp [hphase]))
  · refine (h.key key).of_eq rfl rfl rfl rfl rfl rfl rfl fun hswept => ?_
    rw [sweptTo, hphase]
    exact lt_of_lt_of_le hswept (not_lt.mp hlast)

/-- A sweep that publishes nothing leaves the entries as they are. -/
lemma Key.sweep_of_none {settle nowMs : ℤ} {entry entry' : Key}
    (h : entry.sweep settle nowMs = (none, entry')) : entry' = entry := by
  rw [Key.sweep] at h
  split_ifs at h
  · cases (Prod.mk.inj h).1
  · exact (Prod.mk.inj h).2.symm

/-- The times that wait for a key are those of edges that wait. -/
lemma mem_waitingFor (h : time ∈ c.waitingFor key) :
    ∃ e ∈ c.edges.drop c.folded, e.time = time := by
  obtain ⟨e, he, heq⟩ := List.mem_filterMap.mp h
  split_ifs at heq
  exact ⟨e, he, Option.some.inj heq⟩

/-- A key is swept. -/
lemma Inv.sweep {swept : ℕ} (h : Inv config levels start c) (hphase : c.phase = .sweeping swept)
    (hlast : swept < c.source.config.keyCount)
    (htimely : Capture.Timely levels start c .step) : Inv config levels start c.step := by
  have hwaiting := h.waiting_le (.inl (by simp [hphase]))
  rw [Capture.Timely, hphase] at htimely
  dsimp only at htimely
  obtain ⟨closed, last, hraw, hview, hsince, -⟩ := h.key swept
  rw [since_eq hraw] at htimely
  have hview' := hview.sweep (fun time htime => by
    obtain ⟨e, he, rfl⟩ := mem_waitingFor htime
    exact hwaiting e he) htimely
  have hother : ∀ key, key ≠ swept → key < swept + 1 → key < c.sweptTo := by
    intro key hne hlt
    rw [sweptTo, hphase]
    dsimp only
    omega
  rw [step, hphase]
  dsimp only
  rw [if_pos hlast, MpButtonSource.sweep, h.nowMs_eq]
  cases hswept : (c.source.keys swept).sweep c.source.config.settleMs (ticksMs c.now) with
  | mk event entry =>
    rw [hswept] at hview'
    cases event with
    | none =>
      obtain rfl := Key.sweep_of_none hswept
      refine ⟨h.config_eq, h.ring, h.folded_le, h.levels_lt, h.kept, h.nowMs_eq, fun _ => hwaiting, ?_,
        fun key => ?_⟩
      · intro hidle
        cases hidle
      · by_cases hkey : key = swept
        · subst hkey
          exact ⟨closed, last, hraw, hview, hsince, fun _ =>
            (hview'.2.imp (fun hhome haway => haway hhome) .inr)⟩
        · exact (h.key key).of_eq rfl rfl rfl rfl rfl rfl rfl (hother key hkey)
    | some change =>
      refine ⟨h.config_eq, h.ring, h.folded_le, h.levels_lt, h.kept, h.nowMs_eq, fun _ => hwaiting, ?_,
        fun key => ?_⟩
      · intro hidle
        cases hidle
      · by_cases hkey : key = swept
        · subst hkey
          refine ⟨closed, last, hraw, ?_, hsince, fun _ => ?_⟩
          · have hpublished := @publishedFor_append c
              { c with published := c.published ++ [⟨key, change.1, change.2⟩] }
              (some ⟨key, change.1, change.2⟩) rfl key
            rw [Option.bind_some, if_pos rfl] at hpublished
            change View _ _ _ _ _ (Function.update c.source.keys key entry key) _
            rw [Function.update_self]
            exact hpublished ▸ hview'.1
          · refine hview'.2.imp (fun hhome haway => haway ?_) .inr
            change (Function.update c.source.keys key entry key).pending =
              (Function.update c.source.keys key entry key).believed
            rw [Function.update_self]
            exact hhome
        · refine (h.key key).of_eq rfl rfl rfl rfl (Function.update_of_ne hkey ..) ?_ rfl (hother key hkey)
          refine (@publishedFor_append c _ (some ⟨swept, change.1, change.2⟩) rfl key).trans ?_
          simp [Ne.symm hkey]

/-! ## Whole schedules -/

/-- **Everything that can happen keeps the invariant.** -/
lemma Inv.apply {op : Op} (h : Inv config levels start c) (hallowed : c.Allowed op)
    (htimely : Capture.Timely levels start c op) : Inv config levels start (c.apply op) := by
  cases op with
  | interrupt e => exact h.interrupt hallowed
  | poll time => exact h.poll hallowed
  | step =>
    change Inv config levels start c.step
    cases hphase : c.phase with
    | idle => exact absurd hphase hallowed
    | folding =>
      cases hdrop : c.edges.drop c.folded with
      | nil => exact h.beginSweep hphase hdrop
      | cons e rest => exact h.fold hphase hdrop htimely
    | sweeping swept =>
      by_cases hlast : swept < c.source.config.keyCount
      · exact h.sweep hphase hlast htimely
      · exact h.endSweep hphase hlast

/-- **A schedule keeps the invariant.** -/
lemma Inv.run {ops : List Op} (h : Inv config levels start c)
    (hallowed : Capture.Along Capture.Allowed c ops)
    (htimely : Capture.Along (Capture.Timely levels start) c ops) :
    Inv config levels start (c.run ops) := by
  induction ops generalizing c with
  | nil => exact h
  | cons op ops ih => exact ih (h.apply hallowed.1 htimely.1) hallowed.2 htimely.2

/-- The last pass of a schedule has come to its end. It began behind every edge, and late enough for
the settle windows of all of them. -/
structure Capture.Late (start : ℤ) (c : Capture) : Prop where
  idle : c.phase = .idle
  start_lt : start < c.now ∧ start + c.source.config.settleMs ≤ c.now
  edges_lt : ∀ e ∈ c.edges, e.time < c.now ∧ e.time + c.source.config.settleMs ≤ c.now

lemma Capture.Late.of_since (h : c.Late start)
    (htime : time = start ∨ ∃ e ∈ c.edges, e.time = time) :
    time < c.now ∧ time + c.source.config.settleMs ≤ c.now := by
  rcases htime with rfl | ⟨e, he, rfl⟩
  · exact h.start_lt
  · exact h.edges_lt e he

/-- What is published for a key with these stretches. -/
def shown (config : Config) (xs : List (Stretch Bool)) : List (Bool × ℤ) :=
  (debounced config.settleMs false xs).map told

/-- **What has been published in the end** is the debounced signal of the key. -/
theorem Inv.publishedFor_eq (h : Inv config levels start c) (hlate : c.Late start)
    (hkey : key < config.keyCount) :
    c.publishedFor key = shown config (rawStretches config levels start c.edges key) := by
  have hconfig := h.config_eq
  have hnone : c.edges.drop c.folded = [] := by
    refine List.eq_nil_iff_forall_not_mem.mpr fun e he => ?_
    have hwaiting := h.waiting_le (.inl (by simp [hlate.idle])) e he
    have hlater := hlate.edges_lt e (List.mem_of_mem_drop he)
    omega
  obtain ⟨closed, last, hraw, hview, hsince, hhome⟩ := h.key key
  have hlater := hlate.of_since hsince
  have hswept : key < c.sweptTo := by
    rw [sweptTo, hlate.idle, hconfig]
    exact hkey
  have hhome' : (c.source.keys key).pending = (c.source.keys key).believed := by
    rcases hhome hswept with haway | hnow | hnow
    · exact not_not.mp haway
    · omega
    · omega
  have htake : c.edges.take c.folded = c.edges :=
    List.take_of_length_le (List.drop_eq_nil_iff.mp hnone)
  rw [htake, hconfig] at hraw
  rw [hraw, shown, ← hconfig]
  exact hview.published_eq hhome'

/-- Every stretch of a key starts at the start or at an edge. -/
lemma start_of_mem_rawStretches {edges : List Edge} {s : Stretch Bool}
    (h : s ∈ rawStretches config levels start edges key) :
    s.start = start ∨ ∃ e ∈ edges, e.time = s.start := by
  refine (start_of_mem_stretches h).imp_right fun ⟨change, hmem, heq⟩ => ?_
  obtain ⟨e, he, hchange⟩ := List.mem_filterMap.mp hmem
  split_ifs at hchange
  cases hchange
  exact ⟨e, he, heq⟩

/-- What is published changes its level every time. -/
lemma isChain_shown (config : Config) (time : ℤ) (xs : List (Stretch Bool)) :
    List.IsChain (fun a b : Bool × ℤ => a.1 ≠ b.1) ((false, ticksMs time) :: shown config xs) := by
  have hchain := isChain_debounced config.settleMs false time xs
  rw [shown, show (false, ticksMs time) = told (false, time) from rfl, ← List.map_cons, List.isChain_map]
  exact hchain

/-- A long stretch away from the level published before it is published. -/
lemma shown_prefix_of_settled (config : Config) {before after : List (Stretch Bool)} {s : Stretch Bool}
    (hs : s.Settled config.settleMs) (hleft : lastLevel false (shown config before) ≠ s.level) :
    shown config before ++ [(s.level, ticksMs s.start)] <+: shown config (before ++ s :: after) := by
  have hlast : lastLevel false (shown config before) =
      lastLevel false (debounced config.settleMs false before) := by
    rw [lastLevel, shown, List.map_map]
    rfl
  rw [hlast] at hleft
  rw [shown, shown, debounced_append, debounced, if_pos ⟨hs, hleft.symm⟩, List.map_append, List.map_cons]
  exact ⟨_, by rw [List.append_assoc]; rfl⟩

/-- **Schedules cannot be seen.** Two schedules with the same edges that both judge keys in time and
end late enough publish the same for every key: levels that alternate, beginning with a press, each
with the tick at which a stretch of at least `settle_ms` began, and none of those stretches is left
out. -/
theorem captured_schedule_independent (config : Config) (levels : ℕ → ℕ) (start : ℤ) (ops ops' : List Op)
    (c c' : Capture) (hc : c = (new config levels start).run ops)
    (hc' : c' = (new config levels start).run ops')
    (hallowed : Capture.Along Capture.Allowed (.new config levels start) ops)
    (hallowed' : Capture.Along Capture.Allowed (.new config levels start) ops')
    (htimely : Capture.Along (Capture.Timely levels start) (.new config levels start) ops)
    (htimely' : Capture.Along (Capture.Timely levels start) (.new config levels start) ops')
    (hlate : c.Late start) (hlate' : c'.Late start) (hedges : c.edges = c'.edges) (key : ℕ)
    (hkey : key < config.keyCount) :
    c.publishedFor key = c'.publishedFor key ∧
      List.IsChain (fun a b : Bool × ℤ => a.1 ≠ b.1) ((false, ticksMs start) :: c.publishedFor key) ∧
      (∀ x ∈ c.publishedFor key, ∃ s ∈ rawStretches config levels start c.edges key,
        x = (s.level, ticksMs s.start) ∧ config.settleMs ≤ s.stop.getD c.now - s.start) ∧
      (∀ before s after, rawStretches config levels start c.edges key = before ++ s :: after →
        s.Settled config.settleMs → lastLevel false (shown config before) ≠ s.level →
        shown config before ++ [(s.level, ticksMs s.start)] <+: c.publishedFor key) := by
  have hinv : Inv config levels start c := hc ▸ (inv_new config levels start).run hallowed htimely
  have hinv' : Inv config levels start c' := hc' ▸ (inv_new config levels start).run hallowed' htimely'
  have hpublished := hinv.publishedFor_eq hlate hkey
  rw [hpublished, hinv'.publishedFor_eq hlate' hkey, hedges]
  refine ⟨rfl, isChain_shown config start _, fun x hx => ?_, fun before s after hraw hs hleft => ?_⟩
  · obtain ⟨change, hchange, rfl⟩ := List.mem_map.mp hx
    obtain ⟨s, hmem, hsettled, rfl⟩ := mem_debounced hchange
    refine ⟨s, hmem, rfl, ?_⟩
    cases hstop : s.stop with
    | some stop => exact hsettled stop hstop
    | none =>
      have hlater := hlate.of_since (hedges ▸ start_of_mem_rawStretches hmem)
      rw [hinv.config_eq] at hlater
      rw [Option.getD_none]
      omega
  · rw [hraw]
    exact shown_prefix_of_settled config hs hleft

/-- A pin that is pulled up, with a key that chatters when it is pressed, and is released for good:
one schedule has a pass after every edge, the other drains everything at once. -/
theorem captured_schedule_independent_chatter :
    let config : Config := { keyCount := 1 }
    let start := new config (fun _ => 1) 0
    let edges : List Edge := [⟨0, 0, 5⟩, ⟨0, 1, 7⟩, ⟨0, 0, 8⟩, ⟨0, 1, 100⟩]
    let once := edges.map Op.interrupt ++ Op.poll 200 :: List.replicate 8 Op.step
    let often := [Op.interrupt ⟨0, 0, 5⟩, Op.interrupt ⟨0, 1, 7⟩, Op.poll 7] ++ List.replicate 5 Op.step ++
      [Op.interrupt ⟨0, 0, 8⟩, Op.poll 40] ++ List.replicate 5 Op.step ++
      [Op.interrupt ⟨0, 1, 100⟩, Op.poll 115] ++ List.replicate 5 Op.step
    (start.run once).publishedFor 0 = [(true, 8), (false, 100)] ∧
      (start.run once).publishedFor 0 = (start.run often).publishedFor 0 := by
  intro config start edges once often
  have hindependent := captured_schedule_independent config (fun _ => 1) 0 once often _ _ rfl rfl
    (by decide +kernel) (by decide +kernel) (by decide +kernel) (by decide +kernel)
    ⟨by decide +kernel, by decide +kernel, by decide +kernel⟩
    ⟨by decide +kernel, by decide +kernel, by decide +kernel⟩ (by decide +kernel) 0 (by decide +kernel)
  exact ⟨by decide +kernel, hindependent.1⟩

/-- A key that is held down for half a tick period and released. A schedule without a pass in
between does not publish the press at all. -/
theorem captured_half_period_missed :
    ¬ ∀ (config : Config) (levels : ℕ → ℕ) (start : ℤ) (ops ops' : List Op),
      Capture.Along Capture.Allowed (.new config levels start) ops →
      Capture.Along Capture.Allowed (.new config levels start) ops' →
      ((new config levels start).run ops).Late start →
      ((new config levels start).run ops').Late start →
      ((new config levels start).run ops).edges =
        ((new config levels start).run ops').edges →
      ∀ key < config.keyCount,
        ((new config levels start).run ops).publishedFor key =
          ((new config levels start).run ops').publishedFor key := by
  intro h
  have hsame := h { keyCount := 1 } (fun _ => 1) 0
    ([Op.interrupt ⟨0, 0, 1000⟩, Op.interrupt ⟨0, 1, 1000 + 2 ^ 28⟩, Op.poll (2000 + 2 ^ 28)] ++
      List.replicate 5 Op.step)
    ([Op.interrupt ⟨0, 0, 1000⟩, Op.poll 2000] ++ List.replicate 5 Op.step ++
      [Op.interrupt ⟨0, 1, 1000 + 2 ^ 28⟩, Op.poll (2000 + 2 ^ 28)] ++ List.replicate 5 Op.step)
    (by decide +kernel) (by decide +kernel) ⟨by decide +kernel, by decide +kernel, by decide +kernel⟩
    ⟨by decide +kernel, by decide +kernel, by decide +kernel⟩ (by decide +kernel) 0 (by decide +kernel)
  revert hsame
  decide +kernel

end ChuMicro.Buttons
