import ChuMicro.Buttons.CaptureRuns

/-!
# Recovery from dropped edges

An interrupt that finds the ring full drops its edge, and the entries for its key then tell of a
level that the pin has left. The next pass that finds the ring empty reads the pins again. So
whatever has been dropped, two passes at pins that stay as they are make the published levels right:
the first one reads the pins, the second one comes after the window of every key that is away.

Ticks tell times apart within half a period only: a key that is away for longer is never published.

## Main definitions

* `Buttons.Capture.accepted`, `Buttons.Capture.taken` — what goes into the ring along a schedule,
  and what comes out.
* `Buttons.Capture.Drains` — a pass without interrupts.
* `Buttons.Known` — what every schedule keeps, dropped edges or not.

## Main results

* `Buttons.overflow_recovers` — the ring is a queue, and published levels are right after two
  passes.
-/

namespace ChuMicro.Buttons

open Buffers Signals

namespace Capture

/-- What an operation puts into the ring. -/
def accepts (c : Capture) : Op → List (ℕ × ℤ)
  | .interrupt e => if c.source.Full then [] else [e.slot]
  | .poll _ => []
  | .step => []

/-- What an operation takes out of the ring. -/
def takes (c : Capture) : Op → List (ℕ × ℤ)
  | .interrupt _ => []
  | .poll _ => []
  | .step => if c.phase = .folding then (c.source.ring.pop.map Prod.fst).toList else []

/-- What goes into the ring along a schedule. -/
def accepted (c : Capture) : List Op → List (ℕ × ℤ)
  | [] => []
  | op :: ops => c.accepts op ++ accepted (c.apply op) ops

/-- What comes out of the ring along a schedule. -/
def taken (c : Capture) : List Op → List (ℕ × ℤ)
  | [] => []
  | op :: ops => c.takes op ++ taken (c.apply op) ops

/-- A pass at this time, without interrupts, from one state to another. -/
def Drains (time : ℤ) (c c' : Capture) : Prop :=
  (∃ n, c' = c.run (.poll time :: List.replicate n .step)) ∧ c'.phase = .idle

/-- The level that was published last for a key. -/
def publishedLevel (c : Capture) (key : ℕ) : Bool := lastLevel false (c.publishedFor key)

/-- If the key is away from the level that was published for it, it is so since a moment that is
less than half a tick period before this time. -/
def Recent (c : Capture) (time : ℤ) (key : ℕ) : Prop :=
  c.Away key → ∃ moment ≤ c.now, (c.source.keys key).changeMs = ticksMs moment ∧
    time - moment < TICKS_HALFPERIOD

end Capture

/-! ## What every schedule keeps -/

/-- The level of a key after these slots have been folded. -/
def levelAfter (config : Config) (key : ℕ) (level : Bool) (slots : List (ℕ × ℤ)) : Bool :=
  slots.foldl (fun level slot => if slot.1 >>> 1 = key then config.sample (slot.1 &&& 1) else level)
    level

lemma levelAfter_concat (config : Config) (key : ℕ) (level : Bool) (slots : List (ℕ × ℤ))
    (slot : ℕ × ℤ) : levelAfter config key level (slots ++ [slot]) =
      if slot.1 >>> 1 = key then config.sample (slot.1 &&& 1)
      else levelAfter config key level slots :=
  List.foldl_append

/-- **What every schedule keeps**: the ring holds some slots; a key is believed to be at the level
published last; and unless edges have been dropped, a key will be at the level of its pin. -/
structure Known (config : Config) (c : Capture) (slots : List (ℕ × ℤ)) : Prop where
  config_eq : c.source.config = config
  ring : c.source.ring.Holds slots
  believed_eq : ∀ key, (c.source.keys key).believed = c.publishedLevel key
  idle_sweep : c.phase = .idle → c.source.sweepKey = 0
  pending_eq : c.source.droppedEdges = false → ∀ key < config.keyCount,
    levelAfter config key (c.source.keys key).pending slots = config.sample (c.pins key)

variable {config : Config} {c c' : Capture} {slots : List (ℕ × ℤ)} {key : ℕ}

/-- A source that has just been made. -/
lemma known_new (config : Config) (levels : ℕ → ℕ) (start : ℤ) :
    Known config (.new config levels start) [] where
  config_eq := rfl
  ring := WrapRing.holds_new _
  believed_eq _ := rfl
  idle_sweep _ := rfl
  pending_eq _ _ _ := rfl

open MpButtonSource

/-- An interrupt. -/
lemma Known.interrupt (h : Known config c slots) {e : Edge} (hlevel : e.level < 2) :
    Known config (c.apply (.interrupt e)) (slots ++ c.accepts (.interrupt e)) := by
  have hslot : (e.key <<< 1 ||| e.level, ticksMs e.time) = e.slot := rfl
  unfold Capture.accepts Capture.apply captureEdge
  dsimp only
  rw [hslot]
  by_cases hfull : c.source.Full
  · have hpush : c.source.ring.push e.slot = none := by
      unfold WrapRing.push
      exact if_pos hfull
    rw [hpush, if_pos hfull, List.append_nil]
    exact ⟨h.config_eq, h.ring, h.believed_eq, h.idle_sweep, nofun⟩
  · obtain ⟨ring, hpush⟩ : ∃ ring, c.source.ring.push e.slot = some ring := by
      unfold WrapRing.push
      exact ⟨_, if_neg hfull⟩
    rw [hpush, if_neg hfull]
    refine ⟨h.config_eq, h.ring.push hpush, h.believed_eq, h.idle_sweep, fun hkept key hkey => ?_⟩
    dsimp only
    rw [levelAfter_concat, slot_key hlevel, slot_level hlevel]
    split_ifs with hsame
    · rw [← hsame, Function.update_self]
    · rw [Function.update_of_ne (Ne.symm hsame)]
      exact h.pending_eq hkept key hkey

/-- A pass begins. -/
lemma Known.poll (h : Known config c slots) (time : ℤ) :
    Known config (c.apply (.poll time)) slots :=
  ⟨h.config_eq, h.ring, h.believed_eq, nofun, h.pending_eq⟩

/-- What a fold makes of the entries for a key. -/
lemma Key.fold_spec (settle : ℤ) (entry : Key) (sample : Bool) (atMs : ℤ) :
    (entry.fold settle sample atMs).2.pending = sample ∧
      (entry.fold settle sample atMs).2.believed =
        lastLevel entry.believed (entry.fold settle sample atMs).1.toList := by
  unfold Key.fold
  split_ifs with hsame
  · exact ⟨hsame.symm, rfl⟩
  all_goals exact ⟨rfl, rfl⟩

/-- What is published for a key is its level from then on. -/
lemma publishedLevel_append {event : Option Event}
    (h : c'.published = c.published ++ event.toList) (key : ℕ) :
    c'.publishedLevel key = lastLevel (c.publishedLevel key) (event.bind fun event =>
      if event.key = key then some (event.pressed, event.ms) else none).toList := by
  unfold Capture.publishedLevel
  rw [publishedFor_append h]
  cases event.bind fun event : Event =>
    if event.key = key then some (event.pressed, event.ms) else none with
  | none => rw [Option.toList_none, List.append_nil]; rfl
  | some change => rw [Option.toList_some, lastLevel_append_singleton]; rfl

/-- A captured edge is folded. -/
lemma Known.fold {slot : ℕ × ℤ} (h : Known config c (slot :: slots))
    (hphase : c.phase = .folding) : Known config c.step slots ∧ c.takes .step = [slot] := by
  obtain ⟨ring, hpop, hring⟩ := h.ring.pop
  have htakes : c.takes .step = [slot] := by
    unfold Capture.takes
    dsimp only
    rw [if_pos hphase, hpop]
    rfl
  refine ⟨?_, htakes⟩
  obtain ⟨code, atMs⟩ := slot
  obtain ⟨hpending, hbelieved⟩ := Key.fold_spec c.source.config.settleMs
    (c.source.keys (code >>> 1)) (c.source.config.sample (code &&& 1)) atMs
  unfold Capture.step
  rw [hphase]
  dsimp only
  rw [hpop]
  dsimp only [foldEdge, setKey]
  generalize Key.fold _ _ _ _ = folded at hpending hbelieved ⊢
  refine ⟨h.config_eq, hring, fun key => ?_, nofun, fun hkept key hkey => ?_⟩
  · refine Eq.trans ?_ (publishedLevel_append rfl key).symm
    rw [← h.believed_eq key]
    dsimp only
    by_cases hsame : key = code >>> 1
    · subst hsame
      rw [Function.update_self, hbelieved]
      cases folded.1 with
      | none => rfl
      | some change => simp
    · rw [Function.update_of_ne hsame]
      cases folded.1 with
      | none => rfl
      | some change => simp [Ne.symm hsame, lastLevel]
  · have hlevel := h.pending_eq hkept key hkey
    unfold levelAfter at hlevel ⊢
    rw [List.foldl_cons] at hlevel
    rw [← hlevel]
    congr 1
    dsimp only
    split_ifs with hsame
    · rw [← hsame, Function.update_self]
      exact hpending.trans (by rw [h.config_eq])
    · rw [Function.update_of_ne (Ne.symm hsame)]

/-- The ring is empty, and the sweep begins. -/
lemma step_beginSweep (hphase : c.phase = .folding) (hpop : c.source.ring.pop = none) :
    c.step = { c with
      source := c.source.rereadPins c.pins
      phase := .sweeping c.source.sweepKey } := by
  have hsweep : (c.source.rereadPins c.pins).sweepKey = c.source.sweepKey := by
    unfold rereadPins
    split_ifs
    all_goals rfl
  unfold Capture.step
  rw [hphase]
  dsimp only
  rw [hpop, ← hsweep]

/-- The pins are read again. -/
lemma Known.beginSweep (h : Known config c []) (hphase : c.phase = .folding) :
    Known config c.step [] ∧ c.takes .step = [] ∧ c.step.source.droppedEdges = false := by
  have hpop := h.ring.pop_nil
  have htakes : c.takes .step = [] := by
    unfold Capture.takes
    dsimp only
    rw [if_pos hphase, hpop]
    rfl
  rw [step_beginSweep hphase hpop]
  unfold rereadPins
  split_ifs with hdropped
  · refine ⟨⟨h.config_eq, h.ring, fun key => ?_, nofun, fun _ key hkey => ?_⟩, htakes, rfl⟩
    · refine Eq.trans ?_ (h.believed_eq key)
      dsimp only
      split_ifs <;> rfl
    · dsimp only [levelAfter, List.foldl_nil]
      rw [h.config_eq]
      by_cases hstale : key < config.keyCount ∧
          config.sample (c.pins key) ≠ (c.source.keys key).pending
      · rw [if_pos hstale]
      · rw [if_neg hstale]
        rw [not_and, not_not] at hstale
        exact (hstale hkey).symm
  · rw [Bool.not_eq_true] at hdropped
    exact ⟨⟨h.config_eq, h.ring, h.believed_eq, nofun, h.pending_eq⟩, htakes, hdropped⟩

/-- What a sweep makes of the entries for a key. -/
lemma Key.sweep_spec (settle : ℤ) (entry : Key) (nowMs : ℤ) :
    (entry.sweep settle nowMs).2.pending = entry.pending ∧
      (entry.sweep settle nowMs).2.changeMs = entry.changeMs ∧
        (entry.sweep settle nowMs).2.believed =
          lastLevel entry.believed (entry.sweep settle nowMs).1.toList := by
  unfold Key.sweep
  split_ifs
  all_goals exact ⟨rfl, rfl, rfl⟩

/-- The source after a key has been swept. -/
def Capture.afterSweep (c : Capture) (swept : ℕ) : Capture :=
  let found := (c.source.keys swept).sweep c.source.config.settleMs c.source.nowMs
  { c with
    source := { c.source with
      keys := Function.update c.source.keys swept found.2
      sweepKey := if found.1.isSome then swept + 1 else c.source.sweepKey }
    published := c.published ++
      (found.1.map fun change => Event.mk swept change.1 change.2).toList
    phase := if found.1.isSome then .folding else .sweeping (swept + 1) }

lemma step_sweep {swept : ℕ} (hphase : c.phase = .sweeping swept)
    (hlast : swept < c.source.config.keyCount) : c.step = c.afterSweep swept := by
  unfold Capture.step Capture.afterSweep sweep
  rw [hphase]
  dsimp only
  rw [if_pos hlast]
  cases hswept : (c.source.keys swept).sweep c.source.config.settleMs c.source.nowMs with
  | mk event entry =>
    cases event with
    | none =>
      obtain rfl := Key.sweep_of_none hswept
      simp
    | some change => rfl

/-- A sweep ends behind the last key. -/
lemma step_endSweep {swept : ℕ} (hphase : c.phase = .sweeping swept)
    (hlast : ¬ swept < c.source.config.keyCount) :
    c.step = { c with source := { c.source with sweepKey := 0 }, phase := .idle } := by
  unfold Capture.step
  rw [hphase]
  exact if_neg hlast

/-- A key is swept. -/
lemma Known.sweep {swept : ℕ} (h : Known config c slots) :
    Known config (c.afterSweep swept) slots := by
  obtain ⟨hpending, -, hbelieved⟩ :=
    Key.sweep_spec c.source.config.settleMs (c.source.keys swept) c.source.nowMs
  unfold Capture.afterSweep
  dsimp only
  generalize Key.sweep _ _ _ = found at hpending hbelieved ⊢
  refine ⟨h.config_eq, h.ring, fun key => ?_, ?_, fun hkept key hkey => ?_⟩
  · refine Eq.trans ?_ (publishedLevel_append rfl key).symm
    rw [← h.believed_eq key]
    dsimp only
    by_cases hsame : key = swept
    · subst hsame
      rw [Function.update_self, hbelieved]
      cases found.1 with
      | none => rfl
      | some change => simp
    · rw [Function.update_of_ne hsame]
      cases found.1 with
      | none => rfl
      | some change => simp [Ne.symm hsame, lastLevel]
  · dsimp only
    split_ifs
    · rintro ⟨⟩
    · rintro ⟨⟩
  · refine Eq.trans ?_ (h.pending_eq hkept key hkey)
    dsimp only
    by_cases hsame : key = swept
    · subst hsame
      rw [Function.update_self, hpending]
    · rw [Function.update_of_ne hsame]

/-- **One step of a pass.** -/
lemma Known.step (h : Known config c slots) :
    ∃ rest, slots = c.takes .step ++ rest ∧ Known config c.step rest := by
  have htakes : c.phase ≠ .folding → c.takes .step = [] := fun hphase => if_neg hphase
  cases hphase : c.phase with
  | idle =>
    refine ⟨slots, by rw [htakes (by rw [hphase]; exact nofun), List.nil_append], ?_⟩
    unfold Capture.step
    rw [hphase]
    exact h
  | folding =>
    cases slots with
    | nil =>
      obtain ⟨hknown, hnone, -⟩ := h.beginSweep hphase
      exact ⟨[], by rw [hnone]; rfl, hknown⟩
    | cons slot rest =>
      obtain ⟨hknown, hslot⟩ := h.fold hphase
      exact ⟨rest, by rw [hslot]; rfl, hknown⟩
  | sweeping swept =>
    refine ⟨slots, by rw [htakes (by rw [hphase]; exact nofun), List.nil_append], ?_⟩
    by_cases hlast : swept < c.source.config.keyCount
    · rw [step_sweep hphase hlast]
      exact h.sweep
    · rw [step_endSweep hphase hlast]
      exact ⟨h.config_eq, h.ring, h.believed_eq, fun _ => rfl, h.pending_eq⟩

/-- **Any operation** puts its edge behind the others, or takes the first one. -/
lemma Known.apply (h : Known config c slots) {op : Op}
    (hlevel : ∀ e, op = .interrupt e → e.level < 2) :
    ∃ slots', slots ++ c.accepts op = c.takes op ++ slots' ∧ Known config (c.apply op) slots' := by
  cases op with
  | interrupt e => exact ⟨_, rfl, h.interrupt (hlevel e rfl)⟩
  | poll time => exact ⟨slots, List.append_nil _, h.poll time⟩
  | step =>
    obtain ⟨rest, htakes, hknown⟩ := h.step
    refine ⟨rest, ?_, hknown⟩
    rw [← htakes]
    exact List.append_nil _

/-- **The ring is a queue along every schedule**: what went in comes out, once and in order. -/
lemma Known.run (h : Known config c slots) {ops : List Op}
    (hlevels : ∀ e, Op.interrupt e ∈ ops → e.level < 2) :
    ∃ slots', slots ++ c.accepted ops = c.taken ops ++ slots' ∧
      Known config (c.run ops) slots' := by
  induction ops generalizing c slots with
  | nil => exact ⟨slots, List.append_nil _, h⟩
  | cons op ops ih =>
    obtain ⟨next, hnext, hknown⟩ := h.apply fun e he => hlevels e (he ▸ List.mem_cons_self)
    obtain ⟨slots', hslots, hknown'⟩ := ih hknown fun e he => hlevels e (List.mem_cons_of_mem _ he)
    refine ⟨slots', ?_, hknown'⟩
    unfold Capture.accepted Capture.taken
    rw [← List.append_assoc, hnext, List.append_assoc, hslots, List.append_assoc]

/-! ## A pass -/

/-- The slots, the keys and the turns that are left in a pass. -/
def left (c : Capture) (slots : List (ℕ × ℤ)) : ℕ :=
  match c.phase with
  | .idle => 0
  | .folding => slots.length + 2 * (c.source.config.keyCount - c.source.sweepKey) + 2
  | .sweeping key => slots.length + 2 * (c.source.config.keyCount - key) + 1

/-- **A step brings a pass nearer to its end**, and reads the pins before it sweeps. -/
lemma Known.step_left (h : Known config c slots)
    (hclear : c.phase ≠ .folding → slots = [] ∧ c.source.droppedEdges = false)
    (hphase : c.phase ≠ .idle) : ∃ rest, Known config c.step rest ∧
      (c.step.phase ≠ .folding → rest = [] ∧ c.step.source.droppedEdges = false) ∧
        c.step.pins = c.pins ∧ left c.step rest < left c slots := by
  cases hcase : c.phase with
  | idle => exact absurd hcase hphase
  | folding =>
    cases slots with
    | nil =>
      obtain ⟨hknown, -, hkept⟩ := h.beginSweep hcase
      have hstep := step_beginSweep hcase h.ring.pop_nil
      refine ⟨[], hknown, fun _ => ⟨rfl, hkept⟩, by rw [hstep], ?_⟩
      have hconfig : c.step.source.config = c.source.config :=
        hknown.config_eq.trans h.config_eq.symm
      unfold left
      rw [hconfig, hstep, hcase]
      exact Nat.lt_succ_self _
    | cons slot rest =>
      obtain ⟨hknown, -⟩ := h.fold hcase
      obtain ⟨ring, hpop, -⟩ := h.ring.pop
      obtain ⟨hphase', hpins, hsweep⟩ : c.step.phase = .folding ∧ c.step.pins = c.pins ∧
          c.step.source.sweepKey = c.source.sweepKey := by
        unfold Capture.step
        rw [hcase]
        dsimp only
        rw [hpop]
        exact ⟨rfl, rfl, rfl⟩
      have hconfig : c.step.source.config = c.source.config :=
        hknown.config_eq.trans h.config_eq.symm
      refine ⟨rest, hknown, fun hnot => absurd hphase' hnot, hpins, ?_⟩
      unfold left
      rw [hphase', hcase, hconfig, hsweep]
      dsimp only
      rw [List.length_cons]
      omega
  | sweeping swept =>
    obtain ⟨rfl, hkept⟩ := hclear (by rw [hcase]; exact nofun)
    by_cases hlast : swept < c.source.config.keyCount
    · rw [step_sweep hcase hlast]
      refine ⟨[], h.sweep, fun _ => ⟨rfl, hkept⟩, rfl, ?_⟩
      unfold left Capture.afterSweep
      rw [hcase]
      dsimp only
      generalize Key.sweep _ _ _ = found
      cases found.1 with
      | none => simp; omega
      | some change => simp; omega
    · rw [step_endSweep hcase hlast]
      refine ⟨[], ⟨h.config_eq, h.ring, h.believed_eq, fun _ => rfl, h.pending_eq⟩,
        fun _ => ⟨rfl, hkept⟩, rfl, ?_⟩
      unfold left
      rw [hcase]
      exact Nat.succ_pos _

/-- The steps of a pass, one after the other. -/
lemma run_steps (c : Capture) (n : ℕ) :
    c.run (List.replicate (n + 1) .step) = c.step.run (List.replicate n .step) := rfl

/-- A source that is not in a pass stays as it is. -/
lemma run_idle (hidle : c.phase = .idle) (n : ℕ) : c.run (List.replicate n .step) = c := by
  induction n with
  | zero => rfl
  | succ n ih =>
    have hstep : c.step = c := by
      unfold Capture.step
      rw [hidle]
    rw [run_steps, hstep, ih]

/-- **A pass without interrupts comes to an end**, and has then emptied the ring and, if edges had
been dropped, read the pins. The induction is on what is left of the pass. -/
lemma Known.pass (h : Known config c slots)
    (hclear : c.phase ≠ .folding → slots = [] ∧ c.source.droppedEdges = false) :
    ∃ c', (∃ n, c.run (List.replicate n .step) = c') ∧ c'.phase = .idle ∧ Known config c' [] ∧
      c'.source.droppedEdges = false ∧ c'.pins = c.pins := by
  induction hleft : left c slots using Nat.strong_induction_on generalizing c slots with
  | _ bound ih =>
    by_cases hphase : c.phase = .idle
    · obtain ⟨rfl, hkept⟩ := hclear (by rw [hphase]; exact nofun)
      exact ⟨c, ⟨0, rfl⟩, hphase, h, hkept, rfl⟩
    · obtain ⟨rest, hknown, hclear', hpins, hless⟩ := h.step_left hclear hphase
      obtain ⟨c', ⟨n, hrun⟩, hidle, hknown', hkept, hpins'⟩ :=
        ih _ (hleft ▸ hless) hknown hclear' rfl
      exact ⟨c', ⟨n + 1, hrun⟩, hidle, hknown', hkept, hpins'.trans hpins⟩

/-- A pass that has come to an end stays there. -/
lemma run_steps_le {n m : ℕ} (hle : n ≤ m)
    (hidle : (c.run (List.replicate n .step)).phase = .idle) :
    c.run (List.replicate m .step) = c.run (List.replicate n .step) := by
  obtain ⟨d, rfl⟩ := Nat.exists_eq_add_of_le hle
  have hsplit : c.run (List.replicate (n + d) .step) =
      (c.run (List.replicate n .step)).run (List.replicate d .step) := by
    rw [List.replicate_add]
    exact List.foldl_append
  rw [hsplit, run_idle hidle]

/-- Two passes from one state end alike. -/
lemma drains_unique {time : ℤ} {c₁ c₂ : Capture} (h₁ : Capture.Drains time c c₁)
    (h₂ : Capture.Drains time c c₂) : c₁ = c₂ := by
  obtain ⟨⟨n, rfl⟩, hidle₁⟩ := h₁
  obtain ⟨⟨m, rfl⟩, hidle₂⟩ := h₂
  obtain hle | hle := le_total n m
  · exact (run_steps_le hle hidle₁).symm
  · exact run_steps_le hle hidle₂

/-- **A pass** from a state that every schedule keeps. -/
lemma Known.drains (h : Known config c slots) (time : ℤ) :
    ∃ c', Capture.Drains time c c' ∧ Known config c' [] ∧ c'.source.droppedEdges = false ∧
      c'.pins = c.pins := by
  obtain ⟨c', ⟨n, hrun⟩, hidle, hknown, hkept, hpins⟩ :=
    (h.poll time).pass fun hphase => absurd rfl hphase
  exact ⟨c', ⟨⟨n, hrun.symm⟩, hidle⟩, hknown, hkept, hpins⟩

/-! ## The second pass -/

/-- **A pass at pins that have not moved** changes no level and no time stamp; the keys that it has
swept are home or within their windows. -/
structure Sweeps (before : Capture) (nowMs : ℤ) (c : Capture) : Prop where
  config_eq : c.source.config = before.source.config
  ring : c.source.ring.Holds []
  kept : c.source.droppedEdges = false
  nowMs_eq : c.source.nowMs = nowMs
  pending_eq : ∀ key, (c.source.keys key).pending = (before.source.keys key).pending
  changeMs_eq : ∀ key, (c.source.keys key).changeMs = (before.source.keys key).changeMs
  home : ∀ key, ¬ before.Away key → ¬ c.Away key
  swept : ∀ key < c.sweptTo, ¬ c.Away key ∨
    ticksDiff nowMs (c.source.keys key).changeMs < c.source.config.settleMs

/-- A key that is home stays there. -/
lemma Key.sweep_home {entry : Key} (h : entry.pending = entry.believed) (settle nowMs : ℤ) :
    (entry.sweep settle nowMs).2.pending = (entry.sweep settle nowMs).2.believed := by
  unfold Key.sweep
  rw [if_neg fun hdue => hdue.1 h]
  exact h

/-- A key that has been swept is home or within its window. -/
lemma Key.sweep_judged (settle : ℤ) (entry : Key) (nowMs : ℤ) :
    (entry.sweep settle nowMs).2.pending = (entry.sweep settle nowMs).2.believed ∨
      ticksDiff nowMs (entry.sweep settle nowMs).2.changeMs < settle := by
  unfold Key.sweep
  split_ifs with hdue
  · exact .inl rfl
  · by_cases haway : entry.pending ≠ entry.believed
    · exact .inr (not_le.mp fun hlong => hdue ⟨haway, hlong⟩)
    · exact .inl (not_not.mp haway)

/-- One step of such a pass. -/
lemma Sweeps.step {before : Capture} {nowMs : ℤ} (h : Sweeps before nowMs c) :
    Sweeps before nowMs c.step := by
  cases hphase : c.phase with
  | idle =>
    unfold Capture.step
    rw [hphase]
    exact h
  | folding =>
    have hsame : c.source.rereadPins c.pins = c.source := by
      unfold rereadPins
      rw [if_neg (by rw [h.kept]; exact nofun)]
    rw [step_beginSweep hphase h.ring.pop_nil, hsame]
    refine ⟨h.config_eq, h.ring, h.kept, h.nowMs_eq, h.pending_eq, h.changeMs_eq, h.home,
      fun key hkey => ?_⟩
    refine h.swept key ?_
    unfold Capture.sweptTo
    rw [hphase]
    exact hkey
  | sweeping swept =>
    by_cases hlast : swept < c.source.config.keyCount
    · obtain ⟨hpending, hchange, -⟩ :=
        Key.sweep_spec c.source.config.settleMs (c.source.keys swept) c.source.nowMs
      have hjudged := Key.sweep_judged c.source.config.settleMs (c.source.keys swept) c.source.nowMs
      have hhome : (c.source.keys swept).pending = (c.source.keys swept).believed → _ :=
        fun heq => Key.sweep_home heq c.source.config.settleMs c.source.nowMs
      rw [step_sweep hphase hlast]
      unfold Capture.afterSweep
      dsimp only
      generalize Key.sweep _ _ _ = found at hpending hchange hjudged hhome ⊢
      refine ⟨h.config_eq, h.ring, h.kept, h.nowMs_eq, fun key => ?_, fun key => ?_,
        fun key hbefore => ?_, fun key hkey => ?_⟩
      · refine Eq.trans ?_ (h.pending_eq key)
        dsimp only
        by_cases hsame : key = swept
        · rw [hsame, Function.update_self, hpending]
        · rw [Function.update_of_ne hsame]
      · refine Eq.trans ?_ (h.changeMs_eq key)
        dsimp only
        by_cases hsame : key = swept
        · rw [hsame, Function.update_self, hchange]
        · rw [Function.update_of_ne hsame]
      · have hnow := h.home key hbefore
        unfold Capture.Away at hnow ⊢
        dsimp only
        by_cases hsame : key = swept
        · subst hsame
          rw [Function.update_self]
          exact not_not.mpr (hhome (not_not.mp hnow))
        · rw [Function.update_of_ne hsame]
          exact hnow
      · unfold Capture.Away
        dsimp only
        by_cases hsame : key = swept
        · rw [hsame, Function.update_self, ← h.nowMs_eq]
          exact hjudged.imp_left not_not.mpr
        · rw [Function.update_of_ne hsame]
          refine h.swept key ?_
          have hlt : key < swept + 1 := by
            obtain ⟨event, entry⟩ := found
            cases event with
            | none => exact hkey
            | some change => exact hkey
          unfold Capture.sweptTo
          rw [hphase]
          exact lt_of_le_of_ne (Nat.lt_succ_iff.mp hlt) hsame
    · rw [step_endSweep hphase hlast]
      refine ⟨h.config_eq, h.ring, h.kept, h.nowMs_eq, h.pending_eq, h.changeMs_eq, h.home,
        fun key hkey => ?_⟩
      refine h.swept key ?_
      unfold Capture.sweptTo
      rw [hphase]
      exact lt_of_lt_of_le hkey (not_lt.mp hlast)

/-- All steps of such a pass. -/
lemma Sweeps.steps {before : Capture} {nowMs : ℤ} (h : Sweeps before nowMs c) (n : ℕ) :
    Sweeps before nowMs (c.run (List.replicate n .step)) := by
  induction n generalizing c with
  | zero => exact h
  | succ n ih => exact ih h.step

/-- **The second pass publishes every key that is away**, if it comes after the window of the key
and within half a tick period of the moment that the key left the published level. -/
lemma Known.recovers {time time' : ℤ} (h : Known config c [])
    (hkept : c.source.droppedEdges = false) (hidle : c.phase = .idle)
    (hnow : c.now = time) (hle : time ≤ time')
    (hlate : time + config.settleMs ≤ time') (hdrains : Capture.Drains time' c c')
    (hkey : key < config.keyCount) (hrecent : c.Recent time' key) :
    c'.publishedLevel key = config.sample (c.pins key) := by
  have hsweep := h.idle_sweep hidle
  have hbegins : Sweeps c (ticksMs time') (c.apply (.poll time')) := by
    refine ⟨rfl, h.ring, hkept, rfl, fun _ => rfl, fun _ => rfl, fun _ hhome => hhome,
      fun key hkey => ?_⟩
    change key < c.source.sweepKey at hkey
    omega
  obtain ⟨c'', hdrains', hknown, -, -⟩ := h.drains time'
  obtain rfl := drains_unique hdrains' hdrains
  obtain ⟨⟨n, hrun⟩, hend⟩ := hdrains
  have hends : Sweeps c (ticksMs time') c'' := hrun ▸ hbegins.steps n
  have hpending : (c''.source.keys key).pending = config.sample (c.pins key) :=
    (hends.pending_eq key).trans (h.pending_eq hkept key hkey)
  rw [← hknown.believed_eq, ← hpending]
  have hswept := hends.swept key (by
    unfold Capture.sweptTo
    rw [hend, hknown.config_eq]
    exact hkey)
  by_contra hne
  have haway : c''.Away key := fun heq => hne heq.symm
  have hwindow := hswept.resolve_left (not_not.mpr haway)
  rw [hends.changeMs_eq, hknown.config_eq] at hwindow
  have hbefore : c.Away key := not_not.mp fun hhome => hends.home key hhome haway
  obtain ⟨moment, hmoment, hstamp, hhalf⟩ := hrecent hbefore
  rw [hstamp, ticksDiff_ticksMs (by omega) (by omega)] at hwindow
  omega

/-- The time of a pass is the time that the source goes by. -/
lemma now_drains {time : ℤ} (h : Capture.Drains time c c') : c'.now = time := by
  obtain ⟨⟨n, rfl⟩, -⟩ := h
  have hstep : ∀ c : Capture, c.step.now = c.now := by
    intro c
    unfold Capture.step
    split
    · rfl
    · split
      · rfl
      · rfl
    · split_ifs
      · split
        · rfl
        · rfl
      · rfl
  have hsteps : ∀ (n : ℕ) (c : Capture), (c.run (List.replicate n .step)).now = c.now := by
    intro n
    induction n with
    | zero => exact fun _ => rfl
    | succ n ih => exact fun c => (ih c.step).trans (hstep c)
  exact hsteps n _

/-- **The source recovers from dropped edges.** Along every schedule, in which interrupts come when
the ring has room and when it has not, what went into the ring comes out, once and in order. When
the pins then stay as they are, every pass comes to an end, and after two passes, the second one at
least `settle_ms` after the first, the level published last for a key is that of its pin; only a key
that has been away from its published level for half a tick period may be left out. -/
theorem overflow_recovers (config : Config) (levels : ℕ → ℕ) (start : ℤ) (ops : List Op)
    (hlevels : ∀ e, Op.interrupt e ∈ ops → e.level < 2) :
    let new := Capture.new config levels start
    let c := new.run ops
    (∃ slots, c.source.ring.Holds slots ∧ new.accepted ops = new.taken ops ++ slots) ∧
    ∀ time time', time ≤ time' → time + config.settleMs ≤ time' →
      (∃ c₁ c₂, Capture.Drains time c c₁ ∧ Capture.Drains time' c₁ c₂) ∧
      ∀ c₁ c₂, Capture.Drains time c c₁ → Capture.Drains time' c₁ c₂ →
        ∀ key < config.keyCount, c₁.Recent time' key →
          c₂.publishedLevel key = config.sample (c.pins key) := by
  intro new c
  obtain ⟨slots, hslots, hknown⟩ := (known_new config levels start).run hlevels
  refine ⟨⟨slots, hknown.ring, hslots⟩, fun time time' hle hlate => ?_⟩
  obtain ⟨first, hfirst, hknown', hkept, hpins⟩ := hknown.drains time
  obtain ⟨second, hsecond, -⟩ := hknown'.drains time'
  refine ⟨⟨first, second, hfirst, hsecond⟩, fun c₁ c₂ h₁ h₂ key hkey hrecent => ?_⟩
  obtain rfl := drains_unique hfirst h₁
  rw [← hpins]
  exact hknown'.recovers hkept h₁.2 (now_drains h₁) hle hlate h₂ hkey hrecent

/-- Two keys and a ring with room for one edge: the release of the first key and the press of the
second one are dropped, and both are published right. -/
theorem overflow_recovers_two_keys :
    let config : Config := { keyCount := 2, ringDepth := 2 }
    let c := (Capture.new config (fun _ => 1) 0).run
      [.interrupt ⟨0, 0, 5⟩, .interrupt ⟨0, 1, 30⟩, .interrupt ⟨1, 0, 40⟩]
    let c₁ := c.run (.poll 100 :: List.replicate 8 .step)
    let c₂ := c₁.run (.poll 110 :: List.replicate 8 .step)
    c.source.droppedEdges = true ∧ c₂.publishedLevel 0 = false ∧ c₂.publishedLevel 1 = true := by
  intro config c c₁ c₂
  have hrecovers := (overflow_recovers config (fun _ => 1) 0
    [.interrupt ⟨0, 0, 5⟩, .interrupt ⟨0, 1, 30⟩, .interrupt ⟨1, 0, 40⟩] (by simp)).2 100 110
    (by decide) (by decide +kernel)
  have hright := hrecovers.2 c₁ c₂ ⟨⟨8, rfl⟩, by decide +kernel⟩ ⟨⟨8, rfl⟩, by decide +kernel⟩
  have hrecent : ∀ key < 2, c₁.Recent 110 key := by
    refine fun key hkey haway => ⟨100, by decide +kernel, ?_, by decide⟩
    revert haway
    revert key
    decide +kernel
  refine ⟨by decide +kernel, ?_, ?_⟩
  · exact (hright 0 (by decide) (hrecent 0 (by decide))).trans (by decide +kernel)
  · exact (hright 1 (by decide) (hrecent 1 (by decide))).trans (by decide +kernel)

/-- A press that is captured at one pass, and a second pass half a tick period later: the press is
not published, since its time stamp seems to be in the future. -/
theorem not_overflow_recovers_late :
    ¬ ∀ (config : Config) (levels : ℕ → ℕ) (start : ℤ) (ops : List Op),
      (∀ e, Op.interrupt e ∈ ops → e.level < 2) →
      ∀ time time', time ≤ time' → time + config.settleMs ≤ time' →
      ∀ c₁ c₂, Capture.Drains time ((Capture.new config levels start).run ops) c₁ →
        Capture.Drains time' c₁ c₂ → ∀ key < config.keyCount,
          c₂.publishedLevel key =
            config.sample (((Capture.new config levels start).run ops).pins key) := by
  intro hall
  have hright := hall { keyCount := 1 } (fun _ => 1) 0 [.interrupt ⟨0, 0, 1000⟩] (by simp)
    1000 (1000 + 2 ^ 28) (by decide) (by decide +kernel) _ _ ⟨⟨8, rfl⟩, by decide +kernel⟩
    ⟨⟨8, rfl⟩, by decide +kernel⟩ 0 (by decide)
  revert hright
  decide +kernel

end ChuMicro.Buttons
