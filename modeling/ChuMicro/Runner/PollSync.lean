import ChuMicro.Runner.PollSet
import Mathlib.Data.List.Nodup

/-!
# Sweeps of the poll set

A sweep of `_sync_poll_set` leaves exactly the registrations that are wanted. The first loop stamps
the slots of the wanted sockets and adds the missing ones; the second brings the dictionary of the
poller up to date at the keys of the stamped slots; the third drops the others, where a key that has
passed on to a stamped slot stays. Between two sweeps no slot changes, so the invariant `Synced`
says what a history leads to.

## Main definitions

* `Runner.Slot.key` — what a slot is registered under.
* `Runner.World.Exact` — the registrations of a poller are the wanted ones.
* `Runner.World.Synced` — the invariant of a history.

## Main results

* `Runner.World.Synced.syncPollSet` — what a sweep does.
* `Runner.World.Reachable.synced` — every history keeps the invariant.
* `Runner.World.poll_set_exact` — the poll set over all histories.
-/

namespace ChuMicro.Runner

namespace World

/-! ## Wanted events -/

section Mark

/-- The events some wishes have for a socket. -/
def maskOf (wishes : List (ℕ × ℕ)) (sock : ℕ) : ℕ :=
  ((wishes.filter (·.1 = sock)).map (·.2)).foldl (· ||| ·) 0

/-- The events after one more wish. -/
lemma maskOf_append (wishes : List (ℕ × ℕ)) (sock eventmask sock' : ℕ) :
    maskOf (wishes ++ [(sock, eventmask)]) sock' =
      if sock = sock' then maskOf wishes sock' ||| eventmask else maskOf wishes sock' := by
  by_cases h : sock = sock' <;> simp [maskOf, h]

/-- What the first loop has made of the old slots after some wishes. -/
structure Marked (sockets : Sockets) (generation : ℕ) (old : List Slot) (mask : ℕ → ℕ)
    (slots : List Slot) (count : ℕ) : Prop where
  nodup : (slots.map (·.sock)).Nodup
  origin : ∀ slot ∈ slots,
    (∃ o ∈ old, o.sock = slot.sock ∧ o.registeredMask = slot.registeredMask ∧
      o.descriptor = slot.descriptor) ∨
    ((∀ o ∈ old, o.sock ≠ slot.sock) ∧ mask slot.sock ≠ 0 ∧ slot.registeredMask = 0 ∧
      slot.descriptor = filenoOf sockets slot.sock)
  kept : ∀ o ∈ old, ∃ slot ∈ slots, slot.sock = o.sock
  wanted : ∀ sock, mask sock ≠ 0 → ∃ slot ∈ slots, slot.sock = sock
  live : ∀ slot ∈ slots, slot.sweepGeneration = generation ↔ mask slot.sock ≠ 0
  swept : ∀ slot ∈ slots, mask slot.sock ≠ 0 → slot.sweepMask = mask slot.sock
  count : count = (slots.filter (·.sweepGeneration = generation)).length

variable {sockets : Sockets} {generation : ℕ} {old slots : List Slot} {mask : ℕ → ℕ} {count : ℕ}

/-- Before the first wish. -/
lemma Marked.start (hnodup : (old.map (·.sock)).Nodup)
    (hold : ∀ slot ∈ old, slot.sweepGeneration ≠ generation) :
    Marked sockets generation old (fun _ => 0) old 0 where
  nodup := hnodup
  origin := fun slot hslot => .inl ⟨slot, hslot, rfl, rfl, rfl⟩
  kept := fun o ho => ⟨o, ho, rfl⟩
  wanted := fun sock h => absurd rfl h
  live := fun slot hslot => by simp [hold slot hslot]
  swept := fun slot _ h => absurd rfl h
  count := by
    rw [List.filter_eq_nil_iff.mpr fun slot hslot => by simp [hold slot hslot]]
    rfl

variable {eventmask : ℕ}

/-- A wish for a socket that has no slot. -/
lemma Marked.insert (h : Marked sockets generation old mask slots count) {sock : ℕ}
    (hmask : eventmask ≠ 0) (hnew : ∀ slot ∈ slots, slot.sock ≠ sock) :
    Marked sockets generation old
      (fun sock' => if sock = sock' then mask sock' ||| eventmask else mask sock')
      (slots ++ [⟨sock, 0, eventmask, generation, filenoOf sockets sock⟩]) (count + 1) := by
  have hzero : mask sock = 0 := by
    by_contra hne
    obtain ⟨slot, hslot, hsock⟩ := h.wanted sock hne
    exact hnew slot hslot hsock
  have hne : ∀ slot ∈ slots, sock ≠ slot.sock := fun slot hslot => (hnew slot hslot).symm
  constructor
  · rw [List.map_append, List.nodup_append]
    refine ⟨h.nodup, by simp, ?_⟩
    intro a ha b hb
    obtain ⟨slot, hslot, rfl⟩ := List.mem_map.mp ha
    obtain rfl : b = sock := by simpa using hb
    exact hnew slot hslot
  · intro slot hslot
    rcases List.mem_append.mp hslot with hslot | hslot
    · rw [if_neg (hne slot hslot)]
      exact h.origin slot hslot
    · obtain rfl := List.mem_singleton.mp hslot
      refine .inr ⟨fun o ho heq => ?_, by simp [hmask], rfl, rfl⟩
      obtain ⟨slot, hslot, hsock⟩ := h.kept o ho
      exact hnew slot hslot (hsock.trans heq)
  · intro o ho
    obtain ⟨slot, hslot, hsock⟩ := h.kept o ho
    exact ⟨slot, List.mem_append_left _ hslot, hsock⟩
  · intro sock' hne'
    by_cases heq : sock = sock'
    · exact ⟨_, List.mem_append_right _ List.mem_cons_self, heq⟩
    · rw [if_neg heq] at hne'
      obtain ⟨slot, hslot, hsock⟩ := h.wanted sock' hne'
      exact ⟨slot, List.mem_append_left _ hslot, hsock⟩
  · intro slot hslot
    rcases List.mem_append.mp hslot with hslot | hslot
    · rw [if_neg (hne slot hslot)]
      exact h.live slot hslot
    · obtain rfl := List.mem_singleton.mp hslot
      simp [hmask]
  · intro slot hslot hwanted
    rcases List.mem_append.mp hslot with hslot | hslot
    · rw [if_neg (hne slot hslot)] at hwanted ⊢
      exact h.swept slot hslot hwanted
    · obtain rfl := List.mem_singleton.mp hslot
      simp [hzero]
  · rw [List.filter_append, List.length_append, ← h.count]
    simp

/-- A slot changed in place. -/
lemma map_replace {before after : List Slot} {slot stamped : Slot}
    (hnodup : ((before ++ slot :: after).map (·.sock)).Nodup) :
    ((before ++ slot :: after).map fun slot' => if slot'.sock = slot.sock then stamped else slot') =
      before ++ stamped :: after := by
  have hother : ∀ slot' ∈ before ++ after, slot'.sock ≠ slot.sock := by
    intro slot' hslot' heq
    have hperm : ((slot :: (before ++ after)).map (·.sock)).Nodup :=
      (List.Perm.nodup_iff (List.Perm.map _ List.perm_middle)).mp hnodup
    rw [List.map_cons, List.nodup_cons] at hperm
    exact hperm.1 (List.mem_map.mpr ⟨slot', hslot', heq⟩)
  have hsame : ∀ l : List Slot, (∀ slot' ∈ l, slot'.sock ≠ slot.sock) →
      (l.map fun slot' => if slot'.sock = slot.sock then stamped else slot') = l := by
    intro l hl
    conv_rhs => rw [← List.map_id l]
    exact List.map_congr_left fun slot' hslot' => if_neg (hl slot' hslot')
  rw [List.map_append, List.map_cons, if_pos rfl,
    hsame before fun slot' h => hother slot' (List.mem_append_left _ h),
    hsame after fun slot' h => hother slot' (List.mem_append_right _ h)]

/-- A wish for a socket that has a slot. -/
lemma Marked.replace {before after : List Slot} {slot stamped : Slot}
    (h : Marked sockets generation old mask (before ++ slot :: after) count) (hmask : eventmask ≠ 0)
    (hsame : stamped.sock = slot.sock ∧ stamped.registeredMask = slot.registeredMask ∧
      stamped.descriptor = slot.descriptor)
    (hlive : stamped.sweepGeneration = generation)
    (hsweep : stamped.sweepMask = mask slot.sock ||| eventmask) :
    Marked sockets generation old
      (fun sock' => if slot.sock = sock' then mask sock' ||| eventmask else mask sock')
      (before ++ stamped :: after)
      (if slot.sweepGeneration ≠ generation then count + 1 else count) := by
  obtain ⟨hsock, hregistered, hdescriptor⟩ := hsame
  have hnodup := h.nodup
  have hother : ∀ slot' ∈ before ++ after, slot.sock ≠ slot'.sock := by
    intro slot' hslot' heq
    have hperm : ((slot :: (before ++ after)).map (·.sock)).Nodup :=
      (List.Perm.nodup_iff (List.Perm.map _ List.perm_middle)).mp hnodup
    rw [List.map_cons, List.nodup_cons] at hperm
    exact hperm.1 (List.mem_map.mpr ⟨slot', hslot', heq.symm⟩)
  have hmem : ∀ slot', slot' ∈ before ++ stamped :: after ↔
      slot' = stamped ∨ slot' ∈ before ++ after := by
    intro slot'
    simp only [List.mem_append, List.mem_cons]
    tauto
  have hmemOld : ∀ slot', slot' ∈ before ++ slot :: after ↔
      slot' = slot ∨ slot' ∈ before ++ after := by
    intro slot'
    simp only [List.mem_append, List.mem_cons]
    tauto
  have hcovers : ∀ sock, (∃ slot' ∈ before ++ slot :: after, slot'.sock = sock) →
      ∃ slot' ∈ before ++ stamped :: after, slot'.sock = sock := by
    rintro sock ⟨slot', hslot', rfl⟩
    rcases (hmemOld slot').mp hslot' with rfl | hslot'
    · exact ⟨stamped, (hmem _).mpr (.inl rfl), hsock⟩
    · exact ⟨slot', (hmem _).mpr (.inr hslot'), rfl⟩
  have hnonzero : mask slot.sock ||| eventmask ≠ 0 := by
    intro hzero
    exact hmask (Nat.or_eq_zero_iff.mp hzero).2
  constructor
  · rw [List.map_append, List.map_cons, hsock, ← List.map_cons, ← List.map_append]
    exact hnodup
  · intro slot' hslot'
    rcases (hmem slot').mp hslot' with rfl | hslot'
    · rw [hsock, hregistered, hdescriptor, if_pos rfl]
      exact (h.origin slot ((hmemOld _).mpr (.inl rfl))).imp_right fun hnew =>
        ⟨hnew.1, hnonzero, hnew.2.2⟩
    · rw [if_neg (hother slot' hslot')]
      exact h.origin slot' ((hmemOld _).mpr (.inr hslot'))
  · exact fun o ho => hcovers _ (h.kept o ho)
  · intro sock hne
    apply hcovers
    by_cases heq : slot.sock = sock
    · exact ⟨slot, (hmemOld _).mpr (.inl rfl), heq⟩
    · rw [if_neg heq] at hne
      exact h.wanted sock hne
  · intro slot' hslot'
    rcases (hmem slot').mp hslot' with rfl | hslot'
    · rw [hsock, if_pos rfl]
      exact ⟨fun _ => hnonzero, fun _ => hlive⟩
    · rw [if_neg (hother slot' hslot')]
      exact h.live slot' ((hmemOld _).mpr (.inr hslot'))
  · intro slot' hslot' hne
    rcases (hmem slot').mp hslot' with rfl | hslot'
    · rw [hsock, if_pos rfl]
      exact hsweep
    · rw [if_neg (hother slot' hslot')] at hne ⊢
      exact h.swept slot' ((hmemOld _).mpr (.inr hslot')) hne
  · have hcount := h.count
    rw [List.filter_append, List.length_append, List.filter_cons] at hcount ⊢
    by_cases hgeneration : slot.sweepGeneration = generation
    · simpa [hgeneration, hlive] using hcount
    · simp only [hgeneration, hlive, decide_true, decide_false, if_true, List.length_cons,
        ne_eq, not_false_eq_true] at hcount ⊢
      simp only [Bool.false_eq_true, if_false] at hcount
      omega

/-- **A wish is noted in the slots.** -/
lemma Marked.mark (h : Marked sockets generation old mask slots count) (sock : ℕ)
    (hmask : eventmask ≠ 0) :
    Marked sockets generation old
      (fun sock' => if sock = sock' then mask sock' ||| eventmask else mask sock')
      (World.mark sockets generation sock eventmask slots count).1
      (World.mark sockets generation sock eventmask slots count).2 := by
  unfold World.mark
  cases hfind : slots.find? (·.sock = sock) with
  | none =>
    refine h.insert hmask fun slot hslot => ?_
    simpa using List.find?_eq_none.mp hfind slot hslot
  | some slot =>
    have hmem := List.mem_of_find?_eq_some hfind
    obtain rfl : slot.sock = sock := by simpa using List.find?_some hfind
    obtain ⟨before, after, rfl⟩ := List.append_of_mem hmem
    dsimp only
    rw [map_replace h.nodup]
    refine h.replace hmask ?_ ?_ ?_
    · split_ifs <;> exact ⟨rfl, rfl, rfl⟩
    · split_ifs with hgeneration
      · rfl
      · exact not_not.mp hgeneration
    · split_ifs with hgeneration
      · have hzero : mask slot.sock = 0 := by
          by_contra hne
          exact hgeneration ((h.live slot hmem).mpr hne)
        rw [hzero, Nat.zero_or]
      · have hne := (h.live slot hmem).mp (not_not.mp hgeneration)
        show slot.sweepMask ||| eventmask = _
        rw [h.swept slot hmem hne]

/-- An entry wants events, not none. -/
lemma wants_ne_zero {w : World} {now : ℕ} {entry : TaskHandle} {sock : ℕ}
    (h : w.wants now entry = some (sock, eventmask)) : eventmask ≠ 0 := by
  unfold wants at h
  split at h
  · cases h
  · split_ifs at h
    split at h
    · cases h
    · dsimp only at h
      split_ifs at h with hzero
      cases h
      exact hzero

/-- **The first loop stamps what is wanted.** -/
lemma Marked.markAll {w : World} {now : ℕ} {wishes : List (ℕ × ℕ)} (entries : List TaskHandle)
    (h : Marked w.sockets generation old (maskOf wishes) slots count) :
    Marked w.sockets generation old (maskOf (wishes ++ entries.filterMap (w.wants now)))
      (World.markAll w now generation entries slots count).1
      (World.markAll w now generation entries slots count).2 := by
  induction entries generalizing wishes slots count with
  | nil => simpa [World.markAll] using h
  | cons entry entries ih =>
    rw [World.markAll]
    cases hwants : w.wants now entry with
    | none =>
      rw [List.filterMap_cons_none hwants]
      exact ih h
    | some wish =>
      obtain ⟨sock, eventmask⟩ := wish
      have hstep := h.mark sock (wants_ne_zero hwants)
      have hmask : (fun sock' => if sock = sock' then maskOf wishes sock' ||| eventmask
          else maskOf wishes sock') = maskOf (wishes ++ [(sock, eventmask)]) := by
        funext sock'
        rw [maskOf_append]
      rw [hmask] at hstep
      rw [List.filterMap_cons_some hwants, List.append_cons]
      exact ih hstep

end Mark

end World

/-! ## Registrations -/

/-- What a slot is registered under. -/
def Slot.key (keying : Keying) (slot : Slot) : Option ℕ :=
  match keying with
  | .byObject => some slot.sock
  | .byDescriptor => slot.descriptor

/-- Slots of one socket and one descriptor have the same key. -/
lemma Slot.key_congr {keying : Keying} {a b : Slot} (hsock : a.sock = b.sock)
    (hdescriptor : a.descriptor = b.descriptor) : a.key keying = b.key keying := by
  cases keying with
  | byObject => exact congrArg some hsock
  | byDescriptor => exact hdescriptor

namespace World

section Apply

variable {sockets : Sockets} {generation : ℕ}

variable {slot : Slot} {key : ℕ} {p : Poller} {slots : List Slot}

/-- The key the poller computes for the socket of a slot that is open. -/
lemma keyOf_opened {keying : Keying} (hopen : sockets slot.sock = .opened slot.descriptor)
    (hkey : slot.key keying = some key) :
    Poller.keyOf sockets keying (.sock slot.sock) = .ok key := by
  unfold Slot.key at hkey
  cases keying with
  | byObject =>
    cases hkey
    rfl
  | byDescriptor =>
    have hfileno : filenoOf sockets slot.sock = some key := by rw [filenoOf, hopen]; exact hkey
    simp only [Poller.keyOf, hfileno]

/-- The registration of an open slot is brought up to date. -/
lemma applySlot_opened (hopen : sockets slot.sock = .opened slot.descriptor)
    (hkey : slot.key p.keying = some key)
    (hregs : slot.registeredMask ≠ 0 → p.regs key = some slot.registeredMask) :
    ∃ q : Poller, applySlot sockets (some p) slot = (.ok (), some q) ∧ q.keying = p.keying ∧
      q.regs = Function.update p.regs key (some slot.sweepMask) := by
  have hkeyOf := keyOf_opened hopen hkey
  unfold applySlot
  by_cases hzero : slot.registeredMask = 0
  · simp only [hzero, if_true, Poller.register, Poller.noted, hkeyOf]
    exact ⟨_, rfl, rfl, rfl⟩
  · simp only [hzero, if_false, Poller.modify, Poller.noted, hkeyOf, hregs hzero, reduceCtorEq]
    exact ⟨_, rfl, rfl, rfl⟩

/-- A slot behind the second loop. -/
def applied (generation : ℕ) (slot : Slot) : Slot :=
  if slot.sweepGeneration = generation then { slot with registeredMask := slot.sweepMask } else slot

/-- A slot that is as it should be stays. -/
lemma applied_eq_self
    (h : slot.sweepGeneration ≠ generation ∨ slot.registeredMask = slot.sweepMask) :
    applied generation slot = slot := by
  unfold applied
  split_ifs with hlive
  · have hsame := h.resolve_left (not_not.mpr hlive)
    exact congrArg (fun mask => { slot with registeredMask := mask }) hsame.symm
  · rfl

/-- The second loop at a slot that is as it should be. -/
lemma applyAll_skip {slots' : List Slot} {poller poller' : Option Poller}
    (h : slot.sweepGeneration ≠ generation ∨ slot.registeredMask = slot.sweepMask)
    (hrest : applyAll sockets generation slots poller = (.ok (), slots', poller')) :
    applyAll sockets generation (slot :: slots) poller =
      (.ok (), applied generation slot :: slots', poller') := by
  rw [applyAll, if_pos h, hrest, applied_eq_self h]

/-- The second loop at a slot that is brought up to date. -/
lemma applyAll_step {slots' : List Slot} {poller poller' poller'' : Option Poller}
    (hlive : slot.sweepGeneration = generation) (hchanged : slot.registeredMask ≠ slot.sweepMask)
    (hslot : applySlot sockets poller slot = (.ok (), poller'))
    (hrest : applyAll sockets generation slots poller' = (.ok (), slots', poller'')) :
    applyAll sockets generation (slot :: slots) poller =
      (.ok (), applied generation slot :: slots', poller'') := by
  rw [applyAll, if_neg (by simp [hlive, hchanged]), hslot]
  dsimp only
  rw [hrest, applied, if_pos hlive]

/-- Without a poller only the slots change. -/
lemma applyAll_none (slots : List Slot) :
    applyAll sockets generation slots none = (.ok (), slots.map (applied generation), none) := by
  induction slots with
  | nil => rfl
  | cons slot slots ih =>
    by_cases hskip : slot.sweepGeneration ≠ generation ∨ slot.registeredMask = slot.sweepMask
    · exact applyAll_skip hskip ih
    · rw [not_or, not_not] at hskip
      exact applyAll_step hskip.1 hskip.2 rfl ih

/-- What the second loop needs of the slots: the stamped ones are open, with keys of their own, and
registered as they say. -/
structure Ready (sockets : Sockets) (generation : ℕ) (p : Poller) (slots : List Slot) : Prop where
  opened : ∀ slot ∈ slots, slot.sweepGeneration = generation →
    sockets slot.sock = .opened slot.descriptor ∧ slot.key p.keying ≠ none ∧ slot.sweepMask ≠ 0
  keys : slots.Pairwise fun a b => a.sweepGeneration = generation →
    b.sweepGeneration = generation → a.key p.keying ≠ b.key p.keying
  regs : ∀ slot ∈ slots, slot.sweepGeneration = generation → slot.registeredMask ≠ 0 →
    ∀ key, slot.key p.keying = some key → p.regs key = some slot.registeredMask

/-- What the second loop does to a poller. -/
structure Applied (generation : ℕ) (p : Poller) (slots : List Slot) (q : Poller) : Prop where
  keying : q.keying = p.keying
  live : ∀ slot ∈ slots, slot.sweepGeneration = generation →
    ∀ key, slot.key p.keying = some key → q.regs key = some slot.sweepMask
  other : ∀ key, (∀ slot ∈ slots, slot.sweepGeneration = generation →
    slot.key p.keying ≠ some key) → q.regs key = p.regs key
  quiet : (∀ slot ∈ slots, slot.sweepGeneration = generation →
    slot.registeredMask = slot.sweepMask) → q = p

/-- A slot that is not stamped is passed over. -/
lemma Applied.skip {q : Poller} (h : Applied generation p slots q)
    (hstale : slot.sweepGeneration ≠ generation) :
    Applied generation p (slot :: slots) q where
  keying := h.keying
  live := List.forall_mem_cons.mpr ⟨fun heq => absurd heq hstale, h.live⟩
  other := fun key hkey => h.other key fun slot' hmem => hkey slot' (List.mem_cons_of_mem _ hmem)
  quiet := fun hsame => h.quiet fun slot' hmem => hsame slot' (List.mem_cons_of_mem _ hmem)

/-- A stamped slot, and the others behind it. -/
lemma Applied.cons {p' q : Poller} (hready : Ready sockets generation p (slot :: slots))
    (hlive : slot.sweepGeneration = generation) (hkey : slot.key p.keying = some key)
    (hkeying : p'.keying = p.keying)
    (hregs : p'.regs = Function.update p.regs key (some slot.sweepMask))
    (hquiet : slot.registeredMask = slot.sweepMask → p' = p) (h : Applied generation p' slots q) :
    Applied generation p (slot :: slots) q where
  keying := h.keying.trans hkeying
  live := by
    have hrest := h.live
    have hother := h.other
    rw [hkeying] at hrest hother
    refine List.forall_mem_cons.mpr ⟨fun _ key' hkey' => ?_, hrest⟩
    obtain rfl : key = key' := Option.some.inj (hkey.symm.trans hkey')
    rw [hother key fun slot' hmem hlive' heq =>
      (List.pairwise_cons.mp hready.keys).1 slot' hmem hlive hlive' (hkey.trans heq.symm), hregs,
      Function.update_self]
  other := by
    intro key' hkey'
    have hother := h.other key'
    rw [hkeying] at hother
    rw [hother fun slot' hmem => hkey' slot' (List.mem_cons_of_mem _ hmem), hregs,
      Function.update_of_ne]
    rintro rfl
    exact hkey' slot List.mem_cons_self hlive hkey
  quiet := by
    intro hsame
    rw [h.quiet fun slot' hmem => hsame slot' (List.mem_cons_of_mem _ hmem)]
    exact hquiet (hsame slot List.mem_cons_self hlive)

/-- The other slots are ready when a stamped one has been registered. -/
lemma Ready.tail {p' : Poller} (h : Ready sockets generation p (slot :: slots))
    (hlive : slot.sweepGeneration = generation) (hkey : slot.key p.keying = some key)
    (hkeying : p'.keying = p.keying)
    (hregs : p'.regs = Function.update p.regs key (some slot.sweepMask)) :
    Ready sockets generation p' slots where
  opened := by
    rw [hkeying]
    exact (List.forall_mem_cons.mp h.opened).2
  keys := by
    rw [hkeying]
    exact (List.pairwise_cons.mp h.keys).2
  regs := by
    rw [hkeying]
    intro slot' hmem hlive' hne key' hkey'
    rw [hregs, Function.update_of_ne]
    · exact h.regs slot' (List.mem_cons_of_mem _ hmem) hlive' hne key' hkey'
    · rintro rfl
      exact (List.pairwise_cons.mp h.keys).1 slot' hmem hlive hlive' (hkey.trans hkey'.symm)

/-- **The second loop registers the stamped slots** and leaves the other keys alone.

**Proof sketch.** Induction on the slots: a stamped slot puts its events under its key, and no other
stamped slot has that key. -/
lemma applyAll_ready (h : Ready sockets generation p slots) :
    ∃ q, applyAll sockets generation slots (some p) =
        (.ok (), slots.map (applied generation), some q) ∧ Applied generation p slots q := by
  induction slots generalizing p with
  | nil => exact ⟨p, rfl, rfl, by simp, fun _ _ => rfl, fun _ => rfl⟩
  | cons slot slots ih =>
    by_cases hlive : slot.sweepGeneration = generation
    · obtain ⟨hopen, hne, hsweep⟩ := h.opened slot List.mem_cons_self hlive
      obtain ⟨key, hkey⟩ := Option.ne_none_iff_exists'.mp hne
      have hregs := fun hzero => h.regs slot List.mem_cons_self hlive hzero key hkey
      by_cases hsame : slot.registeredMask = slot.sweepMask
      · have hput : p.regs = Function.update p.regs key (some slot.sweepMask) := by
          rw [← hsame, ← hregs (hsame ▸ hsweep), Function.update_eq_self]
        obtain ⟨q, hrest, hq⟩ := ih (h.tail hlive hkey rfl hput)
        exact ⟨q, applyAll_skip (.inr hsame) hrest,
          hq.cons h hlive hkey rfl hput fun _ => rfl⟩
      · obtain ⟨p', hslot, hkeying, hput⟩ := applySlot_opened hopen hkey hregs
        obtain ⟨q, hrest, hq⟩ := ih (h.tail hlive hkey hkeying hput)
        exact ⟨q, applyAll_step hlive hsame hslot hrest,
          hq.cons h hlive hkey hkeying hput fun heq => absurd heq hsame⟩
    · have hready : Ready sockets generation p slots :=
        ⟨(List.forall_mem_cons.mp h.opened).2, (List.pairwise_cons.mp h.keys).2,
          (List.forall_mem_cons.mp h.regs).2⟩
      obtain ⟨q, hrest, hq⟩ := ih hready
      exact ⟨q, applyAll_skip (.inl hlive) hrest, hq.skip hlive⟩

end Apply

/-! ## Stale slots -/

section Drop

variable {sockets : Sockets} {live : List Slot}

/-- What the third loop needs of the slots: the stale ones were open once and are registered, under
keys of their own; only that of a closed one may have passed on to a live one. -/
structure Droppable (sockets : Sockets) (live : List Slot) (p : Poller) (stale : List Slot) :
    Prop where
  status : ∀ slot ∈ stale, slot.key p.keying ≠ none ∧
    (sockets slot.sock = .opened slot.descriptor ∧
        (∀ l ∈ live, l.key p.keying ≠ slot.key p.keying) ∨
      sockets slot.sock = .closed)
  socks : stale.Pairwise fun a b => a.sock ≠ b.sock
  apart : ∀ l ∈ live, ∀ slot ∈ stale, l.sock ≠ slot.sock
  keys : stale.Pairwise fun a b => a.key p.keying ≠ b.key p.keying
  regs : ∀ slot ∈ stale, ∀ key, slot.key p.keying = some key → p.regs key ≠ none

variable {p : Poller} {slot : Slot} {key : ℕ} {stale : List Slot}

/-- The key of a socket that a poller can name is dropped. -/
lemma dropSlot_of_keyOf (registered : List Slot)
    (hkey : Poller.keyOf sockets p.keying (.sock slot.sock) = .ok key) (hregs : p.regs key ≠ none) :
    ∃ q : Poller, dropSlot sockets registered (some p) slot = some q ∧ q.keying = p.keying ∧
      q.regs = Function.update p.regs key none := by
  unfold dropSlot
  simp only [Poller.unregister, Poller.noted, hkey, hregs, if_false]
  exact ⟨_, rfl, rfl, rfl⟩

/-- A closed socket is dropped by the descriptor it had, unless that has passed on. -/
lemma dropSlot_closed (registered : List Slot) (hkeying : p.keying = .byDescriptor)
    (hclosed : sockets slot.sock = .closed) (hkey : slot.descriptor = some key)
    (hregs : p.regs key ≠ none) :
    ∃ q : Poller, dropSlot sockets registered (some p) slot = some q ∧ q.keying = p.keying ∧
      q.regs = if registered.any (·.descriptor = some key) then p.regs
        else Function.update p.regs key none := by
  have hfileno : filenoOf sockets slot.sock = none := by rw [filenoOf, hclosed]
  unfold dropSlot unregisterDescriptor
  simp only [Poller.unregister, Poller.noted, Poller.keyOf, hkeying, hfileno, hkey]
  by_cases hany : registered.any (·.descriptor = some key) = true
  · simp only [hany, if_true]
    exact ⟨_, rfl, rfl, rfl⟩
  · simp only [hany, hregs, if_false, Bool.false_eq_true]
    exact ⟨_, rfl, rfl, rfl⟩

/-- **A stale slot loses its registration**, unless a live slot has its key now. -/
lemma dropSlot_spec {registered : List Slot} (h : Droppable sockets live p (slot :: stale))
    (hkey : slot.key p.keying = some key) (hmem : ∀ s, s ∈ registered ↔ s ∈ live ∨ s ∈ stale) :
    ∃ q : Poller, dropSlot sockets registered (some p) slot = some q ∧ q.keying = p.keying ∧
      (∀ k, k ≠ key → q.regs k = p.regs k) ∧
      ((∃ l ∈ live, l.key p.keying = some key) → q.regs key = p.regs key) ∧
      ((∀ l ∈ live, l.key p.keying ≠ some key) → q.regs key = none) := by
  obtain ⟨hne, hstatus⟩ := h.status slot List.mem_cons_self
  have hregs := h.regs slot List.mem_cons_self key hkey
  -- the poller can name the socket: nobody else has the key
  have hnamed : Poller.keyOf sockets p.keying (.sock slot.sock) = .ok key →
      (∀ l ∈ live, l.key p.keying ≠ some key) →
      ∃ q : Poller, dropSlot sockets registered (some p) slot = some q ∧ q.keying = p.keying ∧
        (∀ k, k ≠ key → q.regs k = p.regs k) ∧
        ((∃ l ∈ live, l.key p.keying = some key) → q.regs key = p.regs key) ∧
        ((∀ l ∈ live, l.key p.keying ≠ some key) → q.regs key = none) := by
    intro hkeyOf hother
    obtain ⟨q, hdrop, hkeying, hput⟩ := dropSlot_of_keyOf registered hkeyOf hregs
    refine ⟨q, hdrop, hkeying, fun k hk => ?_, fun ⟨l, hl, heq⟩ => absurd heq (hother l hl),
      fun _ => ?_⟩
    · rw [hput, Function.update_of_ne hk]
    · rw [hput, Function.update_self]
  rcases hstatus with ⟨hopen, hother⟩ | hclosed
  · exact hnamed (keyOf_opened hopen hkey) fun l hl heq => hother l hl (heq.trans hkey.symm)
  · cases hk : p.keying with
    | byObject =>
      rw [hk] at hkey hnamed
      refine hk ▸ hnamed (by cases hkey; rfl) fun l hl heq => ?_
      have hsock := (Option.some.inj heq).trans (Option.some.inj hkey).symm
      exact h.apart l hl slot List.mem_cons_self hsock
    | byDescriptor =>
      have hdescriptor : slot.descriptor = some key := by rwa [hk] at hkey
      obtain ⟨q, hdrop, hkeying, hput⟩ := dropSlot_closed registered hk hclosed hdescriptor hregs
      -- the key has passed on to a live slot: the other stale ones have keys of their own
      have hpassed : registered.any (·.descriptor = some key) = true ↔
          ∃ l ∈ live, l.descriptor = some key := by
        simp only [List.any_eq_true, decide_eq_true_eq]
        constructor
        · rintro ⟨s, hs, heq⟩
          rcases (hmem s).mp hs with hlive | hstale
          · exact ⟨s, hlive, heq⟩
          · have hne := (List.pairwise_cons.mp h.keys).1 s hstale
            rw [hk] at hne
            exact absurd (hdescriptor.trans heq.symm) hne
        · rintro ⟨l, hl, heq⟩
          exact ⟨l, (hmem l).mpr (.inl hl), heq⟩
      refine ⟨q, hdrop, hkeying.trans hk, fun k hne' => ?_, fun hlive => ?_, fun hother => ?_⟩
      · rw [hput]
        split_ifs
        · rfl
        · rw [Function.update_of_ne hne']
      · rw [hput, if_pos (hpassed.mpr hlive)]
      · rw [hput, if_neg fun hany => ?_, Function.update_self]
        obtain ⟨l, hl, heq⟩ := hpassed.mp hany
        exact hother l hl heq

/-- The other slots can be dropped after one. -/
lemma Droppable.tail {q : Poller} (h : Droppable sockets live p (slot :: stale))
    (hkey : slot.key p.keying = some key) (hkeying : q.keying = p.keying)
    (hregs : ∀ k, k ≠ key → q.regs k = p.regs k) :
    Droppable sockets live q stale where
  status := by
    rw [hkeying]
    exact (List.forall_mem_cons.mp h.status).2
  socks := (List.pairwise_cons.mp h.socks).2
  apart := fun l hl slot' hmem => h.apart l hl slot' (List.mem_cons_of_mem _ hmem)
  keys := by
    rw [hkeying]
    exact (List.pairwise_cons.mp h.keys).2
  regs := by
    rw [hkeying]
    intro slot' hmem key' hkey'
    rw [hregs key' ?_]
    · exact h.regs slot' (List.mem_cons_of_mem _ hmem) key' hkey'
    · rintro rfl
      exact (List.pairwise_cons.mp h.keys).1 slot' hmem (hkey.trans hkey'.symm)

/-- The slots that are left when one is dropped. -/
lemma mem_filter_sock {registered : List Slot} (h : Droppable sockets live p (slot :: stale))
    (hmem : ∀ s, s ∈ registered ↔ s ∈ live ∨ s ∈ slot :: stale) (s : Slot) :
    s ∈ registered.filter (·.sock ≠ slot.sock) ↔ s ∈ live ∨ s ∈ stale := by
  rw [List.mem_filter, hmem, List.mem_cons, decide_eq_true_eq]
  constructor
  · rintro ⟨hlive | rfl | hstale, hne⟩
    · exact .inl hlive
    · exact absurd rfl hne
    · exact .inr hstale
  · rintro (hlive | hstale)
    · exact ⟨.inl hlive, h.apart s hlive slot List.mem_cons_self⟩
    · exact ⟨.inr (.inr hstale), ((List.pairwise_cons.mp h.socks).1 s hstale).symm⟩

/-- **The third loop leaves the keys of the live slots**, and no others. -/
lemma dropAll_spec (registered : List Slot) (h : Droppable sockets live p stale)
    (hmem : ∀ s, s ∈ registered ↔ s ∈ live ∨ s ∈ stale) :
    ∃ q, (dropAll sockets stale registered (some p)).2 = some q ∧ q.keying = p.keying ∧
      (∀ key, (∃ l ∈ live, l.key p.keying = some key) → q.regs key = p.regs key) ∧
      (∀ key, (∀ l ∈ live, l.key p.keying ≠ some key) →
        q.regs key = if ∃ slot ∈ stale, slot.key p.keying = some key then none else p.regs key) := by
  classical
  induction stale generalizing p registered with
  | nil => exact ⟨p, rfl, rfl, fun _ _ => rfl, fun key _ => by simp⟩
  | cons slot stale ih =>
    obtain ⟨key, hkey⟩ :=
      Option.ne_none_iff_exists'.mp (h.status slot List.mem_cons_self).1
    have hrest := mem_filter_sock h hmem
    obtain ⟨p', hdrop, hkeying, hother, hpassed, hdropped⟩ := dropSlot_spec h hkey hrest
    obtain ⟨q, hall, hkeying', hlive, hstale⟩ := ih _ (h.tail hkey hkeying hother) hrest
    rw [hkeying] at hlive hstale
    refine ⟨q, ?_, hkeying'.trans hkeying, fun k hk => ?_, fun k hk => ?_⟩
    · rw [dropAll, hdrop]
      exact hall
    · rw [hlive k hk]
      by_cases heq : k = key
      · subst heq
        exact hpassed hk
      · exact hother k heq
    · rw [hstale k hk]
      by_cases heq : k = key
      · subst heq
        rw [hdropped hk, ite_self, if_pos ⟨slot, List.mem_cons_self, hkey⟩]
      · rw [hother k heq]
        have hiff : (∃ s ∈ slot :: stale, s.key p.keying = some k) ↔
            ∃ s ∈ stale, s.key p.keying = some k := by
          rw [List.exists_mem_cons_iff, hkey]
          exact or_iff_right fun h => heq (Option.some.inj h).symm
        rw [if_congr hiff rfl rfl]

/-- The slots the third loop leaves. -/
lemma fst_dropAll (stale registered : List Slot) (poller : Option Poller) :
    (dropAll sockets stale registered poller).1 =
      registered.filter fun s => decide (∀ slot ∈ stale, s.sock ≠ slot.sock) := by
  induction stale generalizing registered poller with
  | nil => simp [dropAll]
  | cons slot stale ih =>
    rw [dropAll, ih, List.filter_filter]
    apply List.filter_congr
    intro s _
    rw [← Bool.decide_and, decide_eq_decide, List.forall_mem_cons, and_comm]

/-- Without a poller there is nothing to drop. -/
lemma dropAll_none (stale registered : List Slot) :
    (dropAll sockets stale registered none).2 = none := by
  induction stale generalizing registered with
  | nil => rfl
  | cons slot stale ih => exact ih _

end Drop

/-! ## Sweeps -/

/-- The invariant of a history. Each slot is of a socket that was open at the last sweep, under a
key of its own, and the poller has what the slots say. -/
structure Synced (w : World) : Prop where
  nodup : (w.registered.map (·.sock)).Nodup
  generation : ∀ slot ∈ w.registered, slot.sweepGeneration ≤ w.sweepGeneration
  mask : ∀ slot ∈ w.registered, slot.registeredMask ≠ 0
  status : ∀ slot ∈ w.registered,
    w.sockets slot.sock = .opened slot.descriptor ∨ w.sockets slot.sock = .closed
  key : ∀ slot ∈ w.registered, slot.key w.keying ≠ none
  keys : ∀ a ∈ w.registered, ∀ b ∈ w.registered, a.key w.keying = b.key w.keying → a.sock = b.sock
  regs : ∀ p, w.poller = some p → ∀ key mask, p.regs key = some mask ↔
    ∃ slot ∈ w.registered, slot.key w.keying = some key ∧ slot.registeredMask = mask
  descriptors : w.keying = .byDescriptor → ∀ sock, w.sockets sock ≠ .opened none
  distinct : ∀ sock sock' d, w.sockets sock = .opened (some d) →
    w.sockets sock' = .opened (some d) → sock = sock'

section Sweep

variable {w : World} {now : ℕ}

/-- The slots behind the first loop. -/
def marked (w : World) (now : ℕ) : List Slot × ℕ :=
  markAll w now (w.sweepGeneration + 1) w.entries w.registered 0

/-- The first loop has stamped what is wanted. -/
lemma Synced.marked (h : w.Synced) (now : ℕ) :
    Marked w.sockets (w.sweepGeneration + 1) w.registered (w.wantedMask now) (w.marked now).1
      (w.marked now).2 := by
  have hstart : Marked w.sockets (w.sweepGeneration + 1) w.registered (maskOf []) w.registered 0 :=
    Marked.start h.nodup fun slot hslot => by
      have := h.generation slot hslot
      omega
  exact hstart.markAll w.entries

variable {slot : Slot} {p : Poller}

/-- A slot that is of no use was there before. -/
lemma Synced.stale (h : w.Synced) (hslot : slot ∈ (w.marked now).1)
    (hstale : slot.sweepGeneration ≠ w.sweepGeneration + 1) :
    ∃ o ∈ w.registered, o.sock = slot.sock ∧ o.registeredMask = slot.registeredMask ∧
      o.descriptor = slot.descriptor := by
  have hm := h.marked now
  refine (hm.origin slot hslot).resolve_right fun hnew => hstale ?_
  exact (hm.live slot hslot).mpr hnew.2.1

/-- A slot that is wanted is of an open socket. -/
lemma Synced.opened (h : w.Synced) (hopen : ∀ sock, w.wantedMask now sock ≠ 0 → w.IsOpen sock)
    (hslot : slot ∈ (w.marked now).1) (hlive : slot.sweepGeneration = w.sweepGeneration + 1) :
    w.sockets slot.sock = .opened slot.descriptor := by
  have hm := h.marked now
  obtain ⟨d, hd⟩ := hopen _ ((hm.live slot hslot).mp hlive)
  rcases hm.origin slot hslot with ⟨o, ho, hsock, -, hdescriptor⟩ | ⟨-, -, -, hdescriptor⟩
  · rw [← hsock, ← hdescriptor]
    refine (h.status o ho).resolve_right fun hclosed => ?_
    rw [hsock, hd] at hclosed
    cases hclosed
  · rw [hdescriptor, filenoOf, hd]

/-- Open sockets have keys of their own. -/
lemma Synced.sock_eq (h : w.Synced) {a b : Slot} (ha : w.sockets a.sock = .opened a.descriptor)
    (hb : w.sockets b.sock = .opened b.descriptor) (heq : a.key w.keying = b.key w.keying) :
    a.sock = b.sock := by
  cases hk : w.keying with
  | byObject =>
    rw [hk] at heq
    exact Option.some.inj heq
  | byDescriptor =>
    have heq' : a.descriptor = b.descriptor := by rwa [hk] at heq
    have hne : a.descriptor ≠ none := fun hnone => h.descriptors hk a.sock (by rw [ha, hnone])
    obtain ⟨d, hd⟩ := Option.ne_none_iff_exists'.mp hne
    rw [hd] at ha
    rw [← heq', hd] at hb
    exact h.distinct _ _ d ha hb

/-- An open socket has a key. -/
lemma Synced.key_ne_none (h : w.Synced) (hopen : w.sockets slot.sock = .opened slot.descriptor) :
    slot.key w.keying ≠ none := by
  cases hk : w.keying with
  | byObject => exact Option.some_ne_none _
  | byDescriptor =>
    intro hnone
    exact h.descriptors hk slot.sock (by rw [hopen]; exact congrArg _ hnone)

/-- The keying of a world with a poller. -/
lemma keying_some (hp : w.poller = some p) : w.keying = p.keying := by
  rw [keying, hp]

/-- The second loop finds what it needs. -/
lemma Synced.ready (h : w.Synced) (hopen : ∀ sock, w.wantedMask now sock ≠ 0 → w.IsOpen sock)
    (hp : w.poller = some p) : Ready w.sockets (w.sweepGeneration + 1) p (w.marked now).1 := by
  have hm := h.marked now
  have hkeying := keying_some hp
  refine ⟨fun slot hslot hlive => ?_, ?_, fun slot hslot hlive hne key hkey => ?_⟩
  · have hopened := h.opened hopen hslot hlive
    have hwanted := (hm.live slot hslot).mp hlive
    rw [hm.swept slot hslot hwanted, ← hkeying]
    exact ⟨hopened, h.key_ne_none hopened, hwanted⟩
  · have hsocks := List.pairwise_map.mp hm.nodup
    refine hsocks.imp_of_mem fun {a b} ha hb hne hlive hlive' heq => hne ?_
    rw [← hkeying] at heq
    exact h.sock_eq (h.opened hopen ha hlive) (h.opened hopen hb hlive') heq
  · rcases hm.origin slot hslot with ⟨o, ho, hsock, hmask, hdescriptor⟩ | ⟨-, -, hzero, -⟩
    · refine (h.regs p hp key _).mpr ⟨o, ho, ?_, hmask⟩
      rw [← hkey, hkeying]
      exact Slot.key_congr hsock hdescriptor
    · exact absurd hzero hne

/-- The slots behind the second loop. -/
def appliedSlots (w : World) (now : ℕ) : List Slot :=
  (w.marked now).1.map (applied (w.sweepGeneration + 1))

/-- The slots that stay. -/
def liveSlots (w : World) (now : ℕ) : List Slot :=
  (w.appliedSlots now).filter (·.sweepGeneration = w.sweepGeneration + 1)

/-- The slots that go. -/
def staleSlots (w : World) (now : ℕ) : List Slot :=
  (w.appliedSlots now).filter (·.sweepGeneration ≠ w.sweepGeneration + 1)

/-- A slot that stays is a stamped one, with its new events. -/
lemma mem_liveSlots :
    slot ∈ w.liveSlots now ↔ ∃ s ∈ (w.marked now).1, s.sweepGeneration = w.sweepGeneration + 1 ∧
      slot = { s with registeredMask := s.sweepMask } := by
  rw [liveSlots, List.mem_filter, appliedSlots, List.mem_map, decide_eq_true_eq]
  constructor
  · rintro ⟨⟨s, hs, rfl⟩, hlive⟩
    unfold applied at hlive ⊢
    split_ifs at hlive ⊢ with hgeneration
    · exact ⟨s, hs, hgeneration, rfl⟩
    · exact absurd hlive hgeneration
  · rintro ⟨s, hs, hgeneration, rfl⟩
    exact ⟨⟨s, hs, by rw [applied, if_pos hgeneration]⟩, hgeneration⟩

/-- A slot that goes is one without a stamp. -/
lemma mem_staleSlots :
    slot ∈ w.staleSlots now ↔
      slot ∈ (w.marked now).1 ∧ slot.sweepGeneration ≠ w.sweepGeneration + 1 := by
  rw [staleSlots, List.mem_filter, appliedSlots, List.mem_map, decide_eq_true_eq]
  constructor
  · rintro ⟨⟨s, hs, rfl⟩, hstale⟩
    unfold applied at hstale ⊢
    split_ifs at hstale ⊢ with hgeneration
    · exact absurd hgeneration hstale
    · exact ⟨hs, hstale⟩
  · rintro ⟨hs, hstale⟩
    exact ⟨⟨slot, hs, by rw [applied, if_neg hstale]⟩, hstale⟩

/-- The sockets of the slots behind the second loop. -/
lemma Synced.nodup_applied (h : w.Synced) (now : ℕ) :
    ((w.appliedSlots now).map (·.sock)).Nodup := by
  have hsocks : (w.appliedSlots now).map (·.sock) = (w.marked now).1.map (·.sock) := by
    rw [appliedSlots, List.map_map]
    apply List.map_congr_left
    intro slot _
    rw [Function.comp_apply, applied]
    split_ifs <;> rfl
  rw [hsocks]
  exact (h.marked now).nodup

/-- The third loop finds what it needs. -/
lemma Synced.droppable (h : w.Synced) (hopen : ∀ sock, w.wantedMask now sock ≠ 0 → w.IsOpen sock)
    {q : Poller} (hp : w.poller = some p)
    (hq : Applied (w.sweepGeneration + 1) p (w.marked now).1 q) :
    Droppable w.sockets (w.liveSlots now) q (w.staleSlots now) := by
  have hkeying : q.keying = w.keying := hq.keying.trans (keying_some hp).symm
  have hnodup := List.pairwise_map.mp (h.nodup_applied now)
  have hinj := List.inj_on_of_nodup_map (h.nodup_applied now)
  have hold : ∀ slot ∈ w.staleSlots now, ∃ o ∈ w.registered, o.sock = slot.sock ∧
      o.registeredMask = slot.registeredMask ∧ o.descriptor = slot.descriptor ∧
      o.key w.keying = slot.key w.keying := by
    intro slot hslot
    obtain ⟨hmem, hstale⟩ := mem_staleSlots.mp hslot
    obtain ⟨o, ho, hsock, hmask, hdescriptor⟩ := h.stale hmem hstale
    exact ⟨o, ho, hsock, hmask, hdescriptor, Slot.key_congr hsock hdescriptor⟩
  have hlive : ∀ l ∈ w.liveSlots now, w.sockets l.sock = .opened l.descriptor ∧
      ∀ key, l.key w.keying = some key → q.regs key ≠ none := by
    intro l hl
    obtain ⟨s, hs, hgeneration, rfl⟩ := mem_liveSlots.mp hl
    have hopened := h.opened hopen hs hgeneration
    refine ⟨hopened, fun key hkey => ?_⟩
    rw [keying_some hp] at hkey
    rw [hq.live s hs hgeneration key hkey]
    exact Option.some_ne_none _
  have hapart : ∀ l ∈ w.liveSlots now, ∀ slot ∈ w.staleSlots now, l.sock ≠ slot.sock := by
    intro l hl slot hslot heq
    obtain ⟨hl, hgeneration⟩ := List.mem_filter.mp hl
    obtain ⟨hslot, hstale⟩ := List.mem_filter.mp hslot
    rw [hinj hl hslot heq] at hgeneration
    simp only [decide_eq_true_eq] at hgeneration hstale
    exact hstale hgeneration
  constructor
  · rw [hkeying]
    intro slot hslot
    obtain ⟨o, ho, hsock, -, hdescriptor, hkey⟩ := hold slot hslot
    refine ⟨hkey ▸ h.key o ho, ?_⟩
    rw [← hsock, ← hdescriptor, ← hkey]
    refine (h.status o ho).imp_left fun hopened => ⟨hopened, fun l hl heq => ?_⟩
    exact hapart l hl slot hslot ((h.sock_eq (hlive l hl).1 hopened heq).trans hsock)
  · exact hnodup.filter _
  · exact hapart
  · rw [hkeying]
    refine (hnodup.filter _).imp_of_mem fun {a b} ha hb hne heq => hne ?_
    obtain ⟨o, ho, hsock, -, -, hkey⟩ := hold a ha
    obtain ⟨o', ho', hsock', -, -, hkey'⟩ := hold b hb
    rw [← hsock, ← hsock']
    exact h.keys o ho o' ho' (hkey.trans (heq.trans hkey'.symm))
  · rw [hkeying]
    intro slot hslot key hkey
    obtain ⟨o, ho, -, hmask, -, hkey'⟩ := hold slot hslot
    -- the key is that of a stamped slot now, or as it was
    by_cases hpassed : ∃ l ∈ w.liveSlots now, l.key w.keying = some key
    · obtain ⟨l, hl, hkeyl⟩ := hpassed
      exact (hlive l hl).2 key hkeyl
    · have hregs : p.regs key = some o.registeredMask :=
        (h.regs p hp key _).mpr ⟨o, ho, hkey'.trans hkey, rfl⟩
      rw [hq.other key fun s hs hgeneration heq => ?_, hregs]
      · exact Option.some_ne_none _
      · refine hpassed ⟨_, mem_liveSlots.mpr ⟨s, hs, hgeneration, rfl⟩, ?_⟩
        rw [keying_some hp]
        exact heq

/-- The slots without the stale ones are the live ones. -/
lemma Synced.filter_stale (h : w.Synced) (now : ℕ) :
    ((w.appliedSlots now).filter fun s => decide (∀ slot ∈ w.staleSlots now, s.sock ≠ slot.sock)) =
      w.liveSlots now := by
  have hinj := List.inj_on_of_nodup_map (h.nodup_applied now)
  apply List.filter_congr
  intro s hs
  rw [decide_eq_decide]
  constructor
  · intro hnone
    by_contra hstale
    exact hnone s (List.mem_filter.mpr ⟨hs, by simpa using hstale⟩) rfl
  · intro hlive slot hslot heq
    obtain ⟨hslot, hstale⟩ := List.mem_filter.mp hslot
    rw [← hinj hs hslot heq] at hstale
    simp only [decide_eq_true_eq] at hstale
    exact hstale hlive

/-- The count of the first loop is that of the live slots. -/
lemma Synced.count (h : w.Synced) (now : ℕ) : (w.marked now).2 = (w.liveSlots now).length := by
  rw [(Synced.marked h now).count, liveSlots, appliedSlots, List.filter_map, List.length_map]
  congr 1
  apply List.filter_congr
  intro slot _
  rw [Function.comp_apply, applied]
  split_ifs <;> rfl

/-- The third loop, whether it runs or not. -/
lemma Synced.drop_eq (h : w.Synced) (now : ℕ) (poller : Option Poller) :
    (if (w.appliedSlots now).length > (w.marked now).2 then
        dropAll w.sockets (w.staleSlots now) (w.appliedSlots now) poller
      else (w.appliedSlots now, poller)) =
      (w.liveSlots now, (dropAll w.sockets (w.staleSlots now) (w.appliedSlots now) poller).2) := by
  split_ifs with hmore
  · refine Prod.ext ?_ rfl
    rw [fst_dropAll, h.filter_stale]
  · have hlength : (w.appliedSlots now).length =
        (w.liveSlots now).length + (w.staleSlots now).length := by
      rw [liveSlots, staleSlots]
      simpa using List.length_eq_length_filter_add
        (l := w.appliedSlots now) (fun s => decide (s.sweepGeneration = w.sweepGeneration + 1))
    rw [h.count] at hmore
    have hnil : w.staleSlots now = [] := List.length_eq_zero_iff.mp (by omega)
    have hlive := h.filter_stale now
    rw [hnil] at hlive ⊢
    refine Prod.ext ?_ rfl
    simpa using hlive

/-- The world behind a sweep. -/
def swept (w : World) (now : ℕ) (poller : Option Poller) : World :=
  { w with registered := w.liveSlots now, poller, sweepGeneration := w.sweepGeneration + 1 }

/-- A sweep whose second loop goes through. -/
lemma Synced.syncPollSet_of_applyAll (h : w.Synced) {poller : Option Poller}
    (happly : applyAll w.sockets (w.sweepGeneration + 1) (w.marked now).1 w.poller =
      (.ok (), w.appliedSlots now, poller)) :
    w.syncPollSet now = (.ok (), w.swept now
      (dropAll w.sockets (w.staleSlots now) (w.appliedSlots now) poller).2) := by
  have hdrop := h.drop_eq now poller
  rw [staleSlots] at hdrop
  unfold syncPollSet
  rw [World.marked] at happly hdrop
  dsimp only
  rw [happly]
  dsimp only
  rw [hdrop]
  rfl

/-- A sweep without a poller. -/
lemma Synced.syncPollSet_none (h : w.Synced) (hp : w.poller = none) :
    w.syncPollSet now = (.ok (), w.swept now none) := by
  rw [h.syncPollSet_of_applyAll (by rw [hp]; exact applyAll_none _), dropAll_none]

/-- A slot from the last sweep goes on with its key. -/
lemma Synced.exists_marked (h : w.Synced) (now : ℕ) {o : Slot} (ho : o ∈ w.registered) :
    ∃ slot ∈ (w.marked now).1, slot.key w.keying = o.key w.keying := by
  have hm := h.marked now
  obtain ⟨slot, hslot, hsock⟩ := hm.kept o ho
  rcases hm.origin slot hslot with ⟨o', ho', hsock', -, hdescriptor⟩ | ⟨hnew, -⟩
  · have heq : o' = o := List.inj_on_of_nodup_map h.nodup ho' ho (hsock'.trans hsock)
    rw [heq] at hdescriptor
    exact ⟨slot, hslot, Slot.key_congr hsock hdescriptor.symm⟩
  · exact absurd hsock.symm (hnew o ho)

/-- **A sweep with a poller leaves exactly the registrations of the live slots**, and does not call
the poller if nothing has changed. -/
lemma Synced.syncPollSet_some (h : w.Synced)
    (hopen : ∀ sock, w.wantedMask now sock ≠ 0 → w.IsOpen sock) (hp : w.poller = some p) :
    ∃ q : Poller, w.syncPollSet now = (.ok (), w.swept now (some q)) ∧ q.keying = w.keying ∧
      (∀ key mask, q.regs key = some mask ↔
        ∃ slot ∈ w.liveSlots now, slot.key w.keying = some key ∧ slot.registeredMask = mask) ∧
      (w.staleSlots now = [] → (∀ slot ∈ (w.marked now).1,
        slot.sweepGeneration = w.sweepGeneration + 1 → slot.registeredMask = slot.sweepMask) →
        q = p) := by
  classical
  obtain ⟨q, happly, hq⟩ := applyAll_ready (h.ready hopen hp)
  have hkeying : q.keying = w.keying := hq.keying.trans (keying_some hp).symm
  obtain ⟨r, hdrop, hkeying', hlive, hother⟩ := dropAll_spec (w.appliedSlots now)
    (h.droppable hopen hp hq) fun s => by
      rw [liveSlots, staleSlots, List.mem_filter, List.mem_filter, decide_eq_true_eq,
        decide_eq_true_eq, ← and_or_left]
      exact (and_iff_left (em _)).symm
  rw [hkeying] at hlive hother
  refine ⟨r, ?_, hkeying'.trans hkeying, fun key mask => ?_, fun hstale hsame => ?_⟩
  · rw [h.syncPollSet_of_applyAll (by rw [hp]; exact happly), hdrop]
  · have hslot : ∀ slot ∈ w.liveSlots now, slot.key w.keying = some key →
        r.regs key = some slot.registeredMask := by
      intro slot hslot hkey
      rw [hlive key ⟨slot, hslot, hkey⟩]
      obtain ⟨s, hs, hgeneration, rfl⟩ := mem_liveSlots.mp hslot
      rw [keying_some hp] at hkey
      exact hq.live s hs hgeneration key hkey
    constructor
    · intro hregs
      -- a key without a live slot is gone, or was never there
      by_cases hkey : ∃ l ∈ w.liveSlots now, l.key w.keying = some key
      · obtain ⟨l, hl, hkeyl⟩ := hkey
        rw [hslot l hl hkeyl] at hregs
        exact ⟨l, hl, hkeyl, Option.some.inj hregs⟩
      · push Not at hkey
        rw [hother key hkey] at hregs
        split_ifs at hregs with hstale
        have hmarked : ∀ s ∈ (w.marked now).1, s.sweepGeneration = w.sweepGeneration + 1 →
            s.key w.keying ≠ some key := by
          intro s hs hgeneration
          have hne := hkey { s with registeredMask := s.sweepMask }
            (mem_liveSlots.mpr ⟨s, hs, hgeneration, rfl⟩)
          exact hne
        rw [hq.other key fun s hs hgeneration => ?_] at hregs
        · obtain ⟨o, ho, hkeyo, -⟩ := (h.regs p hp key mask).mp hregs
          obtain ⟨s, hs, hkeys⟩ := h.exists_marked now ho
          by_cases hgeneration : s.sweepGeneration = w.sweepGeneration + 1
          · exact absurd (hkeys.trans hkeyo) (hmarked s hs hgeneration)
          · exact absurd ⟨s, mem_staleSlots.mpr ⟨hs, hgeneration⟩, hkeys.trans hkeyo⟩ hstale
        · rw [← keying_some hp]
          exact hmarked s hs hgeneration
    · rintro ⟨slot, hmem, hkey, rfl⟩
      exact hslot slot hmem hkey
  · rw [hstale] at hdrop
    obtain rfl : q = r := Option.some.inj hdrop
    exact hq.quiet hsame

/-- The live slots are those of the wanted sockets, with the events that are wanted. -/
lemma Synced.mem_live_iff (h : w.Synced) {sock mask : ℕ} :
    (∃ slot ∈ w.liveSlots now, slot.sock = sock ∧ slot.registeredMask = mask) ↔
      w.wantedMask now sock = mask ∧ mask ≠ 0 := by
  have hm := h.marked now
  constructor
  · rintro ⟨slot, hslot, rfl, rfl⟩
    obtain ⟨s, hs, hgeneration, rfl⟩ := mem_liveSlots.mp hslot
    have hne := (hm.live s hs).mp hgeneration
    have hsweep := hm.swept s hs hne
    exact ⟨hsweep.symm, fun hzero => hne (hsweep.symm.trans hzero)⟩
  · rintro ⟨rfl, hne⟩
    obtain ⟨s, hs, rfl⟩ := hm.wanted sock hne
    exact ⟨_, mem_liveSlots.mpr ⟨s, hs, (hm.live s hs).mpr hne, rfl⟩, rfl, hm.swept s hs hne⟩

/-- The live slots are of open sockets. -/
lemma Synced.opened_live (h : w.Synced) (hopen : ∀ sock, w.wantedMask now sock ≠ 0 → w.IsOpen sock)
    (hslot : slot ∈ w.liveSlots now) : w.sockets slot.sock = .opened slot.descriptor := by
  obtain ⟨s, hs, hgeneration, rfl⟩ := mem_liveSlots.mp hslot
  have hopened := h.opened hopen hs hgeneration
  exact hopened

/-- **A sweep keeps the invariant**, with a poller that has what the live slots say. -/
lemma Synced.swept (h : w.Synced)
    (hopen : ∀ sock, w.wantedMask now sock ≠ 0 → w.IsOpen sock) {poller : Option Poller}
    (hkeying : (w.swept now poller).keying = w.keying)
    (hregs : ∀ p, poller = some p → ∀ key mask, p.regs key = some mask ↔
      ∃ slot ∈ w.liveSlots now, slot.key w.keying = some key ∧ slot.registeredMask = mask) :
    (w.swept now poller).Synced := by
  constructor
  · exact (h.nodup_applied now).sublist (List.filter_sublist.map _)
  · intro slot hslot
    obtain ⟨s, hs, hgeneration, rfl⟩ := mem_liveSlots.mp hslot
    exact hgeneration.le
  · intro slot hslot
    exact (h.mem_live_iff.mp ⟨slot, hslot, rfl, rfl⟩).2
  · exact fun slot hslot => .inl (h.opened_live hopen hslot)
  · rw [hkeying]
    exact fun slot hslot => h.key_ne_none (h.opened_live hopen hslot)
  · rw [hkeying]
    exact fun a ha b hb => h.sock_eq (h.opened_live hopen ha) (h.opened_live hopen hb)
  · rw [hkeying]
    exact hregs
  · rw [hkeying]
    exact h.descriptors
  · exact h.distinct

/-- **What a sweep does**: it does not raise and keeps the invariant; the slots are those of the
wanted sockets; and if they were so before, the poller is not called. -/
lemma Synced.syncPollSet (h : w.Synced)
    (hopen : ∀ sock, w.wantedMask now sock ≠ 0 → w.IsOpen sock) :
    ∃ poller, w.syncPollSet now = (.ok (), w.swept now poller) ∧ (w.swept now poller).Synced ∧
      (w.swept now poller).keying = w.keying ∧
      (w.staleSlots now = [] → (∀ slot ∈ (w.marked now).1,
        slot.sweepGeneration = w.sweepGeneration + 1 → slot.registeredMask = slot.sweepMask) →
        poller = w.poller) := by
  cases hp : w.poller with
  | none =>
    have hkeying : (w.swept now none).keying = w.keying := by rw [keying, keying, hp]; rfl
    exact ⟨none, h.syncPollSet_none hp, h.swept hopen hkeying (by simp), hkeying,
      fun _ _ => rfl⟩
  | some p =>
    obtain ⟨q, hsync, hkeying, hregs, hquiet⟩ := h.syncPollSet_some hopen hp
    refine ⟨some q, hsync, h.swept hopen hkeying ?_, hkeying, fun hstale hsame => ?_⟩
    · rintro p' ⟨⟩
      exact hregs
    · rw [hquiet hstale hsame]

end Sweep

/-! ## A poller created later -/

section Create

variable {sockets : Sockets}

/-- **A new poller gets what the slots say.**

**Proof sketch.** Induction on the slots, whose keys are all different. -/
lemma registerAll_spec {p : Poller} {slots : List Slot}
    (hopen : ∀ slot ∈ slots, sockets slot.sock = .opened slot.descriptor ∧ slot.key p.keying ≠ none)
    (hkeys : slots.Pairwise fun a b => a.key p.keying ≠ b.key p.keying) :
    ∃ q, registerAll sockets slots p = (.ok (), q) ∧ q.keying = p.keying ∧
      ∀ key mask, q.regs key = some mask ↔
        (∃ slot ∈ slots, slot.key p.keying = some key ∧ slot.registeredMask = mask) ∨
        (∀ slot ∈ slots, slot.key p.keying ≠ some key) ∧ p.regs key = some mask := by
  induction slots generalizing p with
  | nil => exact ⟨p, rfl, rfl, by simp⟩
  | cons slot slots ih =>
    obtain ⟨hopened, hne⟩ := hopen slot List.mem_cons_self
    obtain ⟨key, hkey⟩ := Option.ne_none_iff_exists'.mp hne
    obtain ⟨hapart, hrest⟩ := List.pairwise_cons.mp hkeys
    obtain ⟨q, hall, hkeying, hregs⟩ := ih
      (p := (p.noted (.register (.sock slot.sock) slot.registeredMask)).put key
        (some slot.registeredMask))
      (List.forall_mem_cons.mp hopen).2 hrest
    refine ⟨q, ?_, hkeying, fun key' mask => (hregs key' mask).trans ?_⟩
    · have hregister : p.register sockets (.sock slot.sock) slot.registeredMask =
          (.ok (), (p.noted (.register (.sock slot.sock) slot.registeredMask)).put key
            (some slot.registeredMask)) := by
        simp only [Poller.register, Poller.noted, keyOf_opened hopened hkey]
      rw [registerAll, hregister]
      exact hall
    · show (∃ s ∈ slots, s.key p.keying = some key' ∧ s.registeredMask = mask) ∨
          (∀ s ∈ slots, s.key p.keying ≠ some key') ∧
            Function.update p.regs key (some slot.registeredMask) key' = some mask ↔ _
      rw [List.exists_mem_cons_iff, List.forall_mem_cons, hkey]
      by_cases heq : key' = key
      · subst heq
        have hnone : ∀ s ∈ slots, s.key p.keying ≠ some key' := fun s hs h =>
          hapart s hs (hkey.trans h.symm)
        rw [Function.update_self]
        constructor
        · rintro (⟨s, hs, h, -⟩ | ⟨-, h⟩)
          · exact absurd h (hnone s hs)
          · exact .inl (.inl ⟨rfl, Option.some.inj h⟩)
        · rintro ((⟨-, h⟩ | ⟨s, hs, h, -⟩) | ⟨⟨h, -⟩, -⟩)
          · exact .inr ⟨hnone, congrArg some h⟩
          · exact absurd h (hnone s hs)
          · exact absurd rfl h
      · rw [Function.update_of_ne heq]
        have hne' : some key ≠ some key' := fun h => heq (Option.some.inj h).symm
        simp only [hne', false_and, false_or, ne_eq, not_false_eq_true, true_and]

/-- **Creating the poller keeps the invariant.** -/
lemma Synced.ensurePoller {w : World} (h : w.Synced)
    (hopen : ∀ slot ∈ w.registered, w.sockets slot.sock = .opened slot.descriptor) :
    ∃ poller, w.ensurePoller = (.ok (), { w with poller }) ∧ ({ w with poller } : World).Synced ∧
      (w.registered ≠ [] → poller ≠ none) := by
  unfold World.ensurePoller
  by_cases hnil : w.registered = []
  · exact ⟨w.poller, if_pos hnil, h, fun hne => absurd hnil hne⟩
  · rw [if_neg hnil]
    cases hp : w.poller with
    | some p =>
      have hself : ({ w with poller := some p } : World) = w := by rw [← hp]
      exact ⟨some p, by rw [hself], by rwa [hself], fun _ => Option.some_ne_none _⟩
    | none =>
      have hkeying : w.keying = w.adapter := by rw [keying, hp]
      have hkeys : w.registered.Pairwise fun a b => a.key w.adapter ≠ b.key w.adapter := by
        refine (List.pairwise_map.mp h.nodup).imp_of_mem fun {a b} ha hb hne heq => hne ?_
        exact h.keys a ha b hb (by rwa [hkeying])
      obtain ⟨q, hall, hq, hregs⟩ := registerAll_spec (p := Poller.new w.adapter)
        (fun slot hslot => ⟨hopen slot hslot, hkeying ▸ h.key slot hslot⟩) hkeys
      refine ⟨some q, by dsimp only; rw [hall], ?_, fun _ => Option.some_ne_none _⟩
      have hkeying' : ({ w with poller := some q } : World).keying = w.keying := hq.trans hkeying.symm
      constructor
      · exact h.nodup
      · exact h.generation
      · exact h.mask
      · exact h.status
      · rw [hkeying']
        exact h.key
      · rw [hkeying']
        exact h.keys
      · rw [hkeying', hkeying]
        rintro p ⟨⟩ key mask
        rw [hregs key mask]
        exact or_iff_left fun hnew => Option.some_ne_none _ hnew.2.symm
      · rw [hkeying']
        exact h.descriptors
      · exact h.distinct

end Create

/-! ## Histories -/

section Histories

variable {w : World} {now : ℕ}

/-- A runner without tasks. -/
lemma synced_start (adapter : Keying) (given : Option Keying) (services : ℕ → Service) :
    (start adapter given services).Synced where
  nodup := List.nodup_nil
  generation := by simp [start]
  mask := by simp [start]
  status := by simp [start]
  key := by simp [start]
  keys := by simp [start]
  regs := by
    intro p hp key mask
    obtain ⟨keying, -, rfl⟩ := Option.map_eq_some_iff.mp hp
    simp [Poller.new, start]
  descriptors := by simp [start]
  distinct := by simp [start]

/-- What a world keeps when only its sockets change: a slot is of an open socket or a closed one. -/
lemma Synced.withSockets (h : w.Synced) {sockets : Sockets}
    (hstatus : ∀ slot ∈ w.registered, sockets slot.sock = .opened slot.descriptor ∨
      sockets slot.sock = .closed)
    (hdescriptors : w.keying = .byDescriptor → ∀ sock, sockets sock ≠ .opened none)
    (hdistinct : ∀ sock sock' d, sockets sock = .opened (some d) →
      sockets sock' = .opened (some d) → sock = sock') : ({ w with sockets } : World).Synced :=
  ⟨h.nodup, h.generation, h.mask, hstatus, h.key, h.keys, h.regs, hdescriptors, hdistinct⟩

/-- A new socket. -/
lemma Synced.openSocket (h : w.Synced) {sock : ℕ} {descriptor : Option ℕ}
    (hallowed : w.Allowed (.openSocket sock descriptor)) :
    (w.act (.openSocket sock descriptor)).Synced := by
  obtain ⟨habsent, hneeded, hfree⟩ := hallowed
  refine h.withSockets (fun slot hslot => ?_) (fun hk sock' => ?_) (fun a b d ha hb => ?_)
  · have hne : slot.sock ≠ sock := by
      rintro rfl
      rcases h.status slot hslot with hs | hs <;> rw [habsent] at hs <;> cases hs
    rw [Function.update_of_ne hne]
    exact h.status slot hslot
  · by_cases heq : sock' = sock
    · rw [heq, Function.update_self]
      exact fun hnone => hneeded hk (SocketStatus.opened.inj hnone)
    · rw [Function.update_of_ne heq]
      exact h.descriptors hk sock'
  · by_cases heqa : a = sock <;> by_cases heqb : b = sock
    · exact heqa.trans heqb.symm
    · rw [heqa, Function.update_self] at ha
      rw [Function.update_of_ne heqb] at hb
      exact absurd (SocketStatus.opened.inj ha) (hfree b d hb)
    · rw [Function.update_of_ne heqa] at ha
      rw [heqb, Function.update_self] at hb
      exact absurd (SocketStatus.opened.inj hb) (hfree a d ha)
    · rw [Function.update_of_ne heqa] at ha
      rw [Function.update_of_ne heqb] at hb
      exact h.distinct a b d ha hb

/-- A socket is closed. -/
lemma Synced.closeSocket (h : w.Synced) (sock : ℕ) : (w.act (.closeSocket sock)).Synced := by
  have hopened : ∀ sock' d, Function.update w.sockets sock .closed sock' = .opened d →
      w.sockets sock' = .opened d := by
    intro sock' d hd
    by_cases heq : sock' = sock
    · rw [heq, Function.update_self] at hd
      cases hd
    · rwa [Function.update_of_ne heq] at hd
  refine h.withSockets (fun slot hslot => ?_) (fun hk sock' hnone => ?_) (fun a b d ha hb => ?_)
  · by_cases heq : slot.sock = sock
    · exact .inr (by rw [heq, Function.update_self])
    · rw [Function.update_of_ne heq]
      exact h.status slot hslot
  · exact h.descriptors hk sock' (hopened sock' none hnone)
  · exact h.distinct a b d (hopened a _ ha) (hopened b _ hb)

/-- **A wait keeps the invariant**: it does not raise, its slots are those of its sweep, and there
is a poller if it polls. -/
lemma Synced.wait (h : w.Synced) (timeout : Option ℤ)
    (hopen : ∀ sock, w.wantedMask now sock ≠ 0 → w.IsOpen sock) :
    (w.wait now timeout).1 = .ok () ∧ (w.wait now timeout).2.Synced ∧
      (w.wait now timeout).2.registered = w.liveSlots now ∧
      ((∀ t, timeout = some t → 0 < t) → w.liveSlots now ≠ [] →
        (w.wait now timeout).2.poller ≠ none) := by
  obtain ⟨poller, hsync, hsynced, -⟩ := h.syncPollSet hopen
  obtain ⟨poller', hensure, hsynced', hpoller⟩ := hsynced.ensurePoller fun slot hslot =>
    h.opened_live hopen hslot
  unfold World.wait
  rw [hsync]
  cases timeout with
  | none =>
    dsimp only
    rw [hensure]
    exact ⟨rfl, hsynced', rfl, fun _ => hpoller⟩
  | some t =>
    dsimp only
    split_ifs with ht
    · exact ⟨rfl, hsynced, rfl, fun hpos => absurd (hpos t rfl) (by omega)⟩
    · rw [hensure]
      exact ⟨rfl, hsynced', rfl, fun _ => hpoller⟩

/-- **Every history keeps the invariant.** -/
theorem Reachable.synced (h : Reachable w) : w.Synced := by
  induction h with
  | start adapter given services => exact synced_start adapter given services
  | @act w a _ hallowed ih =>
    cases a with
    | add handle => exact ⟨ih.1, ih.2, ih.3, ih.4, ih.5, ih.6, ih.7, ih.8, ih.9⟩
    | remove handle => exact ⟨ih.1, ih.2, ih.3, ih.4, ih.5, ih.6, ih.7, ih.8, ih.9⟩
    | openSocket sock descriptor => exact ih.openSocket hallowed
    | closeSocket sock => exact ih.closeSocket sock
    | report service state => exact ⟨ih.1, ih.2, ih.3, ih.4, ih.5, ih.6, ih.7, ih.8, ih.9⟩
    | wait now timeout => exact (ih.wait timeout hallowed).2.1

/-- A sweep that wants what is registered finds nothing to do. -/
lemma Synced.unchanged (h : w.Synced) (now : ℕ)
    (hsame : ∀ sock mask, (∃ slot ∈ w.registered, slot.sock = sock ∧ slot.registeredMask = mask) ↔
      w.wantedMask now sock = mask ∧ mask ≠ 0) :
    w.staleSlots now = [] ∧ ∀ slot ∈ (w.marked now).1,
      slot.sweepGeneration = w.sweepGeneration + 1 → slot.registeredMask = slot.sweepMask := by
  have hm := h.marked now
  constructor
  · rw [List.eq_nil_iff_forall_not_mem]
    intro slot hslot
    obtain ⟨hmem, hstale⟩ := mem_staleSlots.mp hslot
    obtain ⟨o, ho, hsock, -⟩ := h.stale hmem hstale
    obtain ⟨hmask, hne⟩ := (hsame _ _).mp ⟨o, ho, hsock, rfl⟩
    exact hstale ((hm.live slot hmem).mpr (hmask ▸ hne))
  · intro slot hslot hlive
    have hne := (hm.live slot hslot).mp hlive
    rw [hm.swept slot hslot hne]
    rcases hm.origin slot hslot with ⟨o, ho, hsock, hmask, -⟩ | ⟨hnew, -⟩
    · exact ((hsame _ _).mp ⟨o, ho, hsock, hmask⟩).1.symm
    · obtain ⟨o, ho, hsock, -⟩ := (hsame slot.sock _).mpr ⟨rfl, hne⟩
      exact absurd hsock (hnew o ho)

/-- What happens between two waits. -/
inductive Between : World → World → Prop where
  | refl (w : World) : Between w w
  | act {w w' : World} {a : Action} : Between w w' → w'.Allowed a → (∀ now t, a ≠ .wait now t) →
    Between w (w'.act a)

variable {w' : World}

/-- Between two waits the slots stay as they are. -/
lemma Between.registered {w : World} (h : Between w w') : w'.registered = w.registered := by
  induction h with
  | refl => rfl
  | @act w' a _ _ hne ih =>
    rw [← ih]
    cases a with
    | wait now t => exact absurd rfl (hne now t)
    | _ => rfl

/-- What comes after a history is one. -/
lemma Between.reachable {w : World} (h : Between w w') (hw : Reachable w) : Reachable w' := by
  induction h with
  | refl => exact hw
  | act _ hallowed _ ih => exact ih.act hallowed

/-- The registrations of a poller are the wanted ones: the sockets some live entry wants, each with
all the events that are wanted of it, under the key of the socket. -/
def Exact (w : World) (now : ℕ) (p : Poller) : Prop :=
  ∀ key mask, p.regs key = some mask ↔
    ∃ sock, Poller.keyOf w.sockets p.keying (.sock sock) = .ok key ∧
      w.wantedMask now sock = mask ∧ mask ≠ 0

/-- A poller that has what the live slots say is exact. -/
lemma Synced.exact (h : w.Synced) (hopen : ∀ sock, w.wantedMask now sock ≠ 0 → w.IsOpen sock)
    (h' : w'.Synced) (hregistered : w'.registered = w.liveSlots now) {p : Poller}
    (hp : w'.poller = some p) : w.Exact now p := by
  intro key mask
  have hregs := h'.regs p hp key mask
  rw [hregistered, keying_some hp] at hregs
  rw [hregs]
  constructor
  · rintro ⟨slot, hslot, hkey, rfl⟩
    exact ⟨slot.sock, keyOf_opened (h.opened_live hopen hslot) hkey,
      h.mem_live_iff.mp ⟨slot, hslot, rfl, rfl⟩⟩
  · rintro ⟨sock, hkey, hwanted⟩
    obtain ⟨slot, hslot, rfl, rfl⟩ := h.mem_live_iff.mpr hwanted
    obtain ⟨key', hkey'⟩ := Option.ne_none_iff_exists'.mp
      (keying_some hp ▸ h'.key slot (hregistered ▸ hslot))
    rw [keyOf_opened (h.opened_live hopen hslot) hkey'] at hkey
    exact ⟨slot, hslot, by rw [hkey', Except.ok.inj hkey], rfl⟩

/-- **The poll set is what is wanted**, in every history. A sweep and a wait do not raise; behind
each the poller, given or created there, has exactly the wanted registrations; a wait that polls
something has a poller; and a later sweep that wants the same does not call the poller. -/
theorem poll_set_exact (h : Reachable w) (timeout : Option ℤ)
    (hallowed : w.Allowed (.wait now timeout)) :
    ((w.syncPollSet now).1 = .ok () ∧
      ∀ p, (w.syncPollSet now).2.poller = some p → w.Exact now p) ∧
    ((w.wait now timeout).1 = .ok () ∧
      ∀ p, (w.wait now timeout).2.poller = some p → w.Exact now p) ∧
    ((∀ t, timeout = some t → 0 < t) → (∃ sock, w.wantedMask now sock ≠ 0) →
      (w.wait now timeout).2.poller ≠ none) ∧
    ∀ w' now' timeout', Between (w.act (.wait now timeout)) w' →
      w'.Allowed (.wait now' timeout') → (∀ sock, w'.wantedMask now' sock = w.wantedMask now sock) →
      (w'.syncPollSet now').2.poller = w'.poller := by
  have hsynced := h.synced
  obtain ⟨poller, hsync, hswept, -⟩ := hsynced.syncPollSet hallowed
  obtain ⟨hok, hwaited, hregistered, hpolls⟩ := hsynced.wait timeout hallowed
  refine ⟨⟨by rw [hsync], fun p hp => ?_⟩, ⟨hok, fun p hp => ?_⟩, fun hpos hwanted => ?_, ?_⟩
  · rw [hsync] at hp
    exact hsynced.exact hallowed hswept rfl hp
  · exact hsynced.exact hallowed hwaited hregistered hp
  · obtain ⟨sock, hne⟩ := hwanted
    obtain ⟨slot, hslot, -⟩ := hsynced.mem_live_iff.mpr ⟨rfl, hne⟩
    exact hpolls hpos (List.ne_nil_of_mem hslot)
  · intro w' now' timeout' hbetween hallowed' hsame
    have hsynced' := (hbetween.reachable (h.act hallowed)).synced
    obtain ⟨poller', hsync', -, -, hquiet⟩ := hsynced'.syncPollSet hallowed'
    have hslots : w'.registered = w.liveSlots now := hbetween.registered.trans hregistered
    obtain ⟨hstale, hmasks⟩ := hsynced'.unchanged now' fun sock mask => by
      rw [hslots, hsame]
      exact hsynced.mem_live_iff
    rw [hsync']
    exact hquiet hstale hmasks

/-- A service that wants to read from a socket. -/
def reader (sock : ℕ) : Service := { ioSocket := some (.adapter sock), ioInterest := fun _ => IO_READ }

/-- A connection is about to be polled. -/
def connected : World :=
  (((start .byDescriptor none fun _ => reader 0).act (.openSocket 1 (some 5))).act
    (.report 0 (reader 1))).act (.add ⟨some 0, true⟩)

/-- It has been polled, is closed, and its descriptor is reused by the next one. -/
def reused : World :=
  (((connected.act (.wait 10 none)).act (.closeSocket 1)).act (.openSocket 2 (some 5))).act
    (.report 0 (reader 2))

/-- The reused descriptor is polled for the new connection. -/
theorem poll_set_exact_reused :
    ∃ p, (reused.syncPollSet 20).2.poller = some p ∧ p.regs 5 = some POLLIN := by
  have hwanted : ∀ sock, connected.wantedMask 10 sock ≠ 0 → connected.IsOpen sock := by
    intro sock hne
    by_cases heq : sock = 1
    · exact ⟨some 5, by rw [heq]; rfl⟩
    · refine absurd ?_ hne
      have hmask : connected.wantedMask 10 sock = maskOf [(1, POLLIN)] sock := rfl
      rw [hmask]
      simp [maskOf, Ne.symm heq]
  have hwanted' : ∀ sock, reused.wantedMask 20 sock ≠ 0 → reused.IsOpen sock := by
    intro sock hne
    by_cases heq : sock = 2
    · exact ⟨some 5, by rw [heq]; rfl⟩
    · refine absurd ?_ hne
      have hmask : reused.wantedMask 20 sock = maskOf [(2, POLLIN)] sock := rfl
      rw [hmask]
      simp [maskOf, Ne.symm heq]
  have hsockets : (connected.act (.wait 10 none)).sockets =
      Function.update (fun _ => .absent) 1 (.opened (some 5)) := rfl
  have hconnected : Reachable connected :=
    (((Reachable.start .byDescriptor none fun _ => reader 0).act
      (a := .openSocket 1 (some 5)) ⟨rfl, by simp, by simp [start]⟩).act
      (a := .report 0 (reader 1)) trivial).act (a := .add ⟨some 0, true⟩) trivial
  have hreused : Reachable reused := by
    refine (((hconnected.act (a := .wait 10 none) hwanted).act (a := .closeSocket 1)
      ⟨some 5, rfl⟩).act (a := .openSocket 2 (some 5)) ⟨rfl, by simp, ?_⟩).act
      (a := .report 0 (reader 2)) trivial
    intro sock d hd
    rw [act, hsockets, Function.update_idem] at hd
    dsimp only at hd
    rw [Function.update_apply] at hd
    split_ifs at hd
  have hexact := (poll_set_exact hreused none hwanted').1.2
  exact ⟨_, rfl, (hexact _ rfl 5 POLLIN).mpr ⟨2, rfl, rfl, by decide⟩⟩

end Histories

end World

end ChuMicro.Runner
