import Mathlib.Data.List.Basic
import Mathlib.Tactic.Ring

/-!
# Scanning a stream that arrives in pieces

A *scanner* looks at the front of a buffer and says one of three things: more symbols are
needed, the buffer cannot be the start of a well-formed stream, or its first `n` symbols are
one item. The two final answers must not change when more symbols arrive; that is all that is
needed for the items of a stream not to depend on how it is cut.

A *reader* is a stateful implementation of a scanner: it is handed the stream in pieces, each
of a size its state allows, and returns the items each piece completes.

## Main definitions

* `Streaming.Scanner` — a scanner, with the proofs that its final answers are stable.
* `Streaming.Scanner.all` — the items of a whole stream, its first error, the unread rest.
* `Streaming.Reader` — a stateful implementation, with its simulation relation.
* `Streaming.Reader.run`, `Streaming.Reader.LegalRun` — a run over a list of pieces.

## Main results

* `Streaming.Scanner.all_append` — scanning `s ++ t` is scanning `s` and then the rest and `t`.
* `Streaming.Reader.run_eq_all` — every legal run of a reader returns what `all` says of the
  concatenation of its pieces.
-/

namespace Streaming

universe u v w x

variable {β : Type u} {ε : Type v} {α : Type w}

/-- What a scanner says about the front of a buffer. -/
inductive Scan (ε : Type v) (α : Type w) where
  /-- not decided yet -/
  | more
  /-- no stream starting like this is well formed -/
  | fail (e : ε)
  /-- the first `n` symbols are the item `a` -/
  | item (a : α) (n : ℕ)
  deriving DecidableEq, Repr

/-- A scanner whose final answers are stable under more input. -/
structure Scanner (β : Type u) (ε : Type v) (α : Type w) where
  /-- the answer on a buffer -/
  scan : List β → Scan ε α
  item_pos : ∀ {s a n}, scan s = .item a n → 0 < n
  item_le : ∀ {s a n}, scan s = .item a n → n ≤ s.length
  item_append : ∀ {s a n}, scan s = .item a n → ∀ t, scan (s ++ t) = .item a n
  fail_append : ∀ {s e}, scan s = .fail e → ∀ t, scan (s ++ t) = .fail e

/-- What is read from a buffer: its items, the error after them if there is one, and the
symbols that belong to neither. -/
@[ext] structure Output (β : Type u) (ε : Type v) (α : Type w) where
  items : List α
  error : Option ε
  rest : List β

/-- Put items in front of an output. -/
def Output.prepend (as : List α) (o : Output β ε α) : Output β ε α :=
  { o with items := as ++ o.items }

@[simp] lemma Output.prepend_items (as : List α) (o : Output β ε α) :
    (o.prepend as).items = as ++ o.items := rfl

@[simp] lemma Output.prepend_error (as : List α) (o : Output β ε α) :
    (o.prepend as).error = o.error := rfl

@[simp] lemma Output.prepend_rest (as : List α) (o : Output β ε α) :
    (o.prepend as).rest = o.rest := rfl

@[simp] lemma Output.prepend_prepend (as bs : List α) (o : Output β ε α) :
    (o.prepend bs).prepend as = o.prepend (as ++ bs) := by
  ext1 <;> simp

namespace Scanner

variable (P : Scanner β ε α)

/-- Scan a buffer as far as it goes. -/
def all (s : List β) : Output β ε α :=
  match _h : P.scan s with
  | .more => ⟨[], none, s⟩
  | .fail e => ⟨[], some e, s⟩
  | .item a n => (all (s.drop n)).prepend [a]
termination_by s.length
decreasing_by
  have := P.item_pos _h
  have := P.item_le _h
  simp only [List.length_drop]
  omega

/-- A buffer that needs more symbols yields nothing and stays whole. -/
lemma all_of_more {s : List β} (h : P.scan s = .more) : P.all s = ⟨[], none, s⟩ := by
  rw [all]; split <;> simp_all

/-- A buffer that fails yields its error. -/
lemma all_of_fail {s : List β} {e : ε} (h : P.scan s = .fail e) :
    P.all s = ⟨[], some e, s⟩ := by
  rw [all]; split <;> simp_all

/-- A buffer that starts with an item yields it and then what follows it. -/
lemma all_of_item {s : List β} {a : α} {n : ℕ} (h : P.scan s = .item a n) :
    P.all s = (P.all (s.drop n)).prepend [a] := by
  rw [all]; split <;> simp_all

/-- What `all` leaves without an error is a buffer that needs more symbols.

**Proof sketch.** Induction on the length of the buffer, along the items it starts with. -/
lemma scan_rest (s : List β) (h : (P.all s).error = none) :
    P.scan (P.all s).rest = .more := by
  induction hn : s.length using Nat.strong_induction_on generalizing s with
  | _ n ih =>
    cases hs : P.scan s with
    | more => rw [P.all_of_more hs]; exact hs
    | fail e => rw [P.all_of_fail hs] at h; simp at h
    | item a k =>
      rw [P.all_of_item hs] at h ⊢
      have hk := P.item_pos hs
      have hle := P.item_le hs
      exact ih (s.length - k) (by omega) (s.drop k) h (by simp)

/-- **Scanning in two pieces.** Without an error in the first piece, scanning `s ++ t` yields
the items of `s` and then what its rest followed by `t` yields.

**Proof sketch.** Induction on the length of `s`. An item at the front of `s` is also at the
front of `s ++ t` and ends inside `s`; where `s` needs more symbols its rest is `s` itself. -/
theorem all_append (s t : List β) (h : (P.all s).error = none) :
    P.all (s ++ t) = (P.all ((P.all s).rest ++ t)).prepend (P.all s).items := by
  induction hn : s.length using Nat.strong_induction_on generalizing s with
  | _ n ih =>
    cases hs : P.scan s with
    | more => rw [P.all_of_more hs]; ext1 <;> simp
    | fail e => rw [P.all_of_fail hs] at h; simp at h
    | item a k =>
      have hk := P.item_pos hs
      have hle := P.item_le hs
      rw [P.all_of_item hs] at h ⊢
      rw [P.all_of_item (P.item_append hs t), List.drop_append_of_le_length hle,
        ih (s.length - k) (by omega) (s.drop k) h (by simp)]
      simp

/-- An error in the first piece is the outcome of the whole: the pieces after it do not matter.

**Proof sketch.** The same induction; a failing buffer fails whatever follows it. -/
lemma all_append_of_error (s t : List β) {e : ε} (h : (P.all s).error = some e) :
    (P.all (s ++ t)).items = (P.all s).items ∧ (P.all (s ++ t)).error = some e := by
  induction hn : s.length using Nat.strong_induction_on generalizing s with
  | _ n ih =>
    cases hs : P.scan s with
    | more => rw [P.all_of_more hs] at h; simp at h
    | fail e' =>
      rw [P.all_of_fail hs] at h ⊢
      rw [P.all_of_fail (P.fail_append hs t)]
      exact ⟨rfl, h⟩
    | item a k =>
      have hk := P.item_pos hs
      have hle := P.item_le hs
      rw [P.all_of_item hs] at h ⊢
      rw [P.all_of_item (P.item_append hs t), List.drop_append_of_le_length hle]
      obtain ⟨h1, h2⟩ := ih (s.length - k) (by omega) (s.drop k) h (by simp)
      exact ⟨by simp [h1], by simpa using h2⟩

/-- A stream of encodings, each scanned as its own item whatever follows, scans to the items.

**Proof sketch.** Induction on the list of encodings: the first one is an item that ends where
it ends. -/
lemma all_flatten (enc : α → List β) :
    ∀ (as : List α) (t : List β),
      (∀ a ∈ as, P.scan (enc a) = .item a (enc a).length) →
      P.all ((as.map enc).flatten ++ t) = (P.all t).prepend as
  | [], t, _ => by ext1 <;> simp
  | a :: as, t, h => by
    have ha := h a (by simp)
    have hrest := all_flatten enc as t (fun b hb => h b (by simp [hb]))
    simp only [List.map_cons, List.flatten_cons, List.append_assoc]
    rw [P.all_of_item (P.item_append ha _), List.drop_left', hrest]
    · simp
    · rfl

end Scanner

/-- A stateful implementation of a scanner. `Sim d p` says that `d` is the state in which the
symbols `p` have been received and not yet returned as an item. -/
structure Reader (P : Scanner β ε α) (σ : Type x) where
  /-- hand over one piece; the items it completes, the error after them, the new state -/
  feed : σ → List β → List α × Option ε × σ
  /-- the pieces the state allows -/
  Legal : σ → List β → Prop
  Sim : σ → List β → Prop
  sim_more : ∀ {d p}, Sim d p → P.scan p = .more
  feed_items : ∀ {d p c}, Sim d p → Legal d c → (feed d c).1 = (P.all (p ++ c)).items
  feed_error : ∀ {d p c}, Sim d p → Legal d c → (feed d c).2.1 = (P.all (p ++ c)).error
  feed_sim : ∀ {d p c}, Sim d p → Legal d c → (P.all (p ++ c)).error = none →
    Sim (feed d c).2.2 (P.all (p ++ c)).rest

namespace Reader

variable {P : Scanner β ε α} {σ : Type x} (R : Reader P σ)

/-- Hand over the pieces one after the other, stopping at the first error. -/
def run : σ → List (List β) → List α × Option ε × σ
  | d, [] => ([], none, d)
  | d, c :: cs =>
    match R.feed d c with
    | (as, some e, d') => (as, some e, d')
    | (as, none, d') => (as ++ (run d' cs).1, (run d' cs).2)

/-- Every piece is one the state allows at that moment; after an error nothing is handed over,
so nothing is asked of the pieces that are left. -/
def LegalRun : σ → List (List β) → Prop
  | _, [] => True
  | d, c :: cs => R.Legal d c ∧ ((R.feed d c).2.1 = none → LegalRun (R.feed d c).2.2 cs)

/-- Whether a run is legal can be computed where the legality of a piece can. -/
instance decidableLegalRun [∀ d c, Decidable (R.Legal d c)] :
    ∀ d cs, Decidable (R.LegalRun d cs)
  | _, [] => .isTrue trivial
  | d, c :: cs =>
    match h : (R.feed d c).2.1 with
    | some _ => decidable_of_iff (R.Legal d c)
        ⟨fun hc => ⟨hc, fun h0 => by rw [h] at h0; cases h0⟩, And.left⟩
    | none =>
      have := decidableLegalRun (R.feed d c).2.2 cs
      decidable_of_iff (R.Legal d c ∧ R.LegalRun (R.feed d c).2.2 cs)
        ⟨fun hc => ⟨hc.1, fun _ => hc.2⟩, fun hc => ⟨hc.1, hc.2 h⟩⟩

/-- **Runs do not depend on the cut.** A legal run returns the items and the first error of
the symbols pending before it followed by all its pieces, and leaves the state for the rest.

**Proof sketch.** Induction on the list of pieces, with `Scanner.all_append` for a piece without
an error and `Scanner.all_append_of_error` for one with an error. -/
theorem run_eq_all : ∀ (cs : List (List β)) (d : σ) (p : List β), R.Sim d p → R.LegalRun d cs →
    (R.run d cs).1 = (P.all (p ++ cs.flatten)).items ∧
    (R.run d cs).2.1 = (P.all (p ++ cs.flatten)).error ∧
    ((P.all (p ++ cs.flatten)).error = none →
      R.Sim (R.run d cs).2.2 (P.all (p ++ cs.flatten)).rest)
  | [], d, p, hsim, _ => by
    have hmore := R.sim_more hsim
    rw [List.flatten_nil, List.append_nil, P.all_of_more hmore]
    exact ⟨rfl, rfl, fun _ => hsim⟩
  | c :: cs, d, p, hsim, hleg => by
    obtain ⟨hc, hcs⟩ := hleg
    have hitems := R.feed_items hsim hc
    have herror := R.feed_error hsim hc
    rw [List.flatten_cons, ← List.append_assoc]
    rcases hf : R.feed d c with ⟨as, _ | e, d'⟩
    · -- no error in this piece: the run goes on from the rest it leaves
      rw [hf] at hitems herror hcs
      have hsim' := R.feed_sim hsim hc herror.symm
      rw [hf] at hsim'
      obtain ⟨h1, h2, h3⟩ := run_eq_all cs d' _ hsim' (hcs rfl)
      rw [P.all_append _ _ herror.symm]
      simp only [run, hf, Output.prepend_items, Output.prepend_error, Output.prepend_rest]
      exact ⟨by rw [← hitems, h1], h2, h3⟩
    · rw [hf] at hitems herror
      obtain ⟨h1, h2⟩ := P.all_append_of_error (p ++ c) cs.flatten herror.symm
      simp only [run, hf]
      exact ⟨by rw [h1, ← hitems], h2.symm, fun h => by rw [h2] at h; simp at h⟩

end Reader

end Streaming
