import ChuMicro.Lib.Dict
import Mathlib.Data.List.Nodup

/-!
# Nested dictionaries

Dictionaries whose values are leaves or dictionaries again, as a configuration or a document has
them. A value inside is reached by a path of keys, and a dictionary is known by what it has at every
path.

## Main definitions

* `Nested`, `Table` — a value, and a dictionary of values in insertion order.
* `Nested.at?` — the value at a path.
* `Nested.Distinct` — no dictionary inside has a key twice.
* `Nested.leaves`, `Nested.leavesOf` — the leaves with their paths, in order.
* `Nested.prune`, `Nested.pruneItems` — without the dictionaries that hold no leaf.
* `Nested.Alike` — the same as a mapping.

## Main results

* `Nested.mem_leavesOf` — with distinct keys, the leaves are what the paths lead to.
* `Nested.alike_pruneItems_iff` — pruned dictionaries are the same where their leaves are.
-/

/-- A leaf or a dictionary. -/
inductive Nested (κ α : Type) where
  | leaf (value : α)
  | table (items : List (κ × Nested κ α))

/-- A dictionary, as its entries in insertion order. -/
abbrev Table (κ α : Type) := List (κ × Nested κ α)

namespace Nested

variable {κ α : Type}

/-! ## Induction -/

mutual

/-- The induction on dictionaries, for the dictionary that a value is. -/
lemma induction_value {motive : Table κ α → Prop} (nil : motive [])
    (leaf : ∀ key a rest, motive rest → motive ((key, .leaf a) :: rest))
    (table : ∀ key items rest, motive items → motive rest → motive ((key, .table items) :: rest)) :
    ∀ (v : Nested κ α) (items : Table κ α), v = .table items → motive items
  | .leaf _, _, h => by cases h
  | .table items, _, h => by
    cases h
    exact induction nil leaf table items

/-- **Induction on dictionaries**: over the entries, and over the dictionaries in them. -/
lemma induction {motive : Table κ α → Prop} (nil : motive [])
    (leaf : ∀ key a rest, motive rest → motive ((key, .leaf a) :: rest))
    (table : ∀ key items rest, motive items → motive rest → motive ((key, .table items) :: rest)) :
    ∀ t : Table κ α, motive t
  | [] => nil
  | (key, v) :: rest => by
    have hvalue := induction_value nil leaf table v
    have hrest := induction nil leaf table rest
    cases v with
    | leaf a => exact leaf key a rest hrest
    | table items => exact table key items rest (hvalue items rfl) hrest

end

/-! ## Paths -/

section Paths

variable [DecidableEq κ]

/-- The value at a path. -/
def at? : List κ → Nested κ α → Option (Nested κ α)
  | [], v => some v
  | _ :: _, leaf _ => none
  | key :: path, table items => (Dict.get? key items).bind (at? path)

/-- The leaf at a path. -/
def leafAt (path : List κ) (t : Table κ α) : Option α :=
  match at? path (table t) with
  | some (leaf a) => some a
  | _ => none

@[simp] lemma at?_nil (v : Nested κ α) : at? [] v = some v := by
  cases v <;> rfl

@[simp] lemma at?_cons_leaf (key : κ) (path : List κ) (a : α) :
    at? (key :: path) (leaf a) = none := rfl

@[simp] lemma at?_cons_table (key : κ) (path : List κ) (t : Table κ α) :
    at? (key :: path) (table t) = (Dict.get? key t).bind (at? path) := rfl

/-- A path in two steps. -/
lemma at?_append (path more : List κ) (v : Nested κ α) :
    at? (path ++ more) v = (at? path v).bind (at? more) := by
  induction path generalizing v with
  | nil => simp
  | cons key path ih =>
    cases v with
    | leaf a => rfl
    | table t =>
      rw [List.cons_append, at?_cons_table, at?_cons_table, Option.bind_assoc]
      exact congrArg _ (funext ih)

/-- There is a leaf at a path where the path leads to it. -/
lemma leafAt_eq_some_iff {path : List κ} {t : Table κ α} {a : α} :
    leafAt path t = some a ↔ at? path (table t) = some (leaf a) := by
  rw [leafAt]
  cases at? path (table t) with
  | none => simp
  | some v => cases v <;> simp

/-- No leaf is a dictionary itself. -/
@[simp] lemma leafAt_nil (t : Table κ α) : leafAt [] t = none := rfl

/-- The leaf at a path, from the value at its first key. -/
lemma leafAt_cons (key : κ) (path : List κ) (t : Table κ α) :
    leafAt (key :: path) t =
      match Dict.get? key t with
      | some (table items) => leafAt path items
      | some (leaf a) => if path = [] then some a else none
      | none => none := by
  rw [leafAt, at?_cons_table]
  cases Dict.get? key t with
  | none => rfl
  | some v =>
    cases v with
    | table items => rfl
    | leaf a => cases path <;> simp

end Paths

/-! ## Distinct keys -/

mutual

/-- No dictionary in the value has a key twice. -/
def Distinct : Nested κ α → Prop
  | leaf _ => True
  | table items => DistinctItems items

/-- The dictionary and those in it have distinct keys. -/
def DistinctItems : Table κ α → Prop
  | [] => True
  | (key, v) :: rest => key ∉ rest.map Prod.fst ∧ Distinct v ∧ DistinctItems rest

end

variable {t : Table κ α}

/-- The keys of a dictionary with distinct keys. -/
lemma DistinctItems.nodup (h : DistinctItems t) : (t.map Prod.fst).Nodup := by
  induction t with
  | nil => exact List.nodup_nil
  | cons entry rest ih => exact List.nodup_cons.mpr ⟨h.1, ih h.2.2⟩

/-- What is in a dictionary with distinct keys has distinct keys. -/
lemma DistinctItems.of_mem (h : DistinctItems t) {entry : κ × Nested κ α} (hmem : entry ∈ t) :
    Distinct entry.2 := by
  induction t with
  | nil => cases hmem
  | cons first rest ih =>
    rcases List.mem_cons.mp hmem with rfl | hmem
    · exact h.2.1
    · exact ih h.2.2 hmem

/-- Distinct keys, said of all entries. -/
lemma distinctItems_iff :
    DistinctItems t ↔ (t.map Prod.fst).Nodup ∧ ∀ entry ∈ t, Distinct entry.2 := by
  refine ⟨fun h => ⟨h.nodup, fun _ => h.of_mem⟩, ?_⟩
  rintro ⟨hnodup, hall⟩
  induction t with
  | nil => exact trivial
  | cons first rest ih =>
    obtain ⟨hfirst, hrest⟩ := List.forall_mem_cons.mp hall
    rw [List.map_cons, List.nodup_cons] at hnodup
    exact ⟨hnodup.1, hfirst, ih hnodup.2 hrest⟩

section Set

variable [DecidableEq κ]

variable {v : Nested κ α} {t : Table κ α}

/-- An entry of a dictionary after one was set is that one or an old one. -/
lemma mem_set {key : κ} {entry : κ × Nested κ α} (h : entry ∈ Dict.set key v t) :
    entry = (key, v) ∨ entry ∈ t := by
  induction t with
  | nil => exact .inl (List.mem_singleton.mp h)
  | cons first rest ih =>
    rw [Dict.set] at h
    split_ifs at h with hkey
    · rcases List.mem_cons.mp h with rfl | h
      · exact .inl rfl
      · exact .inr (List.mem_cons_of_mem _ h)
    · rcases List.mem_cons.mp h with rfl | h
      · exact .inr List.mem_cons_self
      · exact (ih h).imp_right (List.mem_cons_of_mem _)

/-- Setting a key keeps the keys distinct. -/
lemma DistinctItems.set (h : DistinctItems t) (key : κ) (hv : Distinct v) :
    DistinctItems (Dict.set key v t) := by
  refine distinctItems_iff.mpr ⟨Dict.nodup_set h.nodup key v, fun entry hentry => ?_⟩
  rcases mem_set hentry with rfl | hmem
  · exact hv
  · exact h.of_mem hmem

/-- What a lookup finds has distinct keys. -/
lemma DistinctItems.of_get? (h : DistinctItems t) {key : κ} (hget : Dict.get? key t = some v) :
    Distinct v := h.of_mem (Dict.mem_of_get? hget)

end Set

/-! ## Leaves -/

mutual

/-- The leaves of a value, with the paths to them. -/
def leaves : Nested κ α → List (List κ × α)
  | leaf a => [([], a)]
  | table items => leavesOf items

/-- The leaves of a dictionary, with the paths to them. -/
def leavesOf : Table κ α → List (List κ × α)
  | [] => []
  | (key, v) :: rest => (leaves v).map (fun found => (key :: found.1, found.2)) ++ leavesOf rest

end

/-- The leaves behind the entries. -/
lemma mem_leavesOf_iff {found : List κ × α} :
    found ∈ leavesOf t ↔
      ∃ entry ∈ t, ∃ inner ∈ leaves entry.2, found = (entry.1 :: inner.1, inner.2) := by
  induction t with
  | nil => simp [leavesOf]
  | cons entry rest ih =>
    obtain ⟨key, v⟩ := entry
    rw [leavesOf, List.mem_append, List.mem_map, ih]
    constructor
    · rintro (⟨inner, hinner, rfl⟩ | ⟨entry, hentry, hfound⟩)
      · exact ⟨_, List.mem_cons_self, inner, hinner, rfl⟩
      · exact ⟨entry, List.mem_cons_of_mem _ hentry, hfound⟩
    · rintro ⟨entry, hentry, inner, hinner, rfl⟩
      rcases List.mem_cons.mp hentry with rfl | hentry
      · exact .inl ⟨inner, hinner, rfl⟩
      · exact .inr ⟨entry, hentry, inner, hinner, rfl⟩

/-- The path to a leaf of a dictionary has a key. -/
lemma ne_nil_of_mem_leavesOf {found : List κ × α} (h : found ∈ leavesOf t) : found.1 ≠ [] := by
  obtain ⟨entry, -, inner, -, rfl⟩ := mem_leavesOf_iff.mp h
  exact List.cons_ne_nil _ _

section Paths

variable [DecidableEq κ]

/-- **The leaves are what the paths lead to**, with distinct keys.

**Proof sketch.** Induction on the dictionary: as the keys are distinct, the first entry with the
first key of the path is the only one. -/
theorem mem_leavesOf {t : Table κ α} (h : DistinctItems t) {path : List κ} {a : α} :
    (path, a) ∈ leavesOf t ↔ leafAt path t = some a := by
  induction t using induction generalizing path with
  | nil => cases path <;> simp [leavesOf, leafAt_cons]
  | leaf key b rest ih =>
    rw [leavesOf, leaves, List.map_singleton, List.mem_append, List.mem_singleton, ih h.2.2]
    cases path with
    | nil => simp
    | cons first path =>
      rw [leafAt_cons, leafAt_cons, Dict.get?_cons]
      by_cases hkey : key = first
      · have hnone : Dict.get? first rest = none := Dict.get?_eq_none_iff.mpr (hkey ▸ h.1)
        rw [if_pos hkey, hnone, hkey]
        cases path <;> simp [eq_comm]
      · rw [if_neg hkey]
        simp [Ne.symm hkey]
  | table key items rest ihitems ihrest =>
    rw [leavesOf, leaves, List.mem_append, List.mem_map, ihrest h.2.2]
    cases path with
    | nil => simp
    | cons first path =>
      rw [leafAt_cons, leafAt_cons, Dict.get?_cons]
      by_cases hkey : key = first
      · have hnone : Dict.get? first rest = none := Dict.get?_eq_none_iff.mpr (hkey ▸ h.1)
        rw [if_pos hkey, hnone, hkey]
        dsimp only
        rw [← ihitems h.2.1]
        constructor
        · rintro (⟨inner, hinner, heq⟩ | heq)
          · cases heq
            exact hinner
          · cases heq
        · exact fun hmem => .inl ⟨_, hmem, rfl⟩
      · rw [if_neg hkey]
        simp [hkey]

end Paths

/-! ## Dictionaries without leaves -/

/-- A value, unless it is a dictionary without entries. -/
def unlessEmpty : Nested κ α → Option (Nested κ α)
  | table [] => none
  | v => some v

mutual

/-- The value without the dictionaries in it that hold no leaf. -/
def prune : Nested κ α → Nested κ α
  | leaf a => leaf a
  | table items => table (pruneItems items)

/-- The dictionary without the dictionaries in it that hold no leaf. -/
def pruneItems : Table κ α → Table κ α
  | [] => []
  | (key, v) :: rest =>
    match unlessEmpty (prune v) with
    | some v => (key, v) :: pruneItems rest
    | none => pruneItems rest

end

/-- A pruned dictionary without entries has no leaf. -/
lemma pruneItems_eq_nil_iff : pruneItems t = [] ↔ leavesOf t = [] := by
  induction t using induction with
  | nil => simp [pruneItems, leavesOf]
  | leaf key a rest ih => simp [pruneItems, prune, unlessEmpty, leavesOf, leaves]
  | table key items rest ihitems ihrest =>
    rw [pruneItems, prune, leavesOf, leaves, List.append_eq_nil_iff, List.map_eq_nil_iff, ← ihitems,
      ← ihrest]
    cases pruneItems items with
    | nil => simp [unlessEmpty]
    | cons entry more => simp [unlessEmpty]

section Paths

variable [DecidableEq κ]

/-- Two values that are the same seen from outside: the same leaf, or two dictionaries. -/
def SameKind : Option (Nested κ α) → Option (Nested κ α) → Prop
  | none, none => True
  | some (leaf a), some (leaf b) => a = b
  | some (table _), some (table _) => True
  | _, _ => False

/-- **The same as a mapping**: at every path there is nothing in both, the same leaf, or a
dictionary in both. -/
def Alike (t t' : Table κ α) : Prop := ∀ path, SameKind (at? path (table t)) (at? path (table t'))

variable {t : Table κ α}

/-- A pruned dictionary has the keys that lead to leaves. -/
lemma get?_pruneItems (h : (t.map Prod.fst).Nodup) (key : κ) :
    Dict.get? key (pruneItems t) = (Dict.get? key t).bind fun v => unlessEmpty (prune v) := by
  induction t with
  | nil => rfl
  | cons entry rest ih =>
    obtain ⟨key', v⟩ := entry
    rw [List.map_cons, List.nodup_cons] at h
    rw [Dict.get?_cons, pruneItems]
    by_cases hkey : key' = key
    · have hnone : Dict.get? key rest = none := Dict.get?_eq_none_iff.mpr (hkey ▸ h.1)
      rw [if_pos hkey, Option.bind_some]
      cases unlessEmpty (prune v) with
      | none => rw [ih h.2, hnone, Option.bind_none]
      | some v' => exact if_pos hkey
    · rw [if_neg hkey]
      cases unlessEmpty (prune v) with
      | none => exact ih h.2
      | some v' => exact (if_neg hkey).trans (ih h.2)

/-- Pruning keeps the leaves. -/
lemma leafAt_pruneItems (h : DistinctItems t) (path : List κ) :
    leafAt path (pruneItems t) = leafAt path t := by
  induction path generalizing t with
  | nil => rfl
  | cons key path ih =>
    rw [leafAt_cons, leafAt_cons, get?_pruneItems h.nodup]
    cases hget : Dict.get? key t with
    | none => rfl
    | some v =>
      rw [Option.bind_some]
      cases v with
      | leaf a => rfl
      | table items =>
        have hitems : DistinctItems items := h.of_get? hget
        rw [prune]
        dsimp only
        rw [← ih hitems]
        cases pruneItems items with
        | nil => cases path <;> simp [unlessEmpty, leafAt_cons]
        | cons entry more => rfl

/-- In a pruned dictionary every dictionary leads to a leaf. -/
lemma exists_leafAt_of_at?_pruneItems (h : DistinctItems t) {path : List κ} (hpath : path ≠ [])
    {items : Table κ α} (hat : at? path (table (pruneItems t)) = some (table items)) :
    ∃ more a, leafAt (path ++ more) t = some a := by
  induction path generalizing t with
  | nil => exact absurd rfl hpath
  | cons key path ih =>
    rw [at?_cons_table, get?_pruneItems h.nodup] at hat
    cases hget : Dict.get? key t with
    | none => simp [hget] at hat
    | some v =>
      rw [hget, Option.bind_some] at hat
      cases v with
      | leaf a => cases path <;> simp [prune, unlessEmpty] at hat
      | table inner =>
        have hinner : DistinctItems inner := h.of_get? hget
        simp only [List.cons_append, leafAt_cons, hget]
        cases hpruned : pruneItems inner with
        | nil => simp [prune, unlessEmpty, hpruned] at hat
        | cons entry rest =>
          rw [prune, hpruned, unlessEmpty, Option.bind_some, ← hpruned] at hat
          · by_cases hlast : path = []
            · subst hlast
              -- the dictionary at the end of the path has entries left
              have hleaves : leavesOf inner ≠ [] := fun hnil => by
                rw [pruneItems_eq_nil_iff.mpr hnil] at hpruned
                cases hpruned
              obtain ⟨found, hfound⟩ := List.exists_mem_of_ne_nil _ hleaves
              exact ⟨found.1, found.2, (mem_leavesOf hinner).mp hfound⟩
            · exact ih hinner hlast hat
          · rintro ⟨⟩

section SameLeaves

variable {t t' : Table κ α} (h : DistinctItems t) (h' : DistinctItems t')
  (hleaves : ∀ path, leafAt path t = leafAt path t') {path : List κ}
include h h' hleaves

/-- A leaf of the one pruned dictionary is one of the other. -/
lemma at?_leaf_of_leafAt {a : α} (hat : at? path (table (pruneItems t')) = some (leaf a)) :
    at? path (table (pruneItems t)) = some (leaf a) := by
  rw [← leafAt_eq_some_iff, leafAt_pruneItems h'] at hat
  rw [← leafAt_eq_some_iff, leafAt_pruneItems h, hleaves, hat]

/-- Where the one pruned dictionary has a dictionary, the other has one. -/
lemma at?_table_of_leafAt (hpath : path ≠ []) {items : Table κ α}
    (hat : at? path (table (pruneItems t')) = some (table items)) :
    ∃ items', at? path (table (pruneItems t)) = some (table items') := by
  obtain ⟨more, a, hmore⟩ := exists_leafAt_of_at?_pruneItems h' hpath hat
  rw [← hleaves, ← leafAt_pruneItems h, leafAt_eq_some_iff, at?_append,
    Option.bind_eq_some_iff] at hmore
  obtain ⟨v, hv, hmore⟩ := hmore
  cases v with
  | table items' => exact ⟨items', hv⟩
  | leaf b =>
    -- a leaf there would be a leaf of the other
    have hleaf := at?_leaf_of_leafAt h' h (fun p => (hleaves p).symm) hv
    rw [hat] at hleaf
    cases hleaf

end SameLeaves

/-- **Pruned dictionaries are the same** where their leaves are. -/
theorem alike_pruneItems_iff {t' : Table κ α} (h : DistinctItems t) (h' : DistinctItems t') :
    Alike (pruneItems t) (pruneItems t') ↔ ∀ path, leafAt path t = leafAt path t' := by
  constructor
  · intro halike path
    rw [← leafAt_pruneItems h, ← leafAt_pruneItems h', leafAt, leafAt]
    have hkind := halike path
    cases hat : at? path (table (pruneItems t)) <;>
      cases hat' : at? path (table (pruneItems t')) <;> rw [hat, hat'] at hkind
    case some.some v v' =>
      cases v <;> cases v' <;> simp_all [SameKind]
    case none.some v => cases v <;> cases hkind
    case some.none v => cases v <;> cases hkind
  · intro hleaves path
    by_cases hnil : path = []
    · rw [hnil, at?_nil, at?_nil]
      exact trivial
    cases hat : at? path (table (pruneItems t)) with
    | none =>
      cases hat' : at? path (table (pruneItems t')) with
      | none => exact trivial
      | some v' =>
        cases v' with
        | leaf b =>
          rw [at?_leaf_of_leafAt h h' hleaves hat'] at hat
          cases hat
        | table items' =>
          obtain ⟨items, hitems⟩ := at?_table_of_leafAt h h' hleaves hnil hat'
          rw [hitems] at hat
          cases hat
    | some v =>
      cases v with
      | leaf a =>
        rw [at?_leaf_of_leafAt h' h (fun p => (hleaves p).symm) hat]
        exact rfl
      | table items =>
        obtain ⟨items', hitems'⟩ :=
          at?_table_of_leafAt h' h (fun p => (hleaves p).symm) hnil hat
        rw [hitems']
        exact trivial

end Paths

end Nested
