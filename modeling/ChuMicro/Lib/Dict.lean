import Mathlib.Data.List.Basic

/-!
# Dictionaries in insertion order

A dictionary as the list of its entries, oldest first, as Python's `dict` and the mappings of a YAML
or TOML document are. Setting a key that is there keeps its place.

## Main definitions

* `Dict.get?`, `Dict.set`, `Dict.erase`, `Dict.mapValues`, `Dict.update` — looking a key up, setting
  it, removing it, changing every value, taking over another dictionary.
* `Dict.Local` — a step over the entries that acts at the key of an entry and nowhere else.

## Main results

* `Dict.get?_eq_some_iff` — with distinct keys, looking up is membership.
* `Dict.Local.view_foldl` — what a loop over the entries leaves at a key is what one step does
  there.
-/

namespace Dict

variable {κ ν : Type} [DecidableEq κ]

/-- The value of a key. -/
def get? (key : κ) : List (κ × ν) → Option ν
  | [] => none
  | entry :: rest => if entry.1 = key then some entry.2 else get? key rest

/-- `d[key] = value`. -/
def set (key : κ) (value : ν) : List (κ × ν) → List (κ × ν)
  | [] => [(key, value)]
  | entry :: rest => if entry.1 = key then (key, value) :: rest else entry :: set key value rest

/-- `d.pop(key, None)`. -/
def erase (key : κ) (d : List (κ × ν)) : List (κ × ν) := d.filter fun entry => entry.1 ≠ key

/-- Every value replaced, in place. -/
def mapValues (f : ν → ν) (d : List (κ × ν)) : List (κ × ν) :=
  d.map fun entry => (entry.1, f entry.2)

@[simp] lemma get?_nil (key : κ) : get? key ([] : List (κ × ν)) = none := rfl

lemma get?_cons (key : κ) (entry : κ × ν) (rest : List (κ × ν)) :
    get? key (entry :: rest) = if entry.1 = key then some entry.2 else get? key rest := rfl

/-- **Setting a key** changes that key and no other. -/
@[simp] lemma get?_set (key key' : κ) (value : ν) (d : List (κ × ν)) :
    get? key' (set key value d) = if key = key' then some value else get? key' d := by
  induction d with
  | nil => rfl
  | cons entry rest ih =>
    rw [set, get?_cons]
    by_cases h : entry.1 = key
    · rw [if_pos h, get?_cons, h]
      by_cases hk : key = key'
      · rw [if_pos hk, if_pos hk]
      · rw [if_neg hk, if_neg hk, if_neg hk]
    · rw [if_neg h, get?_cons, ih]
      by_cases hk : key = key'
      · rw [if_pos hk, if_pos hk, if_neg (hk ▸ h)]
      · rw [if_neg hk, if_neg hk]

/-- A key that was set has the value. -/
lemma get?_set_self (key : κ) (value : ν) (d : List (κ × ν)) :
    get? key (set key value d) = some value := by
  rw [get?_set, if_pos rfl]

variable {key : κ} {d : List (κ × ν)} {value : ν}

/-- A key that was not set keeps its value. -/
lemma get?_set_of_ne {key' : κ} (h : key ≠ key') (value : ν) (d : List (κ × ν)) :
    get? key' (set key value d) = get? key' d := by
  rw [get?_set, if_neg h]

/-- Of two values set for one key the second stays. -/
lemma set_set (key : κ) (value value' : ν) (d : List (κ × ν)) :
    set key value (set key value' d) = set key value d := by
  induction d with
  | nil => simp [set]
  | cons entry rest ih =>
    rw [set, set]
    by_cases h : entry.1 = key
    · rw [if_pos h, if_pos h, set, if_pos rfl]
    · rw [if_neg h, if_neg h, set, if_neg h, ih]

/-- Entries with their values turned into others. -/
lemma get?_map_value {ω : Type} (f : ν → ω) (key : κ) (d : List (κ × ν)) :
    get? key (d.map fun entry => (entry.1, f entry.2)) = (get? key d).map f := by
  induction d with
  | nil => rfl
  | cons entry rest ih =>
    rw [List.map_cons, get?_cons, get?_cons, ih]
    split_ifs <;> rfl

/-- Changing every value changes what a lookup finds. -/
@[simp] lemma get?_mapValues (f : ν → ν) (key : κ) (d : List (κ × ν)) :
    get? key (mapValues f d) = (get? key d).map f :=
  get?_map_value f key d

/-! ## Distinct keys -/

/-- A key is looked up where it is a key. -/
lemma get?_eq_none_iff : get? key d = none ↔ key ∉ d.map Prod.fst := by
  induction d with
  | nil => simp
  | cons entry rest ih =>
    rw [get?_cons, List.map_cons, List.mem_cons, not_or, ← ih]
    by_cases h : entry.1 = key
    · simp [h]
    · rw [if_neg h]
      exact ⟨fun hnone => ⟨fun hkey => h hkey.symm, hnone⟩, And.right⟩

/-- What is looked up is an entry. -/
lemma mem_of_get? (h : get? key d = some value) : (key, value) ∈ d := by
  induction d with
  | nil => cases h
  | cons entry rest ih =>
    rw [get?_cons] at h
    by_cases hkey : entry.1 = key
    · rw [if_pos hkey] at h
      cases h
      rw [← hkey]
      exact List.mem_cons_self
    · rw [if_neg hkey] at h
      exact List.mem_cons_of_mem _ (ih h)

/-- **With distinct keys, looking up is membership.** -/
theorem get?_eq_some_iff (hnodup : (d.map Prod.fst).Nodup) :
    get? key d = some value ↔ (key, value) ∈ d := by
  refine ⟨mem_of_get?, fun hmem => ?_⟩
  induction d with
  | nil => cases hmem
  | cons entry rest ih =>
    rw [List.map_cons, List.nodup_cons] at hnodup
    rw [get?_cons]
    rcases List.mem_cons.mp hmem with heq | hrest
    · rw [← heq, if_pos rfl]
    · have hne : entry.1 ≠ key := fun h =>
        hnodup.1 (h ▸ List.mem_map_of_mem (f := Prod.fst) hrest)
      rw [if_neg hne]
      exact ih hnodup.2 hrest

/-- Of the first entries, a lookup finds what it finds of all of them, or nothing. -/
lemma get?_take (key : κ) (d : List (κ × ν)) (n : ℕ) :
    get? key (d.take n) = none ∨ get? key (d.take n) = get? key d := by
  induction d generalizing n with
  | nil => exact Or.inl (by simp)
  | cons entry rest ih =>
    cases n with
    | zero => exact Or.inl rfl
    | succ n =>
      rw [List.take_succ_cons, get?_cons, get?_cons]
      by_cases h : entry.1 = key
      · rw [if_pos h, if_pos h]
        exact Or.inr rfl
      · rw [if_neg h, if_neg h]
        exact ih n

/-- The order of the entries does not matter to a lookup. -/
lemma get?_perm {d' : List (κ × ν)} (hperm : d.Perm d') (hnodup : (d.map Prod.fst).Nodup)
    (key : κ) : get? key d = get? key d' := by
  have hnodup' : (d'.map Prod.fst).Nodup := (hperm.map Prod.fst).nodup_iff.mp hnodup
  apply Option.ext
  intro value
  rw [get?_eq_some_iff hnodup, get?_eq_some_iff hnodup', hperm.mem_iff]

/-- The keys after setting one: those there were, and it. -/
lemma mem_keys_set {key' : κ} :
    key' ∈ (set key value d).map Prod.fst ↔ key' = key ∨ key' ∈ d.map Prod.fst := by
  have h := get?_set key key' value d
  rw [← not_iff_not, not_or, ← get?_eq_none_iff, ← get?_eq_none_iff, h]
  by_cases hkey : key = key'
  · simp [hkey]
  · rw [if_neg hkey]
    exact ⟨fun hnone => ⟨fun heq => hkey heq.symm, hnone⟩, And.right⟩

/-- Setting a key keeps the keys distinct. -/
lemma nodup_set (hnodup : (d.map Prod.fst).Nodup) (key : κ) (value : ν) :
    ((set key value d).map Prod.fst).Nodup := by
  induction d with
  | nil => simp [set]
  | cons entry rest ih =>
    rw [List.map_cons, List.nodup_cons] at hnodup
    rw [set]
    split
    · next heq => exact List.nodup_cons.mpr ⟨heq ▸ hnodup.1, hnodup.2⟩
    · next hne =>
      refine List.nodup_cons.mpr ⟨fun hmem => ?_, ih hnodup.2⟩
      rcases mem_keys_set.mp hmem with heq | hrest
      · exact hne heq
      · exact hnodup.1 hrest

/-! ## Taking over another dictionary -/

/-- `d.update(other)`. -/
def update (d other : List (κ × ν)) : List (κ × ν) :=
  other.foldl (fun d entry => set entry.1 entry.2 d) d

/-- A key is looked up in the first part, then in the second. -/
lemma get?_append (key : κ) (d d' : List (κ × ν)) :
    get? key (d ++ d') = (get? key d).or (get? key d') := by
  induction d with
  | nil => rfl
  | cons entry rest ih =>
    rw [List.cons_append, get?_cons, get?_cons, ih]
    split_ifs <;> rfl

/-- **After an update** a key has the last value that it was given. -/
lemma get?_update (key : κ) (d other : List (κ × ν)) :
    get? key (update d other) = (get? key other.reverse).or (get? key d) := by
  induction other generalizing d with
  | nil => rfl
  | cons entry rest ih =>
    have hstep : update d (entry :: rest) = update (set entry.1 entry.2 d) rest := rfl
    rw [hstep, ih, List.reverse_cons, get?_append, Option.or_assoc, get?_set, get?_cons]
    congr 1
    split_ifs <;> rfl

/-- With distinct keys the order of the update does not matter. -/
lemma get?_reverse (hnodup : (d.map Prod.fst).Nodup) (key : κ) : get? key d.reverse = get? key d :=
  (get?_perm (List.reverse_perm d).symm hnodup key).symm

/-- An update keeps the keys distinct. -/
lemma nodup_update (hnodup : (d.map Prod.fst).Nodup) (other : List (κ × ν)) :
    ((update d other).map Prod.fst).Nodup := by
  induction other generalizing d with
  | nil => exact hnodup
  | cons entry rest ih => exact ih (nodup_set hnodup entry.1 entry.2)

/-! ## Entries made from things -/

/-- A key that belongs to one thing of the list alone has the value of that thing. -/
lemma get?_map_of_mem {ι : Type} {f : ι → κ} {g : ι → ν} {things : List ι} {a : ι}
    (ha : a ∈ things) (hone : ∀ b ∈ things, f b = f a → b = a) :
    get? (f a) (things.map fun b => (f b, g b)) = some (g a) := by
  induction things with
  | nil => cases ha
  | cons b things ih =>
    obtain ⟨hb, hthings⟩ := List.forall_mem_cons.mp hone
    rw [List.map_cons, get?_cons]
    split_ifs with heq
    · rw [hb heq]
    · have hne : a ≠ b := fun h => heq (by rw [h])
      exact ih ((List.mem_cons.mp ha).resolve_left hne) hthings

/-- A key of none of the things is not there. -/
lemma get?_map_of_forall_ne {ι : Type} {f : ι → κ} {g : ι → ν} {things : List ι}
    (h : ∀ b ∈ things, f b ≠ key) : get? key (things.map fun b => (f b, g b)) = none := by
  rw [get?_eq_none_iff, List.map_map]
  intro hmem
  obtain ⟨b, hb, heq⟩ := List.mem_map.mp hmem
  exact h b hb heq

/-- Entries that are picked by their keys. -/
lemma get?_filter_key (p : κ → Prop) [DecidablePred p] (key : κ) (d : List (κ × ν)) :
    get? key (d.filter fun entry => p entry.1) = if p key then get? key d else none := by
  induction d with
  | nil => simp
  | cons entry rest ih =>
    by_cases hp : p entry.1
    · rw [List.filter_cons_of_pos (by simpa using hp), get?_cons, get?_cons, ih]
      by_cases heq : entry.1 = key
      · rw [if_pos heq, if_pos heq, if_pos (heq ▸ hp)]
      · rw [if_neg heq, if_neg heq]
    · rw [List.filter_cons_of_neg (by simpa using hp), get?_cons, ih]
      by_cases heq : entry.1 = key
      · rw [if_neg (heq ▸ hp), if_neg (heq ▸ hp)]
      · rw [if_neg heq]

/-! ## Loops over the entries -/

/-- What a step over the entries does, seen at one key: at the key of the entry it is `effect`, and
elsewhere nothing. -/
structure Local {σ ω : Type} (step : σ → κ × ν → σ) (view : κ → σ → ω)
    (effect : κ → ν → ω → ω) : Prop where
  at_key : ∀ s key value, view key (step s (key, value)) = effect key value (view key s)
  elsewhere : ∀ s entry key, entry.1 ≠ key → view key (step s entry) = view key s

/-- **A loop over the entries of a dictionary does at a key what one step does there**, and nothing
where the key is not.

**Proof sketch.** Induction on the entries; as the keys are distinct, the rest of the loop leaves
alone what the step at the key did. -/
theorem Local.view_foldl {σ ω : Type} {step : σ → κ × ν → σ} {view : κ → σ → ω}
    {effect : κ → ν → ω → ω} (h : Local step view effect) (hnodup : (d.map Prod.fst).Nodup) (s : σ)
    (key : κ) :
    view key (d.foldl step s) =
      (get? key d).elim (view key s) fun value => effect key value (view key s) := by
  induction d generalizing s with
  | nil => rfl
  | cons entry rest ih =>
    rw [List.map_cons, List.nodup_cons] at hnodup
    rw [List.foldl_cons, ih hnodup.2, get?_cons]
    by_cases hkey : entry.1 = key
    · have hrest : get? key rest = none := get?_eq_none_iff.mpr (hkey ▸ hnodup.1)
      rw [hrest, if_pos hkey]
      subst hkey
      exact h.at_key s entry.1 entry.2
    · rw [if_neg hkey]
      have hsame := h.elsewhere s entry key hkey
      cases get? key rest with
      | none => exact hsame
      | some value => exact congrArg (effect key value) hsame

end Dict
