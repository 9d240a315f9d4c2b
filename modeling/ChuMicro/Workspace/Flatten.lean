import ChuMicro.Lib.Nested
import ChuMicro.Text

/-!
# Flattening the runtime configuration

`flatten_config` of `chumicro_workspace/flatten.py`: the nested tables of a configuration become one
flat dictionary with dotted keys. Two paths get the same flat key where they spell the same
segments: a key may hold dots itself, and a table at the top whose key is empty leaves no trace.

## Main definitions

* `Workspace.flattenConfig` — `flatten_config`.
* `Workspace.dotted`, `Workspace.segments` — the flat key of a path, and what it spells.
* `Workspace.Exact` — one flat entry for each leaf.

## Main results

* `Workspace.flattenConfig_keyed` — what flattening leaves at each flat key.
* `Workspace.dotted_inj` — when two paths get the same flat key.
* `Workspace.flatten_reversible_iff` — when a flat dictionary tells what it was made of.
-/

namespace ChuMicro.Workspace

open Nested

variable {α : Type}

/-! ## The code -/

/-- A key of a dictionary: a text, or something else with the name of its type and its `repr`. -/
inductive Key where
  | str (text : Str)
  | other (typeName repr : String)
  deriving DecidableEq

/-- `full_key`. -/
def fullKey (pre key : Str) : Str := if pre = [] then key else pre ++ '.' :: key

mutual

/-- The body of the loop of `flatten_config`, for a key that is a text. -/
def flattenEntry (fullKey : Str) (flat : List (Str × α)) :
    Nested Key α → Except PyExn (List (Str × α))
  | .leaf value => .ok (Dict.set fullKey value flat)
  | .table items => do .ok (Dict.update flat (← flattenItems fullKey [] items))

/-- The loop of `flatten_config`, which starts with an empty `flat`. -/
def flattenItems (pre : Str) (flat : List (Str × α)) : Table Key α → Except PyExn (List (Str × α))
  | [] => .ok flat
  | (.other typeName repr, _) :: _ =>
    .error (.valueError s!"runtime config key must be a string, got {typeName}={repr}")
  | (.str key, value) :: rest => do
    flattenItems pre (← flattenEntry (fullKey pre key) flat value) rest

end

/-- `flatten_config`. -/
def flattenConfig (nested : Table Key α) : Except PyExn (List (Str × α)) := flattenItems [] [] nested

mutual

/-- A value whose keys are texts. -/
def keyedValue : Nested Str α → Nested Key α
  | .leaf value => .leaf value
  | .table items => .table (keyed items)

/-- A dictionary whose keys are texts. -/
def keyed : Table Str α → Table Key α
  | [] => []
  | (key, value) :: rest => (.str key, keyedValue value) :: keyed rest

end

/-- The section tables of a configuration, and a table without leaves. -/
example : flattenConfig (keyed [("wifi".toList, .table [("ssid".toList, .leaf 1)]),
    ("mqtt".toList, .table [("broker".toList, .table [("host".toList, .leaf 2)]),
      ("tls".toList, .table [])]), ("debug".toList, .leaf 3)]) =
    .ok [("wifi.ssid".toList, 1), ("mqtt.broker.host".toList, 2), ("debug".toList, 3)] := by
  decide +kernel

/-! ## What flattening leaves -/

/-- The flat key of a path below a prefix. -/
def dotted (pre : Str) (path : List Str) : Str := path.foldl fullKey pre

/-- What is set in the flat dictionary, in order. -/
def written (pre : Str) (t : Table Str α) : List (Str × α) :=
  (leavesOf t).map fun found => (dotted pre found.1, found.2)

/-- **What flattening leaves at a flat key**: the last leaf that gets that key.

**Proof sketch.** Induction on the dictionary. The leaves of a table inside come in their order, as
the flat dictionary made of them is taken over whole. -/
lemma flattenItems_keyed (t : Table Str α) (pre : Str) (flat : List (Str × α))
    (hflat : (flat.map Prod.fst).Nodup) :
    ∃ flat', flattenItems pre flat (keyed t) = .ok flat' ∧ (flat'.map Prod.fst).Nodup ∧
      ∀ k, Dict.get? k flat' = (Dict.get? k (written pre t).reverse).or (Dict.get? k flat) := by
  induction t using Nested.induction generalizing pre flat with
  | nil => exact ⟨flat, rfl, hflat, fun k => rfl⟩
  | leaf key a rest ih =>
    obtain ⟨flat', hok, hnodup, hget⟩ := ih pre (Dict.set (fullKey pre key) a flat)
      (Dict.nodup_set hflat _ _)
    refine ⟨flat', hok, hnodup, fun k => ?_⟩
    have hwritten : written pre ((key, .leaf a) :: rest) =
        (fullKey pre key, a) :: written pre rest := rfl
    rw [hget, hwritten, List.reverse_cons, Dict.get?_append, Option.or_assoc, Dict.get?_set,
      Dict.get?_cons]
    congr 1
    split_ifs <;> rfl
  | table key items rest ihitems ihrest =>
    obtain ⟨inner, hinner, hinnerNodup, hgetInner⟩ := ihitems (fullKey pre key) []
      List.nodup_nil
    obtain ⟨flat', hok, hnodup, hget⟩ := ihrest pre (Dict.update flat inner)
      (Dict.nodup_update hflat _)
    refine ⟨flat', ?_, hnodup, fun k => ?_⟩
    · rw [keyed, keyedValue, flattenItems, flattenEntry, hinner]
      exact hok
    · have hwritten : written pre ((key, .table items) :: rest) =
          written (fullKey pre key) items ++ written pre rest := by
        rw [written, leavesOf, List.map_append, List.map_map]
        rfl
      rw [hget, hwritten, List.reverse_append, Dict.get?_append, Option.or_assoc, Dict.get?_update,
        Dict.get?_reverse hinnerNodup, hgetInner, Dict.get?_nil, Option.or_none]

/-- The flat dictionary of one whose keys are texts. -/
theorem flattenConfig_keyed (t : Table Str α) :
    ∃ flat, flattenConfig (keyed t) = .ok flat ∧ (flat.map Prod.fst).Nodup ∧
      ∀ k, Dict.get? k flat = Dict.get? k (written [] t).reverse := by
  obtain ⟨flat, hok, hnodup, hget⟩ := flattenItems_keyed t [] [] List.nodup_nil
  exact ⟨flat, hok, hnodup, fun k => by rw [hget, Dict.get?_nil, Option.or_none]⟩

/-! ## Flat keys -/

/-- **What a path spells**: its keys split at their dots, where empty keys in front of others are
not seen. -/
def segments : List Str → List Str
  | [] => []
  | key :: path =>
    if key = [] ∧ path ≠ [] then segments path else (key :: path).flatMap fun k => k.splitOn '.'

/-- Below a prefix every key adds its segments. -/
lemma splitOn_dotted {pre : Str} (hpre : pre ≠ []) (path : List Str) :
    (dotted pre path).splitOn '.' = pre.splitOn '.' ++ path.flatMap fun k => k.splitOn '.' := by
  induction path generalizing pre with
  | nil => simp [dotted]
  | cons key path ih =>
    have hstep : dotted pre (key :: path) = dotted (pre ++ '.' :: key) path := by
      rw [dotted, List.foldl_cons, fullKey, if_neg hpre]
      rfl
    rw [hstep, ih (by simp), List.splitOn_append_cons_self, List.flatMap_cons, List.append_assoc]

variable {path : List Str} {t : Table Str α} {a : α} {flat : List (Str × α)}

/-- A flat key is split into the segments of its path. -/
lemma splitOn_dotted_nil (h : path ≠ []) : (dotted [] path).splitOn '.' = segments path := by
  induction path with
  | nil => exact absurd rfl h
  | cons key path ih =>
    have hstep : dotted [] (key :: path) = dotted key path := rfl
    rw [hstep, segments]
    by_cases hkey : key = []
    · by_cases hpath : path = []
      · subst hkey hpath
        rfl
      · rw [if_pos ⟨hkey, hpath⟩, hkey, ih hpath]
    · rw [if_neg (fun h => hkey h.1), splitOn_dotted hkey, List.flatMap_cons]

/-- **Two paths get the same flat key** exactly where they spell the same segments. -/
theorem dotted_inj {path' : List Str} (h : path ≠ []) (h' : path' ≠ []) :
    dotted [] path = dotted [] path' ↔ segments path = segments path' := by
  rw [← splitOn_dotted_nil h, ← splitOn_dotted_nil h']
  refine ⟨congrArg _, fun heq => ?_⟩
  have hjoin := @List.intercalate_splitOn _ (dotted [] path) _ _ '.'
  rw [← hjoin, heq, List.intercalate_splitOn]

/-- A key that is not empty and has no dot. -/
def Plain (key : Str) : Prop := key ≠ [] ∧ '.' ∉ key

/-- A path of such keys spells itself. -/
lemma segments_of_plain (h : ∀ key ∈ path, Plain key) : segments path = path := by
  cases path with
  | nil => rfl
  | cons key rest =>
    rw [segments, if_neg (fun hkey => (h key List.mem_cons_self).1 hkey.1)]
    have hsplit : ∀ k ∈ key :: rest, k.splitOn '.' = [k] := by
      intro k hk
      have hone := @List.splitOn_intercalate _ [k] _ _ '.' (by simpa using (h k hk).2) (by simp)
      rwa [List.intercalate_singleton] at hone
    rw [List.flatMap_congr hsplit, List.flatMap_singleton']

/-! ## Reversibility -/

/-- The paths to the leaves. -/
def leafPaths (t : Table Str α) : List (List Str) := (leavesOf t).map Prod.fst

/-- **One flat entry for each leaf**: every leaf is found under its flat key, every flat entry is a
leaf, and no two leaves share a flat key. -/
structure OneEntryPerLeaf (t : Table Str α) (flat : List (Str × α)) : Prop where
  found : ∀ path a, leafAt path t = some a → Dict.get? (dotted [] path) flat = some a
  leaf : ∀ k a, Dict.get? k flat = some a → ∃ path, leafAt path t = some a ∧ dotted [] path = k
  apart : ∀ path ∈ leafPaths t, ∀ path' ∈ leafPaths t, dotted [] path = dotted [] path' →
    path = path'

/-- Flattening returns one entry for each leaf. -/
def Exact (t : Table Str α) : Prop :=
  ∃ flat, flattenConfig (keyed t) = .ok flat ∧ OneEntryPerLeaf t flat

/-- Two dictionaries become the same flat one. -/
def SameFlat (t t' : Table Str α) : Prop :=
  ∃ flat flat', flattenConfig (keyed t) = .ok flat ∧ flattenConfig (keyed t') = .ok flat' ∧
    ∀ k, Dict.get? k flat = Dict.get? k flat'

/-- No two of the paths spell the same segments. -/
def SpeltApart (paths : List (List Str)) : Prop :=
  ∀ path ∈ paths, ∀ path' ∈ paths, segments path = segments path' → path = path'

/-- The paths to the leaves are what leads to them. -/
lemma mem_leafPaths (h : DistinctItems t) : path ∈ leafPaths t ↔ ∃ a, leafAt path t = some a := by
  simp only [leafPaths, List.mem_map, Prod.exists, exists_and_right, exists_eq_right,
    mem_leavesOf h]

/-- No leaf is at the empty path. -/
lemma ne_nil_of_mem_leafPaths (h : path ∈ leafPaths t) : path ≠ [] := by
  obtain ⟨found, hfound, rfl⟩ := List.mem_map.mp h
  exact ne_nil_of_mem_leavesOf hfound

/-- What was written is a leaf under its flat key. -/
lemma mem_written (h : DistinctItems t) {k : Str} :
    (k, a) ∈ written [] t ↔ ∃ path, leafAt path t = some a ∧ dotted [] path = k := by
  simp only [written, List.mem_map, Prod.mk.injEq, Prod.exists]
  constructor
  · rintro ⟨path, b, hmem, hkey, rfl⟩
    exact ⟨path, (mem_leavesOf h).mp hmem, hkey⟩
  · rintro ⟨path, hleaf, hkey⟩
    exact ⟨path, a, (mem_leavesOf h).mpr hleaf, hkey, rfl⟩

/-- A flat key that is there is the key of a leaf. -/
lemma exists_leafAt_of_get? (h : DistinctItems t)
    (hget : ∀ k, Dict.get? k flat = Dict.get? k (written [] t).reverse) {k : Str}
    (hk : Dict.get? k flat = some a) : ∃ path, leafAt path t = some a ∧ dotted [] path = k := by
  rw [hget] at hk
  exact (mem_written h).mp (List.mem_reverse.mp (Dict.mem_of_get? hk))

/-- Every leaf puts something under its flat key. -/
lemma exists_get?_of_leafAt (h : DistinctItems t)
    (hget : ∀ k, Dict.get? k flat = Dict.get? k (written [] t).reverse)
    (hleaf : leafAt path t = some a) : ∃ b, Dict.get? (dotted [] path) flat = some b := by
  cases hk : Dict.get? (dotted [] path) flat with
  | some b => exact ⟨b, rfl⟩
  | none =>
    rw [hget, Dict.get?_eq_none_iff] at hk
    exact absurd (List.mem_map.mpr ⟨_, List.mem_reverse.mpr ((mem_written h).mpr ⟨path, hleaf, rfl⟩),
      rfl⟩) hk

/-- **There is one flat entry for each leaf** exactly where no two leaves spell the same. -/
lemma exact_iff (h : DistinctItems t) : Exact t ↔ SpeltApart (leafPaths t) := by
  obtain ⟨flat, hok, -, hget⟩ := flattenConfig_keyed t
  constructor
  · rintro ⟨flat, -, hentries⟩ path hpath path' hpath' heq
    exact hentries.apart path hpath path' hpath' ((dotted_inj (ne_nil_of_mem_leafPaths hpath)
      (ne_nil_of_mem_leafPaths hpath')).mpr heq)
  · intro hapart
    have hdotted : ∀ path ∈ leafPaths t, ∀ path' ∈ leafPaths t,
        dotted [] path = dotted [] path' → path = path' := fun path hpath path' hpath' heq =>
      hapart path hpath path' hpath' ((dotted_inj (ne_nil_of_mem_leafPaths hpath)
        (ne_nil_of_mem_leafPaths hpath')).mp heq)
    refine ⟨flat, hok, ⟨fun path a hleaf => ?_, fun k a => exists_leafAt_of_get? h hget, hdotted⟩⟩
    obtain ⟨b, hb⟩ := exists_get?_of_leafAt h hget hleaf
    obtain ⟨path', hleaf', hkey⟩ := exists_leafAt_of_get? h hget hb
    have hsame := hdotted path' ((mem_leafPaths h).mpr ⟨b, hleaf'⟩) path
      ((mem_leafPaths h).mpr ⟨a, hleaf⟩) hkey
    rw [hb, ← hleaf', hsame, hleaf]

/-- What flattening leaves, where its result is given. -/
lemma get?_of_flattenConfig (hok : flattenConfig (keyed t) = .ok flat) (k : Str) :
    Dict.get? k flat = Dict.get? k (written [] t).reverse := by
  obtain ⟨flat', hok', -, hget⟩ := flattenConfig_keyed t
  rw [hok, Except.ok.injEq] at hok'
  rw [hok', hget]

/-- The order of the paths does not matter. -/
lemma SpeltApart.swap {paths paths' : List (List Str)} (h : SpeltApart (paths ++ paths')) :
    SpeltApart (paths' ++ paths) := fun path hpath path' hpath' =>
  h path (List.mem_append.mpr (List.mem_append.mp hpath).symm) path'
    (List.mem_append.mpr (List.mem_append.mp hpath').symm)

/-- A leaf is one of every dictionary with the same flat one, if all paths are spelt apart. -/
lemma leafAt_of_sameFlat {t' : Table Str α} (h : DistinctItems t) (h' : DistinctItems t')
    {flat' : List (Str × α)} (hget : ∀ k, Dict.get? k flat = Dict.get? k (written [] t).reverse)
    (hget' : ∀ k, Dict.get? k flat' = Dict.get? k (written [] t').reverse)
    (hflat : ∀ k, Dict.get? k flat = Dict.get? k flat')
    (hapart : SpeltApart (leafPaths t ++ leafPaths t')) (hleaf : leafAt path t = some a) :
    leafAt path t' = some a := by
  have hpath : path ∈ leafPaths t := (mem_leafPaths h).mpr ⟨a, hleaf⟩
  have hne := ne_nil_of_mem_leafPaths hpath
  have hthis : ∀ path' ∈ leafPaths t ++ leafPaths t', dotted [] path' = dotted [] path →
      path' = path := by
    intro path' hpath' hkey
    refine hapart path' hpath' path (List.mem_append_left _ hpath) ((dotted_inj ?_ hne).mp hkey)
    rcases List.mem_append.mp hpath' with hpath' | hpath'
    · exact ne_nil_of_mem_leafPaths hpath'
    · exact ne_nil_of_mem_leafPaths hpath'
  obtain ⟨b, hb⟩ := exists_get?_of_leafAt h hget hleaf
  obtain ⟨path₁, hleaf₁, hkey₁⟩ := exists_leafAt_of_get? h hget hb
  obtain ⟨path₂, hleaf₂, hkey₂⟩ := exists_leafAt_of_get? h' hget' ((hflat _).symm.trans hb)
  have heq₁ := hthis path₁ (List.mem_append_left _ ((mem_leafPaths h).mpr ⟨b, hleaf₁⟩)) hkey₁
  have heq₂ := hthis path₂ (List.mem_append_right _ ((mem_leafPaths h').mpr ⟨b, hleaf₂⟩)) hkey₂
  rw [heq₁, hleaf] at hleaf₁
  rw [← heq₂, hleaf₂, hleaf₁]

/-- **A flat dictionary tells what it was made of**: of two dictionaries that become the same flat
one, each has one flat entry for each leaf and both are the same but for tables without leaves, if
and only if no two leaf paths in them spell the same.

**Proof sketch.** Where all leaf paths are spelt apart, a leaf of the one is the only leaf that can
have put its flat entry, in the other as well. -/
theorem flatten_reversible_iff {t t' : Table Str α} (h : DistinctItems t) (h' : DistinctItems t')
    (hsame : SameFlat t t') :
    (Exact t ∧ Exact t' ∧ Alike (pruneItems t) (pruneItems t')) ↔
      SpeltApart (leafPaths t ++ leafPaths t') := by
  rw [alike_pruneItems_iff h h', exact_iff h, exact_iff h']
  constructor
  · rintro ⟨hapart, -, hleaves⟩
    have hpaths : ∀ path, path ∈ leafPaths t' ↔ path ∈ leafPaths t := fun path => by
      rw [mem_leafPaths h, mem_leafPaths h', hleaves]
    intro path hpath path' hpath'
    rw [List.mem_append, hpaths, or_self] at hpath hpath'
    exact hapart path hpath path' hpath'
  · intro hapart
    refine ⟨fun path hpath path' hpath' => hapart path (List.mem_append_left _ hpath) path'
      (List.mem_append_left _ hpath'), fun path hpath path' hpath' => hapart path
      (List.mem_append_right _ hpath) path' (List.mem_append_right _ hpath'), ?_⟩
    obtain ⟨flat, flat', hok, hok', hflat⟩ := hsame
    have hget := get?_of_flattenConfig hok
    have hget' := get?_of_flattenConfig hok'
    intro path
    apply Option.ext
    intro a
    exact ⟨leafAt_of_sameFlat h h' hget hget' hflat hapart,
      leafAt_of_sameFlat h' h hget' hget (fun k => (hflat k).symm) hapart.swap⟩

/-- A key with a dot in it. -/
def dottedKey : Table Str ℕ :=
  [("wifi".toList, .table [("ssid".toList, .leaf 1)]), ("wifi.ssid".toList, .leaf 2)]

/-- **A key with a dot in it** overwrites a setting: two leaves, and one flat entry. -/
theorem not_exact_dottedKey :
    DistinctItems dottedKey ∧
    leafPaths dottedKey = [["wifi".toList, "ssid".toList], ["wifi.ssid".toList]] ∧
    flattenConfig (keyed dottedKey) = .ok [("wifi.ssid".toList, 2)] ∧
    ¬ ∀ t : Table Str ℕ, DistinctItems t → (∃ e, flattenConfig (keyed t) = .error e) ∨ Exact t := by
  have hdistinct : DistinctItems dottedKey := by
    simp [dottedKey, DistinctItems, Distinct]
  refine ⟨hdistinct, by decide, by decide +kernel, fun h => ?_⟩
  rcases h dottedKey hdistinct with ⟨e, he⟩ | hexact
  · obtain ⟨flat, hok, -⟩ := flattenConfig_keyed dottedKey
    rw [hok] at he
    cases he
  · exact absurd ((exact_iff hdistinct).mp hexact ["wifi".toList, "ssid".toList] (by decide)
      ["wifi.ssid".toList] (by decide) (by decide)) (by decide)

/-- Two sections, and the same with a table without leaves. -/
theorem flatten_reversible_sections :
    let t : Table Str ℕ := [("wifi".toList, .table [("ssid".toList, .leaf 1)]),
      ("debug".toList, .leaf 3)]
    let t' : Table Str ℕ := [("debug".toList, .leaf 3), ("mqtt".toList, .table []),
      ("wifi".toList, .table [("ssid".toList, .leaf 1)])]
    Exact t ∧ Exact t' ∧ Alike (pruneItems t) (pruneItems t') := by
  intro t t'
  have h : DistinctItems t := by simp [t, DistinctItems, Distinct]
  have h' : DistinctItems t' := by simp [t', DistinctItems, Distinct]
  have hsame : SameFlat t t' := by
    refine ⟨[("wifi.ssid".toList, 1), ("debug".toList, 3)],
      [("debug".toList, 3), ("wifi.ssid".toList, 1)], by decide +kernel, by decide +kernel, ?_⟩
    exact Dict.get?_perm (.swap _ _ _) (by decide)
  refine (flatten_reversible_iff h h' hsame).mpr ?_
  have hplain : ∀ path ∈ leafPaths t ++ leafPaths t', ∀ key ∈ path, Plain key := by
    simp only [Plain]
    decide
  intro path hpath path' hpath' heq
  rwa [segments_of_plain (hplain path hpath), segments_of_plain (hplain path' hpath')] at heq

end ChuMicro.Workspace
