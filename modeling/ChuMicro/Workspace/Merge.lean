import ChuMicro.Workspace.Flatten

/-!
# Merging runtime configurations

`merge_configs` of `chumicro_workspace/merge.py`: tables are merged key by key at every depth and a
later source wins, and what a later source has in the place of a table replaces it whole. So a leaf
of the merged configuration is the one of the last source that has a leaf there, as long as no
source has a table where another has a leaf; and flattening, which comes next in the pipeline, may
as well come first.

## Main definitions

* `Workspace.mergeConfigs` — `merge_configs`.
* `Workspace.Clash` — a path at which one configuration has a leaf and another a table.

## Main results

* `Workspace.leafAt_merged` — the last source that has a leaf at a path wins.
* `Workspace.flatten_mergeConfigs` — merging then flattening is flattening then updating.
-/

namespace ChuMicro.Workspace

open Nested

/-! ## The code -/

section Code

variable {κ α : Type} [DecidableEq κ]

mutual

/-- The body of the loop of `_merge_two`: two tables are merged, and anything else is replaced. -/
def mergeValue (old : Option (Nested κ α)) : Nested κ α → Nested κ α
  | .leaf value => .leaf value
  | .table override =>
    match old with
    | some (.table base) => .table (mergeTwo base override)
    | some (.leaf _) => .table override
    | none => .table override

/-- `_merge_two`; the copy of the base is its value. -/
def mergeTwo (result : Table κ α) : Table κ α → Table κ α
  | [] => result
  | (key, overrideValue) :: rest =>
    mergeTwo (Dict.set key (mergeValue (Dict.get? key result) overrideValue) result) rest

end

/-- `merge_configs`. -/
def mergeConfigs (sources : List (Table κ α)) : Except PyExn (Table κ α) :=
  if sources = [] then .error (.valueError "merge_configs requires at least one source dict")
  else .ok (sources.foldl mergeTwo [])

/-! ## Two sources -/

section Two

variable {base override : Table κ α}

/-- A value whose key is new. -/
@[simp] lemma mergeValue_none (value : Nested κ α) : mergeValue none value = value := by
  cases value <;> rfl

/-- A leaf replaces what there is. -/
@[simp] lemma mergeValue_leaf (old : Option (Nested κ α)) (a : α) :
    mergeValue old (.leaf a) = .leaf a := rfl

/-- What a merged table has at a key. -/
lemma get?_mergeTwo (base : Table κ α) (hoverride : (override.map Prod.fst).Nodup) (key : κ) :
    Dict.get? key (mergeTwo base override) =
      ((Dict.get? key override).map (mergeValue (Dict.get? key base))).or (Dict.get? key base) := by
  induction override generalizing base with
  | nil => rfl
  | cons entry rest ih =>
    obtain ⟨first, value⟩ := entry
    obtain ⟨hfirst, hrest⟩ := List.nodup_cons.mp hoverride
    rw [mergeTwo, ih _ hrest]
    by_cases hkey : first = key
    · subst hkey
      rw [Dict.get?_eq_none_iff.mpr hfirst, Dict.get?_cons, if_pos rfl, Dict.get?_set_self]
      rfl
    · rw [Dict.get?_cons, if_neg hkey, Dict.get?_set_of_ne hkey]

/-- A merged table has distinct keys where both have. -/
lemma distinct_mergeTwo (override : Table κ α) {base : Table κ α} (hbase : DistinctItems base)
    (hoverride : DistinctItems override) : DistinctItems (mergeTwo base override) := by
  induction override using Nested.induction generalizing base with
  | nil => exact hbase
  | leaf key a rest ih =>
    rw [mergeTwo, mergeValue_leaf]
    exact ih (hbase.set key trivial) hoverride.2.2
  | table key items rest ihitems ihrest =>
    obtain ⟨-, hitems, hrest⟩ := hoverride
    refine ihrest (hbase.set key ?_) hrest
    cases hold : Dict.get? key base with
    | none => exact hitems
    | some v =>
      cases v with
      | leaf a => exact hitems
      | table old => exact ihitems (hbase.of_get? hold) hitems

/-- One source has a leaf where the other has a table. -/
def Clash (s s' : Table κ α) : Prop :=
  ∃ path a items, at? path (.table s) = some (.leaf a) ∧ at? path (.table s') = some (.table items)

/-- What is at a path of a merged table is of a kind that one of the two has there.

**Proof sketch.** Induction on the path. Only two tables are merged, and then the rest of the path
leads into their merge. -/
lemma kind_mergeTwo (path : List κ) (base : Table κ α) {override : Table κ α}
    (hoverride : DistinctItems override) :
    (∀ a, at? path (.table (mergeTwo base override)) = some (.leaf a) →
      at? path (.table base) = some (.leaf a) ∨ at? path (.table override) = some (.leaf a)) ∧
    ∀ items, at? path (.table (mergeTwo base override)) = some (.table items) →
      (∃ items, at? path (.table base) = some (.table items)) ∨
        ∃ items, at? path (.table override) = some (.table items) := by
  induction path generalizing base override with
  | nil => exact ⟨nofun, fun _ _ => .inl ⟨base, rfl⟩⟩
  | cons key path ih =>
    have hget := get?_mergeTwo base hoverride.nodup key
    simp only [at?, hget]
    cases hover : Dict.get? key override with
    | none => exact ⟨fun a h => .inl h, fun items h => .inl ⟨items, h⟩⟩
    | some value =>
      have hvalue := hoverride.of_get? hover
      cases hold : Dict.get? key base with
      | none =>
        simp only [Option.map_some, mergeValue_none]
        exact ⟨fun a h => .inr h, fun items h => .inr ⟨items, h⟩⟩
      | some old =>
        cases value with
        | leaf b =>
          simp only [Option.map_some, mergeValue_leaf]
          exact ⟨fun a h => .inr h, fun items h => .inr ⟨items, h⟩⟩
        | table items =>
          cases old with
          | leaf b => exact ⟨fun a h => .inr h, fun items h => .inr ⟨items, h⟩⟩
          | table olds => exact ih olds hvalue

/-- **The later source wins**, where no path is a table in one and a leaf in the other. -/
lemma leafAt_mergeTwo (path : List κ) {base override : Table κ α}
    (hoverride : DistinctItems override) (hclash : ¬ Clash base override)
    (hclash' : ¬ Clash override base) :
    leafAt path (mergeTwo base override) = (leafAt path override).or (leafAt path base) := by
  induction path generalizing base override with
  | nil => rfl
  | cons key path ih =>
    have hget := get?_mergeTwo base hoverride.nodup key
    rw [leafAt_cons, leafAt_cons, leafAt_cons, hget]
    cases hover : Dict.get? key override with
    | none => rfl
    | some value =>
      cases hold : Dict.get? key base with
      | none =>
        rw [Option.map_some, mergeValue_none]
        exact (Option.or_none).symm
      | some old =>
        cases value with
        | leaf b =>
          cases path with
          | nil => cases old <;> rfl
          | cons next path =>
            cases old with
            | leaf c => rfl
            | table olds => exact absurd ⟨[key], b, olds, by simp [hover], by simp [hold]⟩ hclash'
        | table items =>
          cases old with
          | leaf c => exact absurd ⟨[key], c, items, by simp [hold], by simp [hover]⟩ hclash
          | table olds =>
            refine ih (hoverride.of_get? hover) ?_ ?_
            · rintro ⟨p, a, its, hleaf, htable⟩
              exact hclash ⟨key :: p, a, its, by simp [hold, hleaf], by simp [hover, htable]⟩
            · rintro ⟨p, a, its, hleaf, htable⟩
              exact hclash' ⟨key :: p, a, its, by simp [hover, hleaf], by simp [hold, htable]⟩

end Two

/-! ## Several sources -/

/-- What the last source that has something has. -/
def lastOf {ι : Type} (f : ι → Option α) (sources : List ι) (found : Option α) : Option α :=
  sources.foldl (fun found source => (f source).or found) found

/-- What the last source has is something that a source has. -/
lemma exists_of_lastOf {ι : Type} {f : ι → Option α} {sources : List ι} {found : Option α} {a : α}
    (h : lastOf f sources found = some a) : found = some a ∨ ∃ s ∈ sources, f s = some a := by
  induction sources generalizing found with
  | nil => exact .inl h
  | cons source rest ih =>
    obtain h | ⟨s, hs, hleaf⟩ := ih h
    · obtain h | ⟨-, h⟩ := Option.or_eq_some_iff.mp h
      · exact .inr ⟨source, List.mem_cons_self, h⟩
      · exact .inl h
    · exact .inr ⟨s, List.mem_cons_of_mem _ hs, hleaf⟩

/-- **What has been merged, source by source**: it has distinct keys, every leaf of it is a leaf of
one of the sources, and the last leaf at a path wins.

**Proof sketch.** Induction on the sources. What has been merged clashes with none of those to come,
since what it has at a path is of a kind that a source before has there. -/
lemma foldl_mergeTwo (sources : List (Table κ α)) (merged : Table κ α)
    (hmerged : DistinctItems merged) (hdistinct : ∀ s ∈ sources, DistinctItems s)
    (hclash : ∀ s ∈ merged :: sources, ∀ s' ∈ merged :: sources, ¬ Clash s s') :
    DistinctItems (sources.foldl mergeTwo merged) ∧
      ∀ path, leafAt path (sources.foldl mergeTwo merged) =
        lastOf (leafAt path) sources (leafAt path merged) := by
  induction sources generalizing merged with
  | nil => exact ⟨hmerged, fun _ => rfl⟩
  | cons source rest ih =>
    have hsource := hdistinct source List.mem_cons_self
    have hkind := fun path => kind_mergeTwo path merged hsource
    have hleft : ∀ s ∈ merged :: source :: rest, ¬ Clash (mergeTwo merged source) s := by
      rintro s hs ⟨path, a, items, hleaf, htable⟩
      obtain hleaf | hleaf := (hkind path).1 a hleaf
      · exact hclash merged List.mem_cons_self s hs ⟨path, a, items, hleaf, htable⟩
      · exact hclash source (by simp) s hs ⟨path, a, items, hleaf, htable⟩
    have hright : ∀ s ∈ merged :: source :: rest, ¬ Clash s (mergeTwo merged source) := by
      rintro s hs ⟨path, a, items, hleaf, htable⟩
      obtain ⟨items, htable⟩ | ⟨items, htable⟩ := (hkind path).2 items htable
      · exact hclash s hs merged List.mem_cons_self ⟨path, a, items, hleaf, htable⟩
      · exact hclash s hs source (by simp) ⟨path, a, items, hleaf, htable⟩
    have hself : ¬ Clash (mergeTwo merged source) (mergeTwo merged source) := by
      rintro ⟨path, a, items, hleaf, htable⟩
      rw [hleaf] at htable
      cases htable
    have hstep : ∀ path, leafAt path (mergeTwo merged source) =
        (leafAt path source).or (leafAt path merged) := fun path =>
      leafAt_mergeTwo path hsource (hclash _ List.mem_cons_self _ (by simp))
        (hclash _ (by simp) _ List.mem_cons_self)
    obtain ⟨hdone, hleaves⟩ := ih _ (distinct_mergeTwo source hmerged hsource)
      (fun s hs => hdistinct s (List.mem_cons_of_mem _ hs)) (by
        intro s hs s' hs'
        obtain rfl | hs := List.mem_cons.mp hs
        · obtain rfl | hs' := List.mem_cons.mp hs'
          · exact hself
          · exact hleft s' (by simp [hs'])
        · obtain rfl | hs' := List.mem_cons.mp hs'
          · exact hright s (by simp [hs])
          · exact hclash s (by simp [hs]) s' (by simp [hs']))
    exact ⟨hdone, fun path => by rw [List.foldl_cons, hleaves, hstep]; rfl⟩

/-- **The last source that has a leaf at a path wins**, where no source has a table in the place of
another's leaf. -/
theorem leafAt_merged {sources : List (Table κ α)} (hdistinct : ∀ s ∈ sources, DistinctItems s)
    (hclash : ∀ s ∈ sources, ∀ s' ∈ sources, ¬ Clash s s') :
    DistinctItems (sources.foldl mergeTwo []) ∧
      ∀ path, leafAt path (sources.foldl mergeTwo []) = lastOf (leafAt path) sources none := by
  have hleft : ∀ s : Table κ α, ¬ Clash [] s := by
    rintro s ⟨path, a, items, hleaf, -⟩
    cases path <;> simp at hleaf
  have hright : ∀ s : Table κ α, ¬ Clash s [] := by
    rintro s ⟨path, a, items, hleaf, htable⟩
    cases path with
    | nil => simp at hleaf
    | cons key path => simp at htable
  obtain ⟨hdone, hleaves⟩ := foldl_mergeTwo sources [] trivial hdistinct (by
    intro s hs s' hs'
    obtain rfl | hs := List.mem_cons.mp hs
    · exact hleft s'
    · obtain rfl | hs' := List.mem_cons.mp hs'
      · exact hright s
      · exact hclash s hs s' hs')
  refine ⟨hdone, fun path => ?_⟩
  rw [hleaves, show leafAt path ([] : Table κ α) = none by cases path <;> rfl]

end Code

/-! ## Flattening first -/

section Flatten

variable {α : Type}

/-- The flat key of a path, which no leaf at another path has, leads to the leaf at the path. -/
lemma get?_dotted {t : Table Str α} (h : DistinctItems t) {path : List Str}
    (hapart : ∀ path' ∈ leafPaths t, dotted [] path' = dotted [] path → path' = path) :
    Dict.get? (dotted [] path) (written [] t).reverse = leafAt path t := by
  have hthis : ∀ a, Dict.get? (dotted [] path) (written [] t).reverse = some a →
      leafAt path t = some a := by
    intro a ha
    obtain ⟨path', hleaf, hkey⟩ := exists_leafAt_of_get? h (fun _ => rfl) ha
    rwa [hapart path' ((mem_leafPaths h).mpr ⟨a, hleaf⟩) hkey] at hleaf
  cases hget : Dict.get? (dotted [] path) (written [] t).reverse with
  | some a => exact (hthis a hget).symm
  | none =>
    cases hleaf : leafAt path t with
    | none => rfl
    | some a =>
      obtain ⟨b, hb⟩ := exists_get?_of_leafAt h (fun _ => rfl) hleaf
      rw [hget] at hb
      cases hb

/-- The flattened configurations, and the left-to-right update of them. -/
lemma exists_flats (sources : List (Table Str α)) :
    ∃ flats, sources.mapM (fun source => flattenConfig (keyed source)) = .ok flats ∧
      ∀ base k, Dict.get? k (flats.foldl Dict.update base) =
        lastOf (fun s => Dict.get? k (written [] s).reverse) sources (Dict.get? k base) := by
  induction sources with
  | nil => exact ⟨[], rfl, fun _ _ => rfl⟩
  | cons source rest ih =>
    obtain ⟨flats, hflats, hget⟩ := ih
    obtain ⟨flat, hflat, hnodup, hgetFlat⟩ := flattenConfig_keyed source
    refine ⟨flat :: flats, ?_, fun base k => ?_⟩
    · rw [List.mapM_cons, hflat, hflats]
      rfl
    · rw [List.foldl_cons, hget, Dict.get?_update, Dict.get?_reverse hnodup, hgetFlat]
      rfl

/-- **Merging then flattening is flattening then updating**: for every non-empty list of
configurations, in which no path is a table in one and a leaf in another and no two leaf paths spell
the same flat key, the merged configuration flattens to the same mapping as the left-to-right update
of the flattened ones.

**Proof sketch.** A flat key is the key of one leaf path at most, and at that path both have the
leaf of the last source that has one. -/
theorem flatten_mergeConfigs {sources : List (Table Str α)} (hne : sources ≠ [])
    (hdistinct : ∀ s ∈ sources, DistinctItems s)
    (hclash : ∀ s ∈ sources, ∀ s' ∈ sources, ¬ Clash s s')
    (hapart : SpeltApart (sources.flatMap leafPaths)) :
    ∃ merged flat flats, mergeConfigs sources = .ok merged ∧
      flattenConfig (keyed merged) = .ok flat ∧
      sources.mapM (fun source => flattenConfig (keyed source)) = .ok flats ∧
      ∀ k, Dict.get? k flat = Dict.get? k (flats.foldl Dict.update []) := by
  obtain ⟨hmerged, hleaves⟩ := leafAt_merged hdistinct hclash
  obtain ⟨flat, hflat, -, hget⟩ := flattenConfig_keyed (sources.foldl mergeTwo [])
  obtain ⟨flats, hflats, hgetFlats⟩ := exists_flats sources
  refine ⟨_, flat, flats, if_neg hne, hflat, hflats, fun k => ?_⟩
  rw [hget, hgetFlats]
  have hsource : ∀ s ∈ sources, ∀ path ∈ leafPaths s, path ∈ sources.flatMap leafPaths :=
    fun s hs path hpath => List.mem_flatMap.mpr ⟨s, hs, hpath⟩
  have hunion : ∀ path ∈ leafPaths (sources.foldl mergeTwo []),
      path ∈ sources.flatMap leafPaths := by
    intro path hpath
    obtain ⟨a, ha⟩ := (mem_leafPaths hmerged).mp hpath
    obtain h | ⟨s, hs, hleaf⟩ := exists_of_lastOf ((hleaves path).symm.trans ha)
    · cases h
    · exact hsource s hs path ((mem_leafPaths (hdistinct s hs)).mpr ⟨a, hleaf⟩)
  have hnil : ∀ path ∈ sources.flatMap leafPaths, path ≠ [] := by
    intro path hpath
    obtain ⟨s, -, hpath⟩ := List.mem_flatMap.mp hpath
    exact ne_nil_of_mem_leafPaths hpath
  by_cases hk : ∃ path ∈ sources.flatMap leafPaths, dotted [] path = k
  · obtain ⟨path, hpath, rfl⟩ := hk
    have hone : ∀ path' ∈ sources.flatMap leafPaths, dotted [] path' = dotted [] path →
        path' = path := fun path' hpath' hkey =>
      hapart path' hpath' path hpath ((dotted_inj (hnil _ hpath') (hnil _ hpath)).mp hkey)
    rw [get?_dotted hmerged fun path' hpath' => hone path' (hunion path' hpath'), hleaves]
    refine (List.foldl_ext _ _ _ fun found s hs => ?_).symm
    have hsame := get?_dotted (hdistinct s hs) fun path' hpath' =>
      hone path' (hsource s hs path' hpath')
    exact congrArg (fun value => value.or found) hsame
  · -- No leaf has the key.
    have hnone : ∀ t : Table Str α, DistinctItems t →
        (∀ path ∈ leafPaths t, path ∈ sources.flatMap leafPaths) → ∀ a,
        Dict.get? k (written [] t).reverse ≠ some a := by
      intro t ht hpaths a ha
      obtain ⟨path, hleaf, hkey⟩ := exists_leafAt_of_get? ht (fun _ => rfl) ha
      exact hk ⟨path, hpaths path ((mem_leafPaths ht).mpr ⟨a, hleaf⟩), hkey⟩
    rw [Option.eq_none_iff_forall_ne_some.mpr (hnone _ hmerged hunion)]
    refine (Option.eq_none_iff_forall_ne_some.mpr fun a ha => ?_).symm
    obtain h | ⟨s, hs, h⟩ := exists_of_lastOf ha
    · cases h
    · exact hnone s (hdistinct s hs) (hsource s hs) a h

/-- A secret that the project overrides, and one that it keeps. -/
theorem flatten_mergeConfigs_project :
    let secrets : Table Str ℕ :=
      [("wifi".toList, .table [("ssid".toList, .leaf 1), ("password".toList, .leaf 2)])]
    let project : Table Str ℕ :=
      [("mqtt".toList, .table [("port".toList, .leaf 3)]),
        ("wifi".toList, .table [("ssid".toList, .leaf 4)])]
    ∃ merged flat flats, mergeConfigs [secrets, project] = .ok merged ∧
      flattenConfig (keyed merged) = .ok flat ∧
      [secrets, project].mapM (fun source => flattenConfig (keyed source)) = .ok flats ∧
      ∀ k, Dict.get? k flat = Dict.get? k (flats.foldl Dict.update []) := by
  intro secrets project
  have hdistinct : ∀ s ∈ [secrets, project], DistinctItems s := by
    simp [secrets, project, DistinctItems, Distinct]
  refine flatten_mergeConfigs (by simp) hdistinct ?_ ?_
  · have hleaves : ∀ s ∈ [secrets, project], ∀ s' ∈ [secrets, project], ∀ path ∈ leafPaths s,
        (at? path (.table s')).isNone ∨ (leafAt path s').isSome := by decide
    rintro s hs s' hs' ⟨path, a, items, hleaf, htable⟩
    have hpath := (mem_leafPaths (hdistinct s hs)).mpr ⟨a, leafAt_eq_some_iff.mpr hleaf⟩
    have hnone := hleaves s hs s' hs' path hpath
    rw [leafAt, htable] at hnone
    exact absurd hnone (by simp)
  · have hplain : ∀ path ∈ [secrets, project].flatMap leafPaths, ∀ key ∈ path, Plain key := by
      simp only [Plain]
      decide
    intro path hpath path' hpath' heq
    rwa [segments_of_plain (hplain path hpath), segments_of_plain (hplain path' hpath')] at heq

end Flatten

end ChuMicro.Workspace
