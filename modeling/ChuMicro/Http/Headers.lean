import ChuMicro.Lib.LiveBuffer
import ChuMicro.Text

/-!
# Header maps

What `chumicro_requests/_wire.py` and `chumicro_http_server/_wire.py` have in common: the line
terminator, the header map `CaseInsensitiveDict` and the cut of a header line at its first colon.

The two fields of the map, a dict of entries and the list of its keys in insertion order, are one
list of entries here, whose keys are distinct.

## Main definitions

* `Http.CaseInsensitiveDict` — the header map, with `set`, `get` and `add`.
* `Http.splitHeader` — name and value of a header line.
* `Http.IsLine`, `Http.line` — text that fits on one line, and the line.
* `Http.HeaderOk`, `Http.headerLines` — headers that survive the wire, and their lines.

## Main results

* `Http.CaseInsensitiveDict.addAll_items` — adding the items of a map to an empty one gives the map
  back.
* `Http.splitHeader_line` — a header line is read as the header it was written for.
-/

namespace ChuMicro.Http

open Buffers

/-- `CRLF`. -/
def CRLF : List UInt8 := [13, 10]

/-! ## The map -/

/-- A map without entries has no name twice. -/
lemma nodup_keys_nil : (([] : List (Str × Str × Str)).map Prod.fst).Nodup := List.nodup_nil

/-- `CaseInsensitiveDict`: for each lower-case name the name as it was given and the value. -/
structure CaseInsensitiveDict where
  entries : List (Str × Str × Str) := []
  nodup : (entries.map Prod.fst).Nodup := by exact nodup_keys_nil
  deriving DecidableEq

namespace CaseInsensitiveDict

/-- Replace the entry of a key where it stands, or append one. -/
def setEntry (key : Str) (entry : Str × Str) : List (Str × Str × Str) → List (Str × Str × Str)
  | [] => [(key, entry)]
  | (k, e) :: rest => if k = key then (k, entry) :: rest else (k, e) :: setEntry key entry rest

/-- The keys after an entry is set. -/
lemma keys_setEntry (key : Str) (entry : Str × Str) (entries : List (Str × Str × Str)) :
    (setEntry key entry entries).map Prod.fst =
      if key ∈ entries.map Prod.fst then entries.map Prod.fst
      else entries.map Prod.fst ++ [key] := by
  induction entries with
  | nil => rfl
  | cons e rest ih =>
    obtain ⟨k, e⟩ := e
    rw [setEntry]
    by_cases hk : k = key
    · rw [if_pos hk, if_pos (by simp [hk])]
      rfl
    · have hiff : key ∈ ((k, e) :: rest).map Prod.fst ↔ key ∈ rest.map Prod.fst := by
        simp [Ne.symm hk]
      rw [if_neg hk, List.map_cons, ih]
      simp only [hiff]
      split_ifs <;> rfl

/-- A key that is not there is appended. -/
lemma setEntry_of_notMem {key : Str} {entries : List (Str × Str × Str)}
    (h : key ∉ entries.map Prod.fst) (entry : Str × Str) :
    setEntry key entry entries = entries ++ [(key, entry)] := by
  induction entries with
  | nil => rfl
  | cons e rest ih =>
    obtain ⟨k, e⟩ := e
    simp only [List.map_cons, List.mem_cons, not_or] at h
    rw [setEntry, if_neg (Ne.symm h.1), ih h.2]
    rfl

/-- `self._entries[key] = entry`, with the key appended to the order if it is new. -/
def setKey (d : CaseInsensitiveDict) (key : Str) (entry : Str × Str) : CaseInsensitiveDict where
  entries := setEntry key entry d.entries
  nodup := by
    rw [keys_setEntry]
    split_ifs with h
    · exact d.nodup
    · exact List.nodup_append.mpr ⟨d.nodup, List.pairwise_singleton _ key, by
        rintro a ha b hb rfl
        rw [List.mem_singleton.mp hb] at ha
        exact h ha⟩

/-- The entry of a key. -/
def find? (d : CaseInsensitiveDict) (key : Str) : Option (Str × Str) :=
  (d.entries.find? fun e => e.1 = key).map Prod.snd

/-- `self[name] = value`. -/
def set (lower : Str → Str) (d : CaseInsensitiveDict) (name value : Str) : CaseInsensitiveDict :=
  d.setKey (lower name) (name, value)

/-- `self.get(name)`. -/
def get (lower : Str → Str) (d : CaseInsensitiveDict) (name : Str) : Option Str :=
  (d.find? (lower name)).map Prod.snd

/-- `self.add(name, value)`: a repeated header is joined to the one that is there. -/
def add (lower : Str → Str) (d : CaseInsensitiveDict) (name value : Str) : CaseInsensitiveDict :=
  match d.find? (lower name) with
  | none => d.setKey (lower name) (name, value)
  | some (originalName, currentValue) =>
    d.setKey (lower name) (originalName, currentValue ++ ", ".toList ++ value)

/-- `self.items()`. -/
def items (d : CaseInsensitiveDict) : List (Str × Str) := d.entries.map Prod.snd

/-- Set several headers one after the other. -/
def setAll (lower : Str → Str) (d : CaseInsensitiveDict) (headers : List (Str × Str)) :
    CaseInsensitiveDict :=
  headers.foldl (fun d h => d.set lower h.1 h.2) d

/-- Every entry stands under the lower-case form of its name. -/
def Keyed (lower : Str → Str) (d : CaseInsensitiveDict) : Prop :=
  ∀ e ∈ d.entries, e.1 = lower e.2.1

section

variable {lower : Str → Str} {d : CaseInsensitiveDict}

/-- Two maps with the same entries are the same. -/
@[ext] lemma ext {d d' : CaseInsensitiveDict} (h : d.entries = d'.entries) : d = d' := by
  cases d
  cases d'
  cases h
  rfl

variable {key : Str} {entries : List (Str × Str × Str)} {headers : List (Str × Str)}

/-- A key without an entry is none of the keys. -/
lemma find?_eq_none : d.find? key = none ↔ key ∉ d.entries.map Prod.fst := by
  rw [find?, Option.map_eq_none_iff, List.find?_eq_none, List.mem_map]
  constructor
  · rintro h ⟨e, he, rfl⟩
    exact h e he (by simp)
  · intro h e he hkey
    exact h ⟨e, he, by simpa using hkey⟩

/-- A header that is not there yet is added at the end. -/
lemma add_of_notMem {name : Str} (value : Str)
    (h : lower name ∉ d.entries.map Prod.fst) :
    (d.add lower name value).entries = d.entries ++ [(lower name, name, value)] := by
  rw [add, find?_eq_none.mpr h]
  exact setEntry_of_notMem h _

/-- The entries after one is set are the old ones and the new one. -/
lemma mem_setEntry {entry : Str × Str} {e : Str × Str × Str} (h : e ∈ setEntry key entry entries) :
    e = (key, entry) ∨ e ∈ entries := by
  induction entries with
  | nil => exact .inl (by simpa [setEntry] using h)
  | cons e' rest ih =>
    obtain ⟨k, e'⟩ := e'
    rw [setEntry] at h
    split_ifs at h with hk
    · rcases List.mem_cons.mp h with rfl | h
      · exact .inl (by rw [hk])
      · exact .inr (List.mem_cons_of_mem _ h)
    · rcases List.mem_cons.mp h with rfl | h
      · exact .inr List.mem_cons_self
      · exact (ih h).imp_right (List.mem_cons_of_mem _)

/-- A map is not empty after a header is added. -/
lemma add_ne_nil (name value : Str) : (d.add lower name value).entries ≠ [] := by
  have hset : ∀ key entry entries, setEntry key entry entries ≠ [] := by
    intro key entry entries
    cases entries with
    | nil => simp [setEntry]
    | cons e rest =>
      rw [setEntry]
      split_ifs <;> simp
  unfold add
  split <;> exact hset _ _ _

/-- What an entry satisfies, every entry of the map satisfies after it is set. -/
lemma forall_set {P : Str × Str × Str → Prop} {name value : Str} (h : ∀ e ∈ d.entries, P e)
    (hnew : P (lower name, name, value)) : ∀ e ∈ (d.set lower name value).entries, P e := by
  intro e he
  rcases mem_setEntry he with rfl | he
  · exact hnew
  · exact h e he

/-- What all old and all new entries satisfy, every entry satisfies. -/
lemma forall_setAll {P : Str × Str × Str → Prop} (h : ∀ e ∈ d.entries, P e)
    (hnew : ∀ p ∈ headers, P (lower p.1, p.1, p.2)) :
    ∀ e ∈ (d.setAll lower headers).entries, P e := by
  induction headers generalizing d with
  | nil => exact h
  | cons p headers ih =>
    exact ih (forall_set h (hnew p List.mem_cons_self)) fun q hq =>
      hnew q (List.mem_cons_of_mem p hq)

/-- The entry that was set is found, and the others are found as before. -/
lemma find?_setKey (d : CaseInsensitiveDict) (key key' : Str) (entry : Str × Str) :
    (d.setKey key entry).find? key' = if key' = key then some entry else d.find? key' := by
  have hfind : ∀ entries : List (Str × Str × Str),
      ((setEntry key entry entries).find? fun e => e.1 = key').map Prod.snd =
        if key' = key then some entry else (entries.find? fun e => e.1 = key').map Prod.snd := by
    intro entries
    induction entries with
    | nil => by_cases h : key' = key <;> simp [setEntry, h, Ne.symm]
    | cons e entries ih =>
      obtain ⟨k, e⟩ := e
      rw [setEntry]
      by_cases hk : k = key
      · rw [if_pos hk, List.find?_cons, List.find?_cons, hk]
        by_cases h : key = key'
        · simp [h]
        · simp [h, Ne.symm h]
      · rw [if_neg hk, List.find?_cons, List.find?_cons]
        by_cases h : k = key'
        · have hne : key' ≠ key := fun h' => hk (h.trans h')
          simp [h, hne]
        · simpa [h] using ih
  exact hfind d.entries

/-- Headers with other names do not change what is found. -/
lemma find?_setAll (h : ∀ p ∈ headers, lower p.1 ≠ key) :
    (d.setAll lower headers).find? key = d.find? key := by
  induction headers generalizing d with
  | nil => rfl
  | cons p headers ih =>
    have hp : key ≠ lower p.1 := Ne.symm (h p List.mem_cons_self)
    have hrest := ih (d := d.set lower p.1 p.2) fun q hq => h q (List.mem_cons_of_mem p hq)
    rw [set, find?_setKey, if_neg hp] at hrest
    exact hrest

/-- **Adding the items of a map gives the map back.**

**Proof sketch.** Induction on the entries that are left; the ones before them have other keys, so
each item is appended. -/
lemma addAll_entries {acc : CaseInsensitiveDict} (hkeyed : ∀ e ∈ entries, e.1 = lower e.2.1)
    (hnodup : ((acc.entries ++ entries).map Prod.fst).Nodup) :
    (entries.foldl (fun d e => d.add lower e.2.1 e.2.2) acc).entries = acc.entries ++ entries := by
  induction entries generalizing acc with
  | nil => simp
  | cons e entries ih =>
    have hkey : e.1 = lower e.2.1 := hkeyed e List.mem_cons_self
    have hnew : lower e.2.1 ∉ acc.entries.map Prod.fst := by
      intro hmem
      rw [List.map_append, List.nodup_append] at hnodup
      exact hnodup.2.2 _ hmem _ (by simp [hkey]) rfl
    have hadd := add_of_notMem e.2.2 hnew
    have he : (lower e.2.1, e.2.1, e.2.2) = e := by rw [← hkey]
    rw [he] at hadd
    rw [List.foldl_cons, ih (fun f hf => hkeyed f (List.mem_cons_of_mem e hf))
      (by rw [hadd, List.append_assoc]; exact hnodup), hadd, List.append_assoc]
    rfl

/-- The same for a whole map and an empty one. -/
theorem addAll_items (h : d.Keyed lower) :
    d.items.foldl (fun acc p => acc.add lower p.1 p.2) {} = d := by
  apply ext
  rw [items, List.foldl_map, addAll_entries h (by simpa using d.nodup)]
  rfl

/-- **Setting the items of a map gives the map back**, with what is done to the values on the way.

**Proof sketch.** Induction on the entries that are left, as for adding them. -/
lemma setAll_entries (f : Str → Str) {c : CaseInsensitiveDict}
    (hkeyed : ∀ e ∈ entries, e.1 = lower e.2.1)
    (hnodup : ((c.entries ++ entries).map Prod.fst).Nodup) :
    (c.setAll lower (entries.map fun e => (e.2.1, f e.2.2))).entries =
      c.entries ++ entries.map fun e => (e.1, e.2.1, f e.2.2) := by
  induction entries generalizing c with
  | nil => simp [setAll]
  | cons e entries ih =>
    have hkey : e.1 = lower e.2.1 := hkeyed e List.mem_cons_self
    have hnew : lower e.2.1 ∉ c.entries.map Prod.fst := by
      intro hmem
      rw [List.map_append, List.nodup_append] at hnodup
      exact hnodup.2.2 _ hmem _ (by simp [hkey]) rfl
    have hset : (c.set lower e.2.1 (f e.2.2)).entries =
        c.entries ++ [(lower e.2.1, e.2.1, f e.2.2)] := setEntry_of_notMem hnew _
    have hrest := ih (c := c.set lower e.2.1 (f e.2.2))
      (fun e' he' => hkeyed e' (List.mem_cons_of_mem e he'))
      (by rw [hset, ← hkey]; simpa using hnodup)
    rw [setAll] at hrest ⊢
    rw [List.map_cons, List.foldl_cons, hrest, hset, ← hkey, List.append_assoc]
    rfl

/-- What is found in a map whose items were set with stripped values. -/
lemma find?_setAll_items (h : d.Keyed lower) (f : Str → Str) (key : Str) :
    (({} : CaseInsensitiveDict).setAll lower (d.items.map fun p => (p.1, f p.2))).find? key =
      (d.find? key).map fun p => (p.1, f p.2) := by
  have hitems : (d.items.map fun p => (p.1, f p.2)) = d.entries.map fun e => (e.2.1, f e.2.2) := by
    rw [items, List.map_map]
    rfl
  rw [find?, hitems, setAll_entries f h (by simpa using d.nodup), List.nil_append, find?,
    List.find?_map, Option.map_map, Option.map_map]
  rfl

/-- **A header that is set is found**, if no other has its name. -/
lemma find?_setAll_of_mem {p : Str × Str} (hnodup : (headers.map fun p => lower p.1).Nodup)
    (hp : p ∈ headers) : (d.setAll lower headers).find? (lower p.1) = some p := by
  obtain ⟨before, behind, rfl⟩ := List.append_of_mem hp
  have hbehind : ∀ q ∈ behind, lower q.1 ≠ lower p.1 := by
    intro q hq heq
    rw [List.map_append, List.map_cons] at hnodup
    have hnotMem := (List.nodup_cons.mp (List.nodup_append.mp hnodup).2.1).1
    exact hnotMem (heq ▸ List.mem_map_of_mem (f := fun p => lower p.1) hq)
  have hsplit : d.setAll lower (before ++ p :: behind) =
      ((d.setAll lower before).set lower p.1 p.2).setAll lower behind := by
    simp only [setAll, List.foldl_append, List.foldl_cons]
  rw [hsplit, find?_setAll hbehind, set, find?_setKey, if_pos rfl]

end

end CaseInsensitiveDict

/-! ## Header lines -/

/-- Name and value of a header line: the text before its first colon, and the stripped text behind
it. A line without a colon or with nothing before it is refused. -/
def splitHeader (text : Str) : Option (Str × Str) :=
  match findSlice [':'] text with
  | some (n + 1) => some (text.take (n + 1), strip (text.drop (n + 2)))
  | _ => none

/-- **A header line is read as the header it was written for.** -/
theorem splitHeader_line {name value : Str} (hname : name ≠ []) (hcolon : ':' ∉ name) :
    splitHeader (name ++ ": ".toList ++ value) = some (name, strip value) := by
  have hfind : findSlice [':'] (name ++ ": ".toList ++ value) = some name.length := by
    rw [List.append_assoc]
    exact findSlice_singleton_append hcolon (' ' :: value)
  obtain ⟨n, hn⟩ := Nat.exists_eq_succ_of_ne_zero (List.length_pos_of_ne_nil hname).ne'
  have hdrop : (name ++ ": ".toList ++ value).drop (n + 2) = ' ' :: value := by
    rw [List.append_assoc, show n + 2 = name.length + 1 by omega, ← List.drop_drop, List.drop_left]
    rfl
  rw [splitHeader, hfind, hn]
  dsimp only
  rw [hdrop, strip_cons (by decide), ← Nat.succ_eq_add_one, ← hn, List.append_assoc, List.take_left]

/-! ## Lines -/

/-- Text that fits on one line. -/
def IsLine (text : Str) : Prop := ∀ c ∈ text, c.toNat < 128 ∧ c ≠ '\r' ∧ c ≠ '\n'

/-- A line as bytes, with its terminator. -/
def line (text : Str) : List UInt8 := text.map asciiByte ++ CRLF

section Line

variable {text text' : Str}

lemma IsLine.isAscii (h : IsLine text) : IsAscii text := fun c hc => (h c hc).1

/-- Two parts of a line are a line. -/
lemma IsLine.append (h : IsLine text) (h' : IsLine text') : IsLine (text ++ text') := by
  intro c hc
  rcases List.mem_append.mp hc with hc | hc
  · exact h c hc
  · exact h' c hc

@[simp] lemma length_line (text : Str) : (line text).length = text.length + 2 := by
  simp [line, CRLF]

/-- **The end of a line is found.** -/
lemma findSlice_line (h : IsLine text) (rest : List UInt8) :
    findSlice CRLF (line text ++ rest) = some text.length := by
  have hcr : asciiByte '\r' ∉ text.map asciiByte :=
    asciiByte_notMem h.isAscii (by decide) fun hmem => (h _ hmem).2.1 rfl
  have hfind := findSlice_pair_line (b := (10 : UInt8)) hcr rest
  rw [List.length_map] at hfind
  rw [line, List.append_assoc]
  exact hfind

/-- What stands before the end of a line is its text. -/
lemma take_line (text : Str) (rest : List UInt8) :
    (line text ++ rest).take text.length = text.map asciiByte := by
  rw [line, List.append_assoc]
  exact List.take_left' (List.length_map _)

/-- What stands behind the end of a line comes next. -/
lemma drop_line (text : Str) (rest : List UInt8) :
    (line text ++ rest).drop (text.length + 2) = rest :=
  List.drop_left' (length_line text)

end Line

/-- The text of a header line. -/
def headerText (p : Str × Str) : Str := p.1 ++ ": ".toList ++ p.2

/-- The lines of some headers. -/
def headerLines (headers : List (Str × Str)) : List UInt8 :=
  headers.flatMap fun p => line (headerText p)

/-- A header whose line is read as it was written. -/
structure HeaderOk (p : Str × Str) : Prop where
  ne_nil : p.1 ≠ []
  notMem_colon : ':' ∉ p.1
  strip_eq : strip p.2 = p.2
  isLine_name : IsLine p.1
  isLine_value : IsLine p.2

namespace HeaderOk

variable {p : Str × Str}

/-- The text of the header fits on one line. -/
lemma isLine (h : HeaderOk p) : IsLine (headerText p) :=
  (h.isLine_name.append (by unfold IsLine; decide)).append h.isLine_value

/-- The text is that of no blank line. -/
lemma length_pos (h : HeaderOk p) : 0 < (headerText p).length := by
  have hpos := List.length_pos_of_ne_nil h.ne_nil
  simp only [headerText, List.length_append]
  omega

/-- The text is read as the header. -/
lemma splitHeader_headerText (h : HeaderOk p) : splitHeader (headerText p) = some p := by
  rw [headerText, splitHeader_line h.ne_nil h.notMem_colon, h.strip_eq]

end HeaderOk

end ChuMicro.Http
