import ChuMicro.Lib.Ieee754Exact
import ChuMicro.Msgpack.WireForm

/-!
# Re-encoding what was read

The decoder accepts forms the encoder never writes: wide integers, long length prefixes, maps that
name a key twice. Whatever it returns, the encoder writes again, in at most as many bytes as were
read, and the second reading returns the same value.

The statement is proved along the recursion of the decoder. What one level contributes is
`Reads.reencodes` and `Reads.faithful`, under the same facts about the level below.

## Main definitions

* `Msgpack.PyVal.nanFree` — no float in the value is a NaN.
* `Msgpack.Reencodes` — the encoder writes the value in a given number of bytes.
* `Msgpack.Faithful` — the value is its own normal form and readable.

## Main results

* `Msgpack.decodeLevels_reencodes` — what was read is written in at most the bytes read.
* `Msgpack.packb_unpackb` — re-encoding is possible, loses nothing and never grows.
-/

namespace ChuMicro.Msgpack

open Bytes

/-! ## Scalars -/

/-- The number of bytes `encodeInt` takes for an integer it accepts. -/
def intWidth (value : ℤ) : ℕ :=
  if -32 ≤ value ∧ value ≤ 0x7f then 1
  else if -128 ≤ value ∧ value ≤ 0xff then 2
  else if -32768 ≤ value ∧ value ≤ 0xffff then 3
  else 5

/-- An integer in the range of the decoder is written, in the least width that holds it. -/
lemma encodeInt_of_range {value : ℤ} (hlow : -2147483648 ≤ value) (hhigh : value ≤ 0xffffffff) :
    ∃ c, encodeInt value = .ok c ∧ c.length = intWidth value := by
  unfold encodeInt intWidth
  split_ifs
  all_goals first
    | omega
    | exact ⟨_, rfl, rfl⟩
    | skip
  all_goals
    simp only [pack, packSigned]
    rw [if_pos (by norm_num; omega)]
    exact ⟨_, rfl, by simp⟩

/-- A length below `2 ^ 16` is written in one, two or three bytes, the fewest that its forms
allow. -/
lemma encodeLength_of_le (forms : LengthForms) (tooLong : String) {length : ℕ}
    (h : length ≤ 0xffff) :
    ∃ head, encodeLength forms length tooLong = .ok head ∧ head.length ≤ 3 ∧
      (forms.mid.isSome → length ≤ 0xff → head.length ≤ 2) ∧
      ((forms.small.any fun form => length ≤ form.2) → head.length ≤ 1) := by
  have hpack : pack 2 length = .ok (be 2 length) := by
    rw [pack, if_pos (by omega)]
  unfold encodeLength
  split_ifs with hsmall hmid
  · exact ⟨_, rfl, by simp, by simp, by simp⟩
  · exact ⟨_, rfl, by simp, by simp, fun hs => absurd hs hsmall⟩
  · rw [hpack]
    exact ⟨_, rfl, by simp, fun hm hle => absurd ⟨hm, hle⟩ hmid, fun hs => absurd hs hsmall⟩

open Ieee754

/-- A widened single is packed again: the only datum that narrows to an infinity is one. -/
lemma packFloat_widen (single : BitVec 32) :
    packFloat (widen single) = .ok (be 4 (narrow (widen single)).toNat) := by
  have h32 : 1 ≤ binary32.fracBits := by decide
  have h64 : 1 ≤ binary64.fracBits := by decide
  rw [packFloat, if_neg]
  rw [Bool.and_eq_true, Bool.not_eq_true', not_and]
  intro hinf
  by_cases hnan : isNan (F := binary32) single = true
  · -- a NaN stays one both ways
    have hnan64 := isNan_convert h64 hnan
    have hnan32 := isNan_convert (G := binary32) h32 hnan64
    have heq : mag (F := binary32) (narrow (widen single)) =
        binary32.infMag := by simpa [isInf] using hinf
    have hgt : binary32.infMag <
        mag (F := binary32) (narrow (widen single)) := of_decide_eq_true hnan32
    omega
  · have hback : narrow (widen single) = single :=
      convert_convert wider_binary32_binary64 (by simpa using hnan)
    rw [hback] at hinf
    have hinf64 := isInf_convert (G := binary64) h64 hinf
    rw [show isInf (F := binary64) (widen single) = true from hinf64]
    decide

/-- A float that was read is its own single-precision rounding, unless it is a NaN. -/
lemma widen_narrow_widen {single : BitVec 32}
    (h : isNan (F := binary64) (widen single) = false) :
    widen (narrow (widen single)) = widen single := by
  have hnan : isNan (F := binary32) single = false := by
    by_contra hne
    have h64 : 1 ≤ binary64.fracBits := by decide
    have hnan64 := isNan_convert h64 (by simpa using hne)
    rw [show isNan (F := binary64) (widen single) = true from hnan64] at h
    cases h
  have hback : narrow (widen single) = single :=
    convert_convert wider_binary32_binary64 hnan
  rw [hback]

/-! ## Values that survive -/

mutual

/-- No float in the value is a NaN. -/
def PyVal.nanFree : PyVal → Bool
  | .float bits => !Ieee754.isNan (F := Ieee754.binary64) bits
  | .list items => nanFreeItems items
  | .tuple items => nanFreeItems items
  | .dict items => nanFreePairs items
  | _ => true

/-- No item has a NaN in it. -/
def nanFreeItems : List PyVal → Bool
  | [] => true
  | item :: rest => item.nanFree && nanFreeItems rest

/-- No key and no value has a NaN in it. -/
def nanFreePairs : List (PyVal × PyVal) → Bool
  | [] => true
  | (key, val) :: rest => key.nanFree && val.nanFree && nanFreePairs rest

end

/-- The encoder writes `value` at `depth` in at most the bytes from `start` to `stop`. -/
def Reencodes (value : PyVal) (depth start stop : ℕ) : Prop :=
  ∃ c, encode value depth = .ok c ∧ start + c.length ≤ stop

/-- A value without NaNs is its own normal form and is readable. -/
def Faithful (value : PyVal) : Prop :=
  value.nanFree = true → value.norm = value ∧ value.readable = true

section Leaves

variable {depth start stop : ℕ}

/-- An integer in range is written in the bytes it came in. -/
lemma reencodes_int {value : ℤ} (hdepth : depth ≤ MAX_DEPTH) (hlow : -2147483648 ≤ value)
    (hhigh : value ≤ 0xffffffff) (hwidth : start + intWidth value ≤ stop) :
    Reencodes (.int value) depth start stop := by
  obtain ⟨c, hc, hlen⟩ := encodeInt_of_range hlow hhigh
  refine ⟨c, ?_, by omega⟩
  rw [encode, if_neg (by omega)]
  exact hc

/-- A string is written in the bytes it came in, its length in the shortest form. -/
lemma reencodes_str {data : List UInt8} {text : PyStr} {width : ℕ} (hdepth : depth ≤ MAX_DEPTH)
    (htext : decodeStr data = .ok text) (hlen : data.length ≤ 0xffff)
    (hwidth : width = 3 ∨ width = 2 ∧ data.length ≤ 0xff ∨ width = 1 ∧ data.length ≤ 31)
    (hstop : start + width + data.length ≤ stop) : Reencodes (.str text) depth start stop := by
  obtain ⟨head, hhead, h3, h2, h1⟩ := encodeLength_of_le ⟨some (0xa0, 31), some 0xd9, 0xda⟩
    s!"string too long for msgpack: {data.length} bytes" hlen
  have hle : head.length ≤ width := by
    rcases hwidth with h | ⟨h, hd⟩ | ⟨h, hd⟩
    · omega
    · exact h ▸ h2 rfl hd
    · exact h ▸ h1 (by simpa using hd)
  refine ⟨head ++ data, ?_, by rw [List.length_append]; omega⟩
  rw [encode, if_neg (by omega)]
  simp only [encodeStrObj, encodeStr_of_decodeStr htext, ok_bind, hhead]

/-- A byte string is written in the bytes it came in. -/
lemma reencodes_bytes {data : List UInt8} {width : ℕ} (hdepth : depth ≤ MAX_DEPTH)
    (hlen : data.length ≤ 0xffff) (hwidth : width = 3 ∨ width = 2 ∧ data.length ≤ 0xff)
    (hstop : start + width + data.length ≤ stop) : Reencodes (.bytes data) depth start stop := by
  obtain ⟨head, hhead, h3, h2, -⟩ := encodeLength_of_le ⟨none, some 0xc4, 0xc5⟩
    s!"bytes too long for msgpack: {data.length} bytes" hlen
  have hle : head.length ≤ width := by
    rcases hwidth with h | ⟨h, hd⟩
    · omega
    · exact h ▸ h2 rfl hd
  refine ⟨head ++ data, ?_, by rw [List.length_append]; omega⟩
  rw [encode, if_neg (by omega)]
  simp only [encodeBin, ok_bind, hhead]

end Leaves

/-! ## Containers -/

section Loops

variable {inner : ℕ → Except PyExn (PyVal × ℕ)} {depth : ℕ}

/-- The loop of `_decode_array` over values that can be written again. -/
lemma decodeItems_reencodes
    (hinner : ∀ start value stop, inner start = .ok (value, stop) →
      Reencodes value depth start stop) {count start stop : ℕ} {items : List PyVal}
    (h : decodeItems inner count start = .ok (items, stop)) :
    items.length = count ∧
      ∃ body, encodeItems items depth = .ok body ∧ start + body.length ≤ stop := by
  induction count generalizing start items with
  | zero =>
    rw [decodeItems] at h
    cases h
    exact ⟨rfl, [], by rw [encodeItems], le_rfl⟩
  | succ count ih =>
    rw [decodeItems] at h
    obtain ⟨⟨value, mid⟩, hvalue, h⟩ := bind_eq_ok.mp h
    obtain ⟨⟨rest, last⟩, hrest, h⟩ := bind_eq_ok.mp h
    cases h
    obtain ⟨c, hc, hclen⟩ := hinner _ _ _ hvalue
    obtain ⟨hlen, body, hbody, hblen⟩ := ih hrest
    refine ⟨by rw [List.length_cons, hlen], c ++ body, ?_, by rw [List.length_append]; omega⟩
    rw [encodeItems, hc, ok_bind, hbody, ok_bind]

/-- Setting a key adds at most its own encoding and that of the value: an entry with an equal key
only changes its value. -/
lemma encodePairs_dictSet {key value : PyVal} {entries : List (PyVal × PyVal)}
    {body first second : List UInt8} (hkey : encode key depth = .ok first)
    (hvalue : encode value depth = .ok second) (hbody : encodePairs entries depth = .ok body) :
    ∃ body', encodePairs (dictSet key value entries) depth = .ok body' ∧
      body'.length ≤ body.length + first.length + second.length := by
  induction entries generalizing body with
  | nil =>
    rw [encodePairs] at hbody
    cases hbody
    refine ⟨first ++ second ++ [], ?_, by simp⟩
    rw [dictSet, encodePairs, hkey, ok_bind, hvalue, ok_bind, encodePairs, ok_bind]
  | cons entry rest ih =>
    obtain ⟨key', value'⟩ := entry
    rw [encodePairs] at hbody
    obtain ⟨a, ha, hbody⟩ := bind_eq_ok.mp hbody
    obtain ⟨b, hb, hbody⟩ := bind_eq_ok.mp hbody
    obtain ⟨others, hothers, hbody⟩ := bind_eq_ok.mp hbody
    cases hbody
    rw [dictSet]
    by_cases heq : keyEq key' key = true
    · rw [if_pos heq]
      refine ⟨a ++ second ++ others, ?_, by simp only [List.length_append]; omega⟩
      rw [encodePairs, ha, ok_bind, hvalue, ok_bind, hothers, ok_bind]
    · rw [if_neg heq]
      obtain ⟨body', hbody', hle⟩ := ih hothers
      refine ⟨a ++ b ++ body', ?_, by simp only [List.length_append]; omega⟩
      rw [encodePairs, ha, ok_bind, hb, ok_bind, hbody', ok_bind]

/-- Setting a key adds at most one entry. -/
lemma length_dictSet_le (key value : PyVal) (entries : List (PyVal × PyVal)) :
    (dictSet key value entries).length ≤ entries.length + 1 := by
  by_cases hstored : ∃ entry ∈ entries, keyEq entry.1 key = true
  · rw [length_dictSet_of_stored hstored]
    omega
  · rw [dictSet_of_fresh fun entry he => by simpa using fun hne => hstored ⟨entry, he, hne⟩]
    simp

/-- The loop of `_decode_map` over keys and values that can be written again. -/
lemma decodePairs_reencodes
    (hinner : ∀ start value stop, inner start = .ok (value, stop) →
      Reencodes value depth start stop) {count start stop : ℕ}
    {entries result : List (PyVal × PyVal)} {body : List UInt8}
    (hbody : encodePairs entries depth = .ok body)
    (h : decodePairs inner count start entries = .ok (result, stop)) :
    result.length ≤ entries.length + count ∧
      ∃ body', encodePairs result depth = .ok body' ∧
        start + body'.length ≤ stop + body.length := by
  induction count generalizing start entries body with
  | zero =>
    rw [decodePairs] at h
    cases h
    exact ⟨le_rfl, body, hbody, le_rfl⟩
  | succ count ih =>
    rw [decodePairs] at h
    obtain ⟨⟨key, mid⟩, hkey, h⟩ := bind_eq_ok.mp h
    obtain ⟨⟨value, last⟩, hvalue, h⟩ := bind_eq_ok.mp h
    dsimp only at h hvalue
    split_ifs at h
    obtain ⟨a, ha, halen⟩ := hinner _ _ _ hkey
    obtain ⟨b, hb, hblen⟩ := hinner _ _ _ hvalue
    obtain ⟨body', hbody', hle⟩ := encodePairs_dictSet ha hb hbody
    obtain ⟨hlen, final, hfinal, hflen⟩ := ih hbody' h
    have hset := length_dictSet_le key value entries
    exact ⟨by omega, final, hfinal, by omega⟩

end Loops

/-! ## Faithful values -/

/-- The entries the decoder has stored: their keys are hashable and pairwise different, and all keys
and values are faithful. -/
structure FaithfulEntries (entries : List (PyVal × PyVal)) : Prop where
  key : ∀ entry ∈ entries, Faithful entry.1
  value : ∀ entry ∈ entries, Faithful entry.2
  hashable : ∀ entry ∈ entries, entry.1.isContainer = false
  different : entries.Pairwise fun a b => keyEq a.1 b.1 = false

variable {key value : PyVal} {entries : List (PyVal × PyVal)} {data : List UInt8}

/-- An entry after a key is set is an old one, an old key with the new value, or the new one. -/
lemma mem_dictSet {entry : PyVal × PyVal} (h : entry ∈ dictSet key value entries) :
    (entry.1 = key ∨ ∃ old ∈ entries, entry.1 = old.1) ∧ (entry.2 = value ∨ entry ∈ entries) := by
  induction entries with
  | nil =>
    rw [dictSet, List.mem_singleton] at h
    subst h
    exact ⟨.inl rfl, .inl rfl⟩
  | cons old rest ih =>
    rw [dictSet] at h
    split_ifs at h
    · rcases List.mem_cons.mp h with rfl | h
      · exact ⟨.inr ⟨old, by simp, rfl⟩, .inl rfl⟩
      · exact ⟨.inr ⟨entry, by simp [h], rfl⟩, .inr (by simp [h])⟩
    · rcases List.mem_cons.mp h with rfl | h
      · exact ⟨.inr ⟨entry, by simp, rfl⟩, .inr (by simp)⟩
      · obtain ⟨hkey, hvalue⟩ := ih h
        refine ⟨hkey.imp_right ?_, hvalue.imp_right (by simp +contextual)⟩
        rintro ⟨e, he, heq⟩
        exact ⟨e, by simp [he], heq⟩

/-- Setting a stored key changes no key. -/
lemma map_fst_dictSet_of_stored (value : PyVal) (h : ∃ entry ∈ entries, keyEq entry.1 key = true) :
    (dictSet key value entries).map Prod.fst = entries.map Prod.fst := by
  induction entries with
  | nil => simp at h
  | cons entry rest ih =>
    rw [dictSet]
    split_ifs with hkey
    · rfl
    · obtain ⟨e, he, heq⟩ := h
      rcases List.mem_cons.mp he with rfl | hmem
      · exact absurd heq hkey
      · rw [List.map_cons, List.map_cons, ih ⟨e, hmem, heq⟩]

/-- Setting a key keeps the keys pairwise different. -/
lemma pairwise_dictSet (value : PyVal) (h : entries.Pairwise fun a b => keyEq a.1 b.1 = false) :
    (dictSet key value entries).Pairwise fun a b => keyEq a.1 b.1 = false := by
  by_cases hstored : ∃ entry ∈ entries, keyEq entry.1 key = true
  · have hkeys := map_fst_dictSet_of_stored value hstored
    have hold : (entries.map Prod.fst).Pairwise fun a b => keyEq a b = false :=
      List.pairwise_map.mpr h
    rw [← hkeys] at hold
    exact List.pairwise_map.mp hold
  · have hfresh : ∀ entry ∈ entries, keyEq entry.1 key = false := fun entry he => by
      simpa using fun hne => hstored ⟨entry, he, hne⟩
    rw [dictSet_of_fresh hfresh]
    exact List.pairwise_append.mpr ⟨h, List.pairwise_singleton _ _, by simpa using hfresh⟩

/-- Setting a faithful hashable key to a faithful value keeps the entries as they should be. -/
lemma FaithfulEntries.dictSet (h : FaithfulEntries entries) (hkey : Faithful key)
    (hvalue : Faithful value) (hhash : key.isContainer = false) :
    FaithfulEntries (dictSet key value entries) where
  key entry he := by
    rcases (mem_dictSet he).1 with heq | ⟨old, hold, heq⟩
    · exact heq ▸ hkey
    · exact heq ▸ h.key old hold
  value entry he := by
    rcases (mem_dictSet he).2 with heq | hold
    · exact heq ▸ hvalue
    · exact h.value entry hold
  hashable entry he := by
    rcases (mem_dictSet he).1 with heq | ⟨old, hold, heq⟩
    · exact heq ▸ hhash
    · exact heq ▸ h.hashable old hold
  different := pairwise_dictSet value h.different

/-- Faithful items make a faithful list. -/
lemma faithful_list {items : List PyVal} (h : ∀ item ∈ items, Faithful item) :
    Faithful (.list items) := by
  intro hfree
  rw [PyVal.nanFree] at hfree
  rw [PyVal.norm, PyVal.readable, PyVal.list.injEq]
  induction items with
  | nil => exact ⟨rfl, rfl⟩
  | cons item rest ih =>
    rw [nanFreeItems, Bool.and_eq_true] at hfree
    obtain ⟨hnorm, hread⟩ := h item (by simp) hfree.1
    obtain ⟨hnorms, hreads⟩ := ih (fun item hi => h item (by simp [hi])) hfree.2
    exact ⟨by rw [normItems, hnorm, hnorms], by rw [readableItems, hread, hreads]; rfl⟩

/-- The keys of a dict without NaNs have none. -/
lemma nanFree_key_of_mem (h : nanFreePairs entries = true) {entry : PyVal × PyVal}
    (hmem : entry ∈ entries) : entry.1.nanFree = true := by
  induction entries with
  | nil => simp at hmem
  | cons first rest ih =>
    rw [nanFreePairs, Bool.and_eq_true, Bool.and_eq_true] at h
    rcases List.mem_cons.mp hmem with rfl | hmem
    · exact h.1.1
    · exact ih h.2 hmem

/-- The entries of the decoder make a faithful dict. -/
lemma FaithfulEntries.faithful_dict (h : FaithfulEntries entries) : Faithful (.dict entries) := by
  intro hfree
  rw [PyVal.nanFree] at hfree
  rw [PyVal.norm, PyVal.readable, PyVal.dict.injEq]
  induction entries with
  | nil => exact ⟨rfl, rfl⟩
  | cons entry rest ih =>
    obtain ⟨key, value⟩ := entry
    rw [nanFreePairs, Bool.and_eq_true, Bool.and_eq_true] at hfree
    obtain ⟨⟨hfreeKey, hfreeValue⟩, hfreeRest⟩ := hfree
    have hrest : FaithfulEntries rest :=
      ⟨fun e he => h.key e (by simp [he]), fun e he => h.value e (by simp [he]),
        fun e he => h.hashable e (by simp [he]), h.different.of_cons⟩
    obtain ⟨hkey, -⟩ := h.key (key, value) (by simp) hfreeKey
    obtain ⟨hvalue, hread⟩ := h.value (key, value) (by simp) hfreeValue
    obtain ⟨hnorms, hreads⟩ := ih hrest hfreeRest
    have hscalar : key.isCollection = false := by
      rw [← isContainer_norm, hkey]
      exact h.hashable (key, value) (by simp)
    have hfresh : freshKey key rest = true := by
      rw [freshKey, List.all_eq_true]
      intro other hother
      -- the other key is its own normal form too
      obtain ⟨hother', -⟩ := hrest.key other hother (nanFree_key_of_mem hfreeRest hother)
      rw [hkey, hother', List.rel_of_pairwise_cons h.different hother]
      rfl
    refine ⟨by rw [normPairs, hkey, hvalue, hnorms], ?_⟩
    rw [readablePairs, hscalar, hread, hfresh, hreads]
    rfl

section FaithfulLoops

variable {inner : ℕ → Except PyExn (PyVal × ℕ)}

/-- The loop of `_decode_array` returns faithful items. -/
lemma decodeItems_faithful
    (hinner : ∀ start value stop, inner start = .ok (value, stop) → Faithful value)
    {count start stop : ℕ} {items : List PyVal}
    (h : decodeItems inner count start = .ok (items, stop)) : ∀ item ∈ items, Faithful item := by
  induction count generalizing start items with
  | zero =>
    rw [decodeItems] at h
    cases h
    simp
  | succ count ih =>
    rw [decodeItems] at h
    obtain ⟨⟨value, mid⟩, hvalue, h⟩ := bind_eq_ok.mp h
    obtain ⟨⟨rest, last⟩, hrest, h⟩ := bind_eq_ok.mp h
    cases h
    intro item hitem
    rcases List.mem_cons.mp hitem with rfl | hmem
    · exact hinner _ _ _ hvalue
    · exact ih hrest item hmem

/-- The loop of `_decode_map` keeps the entries as they should be. -/
lemma decodePairs_faithful
    (hinner : ∀ start value stop, inner start = .ok (value, stop) → Faithful value)
    {count start stop : ℕ} {entries result : List (PyVal × PyVal)} (hold : FaithfulEntries entries)
    (h : decodePairs inner count start entries = .ok (result, stop)) : FaithfulEntries result := by
  induction count generalizing start entries with
  | zero =>
    rw [decodePairs] at h
    cases h
    exact hold
  | succ count ih =>
    rw [decodePairs] at h
    obtain ⟨⟨key, mid⟩, hkey, h⟩ := bind_eq_ok.mp h
    obtain ⟨⟨value, last⟩, hvalue, h⟩ := bind_eq_ok.mp h
    dsimp only at h hvalue
    split_ifs at h with hhash
    exact ih (hold.dictSet (hinner _ _ _ hkey) (hinner _ _ _ hvalue) (by simpa using hhash)) h

end FaithfulLoops

/-! ## What one level reads -/

section Level

variable {data : List UInt8} {inner : ℕ → Except PyExn (PyVal × ℕ)} {offset stop : ℕ}
  {value : PyVal}

/-- What `_decode` returns from `offset`, with the bytes that its head took. -/
inductive Reads (inner : ℕ → Except PyExn (PyVal × ℕ)) (offset : ℕ) : PyVal → ℕ → Prop where
  | none : Reads inner offset .none (offset + 1)
  | bool (value : Bool) : Reads inner offset (.bool value) (offset + 1)
  | int (value : ℤ) (stop : ℕ) (low : -2147483648 ≤ value) (high : value ≤ 0xffffffff)
      (width : offset + intWidth value ≤ stop) : Reads inner offset (.int value) stop
  | float (single : BitVec 32) : Reads inner offset (.float (widen single)) (offset + 5)
  | str (raw : List UInt8) (text : PyStr) (width : ℕ) (decoded : decodeStr raw = .ok text)
      (short : raw.length ≤ 0xffff)
      (form : width = 3 ∨ width = 2 ∧ raw.length ≤ 0xff ∨ width = 1 ∧ raw.length ≤ 31) :
      Reads inner offset (.str text) (offset + width + raw.length)
  | bytes (raw : List UInt8) (width : ℕ) (short : raw.length ≤ 0xffff)
      (form : width = 3 ∨ width = 2 ∧ raw.length ≤ 0xff) :
      Reads inner offset (.bytes raw) (offset + width + raw.length)
  | list (items : List PyVal) (count width stop : ℕ) (short : count ≤ 0xffff)
      (form : width = 3 ∨ width = 1 ∧ count ≤ 15)
      (loop : decodeItems inner count (offset + width) = .ok (items, stop)) :
      Reads inner offset (.list items) stop
  | dict (entries : List (PyVal × PyVal)) (count width stop : ℕ) (short : count ≤ 0xffff)
      (form : width = 3 ∨ width = 1 ∧ count ≤ 15)
      (loop : decodePairs inner count (offset + width) [] = .ok (entries, stop)) :
      Reads inner offset (.dict entries) stop

variable {width : ℕ} {n : ℤ} {length : ℕ}

/-- An unsigned field is below the power of its width. -/
lemma unsignedAt_lt {n : ℕ} (h : unsignedAt data offset width = .ok n) : n < 256 ^ width := by
  obtain ⟨field, -, h⟩ := bind_eq_ok.mp h
  rw [unpack] at h
  split_ifs at h with hlen
  cases h
  exact hlen ▸ ofBe_lt field

/-- A signed field lies between the halves of the power of its width. -/
lemma signedAt_range (h : signedAt data offset width = .ok n) :
    -(256 ^ width) ≤ 2 * n ∧ 2 * n < 256 ^ width := by
  obtain ⟨field, hfield, h⟩ := bind_eq_ok.mp h
  obtain ⟨u, hu, h⟩ := bind_eq_ok.mp h
  have hunsigned : unsignedAt data offset width = .ok u := by
    rw [unsignedAt, hfield, ok_bind, hu]
  have hlt := unsignedAt_lt hunsigned
  have hltz : (u : ℤ) < 256 ^ width := by exact_mod_cast hlt
  cases h
  split_ifs with hhalf
  · have : (2 * u : ℤ) < 256 ^ width := by exact_mod_cast hhalf
    omega
  · have : (256 : ℤ) ^ width ≤ 2 * u := by exact_mod_cast not_lt.mp hhalf
    omega

/-- A string inside the data. -/
lemma reads_strAt (hshort : length ≤ 0xffff)
    (hform : width = 3 ∨ width = 2 ∧ length ≤ 0xff ∨ width = 1 ∧ length ≤ 31)
    (h : strAt data (offset + width) length = .ok (value, stop)) :
    Reads inner offset value stop := by
  obtain ⟨last, hlast, h⟩ := bind_eq_ok.mp h
  obtain ⟨text, htext, h⟩ := bind_eq_ok.mp h
  rw [boundedEnd] at hlast
  split_ifs at hlast with hend
  cases hlast
  cases h
  have hlen : (slice data (offset + width) (offset + width + length)).length = length := by
    rw [length_slice _ (by omega)]
    omega
  have hread : Reads inner offset (.str text) _ :=
    .str _ text width htext (by omega) (by rwa [hlen])
  rwa [hlen] at hread

/-- A byte string inside the data. -/
lemma reads_binAt (hshort : length ≤ 0xffff) (hform : width = 3 ∨ width = 2 ∧ length ≤ 0xff)
    (h : binAt data (offset + width) length = .ok (value, stop)) :
    Reads inner offset value stop := by
  obtain ⟨last, hlast, h⟩ := bind_eq_ok.mp h
  rw [boundedEnd] at hlast
  split_ifs at hlast with hend
  cases hlast
  cases h
  have hlen : (slice data (offset + width) (offset + width + length)).length = length := by
    rw [length_slice _ (by omega)]
    omega
  have hread : Reads inner offset (.bytes (slice data (offset + width) (offset + width + length)))
      _ := .bytes _ width (by omega) (by rwa [hlen])
  rwa [hlen] at hread

/-- An array inside the data. -/
lemma reads_decodeArray (hshort : length ≤ 0xffff) (hform : width = 3 ∨ width = 1 ∧ length ≤ 15)
    (h : decodeArray data inner (offset + width) length = .ok (value, stop)) :
    Reads inner offset value stop := by
  rw [decodeArray] at h
  split_ifs at h
  obtain ⟨⟨items, last⟩, hitems, h⟩ := bind_eq_ok.mp h
  cases h
  exact .list items length width _ hshort hform hitems

/-- A map inside the data. -/
lemma reads_decodeMap (hshort : length ≤ 0xffff) (hform : width = 3 ∨ width = 1 ∧ length ≤ 15)
    (h : decodeMap data inner (offset + width) length = .ok (value, stop)) :
    Reads inner offset value stop := by
  rw [decodeMap] at h
  split_ifs at h
  obtain ⟨⟨entries, last⟩, hentries, h⟩ := bind_eq_ok.mp h
  cases h
  exact .dict entries length width _ hshort hform hentries

/-- An integer that one byte holds beside its tag takes at most two. -/
lemma intWidth_le_two (hlow : -128 ≤ n) (hhigh : n ≤ 0xff) : intWidth n ≤ 2 := by
  unfold intWidth
  split_ifs <;> omega

/-- An integer that two bytes hold beside the tag takes at most three. -/
lemma intWidth_le_three (hlow : -32768 ≤ n) (hhigh : n ≤ 0xffff) : intWidth n ≤ 3 := by
  unfold intWidth
  split_ifs <;> omega

/-- No integer takes more than five bytes. -/
lemma intWidth_le_five (n : ℤ) : intWidth n ≤ 5 := by
  unfold intWidth
  split_ifs <;> omega

/-- **What one level reads.** Each branch of `_decode` is one of the kinds of `Reads`. -/
lemma reads_of_decodeBody (h : decodeBody data inner offset = .ok (value, stop)) :
    Reads inner offset value stop := by
  obtain ⟨byte, -, h⟩ := bind_eq_ok.mp h
  obtain ⟨h15, h31⟩ := toNat_and_le byte
  by_cases c : byte ≤ 0x7f
  · -- positive fixint
    rw [if_pos c] at h
    cases h
    have hle : byte.toNat ≤ 0x7f := c
    exact .int _ _ (by omega) (by omega) (by rw [intWidth, if_pos (by omega)])
  rw [if_neg c] at h
  by_cases c : byte ≤ 0x8f
  · rw [if_pos c] at h
    exact reads_decodeMap (by omega) (.inr ⟨rfl, h15⟩) h
  rw [if_neg c] at h
  by_cases c : byte ≤ 0x9f
  · rw [if_pos c] at h
    exact reads_decodeArray (by omega) (.inr ⟨rfl, h15⟩) h
  rw [if_neg c] at h
  by_cases c : byte ≤ 0xbf
  · rw [if_pos c] at h
    exact reads_strAt (by omega) (.inr (.inr ⟨rfl, h31⟩)) h
  rw [if_neg c] at h
  by_cases c : byte = 0xc0
  · rw [if_pos c] at h
    cases h
    exact .none
  rw [if_neg c] at h
  by_cases c : byte = 0xc2
  · rw [if_pos c] at h
    cases h
    exact .bool false
  rw [if_neg c] at h
  by_cases c : byte = 0xc3
  · rw [if_pos c] at h
    cases h
    exact .bool true
  rw [if_neg c] at h
  by_cases c : byte = 0xc4
  · rw [if_pos c] at h
    obtain ⟨length, -, h⟩ := bind_eq_ok.mp h
    have hlt := length.toNat_lt
    exact reads_binAt (by omega) (.inr ⟨rfl, by omega⟩) h
  rw [if_neg c] at h
  by_cases c : byte = 0xc5
  · rw [if_pos c] at h
    obtain ⟨length, hlength, h⟩ := bind_eq_ok.mp h
    have hlt := unsignedAt_lt hlength
    exact reads_binAt (by omega) (.inl rfl) h
  rw [if_neg c] at h
  by_cases c : byte = 0xca
  · rw [if_pos c] at h
    obtain ⟨bits, hbits, h⟩ := bind_eq_ok.mp h
    cases h
    obtain ⟨field, -, hbits⟩ := bind_eq_ok.mp hbits
    obtain ⟨single, -, hbits⟩ := bind_eq_ok.mp hbits
    cases hbits
    exact .float _
  rw [if_neg c] at h
  by_cases c : byte = 0xcc
  · rw [if_pos c] at h
    obtain ⟨n, -, h⟩ := bind_eq_ok.mp h
    cases h
    have hlt := n.toNat_lt
    exact .int _ _ (by omega) (by omega)
      (Nat.add_le_add_left (intWidth_le_two (by omega) (by omega)) _)
  rw [if_neg c] at h
  by_cases c : byte = 0xcd
  · rw [if_pos c] at h
    obtain ⟨n, hn, h⟩ := bind_eq_ok.mp h
    cases h
    have hlt := unsignedAt_lt hn
    exact .int _ _ (by omega) (by omega)
      (Nat.add_le_add_left (intWidth_le_three (by omega) (by omega)) _)
  rw [if_neg c] at h
  by_cases c : byte = 0xce
  · rw [if_pos c] at h
    obtain ⟨n, hn, h⟩ := bind_eq_ok.mp h
    cases h
    have hlt := unsignedAt_lt hn
    exact .int _ _ (by omega) (by omega) (Nat.add_le_add_left (intWidth_le_five _) _)
  rw [if_neg c] at h
  by_cases c : byte = 0xd0
  · rw [if_pos c] at h
    obtain ⟨n, hn, h⟩ := bind_eq_ok.mp h
    cases h
    have hrange := signedAt_range hn
    exact .int _ _ (by omega) (by omega)
      (Nat.add_le_add_left (intWidth_le_two (by omega) (by omega)) _)
  rw [if_neg c] at h
  by_cases c : byte = 0xd1
  · rw [if_pos c] at h
    obtain ⟨n, hn, h⟩ := bind_eq_ok.mp h
    cases h
    have hrange := signedAt_range hn
    exact .int _ _ (by omega) (by omega)
      (Nat.add_le_add_left (intWidth_le_three (by omega) (by omega)) _)
  rw [if_neg c] at h
  by_cases c : byte = 0xd2
  · rw [if_pos c] at h
    obtain ⟨n, hn, h⟩ := bind_eq_ok.mp h
    cases h
    have hrange := signedAt_range hn
    exact .int _ _ (by omega) (by omega) (Nat.add_le_add_left (intWidth_le_five _) _)
  rw [if_neg c] at h
  by_cases c : byte = 0xd9
  · rw [if_pos c] at h
    obtain ⟨length, -, h⟩ := bind_eq_ok.mp h
    have hlt := length.toNat_lt
    exact reads_strAt (by omega) (.inr (.inl ⟨rfl, by omega⟩)) h
  rw [if_neg c] at h
  by_cases c : byte = 0xda
  · rw [if_pos c] at h
    obtain ⟨length, hlength, h⟩ := bind_eq_ok.mp h
    have hlt := unsignedAt_lt hlength
    exact reads_strAt (by omega) (.inl rfl) h
  rw [if_neg c] at h
  by_cases c : byte = 0xdc
  · rw [if_pos c] at h
    obtain ⟨length, hlength, h⟩ := bind_eq_ok.mp h
    have hlt := unsignedAt_lt hlength
    exact reads_decodeArray (by omega) (.inl rfl) h
  rw [if_neg c] at h
  by_cases c : byte = 0xde
  · rw [if_pos c] at h
    obtain ⟨length, hlength, h⟩ := bind_eq_ok.mp h
    have hlt := unsignedAt_lt hlength
    exact reads_decodeMap (by omega) (.inl rfl) h
  rw [if_neg c] at h
  by_cases c : byte ≥ 0xe0
  · -- negative fixint
    rw [if_pos c] at h
    cases h
    have hge : 0xe0 ≤ byte.toNat := c
    have hlt := byte.toNat_lt
    exact .int _ _ (by omega) (by omega) (by rw [intWidth, if_pos (by omega)])
  rw [if_neg c] at h
  cases h

/-- What one level reads is written in at most the bytes read, if that holds one level below. -/
lemma Reads.reencodes {depth : ℕ} (hdepth : depth ≤ MAX_DEPTH)
    (hinner : ∀ start value stop, inner start = .ok (value, stop) →
      Reencodes value (depth + 1) start stop) (h : Reads inner offset value stop) :
    Reencodes value depth offset stop := by
  cases h with
  | none => exact ⟨[0xc0], by rw [encode, if_neg (by omega)], le_rfl⟩
  | bool b =>
    cases b with
    | false => exact ⟨[0xc2], by rw [encode, if_neg (by omega)], le_rfl⟩
    | true => exact ⟨[0xc3], by rw [encode, if_neg (by omega)], le_rfl⟩
  | int n stop low high width => exact reencodes_int hdepth low high width
  | float single =>
    refine ⟨0xca :: be 4 (narrow (widen single)).toNat, ?_, by simp⟩
    rw [encode, if_neg (by omega)]
    simp only [packFloat_widen, ok_bind]
  | str raw text width decoded short form =>
    exact reencodes_str hdepth decoded short form le_rfl
  | bytes raw width short form => exact reencodes_bytes hdepth short form le_rfl
  | list items count width stop short form loop =>
    obtain ⟨hcount, body, hbody, hlen⟩ := decodeItems_reencodes hinner loop
    obtain ⟨head, hhead, h3, -, h1⟩ := encodeLength_of_le ⟨some (0x90, 15), Option.none, 0xdc⟩
      s!"array too long for msgpack: {items.length} elements" (hcount.trans_le short)
    have hle : head.length ≤ width := by
      rcases form with h | ⟨h, hd⟩
      · omega
      · exact h ▸ h1 (by simpa [hcount] using hd)
    refine ⟨head ++ body, ?_, by rw [List.length_append]; omega⟩
    rw [encode, if_neg (by omega)]
    simp only [encodeArrayHead, hhead, ok_bind, hbody]
  | dict entries count width stop short form loop =>
    obtain ⟨hcount, body, hbody, hlen⟩ := decodePairs_reencodes hinner (by rw [encodePairs]) loop
    simp only [List.length_nil, zero_add, add_zero] at hcount hlen
    obtain ⟨head, hhead, h3, -, h1⟩ := encodeLength_of_le ⟨some (0x80, 15), Option.none, 0xde⟩
      s!"map too long for msgpack: {entries.length} entries" (hcount.trans short)
    have hle : head.length ≤ width := by
      rcases form with h | ⟨h, hd⟩
      · omega
      · exact h ▸ h1 (by simpa using hcount.trans hd)
    refine ⟨head ++ body, ?_, by rw [List.length_append]; omega⟩
    rw [encode, if_neg (by omega)]
    simp only [encodeMapHead, hhead, ok_bind, hbody]

/-- What one level reads is faithful, if that holds one level below. -/
lemma Reads.faithful
    (hinner : ∀ start value stop, inner start = .ok (value, stop) → Faithful value)
    (h : Reads inner offset value stop) : Faithful value := by
  cases h with
  | float single =>
    intro hfree
    rw [PyVal.nanFree, Bool.not_eq_true'] at hfree
    exact ⟨by rw [PyVal.norm, widen_narrow_widen hfree], by rw [PyVal.readable] <;> simp⟩
  | list items count width stop short form loop =>
    exact faithful_list (decodeItems_faithful hinner loop)
  | dict entries count width stop short form loop =>
    exact (decodePairs_faithful hinner ⟨by simp, by simp, by simp, .nil⟩ loop).faithful_dict
  | none | bool _ | int _ _ _ _ _ | str _ _ _ _ _ _ | bytes _ _ _ _ =>
    exact fun _ => ⟨rfl, rfl⟩

end Level

/-! ## Every level -/

/-- **What was read is written in at most the bytes read**, at every level: the encoder counts
levels from the same depth as the decoder. -/
theorem decodeLevels_reencodes {levels depth start stop : ℕ}
    (hlevels : levels + depth = MAX_DEPTH + 1)
    (h : decodeLevels data levels start = .ok (value, stop)) :
    Reencodes value depth start stop := by
  induction levels generalizing depth start stop value with
  | zero =>
    rw [decodeLevels] at h
    cases h
  | succ levels ih =>
    rw [decodeLevels] at h
    refine (reads_of_decodeBody h).reencodes (by omega) ?_
    intro start value stop hinner
    exact ih (by omega) hinner

/-- What was read is faithful, at every level. -/
lemma decodeLevels_faithful {levels start stop : ℕ}
    (h : decodeLevels data levels start = .ok (value, stop)) : Faithful value := by
  induction levels generalizing start stop value with
  | zero =>
    rw [decodeLevels] at h
    cases h
  | succ levels ih =>
    rw [decodeLevels] at h
    exact (reads_of_decodeBody h).faithful fun start value stop hinner => ih hinner

/-- What `unpackb` returns is what `_decode` read from the whole of the data. -/
lemma unpackb_eq_ok (h : unpackb data = .ok value) :
    decodeLevels data (MAX_DEPTH + 1) 0 = .ok (value, data.length) := by
  rw [unpackb] at h
  split at h
  case h_1 => cases h
  case h_2 result stop hdecode =>
    split_ifs at h with hstop
    cases h
    rw [not_not] at hstop
    exact hstop ▸ hdecode

/-- **Re-encoding what was read is always possible, loses nothing and never grows**, for a value
without NaNs. -/
theorem packb_unpackb (b : List UInt8) (v : PyVal) (h : unpackb b = .ok v)
    (hfree : v.nanFree = true) :
    ∃ c, packb v = .ok c ∧ unpackb c = .ok v ∧ c.length ≤ b.length := by
  have hlevels := unpackb_eq_ok h
  obtain ⟨c, hc, hlen⟩ : Reencodes v 0 0 b.length := decodeLevels_reencodes rfl hlevels
  obtain ⟨hnorm, hread⟩ := decodeLevels_faithful hlevels hfree
  have hback := (unpackb_packb_iff v c hc).mpr hread
  rw [hnorm] at hback
  exact ⟨c, hc, hback, by omega⟩

set_option maxRecDepth 2000 in
/-- A map in the wide form that names the key 1 twice, as a wide integer and as `True`, is read as
one entry and written again in 3 bytes for 14. -/
theorem packb_unpackb_wide :
    let b : List UInt8 := [0xde, 0, 2, 0xcd, 0, 1, 0xcc, 5, 0xc3, 0xce, 0, 0, 0, 7]
    unpackb b = .ok (.dict [(.int 1, .int 7)]) ∧
      ∃ c, packb (.dict [(.int 1, .int 7)]) = .ok c ∧
        unpackb c = .ok (.dict [(.int 1, .int 7)]) ∧ c.length ≤ b.length :=
  have hread : unpackb [0xde, 0, 2, 0xcd, 0, 1, 0xcc, 5, 0xc3, 0xce, 0, 0, 0, 7] =
      .ok (.dict [(.int 1, .int 7)]) := by rfl
  ⟨hread, packb_unpackb _ _ hread (by rfl)⟩

end ChuMicro.Msgpack
