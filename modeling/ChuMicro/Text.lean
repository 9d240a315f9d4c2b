import ChuMicro.Python
import Mathlib.Data.List.DropRight
import Mathlib.Data.List.Infix

/-!
# Text

The methods of `str` the HTTP libraries use, as CPython documents them. A `str` without lone
surrogates is the list of its characters. `str.lower` of text that is not ASCII depends on the
runtime and is a parameter where it is used; on ASCII text all runtimes agree (`LowersAscii`).

## Main definitions

* `Str` — text as a list of characters.
* `encodeAscii`, `decodeAscii` — `str.encode("ascii")` and `str(data, "ascii")`.
* `strip` — `str.strip()`.
* `pyInt`, `formatInt` — `int(text, base)` and `str` of an integer.
* `reprStr`, `reprBytes` — `repr` of ASCII text and of bytes.

## Main results

* `decodeAscii_map` — ASCII text survives its encoding.
* `pyInt_formatInt`, `pyInt_toDigits` — integers survive their decimal form, and naturals their form
  in any base up to sixteen.
-/

namespace ChuMicro

/-- A `str`, as the list of its characters. -/
abbrev Str := List Char

/-- Texts are compared character by character. -/
instance lawfulBEqStr : LawfulBEq Str := inferInstance

/-! ## ASCII -/

/-- The characters of ASCII. -/
def IsAscii (text : Str) : Prop := ∀ c ∈ text, c.toNat < 128

instance (text : Str) : Decidable (IsAscii text) := inferInstanceAs (Decidable (∀ c ∈ text, _))

/-- The byte of an ASCII character. -/
def asciiByte (c : Char) : UInt8 := UInt8.ofNat c.toNat

/-- The character of an ASCII byte. -/
def asciiChar (byte : UInt8) : Char := Char.ofNat byte.toNat

/-- `text.encode("ascii")`. -/
def encodeAscii (text : Str) : Except PyExn (List UInt8) :=
  if IsAscii text then .ok (text.map asciiByte) else .error .unicodeEncodeError

/-- `str(data, "ascii")`. -/
def decodeAscii (data : List UInt8) : Except PyExn Str :=
  if ∀ byte ∈ data, byte.toNat < 128 then .ok (data.map asciiChar)
  else .error (.unicodeDecodeError data)

/-- The byte of an ASCII character is its code. -/
lemma toNat_asciiByte {c : Char} (h : c.toNat < 128) : (asciiByte c).toNat = c.toNat := by
  rw [asciiByte, UInt8.toNat_ofNat']
  omega

/-- An ASCII character survives as a byte. -/
lemma asciiChar_asciiByte {c : Char} (h : c.toNat < 128) : asciiChar (asciiByte c) = c := by
  rw [asciiChar, toNat_asciiByte h, Char.ofNat_toNat]

/-- Different ASCII characters have different bytes. -/
lemma asciiByte_inj {c d : Char} (hc : c.toNat < 128) (hd : d.toNat < 128)
    (h : asciiByte c = asciiByte d) : c = d := by
  rw [← asciiChar_asciiByte hc, h, asciiChar_asciiByte hd]

/-- ASCII text is read back from its bytes. -/
lemma decodeAscii_map {text : Str} (h : IsAscii text) :
    decodeAscii (text.map asciiByte) = .ok text := by
  have hbytes : ∀ byte ∈ text.map asciiByte, byte.toNat < 128 := by
    intro byte hbyte
    obtain ⟨c, hc, rfl⟩ := List.mem_map.mp hbyte
    rw [toNat_asciiByte (h c hc)]
    exact h c hc
  rw [decodeAscii, if_pos hbytes, List.map_map]
  congr 1
  conv_rhs => rw [← List.map_id text]
  exact List.map_congr_left fun c hc => asciiChar_asciiByte (h c hc)

/-- What was encoded as ASCII is ASCII, byte for character. -/
lemma encodeAscii_eq_ok {text : Str} {data : List UInt8} :
    encodeAscii text = .ok data ↔ IsAscii text ∧ data = text.map asciiByte := by
  unfold encodeAscii
  split_ifs with h
  · simp [h, eq_comm]
  · simp [h]

/-- An ASCII character that text does not contain is not among its bytes. -/
lemma asciiByte_notMem {text : Str} {c : Char} (h : IsAscii text) (hc : c.toNat < 128)
    (hmem : c ∉ text) : asciiByte c ∉ text.map asciiByte := by
  intro hbyte
  obtain ⟨d, hd, heq⟩ := List.mem_map.mp hbyte
  rw [asciiByte_inj (h d hd) hc heq] at hd
  exact hmem hd

/-- What `str.lower` does to ASCII text on every runtime. -/
def LowersAscii (lower : Str → Str) : Prop := ∀ text, IsAscii text → lower text = text.map Char.toLower

/-- `str.lower` as runtimes have it that know ASCII only. -/
def lowerAscii (text : Str) : Str := text.map Char.toLower

lemma lowersAscii_lowerAscii : LowersAscii lowerAscii := fun _ _ => rfl

/-! ## Whitespace -/

/-- The characters `str.strip()` takes off. -/
def isSpace (c : Char) : Bool :=
  let n := c.toNat
  (9 ≤ n && n ≤ 13) || (28 ≤ n && n ≤ 32) || n == 0x85 || n == 0xa0 || n == 0x1680 ||
    (0x2000 ≤ n && n ≤ 0x200a) || n == 0x2028 || n == 0x2029 || n == 0x202f || n == 0x205f ||
    n == 0x3000

/-- `text.strip()`. -/
def strip (text : Str) : Str := (text.dropWhile isSpace).rdropWhile isSpace

/-- A blank in front is stripped. -/
lemma strip_cons {c : Char} (h : isSpace c = true) (text : Str) : strip (c :: text) = strip text := by
  rw [strip, List.dropWhile_cons_of_pos h, strip]

/-- Nothing is taken off text without the characters to be taken off. -/
lemma rdropWhile_dropWhile_eq_self {p : Char → Bool} {text : Str} (h : ∀ c ∈ text, p c = false) :
    (text.dropWhile p).rdropWhile p = text := by
  have hdrop : text.dropWhile p = text := by
    cases text with
    | nil => rfl
    | cons c text => rw [List.dropWhile_cons_of_neg (by simp [h c List.mem_cons_self])]
  rw [hdrop, List.rdropWhile_eq_self_iff]
  intro hne
  simp [h _ (List.getLast_mem hne)]

/-- Text without blanks is its own `strip()`. -/
lemma strip_eq_self {text : Str} (h : ∀ c ∈ text, isSpace c = false) : strip text = text :=
  rdropWhile_dropWhile_eq_self h

/-- ASCII text without blanks is one such. -/
lemma strip_of_plain {text : Str} (h : ∀ c ∈ text, c.toNat < 128 ∧ 33 ≤ c.toNat) :
    strip text = text := by
  refine strip_eq_self fun c hc => ?_
  obtain ⟨h128, h33⟩ := h c hc
  rw [isSpace, ← Bool.not_eq_true]
  simp only [Bool.or_eq_true, Bool.and_eq_true, decide_eq_true_eq, beq_iff_eq]
  omega

/-! ## Parts of a text -/

/-- `text.split(" ", 2)`. -/
def splitStatusLine (text : Str) : List Str :=
  match text.splitOn ' ' with
  | version :: code :: rest@(_ :: _) => [version, code, [' '].intercalate rest]
  | parts => parts

/-- `name_filter is None or name_filter in name`. -/
def selects (nameFilter : Option Str) (name : Str) : Bool :=
  nameFilter.all fun part => decide (part <:+: name)

/-! ## Integers -/

/-- The value of a digit. -/
def digitVal (c : Char) : Option ℕ :=
  let n := c.toNat
  if 48 ≤ n ∧ n ≤ 57 then some (n - 48)
  else if 97 ≤ n ∧ n ≤ 122 then some (n - 87)
  else if 65 ≤ n ∧ n ≤ 90 then some (n - 55)
  else none

/-- The digits of `int(text, base)`, with `acc` in front of them. Single underscores may stand
between digits; `after` says that a digit came last. -/
def intDigits (base : ℕ) : ℕ → Bool → Str → Option ℕ
  | acc, after, [] => if after then some acc else none
  | acc, after, c :: rest =>
    if c = '_' then if after then intDigits base acc false rest else none
    else
      match digitVal c with
      | some d => if d < base then intDigits base (acc * base + d) true rest else none
      | none => none

/-- The sign in front of a number, and the rest. -/
def splitSign : Str → Bool × Str
  | '-' :: rest => (true, rest)
  | '+' :: rest => (false, rest)
  | rest => (false, rest)

/-- The prefix `0x` that base sixteen allows, with one underscore after it. -/
def dropHexPrefix : Str → Str
  | '0' :: x :: '_' :: rest => if x = 'x' ∨ x = 'X' then rest else '0' :: x :: '_' :: rest
  | '0' :: x :: rest => if x = 'x' ∨ x = 'X' then rest else '0' :: x :: rest
  | rest => rest

/-- The zeros of the decimal digits of Unicode beyond ASCII, as of version 14. Later versions and
other runtimes have other ones. -/
def UNICODE_ZEROS : List ℕ :=
  [0x660, 0x6f0, 0x7c0, 0x966, 0x9e6, 0xa66, 0xae6, 0xb66, 0xbe6, 0xc66, 0xce6, 0xd66, 0xde6, 0xe50,
    0xed0, 0xf20, 0x1040, 0x1090, 0x17e0, 0x1810, 0x1946, 0x19d0, 0x1a80, 0x1a90, 0x1b50, 0x1bb0,
    0x1c40, 0x1c50, 0xa620, 0xa8d0, 0xa900, 0xa9d0, 0xa9f0, 0xaa50, 0xabf0, 0xff10, 0x104a0, 0x10d30,
    0x11066, 0x110f0, 0x11136, 0x111d0, 0x112f0, 0x11450, 0x114d0, 0x11650, 0x116c0, 0x11730,
    0x118e0, 0x11950, 0x11c50, 0x11d50, 0x11da0, 0x16a60, 0x16ac0, 0x16b50, 0x1d7ce, 0x1d7d8,
    0x1d7e2, 0x1d7ec, 0x1d7f6, 0x1e140, 0x1e2f0, 0x1e950, 0x1fbf0]

/-- The ASCII character that `int` takes a character for: the decimal digits and the blanks beyond
ASCII stand for those of ASCII, and the rest is no part of a number. -/
def asciiDecimal (zeros : List ℕ) (c : Char) : Char :=
  if c.toNat < 128 then c
  else if isSpace c then ' '
  else
    match zeros.find? fun first => first ≤ c.toNat ∧ c.toNat < first + 10 with
    | some first => (c.toNat - first).digitChar
    | none => '?'

/-- The blanks that `int` passes over: the separators `U+001C` to `U+001F` are none of them. -/
def isIntSpace (c : Char) : Bool := (9 ≤ c.toNat && c.toNat ≤ 13) || c.toNat == 32

/-- `int(text, base)` for the bases ten and sixteen, with the decimal digits that the runtime knows;
`none` is the `ValueError`. The limit of CPython on the number of digits is left out. -/
def pyInt (base : ℕ) (text : Str) (zeros : List ℕ := UNICODE_ZEROS) : Option ℤ :=
  let ascii := text.map (asciiDecimal zeros)
  let (negative, digits) := splitSign ((ascii.dropWhile isIntSpace).rdropWhile isIntSpace)
  (intDigits base 0 false (if base = 16 then dropHexPrefix digits else digits)).map
    fun n : ℕ => if negative then -(n : ℤ) else n

/-- `str(n)`. -/
def formatInt (n : ℤ) : Str :=
  if n < 0 then '-' :: Nat.toDigits 10 n.natAbs else Nat.toDigits 10 n.natAbs

/-- Of ASCII text without blanks `int` sees the characters themselves. -/
lemma pyInt_of_plain {base : ℕ} {text : Str} {zeros : List ℕ}
    (h : ∀ c ∈ text, c.toNat < 128 ∧ 33 ≤ c.toNat) :
    pyInt base text zeros =
      (intDigits base 0 false
        (if base = 16 then dropHexPrefix (splitSign text).2 else (splitSign text).2)).map
          fun n : ℕ => if (splitSign text).1 then -(n : ℤ) else n := by
  have hmap : text.map (asciiDecimal zeros) = text := by
    conv_rhs => rw [← List.map_id text]
    exact List.map_congr_left fun c hc => if_pos (h c hc).1
  have hspace : ∀ c ∈ text, isIntSpace c = false := by
    intro c hc
    have hrange := h c hc
    rw [isIntSpace, ← Bool.not_eq_true]
    simp only [Bool.or_eq_true, Bool.and_eq_true, decide_eq_true_eq, beq_iff_eq]
    omega
  rw [pyInt, hmap, rdropWhile_dropWhile_eq_self hspace]

/-- What a digit below sixteen looks like. -/
lemma digitChar_facts {d : ℕ} (h : d < 16) :
    digitVal d.digitChar = some d ∧ d.digitChar ≠ '_' ∧ d.digitChar ≠ '-' ∧ d.digitChar ≠ '+' ∧
      d.digitChar.toNat < 128 ∧ 33 ≤ d.digitChar.toNat ∧ d.digitChar ≠ 'x' ∧ d.digitChar ≠ 'X' ∧
      d.digitChar ≠ ';' := by
  have hall : ∀ d < 16, digitVal d.digitChar = some d ∧ d.digitChar ≠ '_' ∧ d.digitChar ≠ '-' ∧
      d.digitChar ≠ '+' ∧ d.digitChar.toNat < 128 ∧ 33 ≤ d.digitChar.toNat ∧ d.digitChar ≠ 'x' ∧
      d.digitChar ≠ 'X' ∧ d.digitChar ≠ ';' := by decide
  exact hall d h

section Digits

variable {base : ℕ} (hb : 1 < base) (hle : base ≤ 16)

include hb hle

/-- Every digit of a number is a digit below the base. -/
lemma exists_of_mem_toDigits (n : ℕ) {c : Char} (h : c ∈ Nat.toDigits base n) :
    ∃ d < 16, c = d.digitChar := by
  induction n using Nat.strong_induction_on with
  | _ n ih =>
    rw [Nat.toDigits_eq_if hb] at h
    split_ifs at h with hlt
    · exact ⟨n, by omega, by simpa using h⟩
    · rcases List.mem_append.mp h with h | h
      · exact ih _ (Nat.div_lt_self (by omega) hb) h
      · exact ⟨n % base, (Nat.mod_lt n (by omega)).trans_le hle, by simpa using h⟩

/-- **The digits of a number are read back.**

**Proof sketch.** Strong induction on the number: its last digit is its residue, and the ones before
it are the digits of the quotient. -/
lemma intDigits_toDigits (n acc : ℕ) (after : Bool) (rest : Str) :
    intDigits base acc after (Nat.toDigits base n ++ rest) =
      intDigits base (acc * base ^ (Nat.toDigits base n).length + n) true rest := by
  induction n using Nat.strong_induction_on generalizing acc after rest with
  | _ n ih =>
    rw [Nat.toDigits_eq_if hb]
    split_ifs with hlt
    · obtain ⟨hval, hund, -⟩ := digitChar_facts (show n < 16 by omega)
      simp only [List.cons_append, List.nil_append, intDigits, if_neg hund, hval, if_pos hlt,
        List.length_singleton, pow_one]
    · have hmod : n % base < base := Nat.mod_lt n (by omega)
      obtain ⟨hval, hund, -⟩ := digitChar_facts (hmod.trans_le hle)
      rw [List.append_assoc, ih _ (Nat.div_lt_self (by omega) hb)]
      simp only [List.cons_append, List.nil_append, intDigits, if_neg hund, hval, if_pos hmod,
        List.length_append, List.length_singleton]
      congr 1
      have hdiv := Nat.div_add_mod n base
      rw [pow_succ]
      calc (acc * base ^ (Nat.toDigits base (n / base)).length + n / base) * base + n % base
          = acc * (base ^ (Nat.toDigits base (n / base)).length * base) +
              (base * (n / base) + n % base) := by ring
        _ = _ := by rw [hdiv]

/-- The digits of a number are ASCII, and no blanks. -/
lemma toDigits_chars (n : ℕ) : ∀ c ∈ Nat.toDigits base n, c.toNat < 128 ∧ 33 ≤ c.toNat := by
  intro c hc
  obtain ⟨d, hd, rfl⟩ := exists_of_mem_toDigits hb hle _ hc
  obtain ⟨-, -, -, -, h1, h2, -⟩ := digitChar_facts hd
  exact ⟨h1, h2⟩

/-- The digits of a number have no sign in front. -/
lemma splitSign_toDigits (n : ℕ) :
    splitSign (Nat.toDigits base n) = (false, Nat.toDigits base n) := by
  obtain ⟨c, rest, hcons⟩ := List.exists_cons_of_ne_nil (Nat.toDigits_ne_nil (n := n) (b := base))
  obtain ⟨d, hd, hc⟩ := exists_of_mem_toDigits hb hle n (c := c) (by rw [hcons]; simp)
  obtain ⟨-, -, hminus, hplus, -⟩ := digitChar_facts hd
  rw [← hc] at hminus hplus
  rw [hcons]
  unfold splitSign
  split
  · simp_all
  · simp_all
  · rfl

/-- The digits of a number have no prefix `0x` in front. -/
lemma dropHexPrefix_toDigits (n : ℕ) :
    dropHexPrefix (Nat.toDigits base n) = Nat.toDigits base n := by
  have hx : ∀ c ∈ Nat.toDigits base n, c ≠ 'x' ∧ c ≠ 'X' := by
    intro c hc
    obtain ⟨d, hd, rfl⟩ := exists_of_mem_toDigits hb hle n hc
    obtain ⟨-, -, -, -, -, -, h1, h2, -⟩ := digitChar_facts hd
    exact ⟨h1, h2⟩
  unfold dropHexPrefix
  split
  · next x rest heq =>
    have := hx x (by rw [heq]; simp)
    rw [if_neg (by simp [this]), heq]
  · next x rest _ heq =>
    have := hx x (by rw [heq]; simp)
    rw [if_neg (by simp [this]), heq]
  · rfl

/-- **`int` of the digits of a number.** -/
theorem pyInt_toDigits (n : ℕ) (zeros : List ℕ) :
    pyInt base (Nat.toDigits base n) zeros = some (n : ℤ) := by
  have hdigits := intDigits_toDigits hb hle n 0 false []
  rw [List.append_nil] at hdigits
  rw [pyInt_of_plain (toDigits_chars hb hle n)]
  simp only [splitSign_toDigits hb hle, dropHexPrefix_toDigits hb hle, ite_self, hdigits, intDigits]
  simp

end Digits

/-- The decimal form of an integer is ASCII, has no blanks and no line ends, and is not empty. -/
lemma formatInt_chars (n : ℤ) :
    ∀ c ∈ formatInt n, c.toNat < 128 ∧ 33 ≤ c.toNat := by
  have hdigit := @toDigits_chars 10 (by omega) (by omega) n.natAbs
  intro c hc
  unfold formatInt at hc
  split_ifs at hc
  · rcases List.mem_cons.mp hc with rfl | hc
    · decide
    · exact hdigit c hc
  · exact hdigit c hc

/-- **An integer survives its decimal form.** -/
theorem pyInt_formatInt (n : ℤ) (zeros : List ℕ) : pyInt 10 (formatInt n) zeros = some n := by
  by_cases hneg : n < 0
  · have hform : formatInt n = '-' :: Nat.toDigits 10 n.natAbs := if_pos hneg
    have hdigits := @intDigits_toDigits 10 (by omega) (by omega) n.natAbs 0 false []
    rw [List.append_nil] at hdigits
    rw [pyInt_of_plain (formatInt_chars n), hform]
    simp only [splitSign]
    rw [if_neg (by omega), hdigits]
    simp only [intDigits, if_true, zero_mul, zero_add, Option.map_some]
    have habs : (n.natAbs : ℤ) = -n := by omega
    rw [habs, neg_neg]
  · rw [formatInt, if_neg hneg, pyInt_toDigits (by omega) (by omega)]
    congr 1
    omega

-- digits of any script count, and the separators of ASCII are no blanks
example : pyInt 10 [Char.ofNat 0x663, '_', '1'] = some 31 ∧ pyInt 10 [Char.ofNat 0x1c, '5'] = none := by
  decide

/-- The decimal form of an integer has no surrounding space. -/
lemma strip_formatInt (n : ℤ) : strip (formatInt n) = formatInt n := strip_of_plain (formatInt_chars n)

/-! ## `repr` -/

/-- Two lower-case hexadecimal digits. -/
def hexPair (n : ℕ) : Str := [Nat.digitChar (n / 16), Nat.digitChar (n % 16)]

/-- The quotes and the backslash. -/
def SINGLE_QUOTE : Char := Char.ofNat 39
@[inherit_doc SINGLE_QUOTE] def DOUBLE_QUOTE : Char := Char.ofNat 34
@[inherit_doc SINGLE_QUOTE] def BACKSLASH : Char := Char.ofNat 92

/-- A character inside quotes, as `repr` writes ASCII text. -/
def reprChar (quote c : Char) : Str :=
  if c = quote ∨ c = BACKSLASH then [BACKSLASH, c]
  else if c = '\t' then [BACKSLASH, 't']
  else if c = '\n' then [BACKSLASH, 'n']
  else if c = '\r' then [BACKSLASH, 'r']
  else if c.toNat < 32 ∨ 127 ≤ c.toNat then [BACKSLASH, 'x'] ++ hexPair c.toNat
  else [c]

/-- The text between quotes: double quotes if it contains single ones only. -/
def reprQuoted (text : Str) : Str :=
  let quote := if SINGLE_QUOTE ∈ text ∧ DOUBLE_QUOTE ∉ text then DOUBLE_QUOTE else SINGLE_QUOTE
  [quote] ++ text.flatMap (reprChar quote) ++ [quote]

/-- `repr(text)` of ASCII text. -/
def reprStr (text : Str) : String := String.ofList (reprQuoted text)

/-- `repr(data)` of bytes. -/
def reprBytes (data : List UInt8) : String :=
  String.ofList ('b' :: reprQuoted (data.map asciiChar))

end ChuMicro
