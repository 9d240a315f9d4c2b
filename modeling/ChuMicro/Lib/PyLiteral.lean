import Mathlib.Data.List.Basic
import Mathlib.Data.Nat.Digits.Defs
import Mathlib.Tactic.Ring

/-!
# Python's string literals

`repr` of a string and the reading of what it writes. Which characters outside ASCII are printable
is up to the Unicode database, a parameter.

## Main definitions

* `PyLiteral.repr` — the literal of a text.
* `PyLiteral.readLiteral` — the text of the literal at the front, and what comes after it.

## Main results

* `PyLiteral.readLiteral_repr` — a literal is read as the text it was made of.
* `PyLiteral.exists_suffix` — where plain text can be found inside a literal.
-/

namespace PyLiteral

/-- The quotes and the backslash. -/
def singleQuote : Char := Char.ofNat 39
@[inherit_doc singleQuote] def doubleQuote : Char := Char.ofNat 34
@[inherit_doc singleQuote] def backslash : Char := Char.ofNat 92

/-! ## Writing -/

/-- A number in hexadecimal digits, as many as wanted. -/
def hexDigits : ℕ → ℕ → List Char
  | 0, _ => []
  | n + 1, value => Nat.digitChar (value / 16 ^ n % 16) :: hexDigits n value

/-- A character by its number, in the shortest form that `repr` has for it. -/
def numbered (c : Char) : List Char :=
  if c.toNat < 0x100 then backslash :: 'x' :: hexDigits 2 c.toNat
  else if c.toNat < 0x10000 then backslash :: 'u' :: hexDigits 4 c.toNat
  else backslash :: 'U' :: hexDigits 8 c.toNat

/-- A character inside quotes. -/
def reprChar (printable : Char → Bool) (quote c : Char) : List Char :=
  if c = quote ∨ c = backslash then [backslash, c]
  else if c = '\t' then [backslash, 't']
  else if c = '\n' then [backslash, 'n']
  else if c = '\r' then [backslash, 'r']
  else if 32 ≤ c.toNat ∧ c.toNat < 127 ∨ 127 < c.toNat ∧ printable c = true then [c]
  else numbered c

/-- The quotes for a text: double ones if it contains single ones only. -/
def quoteOf (text : List Char) : Char :=
  if singleQuote ∈ text ∧ doubleQuote ∉ text then doubleQuote else singleQuote

/-- What is between the quotes. -/
def body (printable : Char → Bool) (quote : Char) (text : List Char) : List Char :=
  text.flatMap (reprChar printable quote)

/-- `repr(text)`. -/
def repr (printable : Char → Bool) (text : List Char) : List Char :=
  quoteOf text :: (body printable (quoteOf text) text ++ [quoteOf text])

/-! ## Reading -/

/-- The value of a hexadecimal digit. -/
def hexValue? (c : Char) : Option ℕ :=
  if 48 ≤ c.toNat ∧ c.toNat ≤ 57 then some (c.toNat - 48)
  else if 97 ≤ c.toNat ∧ c.toNat ≤ 102 then some (c.toNat - 87)
  else if 65 ≤ c.toNat ∧ c.toNat ≤ 70 then some (c.toNat - 55)
  else none

/-- A number in so many digits, and what comes after it. -/
def readHex : ℕ → ℕ → List Char → Option (ℕ × List Char)
  | 0, value, text => some (value, text)
  | _ + 1, _, [] => none
  | n + 1, value, c :: rest => (hexValue? c).bind fun digit => readHex n (16 * value + digit) rest

/-- A character by its number, and what comes after it. -/
def readNumbered (digits : ℕ) (text : List Char) : Option (Char × List Char) :=
  (readHex digits 0 text).map fun found => (Char.ofNat found.1, found.2)

/-- What a backslash begins, of the escapes that `repr` writes. -/
def readEscape : List Char → Option (Char × List Char)
  | [] => none
  | c :: rest =>
    if c = backslash ∨ c = singleQuote ∨ c = doubleQuote then some (c, rest)
    else if c = 't' then some ('\t', rest)
    else if c = 'n' then some ('\n', rest)
    else if c = 'r' then some ('\r', rest)
    else if c = 'x' then readNumbered 2 rest
    else if c = 'u' then readNumbered 4 rest
    else if c = 'U' then readNumbered 8 rest
    else none

/-- Hexadecimal digits are consumed. -/
lemma length_of_readHex {n value result : ℕ} {text rest : List Char}
    (h : readHex n value text = some (result, rest)) : rest.length ≤ text.length := by
  induction n generalizing value text with
  | zero =>
    cases h
    exact le_rfl
  | succ n ih =>
    cases text with
    | nil => cases h
    | cons c text =>
      obtain ⟨digit, -, hrest⟩ := Option.bind_eq_some_iff.mp h
      exact (ih hrest).trans (Nat.le_succ _)

/-- A numbered escape consumes its digits. -/
lemma length_of_readNumbered {digits : ℕ} {c : Char} {text rest : List Char}
    (h : readNumbered digits text = some (c, rest)) : rest.length ≤ text.length := by
  obtain ⟨⟨value, rest'⟩, hread, heq⟩ := Option.map_eq_some_iff.mp h
  cases heq
  exact length_of_readHex hread

/-- An escape takes something. -/
lemma length_of_readEscape {c : Char} {text rest : List Char}
    (h : readEscape text = some (c, rest)) : rest.length < text.length := by
  cases text with
  | nil => cases h
  | cons first text =>
    rw [readEscape] at h
    rw [List.length_cons, Nat.lt_succ_iff]
    split_ifs at h
    all_goals first
      | (cases h; exact le_rfl)
      | exact length_of_readNumbered h

/-- The text up to the closing quote, and what comes after it. -/
def readBody (quote : Char) (text : List Char) : Option (List Char × List Char) :=
  match text with
  | [] => none
  | c :: rest =>
    if c = quote then some ([], rest)
    else if c = backslash then
      match _h : readEscape rest with
      | none => none
      | some (value, rest') =>
        (readBody quote rest').map fun found => (value :: found.1, found.2)
    else if c = '\n' then none
    else (readBody quote rest).map fun found => (c :: found.1, found.2)
termination_by text.length
decreasing_by
  · exact (length_of_readEscape ‹_›).trans (Nat.lt_succ_self _)
  · exact Nat.lt_succ_self _

/-- **The text of the literal at the front**, and what comes after it. -/
def readLiteral : List Char → Option (List Char × List Char)
  | [] => none
  | quote :: rest =>
    if quote = singleQuote ∨ quote = doubleQuote then readBody quote rest else none

/-! ## Reading what was written -/

section RoundTrip

variable {printable : Char → Bool} {quote c : Char} {text rest : List Char}

/-- A digit that is written is read. -/
lemma hexValue?_digitChar {digit : ℕ} (h : digit < 16) :
    hexValue? (Nat.digitChar digit) = some digit := by
  revert digit
  decide

/-- The digits of a number are read back as the number. -/
lemma readHex_hexDigits (n value result : ℕ) (rest : List Char) :
    readHex n result (hexDigits n value ++ rest) =
      some (result * 16 ^ n + value % 16 ^ n, rest) := by
  induction n generalizing result with
  | zero => simp [hexDigits, readHex, Nat.mod_one]
  | succ n ih =>
    have hdigit : value / 16 ^ n % 16 < 16 := Nat.mod_lt _ (by decide)
    have hsum : value % 16 ^ (n + 1) = value % 16 ^ n + 16 ^ n * (value / 16 ^ n % 16) :=
      Nat.mod_pow_succ
    rw [hexDigits, List.cons_append, readHex, hexValue?_digitChar hdigit, Option.bind_some, ih,
      hsum]
    congr 2
    ring

/-- A character is read back from its number. -/
lemma readNumbered_hexDigits {n : ℕ} (h : c.toNat < 16 ^ n) (rest : List Char) :
    readNumbered n (hexDigits n c.toNat ++ rest) = some (c, rest) := by
  rw [readNumbered, readHex_hexDigits, Nat.mod_eq_of_lt h, Option.map_some, zero_mul, zero_add,
    Char.ofNat_toNat]

lemma toNat_lt (c : Char) : c.toNat < 16 ^ 8 := by
  have := c.val.toNat_lt
  exact lt_of_lt_of_le this (by norm_num)

/-- The closing quote ends the literal. -/
lemma readBody_quote (rest : List Char) : readBody quote (quote :: rest) = some ([], rest) := by
  rw [readBody, if_pos rfl]

/-- An escape is read as its character. -/
lemma readBody_escape (hquote : backslash ≠ quote) {text : List Char}
    (h : readEscape text = some (c, rest)) :
    readBody quote (backslash :: text) =
      (readBody quote rest).map fun found => (c :: found.1, found.2) := by
  rw [readBody, if_neg hquote, if_pos rfl]
  split
  · next hnone => rw [h] at hnone; cases hnone
  · next value rest' hsome =>
    rw [h] at hsome
    cases hsome
    rfl

/-- A plain character is read as itself. -/
lemma readBody_plain (hquote : c ≠ quote) (hbackslash : c ≠ backslash) (hnewline : c ≠ '\n') :
    readBody quote (c :: rest) =
      (readBody quote rest).map fun found => (c :: found.1, found.2) := by
  rw [readBody, if_neg hquote, if_neg hbackslash, if_neg hnewline]

/-- **A character is read as it was written.** -/
lemma readBody_reprChar (hquote : quote = singleQuote ∨ quote = doubleQuote) :
    readBody quote (reprChar printable quote c ++ rest) =
      (readBody quote rest).map fun found => (c :: found.1, found.2) := by
  have hne : backslash ≠ quote := by rcases hquote with rfl | rfl <;> decide
  rw [reprChar]
  split_ifs with hspecial htab hnewline hreturn hplain
  · refine readBody_escape hne (if_pos ?_)
    rcases hspecial with rfl | rfl
    · exact .inr hquote
    · exact .inl rfl
  · subst htab
    exact readBody_escape hne rfl
  · subst hnewline
    exact readBody_escape hne rfl
  · subst hreturn
    exact readBody_escape hne rfl
  · rw [not_or] at hspecial
    exact readBody_plain hspecial.1 hspecial.2 hnewline
  · rw [numbered]
    split_ifs with hshort hlong
    · exact readBody_escape hne (readNumbered_hexDigits (n := 2) hshort rest)
    · exact readBody_escape hne (readNumbered_hexDigits (n := 4) hlong rest)
    · exact readBody_escape hne (readNumbered_hexDigits (toNat_lt c) rest)

/-- **A literal is read back** up to its closing quote. -/
lemma readBody_body (hquote : quote = singleQuote ∨ quote = doubleQuote) :
    readBody quote (body printable quote text ++ rest) =
      (readBody quote rest).map fun found => (text ++ found.1, found.2) := by
  induction text with
  | nil => simp [body]
  | cons c text ih =>
    rw [body, List.flatMap_cons, List.append_assoc, readBody_reprChar hquote]
    rw [body] at ih
    rw [ih, Option.map_map]
    rfl

/-- One of the two quotes is chosen. -/
lemma quoteOf_cases (text : List Char) :
    quoteOf text = singleQuote ∨ quoteOf text = doubleQuote := by
  rw [quoteOf]
  split_ifs
  · exact .inr rfl
  · exact .inl rfl

/-- **A literal is read as the text it was made of.** -/
theorem readLiteral_repr (printable : Char → Bool) (text rest : List Char) :
    readLiteral (repr printable text ++ rest) = some (text, rest) := by
  have hquote := quoteOf_cases text
  rw [repr, List.cons_append, readLiteral, if_pos hquote, List.append_assoc, readBody_body hquote,
    List.singleton_append, readBody_quote, Option.map_some, List.append_nil]

/-! ### What comes after it -/

variable {d : Char} {literal : List Char}

/-- More text behind it does not change what is read. -/
lemma readHex_append {n value result : ℕ} (h : readHex n value text = some (result, rest))
    (more : List Char) : readHex n value (text ++ more) = some (result, rest ++ more) := by
  induction n generalizing value text with
  | zero =>
    cases h
    rfl
  | succ n ih =>
    cases text with
    | nil => cases h
    | cons c text =>
      obtain ⟨digit, hdigit, hrest⟩ := Option.bind_eq_some_iff.mp h
      rw [List.cons_append, readHex, hdigit]
      exact ih hrest

/-- More text behind an escape changes nothing. -/
lemma readNumbered_append {digits : ℕ} (h : readNumbered digits text = some (c, rest))
    (more : List Char) : readNumbered digits (text ++ more) = some (c, rest ++ more) := by
  obtain ⟨⟨value, rest'⟩, hread, heq⟩ := Option.map_eq_some_iff.mp h
  cases heq
  rw [readNumbered, readHex_append hread, Option.map_some]

/-- The same for every escape. -/
lemma readEscape_append (h : readEscape text = some (c, rest)) (more : List Char) :
    readEscape (text ++ more) = some (c, rest ++ more) := by
  cases text with
  | nil => cases h
  | cons first text =>
    rw [List.cons_append]
    rw [readEscape] at h ⊢
    split_ifs at h ⊢
    all_goals first
      | (cases h; rfl)
      | exact readNumbered_append h more

/-- What follows the closing quote is not looked at. -/
lemma readBody_append (h : readBody quote literal = some (text, rest)) (more : List Char) :
    readBody quote (literal ++ more) = some (text, rest ++ more) := by
  induction literal using readBody.induct quote generalizing text with
  | case1 => rw [readBody] at h; cases h
  | case2 tail =>
    rw [readBody_quote] at h
    cases h
    exact readBody_quote _
  | case3 tail hnone hquote =>
    rw [readBody, if_neg hquote, if_pos rfl] at h
    split at h
    · cases h
    · next hsome => rw [hnone] at hsome; cases hsome
  | case4 tail value tail' hsome hquote ih =>
    rw [readBody_escape hquote hsome] at h
    obtain ⟨⟨text', rest'⟩, hread, heq⟩ := Option.map_eq_some_iff.mp h
    cases heq
    rw [List.cons_append, readBody_escape hquote (readEscape_append hsome more), ih hread,
      Option.map_some]
  | case5 tail hquote hbackslash =>
    rw [readBody, if_neg hquote, if_neg hbackslash, if_pos rfl] at h
    cases h
  | case6 c tail hquote hbackslash hnewline ih =>
    rw [readBody_plain hquote hbackslash hnewline] at h
    obtain ⟨⟨text', rest'⟩, hread, heq⟩ := Option.map_eq_some_iff.mp h
    cases heq
    rw [List.cons_append, readBody_plain hquote hbackslash hnewline, ih hread, Option.map_some]

/-- What comes after a literal does not matter. -/
lemma readLiteral_append (h : readLiteral literal = some (text, rest)) (more : List Char) :
    readLiteral (literal ++ more) = some (text, rest ++ more) := by
  cases literal with
  | nil => cases h
  | cons quote literal =>
    rw [readLiteral] at h
    rw [List.cons_append, readLiteral]
    split_ifs at h ⊢
    exact readBody_append h more

/-- What is read first. -/
lemma eq_of_readBody (hbackslash : c ≠ backslash)
    (h : readBody quote (c :: literal) = some (d :: text, rest)) : c = d := by
  rw [readBody, if_neg hbackslash] at h
  split_ifs at h
  · cases h
  · obtain ⟨found, -, heq⟩ := Option.map_eq_some_iff.mp h
    cases heq
    rfl

end RoundTrip

/-! ## Looking for text in a literal -/

section Occurrences

variable {printable : Char → Bool} {quote c d : Char} {text rest word s : List Char}

/-- The characters that an escape is made of. -/
def escapeLetters : List Char :=
  [singleQuote, doubleQuote, backslash, 't', 'n', 'r', 'x', 'u', 'U'] ++
    (List.range 16).map Nat.digitChar

/-- The digits are those of hexadecimal numbers. -/
lemma mem_hexDigits {n value : ℕ} {d : Char} (h : d ∈ hexDigits n value) :
    d ∈ escapeLetters := by
  induction n with
  | zero => cases h
  | succ n ih =>
    rcases List.mem_cons.mp h with rfl | h
    · have hdigit : value / 16 ^ n % 16 < 16 := Nat.mod_lt _ (by decide)
      exact List.mem_append_right _ (List.mem_map_of_mem (List.mem_range.mpr hdigit))
    · exact ih h

/-- The shape of a numbered escape. -/
lemma numbered_eq (c : Char) :
    ∃ tail, numbered c = backslash :: tail ∧ ∀ d ∈ tail, d ∈ escapeLetters := by
  have hcons : ∀ {letter : Char} {n : ℕ}, letter ∈ escapeLetters →
      ∀ d ∈ letter :: hexDigits n c.toNat, d ∈ escapeLetters := fun hletter =>
    List.forall_mem_cons.mpr ⟨hletter, fun d hd => mem_hexDigits hd⟩
  rw [numbered]
  split_ifs
  · exact ⟨_, rfl, hcons (by decide)⟩
  · exact ⟨_, rfl, hcons (by decide)⟩
  · exact ⟨_, rfl, hcons (by decide)⟩

/-- A character is written as it is, or as an escape. -/
lemma reprChar_cases (hquote : quote = singleQuote ∨ quote = doubleQuote) :
    (reprChar printable quote c = [c] ∧ c ≠ '\n') ∨
      ∃ tail, reprChar printable quote c = backslash :: tail ∧ ∀ d ∈ tail, d ∈ escapeLetters := by
  rw [reprChar]
  split_ifs with hspecial htab hnewline hreturn hplain
  · refine .inr ⟨[c], rfl, List.forall_mem_singleton.mpr ?_⟩
    rcases hspecial with rfl | rfl
    · rcases hquote with rfl | rfl <;> decide
    · decide
  · exact .inr ⟨['t'], rfl, List.forall_mem_singleton.mpr (by decide)⟩
  · exact .inr ⟨['n'], rfl, List.forall_mem_singleton.mpr (by decide)⟩
  · exact .inr ⟨['r'], rfl, List.forall_mem_singleton.mpr (by decide)⟩
  · exact .inl ⟨rfl, hnewline⟩
  · exact .inr (numbered_eq c)

/-- Plain text at the front of a literal is at the front of its text. -/
lemma isPrefix_of_isPrefix_body (hquote : quote = singleQuote ∨ quote = doubleQuote)
    (hword : ∀ d ∈ word, d ≠ backslash ∧ d ≠ quote)
    (h : word <+: body printable quote text ++ quote :: rest) : word <+: text := by
  induction word generalizing text with
  | nil => exact List.nil_prefix
  | cons d word ih =>
    obtain ⟨⟨hbackslash, hnot⟩, hword⟩ := List.forall_mem_cons.mp hword
    cases text with
    | nil => exact absurd (List.cons_prefix_cons.mp h).1 hnot
    | cons c text =>
      rw [body, List.flatMap_cons] at h
      rcases @reprChar_cases printable quote c hquote with ⟨hplain, -⟩ | ⟨tail, hescape, -⟩
      · rw [hplain] at h
        obtain ⟨rfl, hrest⟩ := List.cons_prefix_cons.mp h
        exact List.cons_prefix_cons.mpr ⟨rfl, ih hword hrest⟩
      · rw [hescape] at h
        exact absurd (List.cons_prefix_cons.mp h).1 hbackslash

/-- **Plain text that is found inside a literal**, where no escape has its first character, is found
at a character of the text.

**Proof sketch.** Induction on the text. The place is inside what is written for the first
character, which then is the character itself, or further on. -/
theorem exists_suffix (hquote : quote = singleQuote ∨ quote = doubleQuote)
    (hfirst : d ∉ escapeLetters) (hword : ∀ e ∈ d :: word, e ≠ backslash ∧ e ≠ quote)
    (hs : s ≠ []) (hsuffix : s <:+ body printable quote text)
    (h : d :: word <+: s ++ quote :: rest) :
    ∃ t, t <:+ text ∧ s = body printable quote t ∧ d :: word <+: t := by
  induction text with
  | nil => exact absurd (List.suffix_nil.mp hsuffix) hs
  | cons c text ih =>
    obtain ⟨front, hfront⟩ := hsuffix
    rw [body, List.flatMap_cons] at hfront
    rcases List.append_eq_append_iff.mp hfront with ⟨s', hchar, rfl⟩ | ⟨more, -, hlater⟩
    · cases s' with
      | nil =>
        obtain ⟨t, ht, hbody, hfound⟩ := ih ⟨[], rfl⟩
        exact ⟨t, ht.trans (List.suffix_cons c text), hbody, hfound⟩
      | cons e s' =>
        obtain ⟨rfl, -⟩ := List.cons_prefix_cons.mp h
        rcases @reprChar_cases printable quote c hquote with ⟨hplain, -⟩ | ⟨tail, hescape, htail⟩
        · -- the character itself
          rw [hplain] at hchar
          have hall : front = [] ∧ d = c ∧ s' = [] := by
            cases front with
            | nil => simpa [eq_comm] using hchar
            | cons first front => simp at hchar
          obtain ⟨rfl, rfl, rfl⟩ := hall
          have hbody : [d] ++ text.flatMap (reprChar printable quote) =
              body printable quote (d :: text) := by rw [body, List.flatMap_cons, hplain]
          refine ⟨d :: text, List.suffix_rfl, hbody, ?_⟩
          exact isPrefix_of_isPrefix_body hquote hword (hbody ▸ h)
        · -- no escape has the first character of the word
          rw [hescape] at hchar
          have hmem : d ∈ backslash :: tail := hchar ▸ by simp
          rcases List.mem_cons.mp hmem with rfl | hmem
          · exact absurd (by decide) hfirst
          · exact absurd (htail d hmem) hfirst
    · obtain ⟨t, ht, hbody, hfound⟩ := ih ⟨more, hlater.symm⟩
      exact ⟨t, ht.trans (List.suffix_cons c text), hbody, hfound⟩

/-- **Plain text that is in a literal is in its text.** -/
lemma isInfix_of_isInfix_body (hquote : quote = singleQuote ∨ quote = doubleQuote)
    (hfirst : d ∉ escapeLetters) (hword : ∀ e ∈ d :: word, e ≠ backslash ∧ e ≠ quote)
    (h : d :: word <:+: quote :: (body printable quote text ++ [quote])) : d :: word <:+: text := by
  obtain ⟨s, hfound, hs⟩ := List.infix_iff_prefix_suffix.mp h
  rcases List.suffix_cons_iff.mp hs with rfl | hs
  · exact absurd (List.cons_prefix_cons.mp hfound).1 (hword d List.mem_cons_self).2
  · rcases List.suffix_concat_iff.mp hs with rfl | ⟨t, rfl, ht⟩
    · exact absurd (List.prefix_nil.mp hfound) (List.cons_ne_nil d word)
    · cases t with
      | nil => exact absurd (List.cons_prefix_cons.mp hfound).1 (hword d List.mem_cons_self).2
      | cons e t =>
        obtain ⟨u, hu, -, hstart⟩ :=
          exists_suffix hquote hfirst hword (List.cons_ne_nil e t) ht hfound
        exact hstart.isInfix.trans hu.isInfix

/-- The characters that are written as they are, whatever the quotes. -/
def IsPlain (c : Char) : Prop :=
  32 ≤ c.toNat ∧ c.toNat < 127 ∧ c ≠ singleQuote ∧ c ≠ doubleQuote ∧ c ≠ backslash

instance (c : Char) : Decidable (IsPlain c) := by unfold IsPlain; infer_instance

/-- A text of plain characters is its own literal body. -/
lemma body_of_isPlain (hquote : quote = singleQuote ∨ quote = doubleQuote)
    (h : ∀ c ∈ word, IsPlain c) : body printable quote word = word := by
  induction word with
  | nil => rfl
  | cons c word ih =>
    obtain ⟨⟨hlow, hhigh, hsingle, hdouble, hbackslash⟩, hword⟩ := List.forall_mem_cons.mp h
    have hne : c ≠ quote := by rcases hquote with rfl | rfl <;> assumption
    have hcontrol : ∀ {d : Char}, d.toNat < 32 → c ≠ d := fun hd heq => by
      rw [heq] at hlow
      omega
    rw [body, List.flatMap_cons, reprChar, if_neg (not_or.mpr ⟨hne, hbackslash⟩),
      if_neg (hcontrol (by decide)), if_neg (hcontrol (by decide)), if_neg (hcontrol (by decide)),
      if_pos (Or.inl ⟨hlow, hhigh⟩), List.singleton_append]
    rw [body] at ih
    rw [ih hword]

/-- The body of a literal is made character by character. -/
lemma body_append (front back : List Char) :
    body printable quote (front ++ back) =
      body printable quote front ++ body printable quote back :=
  List.flatMap_append

end Occurrences

end PyLiteral
