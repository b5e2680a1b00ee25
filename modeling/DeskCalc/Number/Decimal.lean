/-
  DeskCalc.Number.Decimal — decimals, and their plain positional text.

  A decimal is a whole number of digits over a power of ten. Its text is the whole
  part, and, when it has decimal places, a point and exactly that many digits;
  there is no exponent. Reading takes the same texts and the two short forms that
  people type, a number ending in its point and one beginning with it; a point
  alone is no number.

  Proved:
  - `ofChars?_digits`: the text of a decimal without places is read back as it.
-/

namespace DeskCalc.Number

/-- The number `digits` over the `places`-th power of ten. -/
structure Decimal where
  digits : Nat
  places : Nat
  deriving DecidableEq, Repr

namespace Decimal

def ofWhole (n : Nat) : Decimal := ⟨n, 0⟩

/-! ## Writing -/

/-- The last `places` decimal digits of `n`, with leading zeros. -/
def fraction (n : Nat) : Nat → List Char
  | 0 => []
  | places + 1 => fraction (n / 10) places ++ [(n % 10).digitChar]

def toChars (d : Decimal) : List Char :=
  let whole := Nat.toDigits 10 (d.digits / Nat.pow 10 d.places)
  if d.places = 0 then whole else whole ++ '.' :: fraction d.digits d.places

/-- Drop the zeros that end the digits after the point. -/
def strip (digits : Nat) : Nat → Decimal
  | 0 => ⟨digits, 0⟩
  | places + 1 => if digits % 10 = 0 then strip (digits / 10) places else ⟨digits, places + 1⟩

/-! ## Reading -/

/-- The characters that numbers are written with. -/
def isNumeric (c : Char) : Bool := c.isDigit || c == '.'

/-- Read digits with at most one point among them, and at least one digit. -/
def ofChars? (cs : List Char) : Option Decimal :=
  let whole := cs.takeWhile Char.isDigit
  match cs.dropWhile Char.isDigit with
  | [] => if whole.isEmpty then none else some (ofWhole (Nat.ofDigitChars 10 whole 0))
  | point :: rest =>
    if point = '.' ∧ rest.all Char.isDigit ∧ ¬(whole.isEmpty ∧ rest.isEmpty) then
      some ⟨Nat.ofDigitChars 10 (whole ++ rest) 0, rest.length⟩
    else none

theorem ofChars?_digits (n : Nat) : ofChars? (ofWhole n).toChars = some (ofWhole n) := by
  have digit : ∀ c ∈ Nat.toDigits 10 n, c.isDigit = true :=
    fun c hc => Nat.isDigit_of_mem_toDigits (by decide) (by decide) hc
  have taken : (Nat.toDigits 10 n).takeWhile Char.isDigit = Nat.toDigits 10 n := by
    rw [← List.append_nil (Nat.toDigits 10 n), List.takeWhile_append_of_pos digit, List.takeWhile_nil]
  have dropped : (Nat.toDigits 10 n).dropWhile Char.isDigit = [] := by
    rw [← List.append_nil (Nat.toDigits 10 n), List.dropWhile_append_of_pos digit, List.dropWhile_nil]
  simp [ofChars?, toChars, ofWhole, taken, dropped, Nat.toDigits_ne_nil, Nat.ofDigitChars_ten_toDigits]

end Decimal

end DeskCalc.Number
