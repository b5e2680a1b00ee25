/-
  DeskCalc.Number.Numeral — doubles as text.

  A numeral is an optional minus sign and a decimal in plain positional form. A
  double is written as the numeral of its shortest decimal; what is not finite has
  a name instead. A numeral of any length is read as the nearest double, so a large
  one is infinite and a small one zero. A result is written more soberly: a whole
  number below 2^63 exactly, zero without a sign, and any double that is not finite
  as `Error`.

  Proved:
  - `resultChars_of_not_finite`: a result that is not finite is `Error`.
-/

import DeskCalc.Number.Shortest

namespace DeskCalc.Number

/-! ## Reading -/

/-- The double nearest to a decimal, with the given sign. -/
def ofDecimal (negative : Bool) (d : Decimal) : Float := Binary64.ofMagnitude negative d.magnitude

def ofChars? : List Char → Option Float
  | '-' :: cs => (Decimal.ofChars? cs).map (ofDecimal true)
  | cs => (Decimal.ofChars? cs).map (ofDecimal false)

/-! ## Writing -/

def signChars (negative : Bool) : List Char := if negative then ['-'] else []

def toChars (x : Float) : List Char :=
  let m := Binary64.magnitude x
  if m < Binary64.infinity then signChars (Binary64.isNegative x) ++ (shortest m).toChars
  else if m = Binary64.infinity then signChars (Binary64.isNegative x) ++ ['i', 'n', 'f']
  else ['N', 'a', 'N']

def text (x : Float) : String := String.ofList (toChars x)

/-! ## Results -/

/-- What is shown in place of a result that there is not. -/
def errorChars : List Char := ['E', 'r', 'r', 'o', 'r']

/-- Whole numbers from here on are written by their shortest decimal. -/
def exactLimit : Nat := 0x8000000000000000

def wholeChars (negative : Bool) (n : Nat) : List Char :=
  signChars (negative && n != 0) ++ Nat.toDigits 10 n

def resultChars (x : Float) : List Char :=
  if Binary64.isFinite x then
    match Binary64.whole? x with
    | some n => if n < exactLimit then wholeChars (Binary64.isNegative x) n else toChars x
    | none => toChars x
  else errorChars

def resultText (x : Float) : String := String.ofList (resultChars x)

theorem resultChars_of_not_finite {x : Float} (h : Binary64.isFinite x = false) : resultChars x = errorChars := by
  simp [resultChars, h]

end DeskCalc.Number
