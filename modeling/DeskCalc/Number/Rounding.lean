/-
  DeskCalc.Number.Rounding — the double nearest to a quotient of naturals.

  `nearest num den` rounds num / den to the nearest magnitude, a tie going to the
  even one, in one step whatever the size of the two numbers. The quotient is first
  counted in units; with `e` the number of binary places it has beyond the 53 that
  a double keeps, it is rounded to a multiple of 2^e units. The count of multiples
  and `e` together are the magnitude: a carry out of the 53 places lands on the next
  power of two by itself. Too large a quotient gives infinity.

  Proved:
  - `roundHalfEven_exact`: a quotient without remainder is not moved.
  - `nearest_le_infinity`: rounding never leaves the range of magnitudes of numbers.
-/

import DeskCalc.Number.Binary64

namespace DeskCalc.Number

/-- The whole number nearest to `num / den`, a half going to the even neighbour. -/
def roundHalfEven (num den : Nat) : Nat :=
  let q := num / den
  let twice := 2 * (num % den)
  if twice < den then q
  else if den < twice then q + 1
  else q + q % 2

/-- The magnitude nearest to `num / den`. -/
def nearest (num den : Nat) : Nat :=
  let scaled := num * Binary64.one
  let e := (scaled / den).log2 - 52
  min Binary64.infinity (e * Binary64.binade + roundHalfEven scaled (den * Nat.pow 2 e))

theorem roundHalfEven_exact (q : Nat) {den : Nat} (h : 0 < den) : roundHalfEven (q * den) den = q := by
  simp [roundHalfEven, h]

theorem nearest_le_infinity (num den : Nat) : nearest num den ≤ Binary64.infinity := Nat.min_le_left _ _

end DeskCalc.Number
