/-
  DeskCalc.Number.Shortest — the shortest decimal of a double.

  Of the decimals that are nearest to a given magnitude and no other, `shortest`
  takes one with the fewest digits, and of these the closest to the exact value;
  of two equally close ones it is the upper. The exact value of a finite magnitude
  is a whole number of units. With `n` digits kept it lies between two decimals,
  its first `n` digits followed by zeros and the next one up, and if any decimal of
  `n` digits reads back, one of these two does. Seventeen digits always suffice;
  the exact decimal closes the search, so that what is written reads back whether
  or not one relies on that.

  Proved:
  - `search_readsBack`: what the search finds reads back as the magnitude.
-/

import DeskCalc.Number.Decimal
import DeskCalc.Number.Rounding

namespace DeskCalc.Number

namespace Decimal

/-- The magnitude that a decimal is read as. -/
def magnitude (d : Decimal) : Nat := nearest d.digits (Nat.pow 10 d.places)

end Decimal

namespace Shortest

/-- Enough decimal places for the least positive double to show seventeen digits. -/
def places : Nat := 340

/-- The exact decimal of a finite magnitude: a unit is 5^1074 over 10^1074. -/
def exact (m : Nat) : Decimal := ⟨Binary64.units m * Nat.pow 5 1074, 1074⟩

/-- The value of `m` in units of the last of these places, what is left over cut off. -/
def scaled (m : Nat) : Nat := Binary64.units m * Nat.pow 10 places / Binary64.one

/-- `c` followed by `k` zeros, counted in units of the last place. -/
def grid (c k : Nat) : Decimal := ⟨c * Nat.pow 10 (k - places), places - k⟩

/-- Whether the upper of the two decimals `grid c k` and `grid (c + 1) k` is at least as close to the
    value of `m` as the lower. -/
def upperIsCloser (m c k : Nat) : Bool :=
  decide ((2 * c + 1) * Nat.pow 10 k * Binary64.one ≤ 2 * Binary64.units m * Nat.pow 10 places)

/-- A decimal that keeps the digits of `s = scaled m` but the last `k`, rounded down or up, and reads
    back as `m`: the closest one, if there is one. -/
def candidate (m s k : Nat) : Option Decimal :=
  let c := s / Nat.pow 10 k
  let byCloseness := if upperIsCloser m c k then [grid (c + 1) k, grid c k] else [grid c k, grid (c + 1) k]
  byCloseness.find? fun d => d.magnitude == m

/-- The first candidate with 1, 2, … 17 digits. -/
def search (m : Nat) : Option Decimal :=
  let s := scaled m
  let size := (Nat.toDigits 10 s).length
  (List.range 17).findSome? fun i => candidate m s (size - (i + 1))

theorem candidate_readsBack {m s k : Nat} {d : Decimal} (h : candidate m s k = some d) : d.magnitude = m := by
  simpa using List.find?_some h

theorem search_readsBack {m : Nat} {d : Decimal} (h : search m = some d) : d.magnitude = m := by
  obtain ⟨i, _, hi⟩ := List.exists_of_findSome?_eq_some h
  exact candidate_readsBack hi

end Shortest

/-- The shortest decimal of a finite magnitude, without zeros after its last digit. -/
def shortest (m : Nat) : Decimal :=
  let d := (Shortest.search m).getD (Shortest.exact m)
  Decimal.strip d.digits d.places

end DeskCalc.Number
