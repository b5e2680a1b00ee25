/-
  DeskCalc.Proofs.Number.Result — a result is read back from its text, but for the sign of zero.

  A whole result below 2^63 is written as the whole number it is. That number counts
  the units of the result, so it is rounded to its magnitude when it is read. Other
  results are written by their shortest decimal. Only negative zero is not read back:
  it is written without its sign, and as a number it is equal to what is read.

  Proved:
  - `magnitude_withoutZeroSign` / `isFinite_withoutZeroSign`: the size of a number does not depend on the sign of zero.
  - `ofChars?_resultChars`: what the text of a result is read as.
  - `resultChars_withoutZeroSign`: the text does not tell the two zeros apart.
  - `withoutZeroSign_beq`: what is read is equal to the result, as a number.
-/

import DeskCalc.Proofs.Number.ReadBack

namespace DeskCalc.Number

open Binary64 (isFinite magnitude ofMagnitude one units)

/-- The same number, zero without a sign. -/
def withoutZeroSign (x : Float) : Float := if magnitude x = 0 then ofMagnitude false 0 else x

theorem withoutZeroSign_of_ne {x : Float} (h : magnitude x ≠ 0) : withoutZeroSign x = x := if_neg h

theorem withoutZeroSign_of_zero {x : Float} (h : magnitude x = 0) : withoutZeroSign x = ofMagnitude false 0 := if_pos h

theorem magnitude_zero : magnitude (ofMagnitude false 0) = 0 := Binary64.magnitude_ofMagnitude (Nat.zero_le _) false

theorem magnitude_withoutZeroSign (x : Float) : magnitude (withoutZeroSign x) = magnitude x := by
  by_cases hz : magnitude x = 0
  · rw [withoutZeroSign_of_zero hz, magnitude_zero, hz]
  · rw [withoutZeroSign_of_ne hz]

theorem isFinite_withoutZeroSign (x : Float) : isFinite (withoutZeroSign x) = isFinite x := by
  rw [Bool.eq_iff_iff, Binary64.isFinite_iff, Binary64.isFinite_iff, magnitude_withoutZeroSign]

theorem isFinite_of_magnitude_zero {x : Float} (h : magnitude x = 0) : isFinite x = true := by
  rw [Binary64.isFinite_iff, h]
  decide

/-! ## Whole numbers -/

theorem whole?_of_magnitude_zero {x : Float} (h : magnitude x = 0) : Binary64.whole? x = some 0 := by
  have none : units 0 = 0 := Binary64.units_of_lt (by decide)
  rw [Binary64.whole?, if_pos ⟨isFinite_of_magnitude_zero h, by rw [h, none, Nat.zero_mod]⟩, h, none, Nat.zero_div]

theorem whole?_eq_some {x : Float} {n : Nat} (h : Binary64.whole? x = some n) :
    isFinite x = true ∧ units (magnitude x) = n * one := by
  unfold Binary64.whole? at h
  split at h
  · rename_i whole
    refine ⟨whole.1, ?_⟩
    rw [← Option.some.inj h]
    exact (Nat.div_mul_cancel (Nat.dvd_of_mod_eq_zero whole.2)).symm
  · cases h

/-- The whole number that a finite double is, is rounded to its magnitude. -/
theorem magnitude_ofWhole {x : Float} {n : Nat} (h : Binary64.whole? x = some n) :
    (Decimal.ofWhole n).magnitude = magnitude x := by
  obtain ⟨finite, count⟩ := whole?_eq_some h
  have scaled := nearest_mul one_pos n 1
  rw [Nat.mul_one, Nat.mul_comm, ← count, nearest_units ((Binary64.isFinite_iff x).mp finite)] at scaled
  exact scaled.symm

theorem magnitude_eq_zero_iff {x : Float} {n : Nat} (h : Binary64.whole? x = some n) : magnitude x = 0 ↔ n = 0 := by
  constructor
  · intro hz
    rw [whole?_of_magnitude_zero hz] at h
    exact (Option.some.inj h).symm
  · rintro rfl
    rw [← magnitude_ofWhole h]
    decide +kernel

theorem ofChars?_wholeChars {x : Float} {n : Nat} (h : Binary64.whole? x = some n) :
    ofChars? (wholeChars (Binary64.isNegative x) n) = some (withoutZeroSign x) := by
  have read := ofChars?_signChars (Decimal.ofChars?_of_digits Nat.toDigits_ne_nil (Decimal.digits_toDigits n))
    (Binary64.isNegative x && n != 0)
  rw [wholeChars, read, Nat.ofDigitChars_ten_toDigits, ofDecimal, magnitude_ofWhole h]
  by_cases hn : n = 0
  · have hz := (magnitude_eq_zero_iff h).mpr hn
    rw [withoutZeroSign_of_zero hz, hz, hn, bne_self_eq_false, Bool.and_false]
  · have hz := fun hz => hn ((magnitude_eq_zero_iff h).mp hz)
    rw [withoutZeroSign_of_ne hz, bne_iff_ne.mpr hn, Bool.and_true, Binary64.ofMagnitude_magnitude]

/-! ## Results -/

theorem resultChars_of_zero {x : Float} (h : magnitude x = 0) : resultChars x = ['0'] := by
  rw [resultChars, if_pos (isFinite_of_magnitude_zero h), whole?_of_magnitude_zero h]
  simp [exactLimit, wholeChars, signChars]

theorem resultChars_withoutZeroSign (x : Float) : resultChars (withoutZeroSign x) = resultChars x := by
  by_cases hz : magnitude x = 0
  · rw [withoutZeroSign_of_zero hz, resultChars_of_zero hz, resultChars_of_zero magnitude_zero]
  · rw [withoutZeroSign_of_ne hz]

/-- The text of a finite result is read as it, zero without its sign. -/
theorem ofChars?_resultChars {x : Float} (h : isFinite x = true) :
    ofChars? (resultChars x) = some (withoutZeroSign x) := by
  by_cases hz : magnitude x = 0
  · rw [resultChars_of_zero hz, withoutZeroSign_of_zero hz]
    decide +kernel
  have shortest_text : ofChars? (toChars x) = some (withoutZeroSign x) := by
    rw [withoutZeroSign_of_ne hz, ofChars?_toChars h]
  rw [resultChars, if_pos h]
  cases hw : Binary64.whole? x with
  | none => exact shortest_text
  | some n =>
    show ofChars? (if n < exactLimit then _ else _) = _
    split
    · exact ofChars?_wholeChars hw
    · exact shortest_text

/-- The two zeros are equal, and a finite double is equal to itself. -/
theorem withoutZeroSign_beq {x : Float} (h : isFinite x = true) : (withoutZeroSign x == x) = true := by
  by_cases hz : magnitude x = 0
  · have zero := Binary64.ofMagnitude_magnitude x
    rw [hz] at zero
    rw [withoutZeroSign_of_zero hz, ← zero]
    cases Binary64.isNegative x <;> decide +kernel
  · rw [withoutZeroSign_of_ne hz, Float.beq_self_iff]
    rintro rfl
    exact absurd h (by decide +kernel)

end DeskCalc.Number
