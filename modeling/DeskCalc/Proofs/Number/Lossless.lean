/-
  DeskCalc.Proofs.Number.Lossless — the text of a finite result tells which number it is.

  A whole number below 2^63 in absolute value goes through a 64-bit integer, which holds
  it exactly: nothing is cut off, and the bounds of the range are not met. The largest
  64-bit integer is itself no double, and rounding takes it to 2^63, so the limit is
  strict. Beyond it, and for numbers with a fraction, the shortest decimal is written.
  Either text is one numeral, which is read as the number it was written for; only the
  sign of zero is not written.

  Proved:
  - `value_eq_intCast_iff`: when the value of a double is a given whole number.
  - `toInt_toInt64`: the integer that such a double is converted to.
  - `resultText_of_whole`: the text of a whole result below the limit is that integer's.
  - `ofText_resultText`: the text of a finite result is one token, the number.
  - `resultText_lossless`: all this, and that different numbers have different texts.
-/

import DeskCalc.Proofs.Number.Plain
import DeskCalc.Proofs.Token.Spelling

namespace DeskCalc.Number

/-! ## Values -/

namespace Binary64

/-- The units of a finite double, with its sign. -/
def signedUnits (x : Float) : Int := if isNegative x then -(units (magnitude x) : Int) else units (magnitude x)

/-- The number that a finite double is. -/
def value (x : Float) : ℚ := signedUnits x / one

/-- A finite double as a 64-bit integer: its fraction is cut off, and what is out of the range becomes the
    bound on its side. -/
def toInt64 (x : Float) : Int64 := Int64.ofIntClamp ((signedUnits x).tdiv one)

theorem value_eq_intCast_iff (x : Float) (z : Int) : value x = z ↔ signedUnits x = z * one := by
  have positive : (one : ℚ) ≠ 0 := Nat.cast_ne_zero.mpr one_pos.ne'
  rw [value, div_eq_iff positive]
  exact_mod_cast Iff.rfl

/-- The sign and the size of a whole value. -/
theorem eq_of_signedUnits {x : Float} {z : Int} (h : signedUnits x = z * one) :
    units (magnitude x) = z.natAbs * one ∧ z = if isNegative x then -(z.natAbs : Int) else z.natAbs := by
  have positive : (0 : Int) < one := by exact_mod_cast one_pos
  have size := congrArg Int.natAbs h
  rw [Int.natAbs_mul, Int.natAbs_natCast] at size
  unfold signedUnits at h size
  by_cases negative : isNegative x = true
  · rw [if_pos negative] at h size ⊢
    have sign : z ≤ 0 := by
      by_contra above
      have := Int.mul_pos (not_le.mp above) positive
      omega
    exact ⟨by rw [← size, Int.natAbs_neg, Int.natAbs_natCast], by omega⟩
  · rw [if_neg negative] at h size ⊢
    have sign : 0 ≤ z := by
      by_contra below
      have := Int.mul_neg_of_neg_of_pos (not_le.mp below) positive
      omega
    exact ⟨by rw [← size, Int.natAbs_natCast], by omega⟩

theorem toInt_toInt64 {x : Float} {z : Int} (h : value x = z) (small : |z| < 2 ^ 63) : (toInt64 x).toInt = z := by
  have positive : (one : Int) ≠ 0 := by exact_mod_cast one_pos.ne'
  have bounds := abs_lt.mp small
  rw [toInt64, (value_eq_intCast_iff x z).mp h, Int.mul_tdiv_cancel _ positive]
  refine Int64.toInt_ofIntClamp ?_ ?_
  · show -2 ^ 63 ≤ z
    omega
  · show z ≤ 2 ^ 63 - 1
    omega

end Binary64

open Binary64 (isFinite isNegative magnitude ofMagnitude one toInt64 units value)

/-! ## Whole results -/

theorem wholeChars_text (negative : Bool) (n : Nat) :
    String.ofList (wholeChars negative n) = toString (if negative then -(n : Int) else n) := by
  cases negative with
  | false => rfl
  | true =>
    cases n with
    | zero => decide
    | succ n =>
      have digits : wholeChars true (n + 1) = ['-'] ++ Nat.toDigits 10 (n + 1) := by simp [wholeChars, signChars]
      rw [digits, String.ofList_append]
      rfl

/-- The text of a whole result below the limit is that of the integer. -/
theorem resultText_of_whole {x : Float} (h : isFinite x = true) {z : Int} (hz : value x = z) (small : |z| < 2 ^ 63) :
    resultText x = toString z := by
  obtain ⟨count, sign⟩ := Binary64.eq_of_signedUnits ((Binary64.value_eq_intCast_iff x z).mp hz)
  have whole : Binary64.whole? x = some z.natAbs := by
    rw [Binary64.whole?, if_pos ⟨h, by rw [count, Nat.mul_mod_left]⟩, count, Nat.mul_div_cancel _ one_pos]
  have below : z.natAbs < exactLimit := by
    have := abs_lt.mp small
    simp only [exactLimit]
    omega
  have chars : resultChars x = wholeChars (isNegative x) z.natAbs := by
    rw [resultChars, if_pos h, whole]
    exact if_pos below
  rw [resultText, chars, wholeChars_text, ← sign]

/-- Other finite results are written by their shortest decimal. -/
theorem resultText_of_not_whole {x : Float} (h : isFinite x = true) (far : ∀ z : Int, value x = z → 2 ^ 63 ≤ |z|) :
    resultText x = text x := by
  have chars : resultChars x = toChars x := by
    rw [resultChars, if_pos h]
    cases hw : Binary64.whole? x with
    | none => rfl
    | some n =>
      have count := (whole?_eq_some hw).2
      have hz : value x = ((if isNegative x then -(n : Int) else n : Int) : ℚ) := by
        rw [Binary64.value_eq_intCast_iff, Binary64.signedUnits, count]
        split <;> push_cast <;> ring
      have limit : exactLimit ≤ n := by
        have := far _ hz
        simp only [exactLimit]
        split at this <;> simp at this <;> omega
      exact if_neg (Nat.not_lt.mpr limit)
  rw [resultText, chars, text]

/-- The largest integer of 64 bits is no double, and the nearest one is the limit. -/
example : (Decimal.ofWhole (exactLimit - 1)).magnitude = (Decimal.ofWhole exactLimit).magnitude := by decide +kernel

/-! ## Reading a result -/

theorem ofText_resultText {v : Float} (h : isFinite v = true) :
    Token.ofText (resultText v) = [.number (withoutZeroSign v)] := by
  obtain ⟨negative, cs, d, chars, read⟩ := resultChars_of_finite h
  have value := ofChars?_resultChars h
  rw [chars] at value
  rw [Token.ofText, resultText, String.toList_ofList, chars]
  exact Token.scan_signed_numeral read value rfl

/-- Different finite numbers have different texts, unless both are zero. -/
theorem resultText_ne {x y : Float} (hx : isFinite x = true) (hy : isFinite y = true) (hne : x ≠ y)
    (nonzero : ¬(magnitude x = 0 ∧ magnitude y = 0)) : resultText x ≠ resultText y := by
  intro same
  have chars : resultChars x = resultChars y := String.ofList_injective same
  have read : withoutZeroSign x = withoutZeroSign y := by
    have hread := ofChars?_resultChars hx
    rw [chars, ofChars?_resultChars hy] at hread
    exact (Option.some.inj hread).symm
  have size : magnitude x = magnitude y := by
    rw [← magnitude_withoutZeroSign x, read, magnitude_withoutZeroSign]
  by_cases hz : magnitude x = 0
  · exact nonzero ⟨hz, size ▸ hz⟩
  · rw [withoutZeroSign_of_ne hz, withoutZeroSign_of_ne (size ▸ hz)] at read
    exact hne read

/-- The text of a finite result is plain. A whole number below 2^63 in absolute value is converted to the
    64-bit integer that it is, and written as it is; any other has its shortest decimal. The text is read as the
    number, zero without its sign, it is one token of an expression, and no other number but the other zero has
    the same. -/
theorem resultText_lossless {x : Float} (h : isFinite x = true) :
    Plain (resultChars x) ∧
      (∀ z : Int, value x = z → |z| < 2 ^ 63 → (toInt64 x).toInt = z ∧ resultText x = toString z) ∧
      ((∀ z : Int, value x = z → 2 ^ 63 ≤ |z|) → resultText x = text x) ∧
      ofChars? (resultChars x) = some (withoutZeroSign x) ∧
      Token.ofText (resultText x) = [.number (withoutZeroSign x)] ∧
      ∀ y, isFinite y = true → x ≠ y → ¬(magnitude x = 0 ∧ magnitude y = 0) → resultText x ≠ resultText y := by
  refine ⟨plain_resultChars h, fun z hz small => ?_, resultText_of_not_whole h, ?_, ?_, ?_⟩
  · exact ⟨Binary64.toInt_toInt64 hz small, resultText_of_whole h hz small⟩
  · exact ofChars?_resultChars h
  · exact ofText_resultText h
  · intro y hy hne nonzero
    exact resultText_ne h hy hne nonzero

/-- The largest double below the limit, with a minus sign, and the limit itself. -/
theorem resultText_lossless_largest :
    let x := ofMagnitude true 0x43DFFFFFFFFFFFFF
    let y := ofMagnitude true 0x43E0000000000000
    isFinite x = true ∧ Plain (resultChars x) ∧
      (value x = (-9223372036854774784 : Int) ∧ (toInt64 x).toInt = -9223372036854774784 ∧
        resultText x = "-9223372036854774784") ∧
      ofChars? (resultChars x) = some (withoutZeroSign x) ∧
      Token.ofText (resultText x) = [.number (withoutZeroSign x)] ∧
      isFinite y = true ∧ x ≠ y ∧ resultText x ≠ resultText y := by
  intro x y
  have finite : isFinite x = true := by decide +kernel
  have limit : isFinite y = true := by decide +kernel
  have differ : x ≠ y := by decide +kernel
  have nonzero : magnitude x ≠ 0 := by decide +kernel
  have whole : value x = (-9223372036854774784 : Int) :=
    (Binary64.value_eq_intCast_iff x _).mpr (by decide +kernel)
  obtain ⟨plain, below, -, read, token, other⟩ := resultText_lossless finite
  obtain ⟨integer, shown⟩ := below _ whole (by decide)
  exact ⟨finite, plain, ⟨whole, integer, shown⟩, read, token, limit, differ,
    other y limit differ fun both => nonzero both.1⟩

end DeskCalc.Number
