/-
  DeskCalc.Proofs.Number.ReadBack — what is written for a finite double is read as it.

  Rounding looks at a quotient only, so a common factor of both numbers, such as the
  zeros at the end of a decimal, changes nothing. The search for a shortest decimal
  ends in one that reads back or in the exact decimal, whose value is a whole number
  of units and is not moved by rounding.

  Proved:
  - `Binary64.ofMagnitude_magnitude`: a double is the one of its sign and its magnitude.
  - `Binary64.magnitude_ofMagnitude` / `Binary64.isNegative_ofMagnitude`: and these are what it was made of.
  - `nearest_mul`: rounding depends on the quotient alone.
  - `nearest_units`: the value of a finite magnitude is rounded to the magnitude.
  - `shortest_magnitude`: the shortest decimal reads back as its magnitude.
  - `ofChars?_toChars`: the text of a finite double reads back as the double.
  - `resultText_eq_error_iff`: a result is shown as `Error` when it is not finite, and only then.
-/

import Mathlib
import DeskCalc.Number.Numeral
import DeskCalc.Proofs.Number.Decimal

namespace DeskCalc.Number

open Binary64 (binade infinity one units)

/-! ## A double is its sign and its magnitude -/

namespace Binary64

theorem ofMagnitude_magnitude (x : Float) : ofMagnitude (isNegative x) (magnitude x) = x := by
  have bits : (if isNegative x then signBit + magnitude x else magnitude x) = x.toBits.toNat := by
    have := x.toBits.toNat_lt
    rw [isNegative, magnitude, show signBit = 0x8000000000000000 from rfl]
    split <;> rename_i h <;> simp only [decide_eq_true_eq] at h <;> omega
  rw [ofMagnitude, bits, UInt64.ofNat_toNat, Float.ofBits_toBits]

/-- Bits up to those of an infinity are kept: only of what is not a number one spelling stands for many. -/
theorem toBits_ofBits {b : UInt64} (h : b.toNat % signBit ≤ infinity) : (Float.ofBits b).toBits = b := by
  have number : @Float.Model.UnpackedFloat.isNaNBits Float.Model.Format.binary64 b.toBitVec = false := by
    simp only [Float.Model.UnpackedFloat.isNaNBits, decide_eq_false_iff_not, not_and, not_not]
    intro exponent
    have last : b.toNat / 2 ^ 52 % 2 ^ 11 = 2047 := by
      have value := congrArg BitVec.toNat exponent
      rw [Float.Model.UnpackedFloat.unpackExponent_def, BitVec.extractLsb'_toNat] at value
      simpa [Nat.shiftRight_eq_div_pow, Float.Model.Format.binary64] using value
    have first : b.toNat % 2 ^ 52 = 0 := by
      simp only [infinity, binade, signBit] at h
      omega
    refine BitVec.eq_of_toNat_eq ?_
    rw [Float.Model.UnpackedFloat.unpackMantissa_def, BitVec.extractLsb'_toNat]
    simpa [Float.Model.Format.binary64] using first
  have packed := @Float.Model.UnpackedFloat.pack_unpack Float.Model.Format.binary64 b.toBitVec
  rw [number] at packed
  exact UInt64.toBitVec_inj.mp (packed (by decide))

theorem toNat_toBits_ofMagnitude {m : Nat} (h : m ≤ infinity) (negative : Bool) :
    (ofMagnitude negative m).toBits.toNat = if negative then signBit + m else m := by
  have bound : m < signBit := Nat.lt_of_le_of_lt h (by decide)
  have small : (if negative then signBit + m else m) < 2 ^ 64 := by
    simp only [signBit] at *
    split <;> omega
  have bits := UInt64.toNat_ofNat_of_lt' small
  have magnitude : (if negative then signBit + m else m) % signBit = m := by
    cases negative <;> simp [Nat.mod_eq_of_lt bound]
  rw [ofMagnitude, toBits_ofBits, bits]
  rw [bits, magnitude]
  exact h

theorem magnitude_ofMagnitude {m : Nat} (h : m ≤ infinity) (negative : Bool) :
    magnitude (ofMagnitude negative m) = m := by
  have bound : m < signBit := Nat.lt_of_le_of_lt h (by decide)
  rw [magnitude, toNat_toBits_ofMagnitude h]
  cases negative <;> simp [Nat.mod_eq_of_lt bound]

theorem isNegative_ofMagnitude {m : Nat} (h : m ≤ infinity) (negative : Bool) :
    isNegative (ofMagnitude negative m) = negative := by
  have bound : m < signBit := Nat.lt_of_le_of_lt h (by decide)
  rw [isNegative, toNat_toBits_ofMagnitude h]
  cases negative <;> simp [bound]

end Binary64

/-! ## Rounding a quotient -/

theorem roundHalfEven_mul {k : Nat} (hk : 0 < k) (num den : Nat) :
    roundHalfEven (k * num) (k * den) = roundHalfEven num den := by
  have twice : 2 * (k * (num % den)) = k * (2 * (num % den)) := Nat.mul_left_comm 2 k _
  simp only [roundHalfEven, Nat.mul_div_mul_left _ _ hk, Nat.mul_mod_mul_left, twice, Nat.mul_lt_mul_left hk]

theorem nearest_mul {k : Nat} (hk : 0 < k) (num den : Nat) : nearest (k * num) (k * den) = nearest num den := by
  simp only [nearest, Nat.mul_assoc, Nat.mul_div_mul_left _ _ hk, roundHalfEven_mul hk]

theorem pow_two_pos (k : Nat) : 0 < Nat.pow 2 k := Nat.pow_pos (by decide)

theorem one_pos : 0 < one := by
  unfold one
  -- the exponent is made a variable, or the power would be evaluated
  generalize 1074 = k
  exact pow_two_pos k

/-- A whole number of units is not moved before its leading digits are counted. -/
theorem nearest_one (u : Nat) :
    nearest u one = min infinity ((u.log2 - 52) * binade + roundHalfEven u (Nat.pow 2 (u.log2 - 52))) := by
  rw [nearest, Nat.mul_div_cancel _ one_pos, Nat.mul_comm u one, roundHalfEven_mul one_pos]

/-- Zeros behind 53 binary digits are counted apart. -/
theorem log2_shifted {r : Nat} (hr : r < binade) (k : Nat) : ((binade + r) * Nat.pow 2 k).log2 = 52 + k := by
  have positive : 0 < (binade + r) * Nat.pow 2 k := Nat.mul_pos (by omega) (pow_two_pos k)
  refine (Nat.log2_eq_iff (Nat.ne_of_gt positive)).mpr ⟨?_, ?_⟩
  · rw [Nat.pow_add]
    exact Nat.mul_le_mul_right _ (Nat.le_add_right binade r)
  · rw [show 52 + k + 1 = 53 + k by omega, Nat.pow_add]
    exact Nat.mul_lt_mul_of_pos_right (Nat.add_lt_add_left hr binade) (pow_two_pos k)

theorem nearest_units {m : Nat} (h : m < infinity) : nearest (units m) one = m := by
  suffices exact : ((units m).log2 - 52) * binade + roundHalfEven (units m) (Nat.pow 2 ((units m).log2 - 52)) = m by
    rw [nearest_one, exact]
    exact Nat.min_eq_right (Nat.le_of_lt h)
  by_cases hm : m < 2 * binade
  · -- the first two binades: the whole numbers of units are the magnitudes
    have places : m.log2 - 52 = 0 := by
      by_cases hz : m = 0
      · subst hz
        rfl
      · have := (Nat.log2_lt (k := 53) hz).mpr hm
        omega
    have exact := roundHalfEven_exact m (show 0 < 1 by decide)
    rw [Nat.mul_one] at exact
    rw [Binary64.units_of_lt hm, places, Nat.zero_mul, Nat.zero_add]
    exact exact
  · -- further out 53 binary digits stand before `m / binade - 1` zeros
    have tail := Nat.mod_lt m (show 0 < binade by decide)
    have far : 1 ≤ m / binade := (Nat.le_div_iff_mul_le (by decide)).mpr (by omega)
    rw [units, if_neg hm, log2_shifted tail, Nat.add_sub_cancel_left, roundHalfEven_exact _ (pow_two_pos _)]
    calc (m / binade - 1) * binade + (binade + m % binade)
      _ = (m / binade - 1 + 1) * binade + m % binade := by rw [Nat.succ_mul, Nat.add_assoc]
      _ = m / binade * binade + m % binade := by rw [Nat.sub_add_cancel far]
      _ = m := Nat.div_add_mod' m binade

/-! ## The shortest decimal -/

namespace Decimal

theorem pow_ten (k : Nat) : Nat.pow 10 k = Nat.pow 5 k * Nat.pow 2 k := Nat.mul_pow 5 2 k

/-- Dropping the zeros at the end of a decimal does not change its value. -/
theorem strip_magnitude (n places : Nat) : (strip n places).magnitude = (⟨n, places⟩ : Decimal).magnitude := by
  induction places generalizing n with
  | zero => rfl
  | succ places ih =>
    rw [strip]
    split
    · rename_i h
      have ten : n = 10 * (n / 10) := by omega
      have value := nearest_mul (show 0 < 10 by decide) (n / 10) (Nat.pow 10 places)
      rw [← ten, Nat.mul_comm] at value
      rw [ih]
      exact value.symm
    · rfl

end Decimal

/-- A unit is `5 ^ k` over `10 ^ k`. -/
theorem nearest_tenths (u k : Nat) : nearest (u * Nat.pow 5 k) (Nat.pow 10 k) = nearest u (Nat.pow 2 k) := by
  rw [Decimal.pow_ten, Nat.mul_comm u]
  exact nearest_mul (Nat.pow_pos (by decide)) u (Nat.pow 2 k)

theorem exact_magnitude {m : Nat} (h : m < infinity) : (Shortest.exact m).magnitude = m := by
  have value := nearest_units h
  unfold one at value
  unfold Decimal.magnitude Shortest.exact
  generalize 1074 = k at value ⊢
  rw [nearest_tenths, value]

/-- The shortest decimal of a finite magnitude is read as the magnitude. -/
theorem shortest_magnitude {m : Nat} (h : m < infinity) : (shortest m).magnitude = m := by
  rw [shortest, Decimal.strip_magnitude]
  cases hs : Shortest.search m with
  | none => exact exact_magnitude h
  | some d => exact Shortest.search_readsBack hs

/-! ## Doubles as text -/

/-- A text of numeric characters is read with its sign in front as it is without. -/
theorem ofChars?_signed {cs : List Char} (h : ∀ c ∈ cs, Decimal.isNumeric c = true) (negative : Bool) :
    ofChars? (signChars negative ++ cs) = (Decimal.ofChars? cs).map (ofDecimal negative) := by
  cases negative with
  | true => rfl
  | false =>
    show ofChars? cs = _
    unfold ofChars?
    split
    · exact absurd (h '-' List.mem_cons_self) (by decide)
    · rfl

theorem ofChars?_signChars {cs : List Char} {d : Decimal} (h : Decimal.ofChars? cs = some d) (negative : Bool) :
    ofChars? (signChars negative ++ cs) = some (ofDecimal negative d) := by
  rw [ofChars?_signed (Decimal.isNumeric_of_ofChars? h).2, h]
  rfl

theorem toChars_of_finite {x : Float} (h : Binary64.isFinite x = true) :
    toChars x = signChars (Binary64.isNegative x) ++ (shortest (Binary64.magnitude x)).toChars := by
  rw [toChars, if_pos ((Binary64.isFinite_iff x).mp h)]

theorem ofDecimal_shortest {x : Float} (h : Binary64.isFinite x = true) :
    ofDecimal (Binary64.isNegative x) (shortest (Binary64.magnitude x)) = x := by
  rw [ofDecimal, shortest_magnitude ((Binary64.isFinite_iff x).mp h), Binary64.ofMagnitude_magnitude]

/-- What is written for a finite double reads back as it, the sign of zero included. -/
theorem ofChars?_toChars {x : Float} (h : Binary64.isFinite x = true) : ofChars? (toChars x) = some x := by
  rw [toChars_of_finite h, ofChars?_signChars (Decimal.ofChars?_toChars _), ofDecimal_shortest h]

/-! ## Results -/

/-- A finite result is shown as a numeral. -/
theorem resultChars_of_finite {x : Float} (h : Binary64.isFinite x = true) :
    ∃ negative cs d, resultChars x = signChars negative ++ cs ∧ Decimal.ofChars? cs = some d := by
  have shortest_form : ∃ negative cs d, toChars x = signChars negative ++ cs ∧ Decimal.ofChars? cs = some d :=
    ⟨_, _, _, toChars_of_finite h, Decimal.ofChars?_toChars _⟩
  rw [resultChars, if_pos h]
  cases Binary64.whole? x with
  | none => exact shortest_form
  | some n =>
    show ∃ negative cs d, (if n < exactLimit then _ else _) = _ ∧ _
    split
    · exact ⟨_, _, _, rfl, Decimal.ofChars?_of_digits Nat.toDigits_ne_nil (Decimal.digits_toDigits n)⟩
    · exact shortest_form

theorem resultText_eq_error_iff (x : Float) : resultText x = "Error" ↔ Binary64.isFinite x = false := by
  constructor
  · intro h
    cases hf : Binary64.isFinite x with
    | false => rfl
    | true =>
      obtain ⟨negative, cs, d, eq, hd⟩ := resultChars_of_finite hf
      have chars : signChars negative ++ cs = errorChars := by
        rw [← eq, ← String.toList_ofList (l := resultChars x)]
        exact congrArg String.toList h
      have letter : 'E' ∈ signChars negative ++ cs := by
        rw [chars]
        decide
      rcases List.mem_append.mp letter with hm | hm
      · cases negative with
        | true => exact absurd hm (by decide)
        | false => cases hm
      · cases (Decimal.isNumeric_of_ofChars? hd).2 'E' hm
  · intro h
    rw [resultText, resultChars_of_not_finite h]
    rfl

end DeskCalc.Number
