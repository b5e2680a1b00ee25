/-
  DeskCalc.Proofs.Number.Plain — the form of what is written for a finite double.

  A plain numeral is an optional minus sign and digits, and where there are decimal
  places a point and their digits. It has no exponent, and a point has digits on both
  sides of it, although numerals that want them are read as well.

  Proved:
  - `plain_toChars`: the text of a finite double is plain.
  - `plain_resultChars` / `resultChars_ne_nil`: so is the text of a finite result, and no result is empty.
-/

import DeskCalc.Proofs.Number.Result

namespace DeskCalc.Number

open Binary64 (isFinite)
open Decimal (Digits)

inductive Plain : List Char → Prop
  | whole (negative : Bool) {ds : List Char} : ds ≠ [] → Digits ds → Plain (signChars negative ++ ds)
  | places (negative : Bool) {ds ps : List Char} : ds ≠ [] → Digits ds → ps ≠ [] → Digits ps →
      Plain (signChars negative ++ (ds ++ '.' :: ps))

theorem Plain.ne_nil {cs : List Char} (h : Plain cs) : cs ≠ [] := by
  cases h with
  | whole negative hne _ => exact List.append_ne_nil_of_right_ne_nil _ hne
  | places negative hne _ _ _ => exact List.append_ne_nil_of_right_ne_nil _ (by simp)

theorem plain_decimal (negative : Bool) (d : Decimal) : Plain (signChars negative ++ d.toChars) := by
  have digits := Decimal.digits_toDigits (d.digits / Nat.pow 10 d.places)
  rw [Decimal.toChars]
  by_cases hp : d.places = 0
  · rw [if_pos hp]
    exact .whole negative Nat.toDigits_ne_nil digits
  · rw [if_neg hp]
    refine .places negative Nat.toDigits_ne_nil digits (fun none => hp ?_) (Decimal.digits_fraction _ _)
    rw [← Decimal.length_fraction d.digits d.places, none]
    rfl

theorem plain_toChars {x : Float} (h : isFinite x = true) : Plain (toChars x) := by
  rw [toChars_of_finite h]
  exact plain_decimal _ _

theorem plain_resultChars {x : Float} (h : isFinite x = true) : Plain (resultChars x) := by
  rw [resultChars, if_pos h]
  cases Binary64.whole? x with
  | none => exact plain_toChars h
  | some n =>
    show Plain (if n < exactLimit then _ else _)
    split
    · exact .whole _ Nat.toDigits_ne_nil (Decimal.digits_toDigits n)
    · exact plain_toChars h

theorem resultChars_ne_nil (x : Float) : resultChars x ≠ [] := by
  by_cases hf : isFinite x = true
  · exact (plain_resultChars hf).ne_nil
  · rw [resultChars_of_not_finite (Bool.not_eq_true _ ▸ hf)]
    decide

end DeskCalc.Number
