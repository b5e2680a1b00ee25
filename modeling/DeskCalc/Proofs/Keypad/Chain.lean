/-
  DeskCalc.Proofs.Keypad.Chain — calculating on with the result on the display.

  Between two rounds the running value is a text only. An operator is added behind it,
  for a result ends in a digit, and the digits behind the operator; then the line holds
  one numeral, the operator and another numeral. The sign in front of the first belongs
  to it, and the minus sign behind it does not belong to the second. So the whole result
  is the left operand, a negative or fractional one too, and only the sign of zero is lost.

  Proved:
  - `evaluate_continued`: the value of a result with an operator and digits behind it.
  - `replay_round`: what one round leaves on the line.
  - `chain_display`: what is shown behind any number of rounds.
-/

import DeskCalc.Proofs.Evaluation.Text
import DeskCalc.Proofs.Grammar.Alternating
import DeskCalc.Proofs.Keypad.Typing
import DeskCalc.Proofs.Number.Result

namespace DeskCalc

open Grammar (Tree Derives)
open Number (resultChars resultText withoutZeroSign signChars ofDecimal)
open Number.Binary64 (isFinite)
open Number.Decimal (Digits)
open Token (Spells)

/-! ## The text of a round -/

theorem Grammar.derives_operation (op : Operator) (a b : Float) :
    Derives .expression [.number a, .operator op, .number b] (.binary op (.number a) (.number b)) := by
  have operation : Derives (.ofOperator op) [.number a, .operator op, .number b] (.binary op (.number a) (.number b)) :=
    .binary op ((Derives.number a).of_atom _) ((Derives.number b).of_atom _)
  cases op with
  | plus => exact operation
  | minus => exact operation
  | times => exact .single operation
  | divide => exact .single operation
  | power => exact .single (.single operation)

/-- The text of a result, an operator and a number are read as these three. -/
theorem evaluate_continued {v : Float} (hv : isFinite v = true) (op : Operator) {cs : List Char} {d : Number.Decimal}
    (hd : Number.Decimal.ofChars? cs = some d) :
    ∃ ts ordered, evaluate (String.ofList (resultChars v ++ op.symbol :: cs)) =
      .ok ⟨op.apply (withoutZeroSign v) (ofDecimal false d), ts, ordered⟩ := by
  obtain ⟨negative, ds, d', chars, read⟩ := Number.resultChars_of_finite hv
  have value : ofDecimal negative d' = withoutZeroSign v := by
    have shown := Number.ofChars?_resultChars hv
    rw [chars, Number.ofChars?_signChars read] at shown
    exact Option.some.inj shown
  obtain ⟨c, rest, rfl⟩ := List.exists_cons_of_ne_nil (Number.Decimal.isNumeric_of_ofChars? hd).1
  have digit : Text.isLetter c = false :=
    Token.isLetter_of_isNumeric ((Number.Decimal.isNumeric_of_ofChars? hd).2 c List.mem_cons_self)
  have second : Spells (some (.operator op)) [.number (ofDecimal false d)] (signChars false ++ (c :: rest) ++ []) :=
    .numeral false hd (by simp) .nil
  have spelled : Spells none [.number (ofDecimal negative d'), .operator op, .number (ofDecimal false d)]
      (signChars negative ++ ds ++ ([op.symbol] ++ (signChars false ++ (c :: rest) ++ []))) :=
    .numeral negative read (by simp) (.token (.operator op) (fun _ => Span.stop_cons digit _) second)
  have text : (String.ofList (resultChars v ++ op.symbol :: c :: rest)).toList =
      signChars negative ++ ds ++ ([op.symbol] ++ (signChars false ++ (c :: rest) ++ [])) := by
    rw [String.toList_ofList, chars, List.append_nil]
    rfl
  rw [← text, value] at spelled
  exact ⟨_, _, (evaluate_spelled (Grammar.derives_operation op _ _) spelled).2⟩

namespace Keypad

/-! ## Rounds -/

/-- An operator key, the keys of some digits, and `=`. -/
structure Round where
  label : String
  op : Operator
  digits : List Char
  isOperator : Key.ofLabel? label = some (.operator (String.singleton op.symbol))
  ne_nil : digits ≠ []
  isDigit : Digits digits

namespace Round

def labels (r : Round) : List String := r.label :: (digitLabels r.digits ++ ["="])

theorem read (r : Round) : Number.Decimal.ofChars? r.digits = some (.ofWhole (Nat.ofDigitChars 10 r.digits 0)) :=
  Number.Decimal.ofChars?_of_digits r.ne_nil r.isDigit

theorem ofChars?_digits (r : Round) :
    Number.ofChars? r.digits = some (ofDecimal false (.ofWhole (Nat.ofDigitChars 10 r.digits 0))) :=
  Number.ofChars?_signChars r.read false

/-- The number that the digits are. -/
def operand (r : Round) : Float := (Number.ofChars? r.digits).get (by rw [r.ofChars?_digits]; rfl)

theorem operand_eq (r : Round) : r.operand = ofDecimal false (.ofWhole (Nat.ofDigitChars 10 r.digits 0)) :=
  Option.get_of_eq_some _ r.ofChars?_digits

/-- What a round makes of the running value, of which it gets to see a zero without its sign. -/
def apply (v : Float) (r : Round) : Float := r.op.apply (withoutZeroSign v) r.operand

end Round

/-- The running value behind some rounds. -/
def total (v : Float) (rounds : List Round) : Float := rounds.foldl Round.apply v

/-! ## The line in a round -/

theorem last_result {v : Float} (hv : isFinite v = true) : Ends (.number v) (resultChars v) := by
  obtain ⟨negative, cs, d, chars, read⟩ := Number.resultChars_of_finite hv
  obtain ⟨c, last, numeric⟩ := last_numeral read
  rw [chars]
  exact .append _ last numeric

theorem count_point_result {v : Float} (hv : isFinite v = true) : (resultChars v).count '.' ≤ 1 := by
  obtain ⟨negative, cs, d, chars, read⟩ := Number.resultChars_of_finite hv
  have points := Number.Decimal.count_point_of_ofChars? read
  have sign : (signChars negative).count '.' = 0 := by cases negative <;> rfl
  rw [chars, List.count_append]
  omega

/-- The operator is added to a result, never put in the place of its last character. -/
theorem pressLabel_round {v : Float} (hv : isFinite v = true) (r : Round) :
    (⟨resultChars v⟩ : Editor).pressLabel r.label = ⟨resultChars v ++ [r.op.symbol]⟩ := by
  have ends := last_result hv
  have known : Editor.symbol? (String.singleton r.op.symbol) = some r.op.symbol := by cases r.op <;> rfl
  rw [Editor.pressLabel, r.isOperator]
  show Editor.operator (String.singleton r.op.symbol) _ = _
  rw [Editor.operator, known]
  refine Editor.typeSymbol_append ends.ne_error fun operator => ?_
  rw [ends.not_operator (by simp)] at operator
  cases operator

theorem replay_operand {v : Float} (hv : isFinite v = true) (r : Round) :
    (⟨resultChars v ++ [r.op.symbol]⟩ : Editor).replay (digitLabels r.digits) =
      ⟨resultChars v ++ r.op.symbol :: r.digits⟩ := by
  have ends : Ends (.operator r.op) (resultChars v ++ [r.op.symbol]) := .append _ rfl (beq_self_eq_true _)
  have points : (resultChars v ++ [r.op.symbol]).count '.' + r.digits.count '.' ≤ 1 := by
    have result := count_point_result hv
    have symbol : [r.op.symbol].count '.' = 0 := by cases r.op <;> rfl
    have digits := r.isDigit.count_point
    rw [List.count_append]
    omega
  have numeric := fun c hc => Number.Decimal.isNumeric_of_isDigit (r.isDigit c hc)
  rw [Editor.replay_digits (ends.settled rfl) numeric points, List.append_assoc]
  rfl

/-- A round on a result leaves the next one. -/
theorem replay_round {v : Float} (hv : isFinite v = true) (r : Round) :
    (⟨resultChars v⟩ : Editor).replay r.labels = ⟨resultChars (r.apply v)⟩ := by
  obtain ⟨ts, ordered, value⟩ := evaluate_continued hv r.op r.read
  show ((⟨resultChars v⟩ : Editor).pressLabel r.label).replay (digitLabels r.digits ++ ["="]) = _
  rw [pressLabel_round hv, Editor.replay_append, replay_operand hv, Round.apply, r.operand_eq]
  exact Editor.equals_of_ok value

/-! ## Chains -/

theorem replay_rounds {v : Float} {rounds : List Round}
    (finite : ∀ n < rounds.length, isFinite (total v (rounds.take n)) = true) :
    (⟨resultChars v⟩ : Editor).replay (rounds.flatMap Round.labels) = ⟨resultChars (total v rounds)⟩ := by
  induction rounds generalizing v with
  | nil => rfl
  | cons r rounds ih =>
    have first : isFinite v = true := finite 0 (Nat.succ_pos _)
    rw [List.flatMap_cons, Editor.replay_append, replay_round first]
    exact ih fun n hn => finite (n + 1) (Nat.succ_lt_succ hn)

/-- From zero on a fresh editor, or from a result on the display, rounds show the running value as long as it
    has been finite before, and an error when it is finite no more. -/
theorem chain_display {v : Float} {e : Editor}
    (h : e = Editor.start ∧ v = 0 ∨ isFinite v = true ∧ e.display = resultText v) {rounds : List Round}
    (finite : ∀ n < rounds.length, isFinite (total v (rounds.take n)) = true) :
    let shown := (e.replay (rounds.flatMap Round.labels)).display
    shown = resultText (total v rounds) ∧ (shown = "Error" ↔ isFinite (total v rounds) = false) := by
  intro shown
  have line : e = ⟨resultChars v⟩ := by
    rcases h with ⟨rfl, rfl⟩ | ⟨-, text⟩
    · decide +kernel
    · have chars : e.line = resultChars v := String.ofList_injective text
      rw [← chars]
  have result : shown = resultText (total v rounds) := by
    show (e.replay (rounds.flatMap Round.labels)).display = _
    rw [line, replay_rounds finite]
    rfl
  rw [result]
  exact ⟨rfl, Number.resultText_eq_error_iff _⟩

/-- A negative difference, half of it, and the square of all that, sign and places included. -/
theorem chain_display_negative :
    let difference : Round := ⟨"−", .minus, ['0', '3'], by decide, by simp, List.all_eq_true.mp (by decide)⟩
    let half : Round := ⟨"/", .divide, ['2'], by decide, by simp, List.all_eq_true.mp (by decide)⟩
    let square : Round := ⟨"x^y", .power, ['2'], by decide, by simp, List.all_eq_true.mp (by decide)⟩
    let rounds := [difference, half, square]
    let shown := (Editor.start.replay (rounds.flatMap Round.labels)).display
    (∀ n < rounds.length, isFinite (total 0 (rounds.take n)) = true) ∧ total 0 rounds = Float.pow (-1.5) 2 ∧
      shown = resultText (total 0 rounds) ∧ (shown = "Error" ↔ isFinite (total 0 rounds) = false) := by
  intro difference half square rounds shown
  have finite : ∀ n < rounds.length, isFinite (total 0 (rounds.take n)) = true := by decide +kernel
  have base : withoutZeroSign (total 0 [difference, half]) = -1.5 := by decide +kernel
  have exponent : square.operand = 2 := by decide +kernel
  obtain ⟨result, error⟩ := chain_display (Or.inl ⟨rfl, rfl⟩) finite
  exact ⟨finite, congrArg₂ Float.pow base exponent, result, error⟩

end Keypad

end DeskCalc
