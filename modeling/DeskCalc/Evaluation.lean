/-
  DeskCalc.Evaluation — the value of an expression given as text.

  The tokens and their postfix order are kept with the value, to show the steps.
  The value itself may be infinite or not a number; `requireFinite` refuses such a
  value where a number is needed.

  Proved:
  - `requireFinite_eq_ok_iff`: exactly the finite values pass, unchanged.
-/

import DeskCalc.Postfix.Order
import DeskCalc.Postfix.Value
import DeskCalc.Token.Scan

namespace DeskCalc

structure Evaluation where
  value : Float
  tokens : List Token
  /-- The tokens in postfix order. -/
  ordered : List Token
  deriving DecidableEq, Repr

def evaluate (text : String) : Except EvalError Evaluation := do
  let tokens := Token.ofText text
  let ordered ← Postfix.order tokens
  let value ← Postfix.value ordered
  return ⟨value, tokens, ordered⟩

def requireFinite (x : Float) : Except EvalError Float :=
  if Number.Binary64.isFinite x then .ok x else .error (.notFinite x)

/-- The value of an expression, where it has to be a number. -/
def evaluateFinite (text : String) : Except EvalError Float := do
  let evaluation ← evaluate text
  requireFinite evaluation.value

theorem requireFinite_eq_ok_iff (x y : Float) :
    requireFinite x = .ok y ↔ Number.Binary64.isFinite x = true ∧ x = y := by
  unfold requireFinite
  split <;> simp_all

end DeskCalc
