/-
  DeskCalc.Operator — the five operators between two values.

  All of them associate to the left, the power too. The letter `x` is the way the
  keypad writes a multiplication; the sign `×` is read as well. What is divided by
  zero is not a number, whatever the sign of the zero.

  Proved:
  - `ofChar?_symbol`: every operator is read back from its symbol.
  - `precedence_pos`: no operator has precedence zero.
-/

import DeskCalc.Number.Binary64

namespace DeskCalc

inductive Operator where
  | plus
  | minus
  | times
  | divide
  | power
  deriving DecidableEq, Repr

namespace Operator

def symbol : Operator → Char
  | plus => '+'
  | minus => '-'
  | times => 'x'
  | divide => '/'
  | power => '^'

def ofChar? : Char → Option Operator
  | '+' => some plus
  | '-' => some minus
  | 'x' => some times
  | '×' => some times
  | '/' => some divide
  | '^' => some power
  | _ => none

def precedence : Operator → Nat
  | plus | minus => 1
  | times | divide => 2
  | power => 3

def apply : Operator → Float → Float → Float
  | plus, a, b => a + b
  | minus, a, b => a - b
  | times, a, b => a * b
  | divide, a, b => if b == 0 then Number.Binary64.nan else a / b
  | power, a, b => a.pow b

theorem ofChar?_symbol (op : Operator) : ofChar? op.symbol = some op := by cases op <;> rfl

theorem precedence_pos (op : Operator) : 0 < op.precedence := by cases op <;> decide

end Operator

end DeskCalc
