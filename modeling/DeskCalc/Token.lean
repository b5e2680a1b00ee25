/-
  DeskCalc.Token — the pieces an expression is made of.

  A word or numeral that means nothing is a token too: it travels with the others
  and is refused where its value would be needed.

  Proved:
  - `arity_le_two`: no token takes more than two values.
  - `precedence?_isSome_iff`: operators and functions are the tokens that take values.
-/

import DeskCalc.EvalError
import DeskCalc.ScientificFunction

namespace DeskCalc

inductive Token where
  | number (value : Float)
  | operator (op : Operator)
  | function (f : ScientificFunction)
  | leftParen
  | rightParen
  | unknown (text : String)
  deriving DecidableEq, Repr

namespace Token

/-- How tightly a token binds, for those that take values. -/
def precedence? : Token → Option Nat
  | operator op => some op.precedence
  | function _ => some ScientificFunction.precedence
  | _ => none

/-- How many values a token takes. -/
def arity : Token → Nat
  | operator _ => 2
  | function _ => 1
  | _ => 0

def toChars : Token → List Char
  | number value => Number.toChars value
  | operator op => [op.symbol]
  | function f => f.name.toList
  | leftParen => ['(']
  | rightParen => [')']
  | unknown text => text.toList

def text (t : Token) : String := String.ofList t.toChars

/-- The texts of tokens in a row, a space between any two. -/
def traceChars (ts : List Token) : List Char := [' '].intercalate (ts.map toChars)

def trace (ts : List Token) : String := String.ofList (traceChars ts)

theorem arity_le_two (t : Token) : t.arity ≤ 2 := by cases t <;> simp [arity]

theorem precedence?_isSome_iff (t : Token) : t.precedence?.isSome = true ↔ 0 < t.arity := by
  cases t <;> simp [precedence?, arity]

end Token

end DeskCalc
