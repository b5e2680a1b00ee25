/-
  DeskCalc.Postfix.Value — the value of tokens in postfix order.

  Numbers are pushed, functions and operators replace what they take by what they
  give, the right operand being on top. A token that would take more than there is
  is an error before anything is taken. At the end one value has to be left.

  Proved:
  - `run_append`: a sequence is run by running its two parts in turn.
-/

import DeskCalc.Stack
import DeskCalc.Token

namespace DeskCalc.Postfix

/-- The stack after a token that finds its values. -/
def applyToken (s : Stack Float) : Token → Except EvalError (Stack Float)
  | .number value => .ok (s.push value)
  | .function f => do
    let (x, rest) ← s.pop
    return rest.push (f.apply x)
  | .operator op => do
    let (right, rest) ← s.pop
    let (left, rest) ← rest.pop
    return rest.push (op.apply left right)
  | .unknown text => .error (.unknownToken text)
  | .leftParen => .error .unbalanced
  | .rightParen => .error .unbalanced

def step (s : Stack Float) (t : Token) : Except EvalError (Stack Float) :=
  if s.size < t.arity then .error (.missingOperand t.text) else applyToken s t

def run (s : Stack Float) (ts : List Token) : Except EvalError (Stack Float) := ts.foldlM step s

/-- The one value of a postfix sequence. -/
def value (ts : List Token) : Except EvalError Float := do
  let s ← run .empty ts
  if s.size ≠ 1 then throw (.leftover s.size)
  let (result, _) ← s.pop
  return result

theorem run_append (s : Stack Float) (ts us : List Token) : run s (ts ++ us) = run s ts >>= (run · us) :=
  List.foldlM_append

end DeskCalc.Postfix
