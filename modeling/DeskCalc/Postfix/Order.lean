/-
  DeskCalc.Postfix.Order — from infix to postfix order.

  Tokens pass through a yard: values go straight to the output, operators and
  functions wait on a stack until their last value is out. A new operator first
  releases the ones on top that bind at least as tightly, so that equals associate
  to the left. An opening parenthesis waits too, and holds back all below it; its
  closing partner releases what lies above it, and then the function that was
  called on it, if there is one. Unknown tokens are treated as values. Nothing is
  checked but the parentheses: whether the operators find their values is for the
  evaluation to say.

  Proved:
  - `bindsAtLeast_openParen`: an opening parenthesis is released by no operator.
  - `order_nil`: no tokens, nothing to order.
-/

import DeskCalc.Stack
import DeskCalc.Token

namespace DeskCalc.Postfix

/-- What can wait in the yard. -/
inductive Pending where
  | openParen
  | operator (op : Operator)
  | function (f : ScientificFunction)
  deriving DecidableEq, Repr

namespace Pending

def token : Pending → Token
  | openParen => .leftParen
  | operator op => .operator op
  | function f => .function f

/-- Whether an entry has to be out before `op` may wait above it. -/
def bindsAtLeast (op : Operator) : Pending → Bool
  | openParen => false
  | operator other => decide (op.precedence ≤ other.precedence)
  | function _ => decide (op.precedence ≤ ScientificFunction.precedence)

@[simp] theorem bindsAtLeast_openParen (op : Operator) : bindsAtLeast op openParen = false := rfl

end Pending

structure Yard where
  output : Array Token
  waiting : Stack Pending
  deriving DecidableEq, Repr

namespace Yard

def start : Yard := ⟨#[], .empty⟩

def emit (y : Yard) (t : Token) : Yard := { y with output := y.output.push t }

def hold (y : Yard) (p : Pending) : Yard := { y with waiting := y.waiting.push p }

/-- Let out from the top what satisfies `p`. -/
def release (p : Pending → Bool) (y : Yard) : Yard :=
  let (released, kept) := y.waiting.popWhile p
  ⟨y.output ++ released.map Pending.token, kept⟩

/-- Let out the function on top, whose argument is complete. -/
def call (y : Yard) : Yard :=
  match y.waiting.items with
  | .function f :: rest => ⟨y.output.push (.function f), ⟨rest⟩⟩
  | _ => y

def close (y : Yard) : Except EvalError Yard :=
  let inner := y.release (· != .openParen)
  match inner.waiting.items with
  | [] => .error .unbalanced
  | _ :: rest => .ok (call { inner with waiting := ⟨rest⟩ })

def step (y : Yard) : Token → Except EvalError Yard
  | .number value => .ok (y.emit (.number value))
  | .unknown text => .ok (y.emit (.unknown text))
  | .function f => .ok (y.hold (.function f))
  | .leftParen => .ok (y.hold .openParen)
  | .operator op => .ok ((y.release (Pending.bindsAtLeast op)).hold (.operator op))
  | .rightParen => y.close

/-- Let out all that waits; a parenthesis still open is an error. -/
def finish (y : Yard) : Except EvalError (List Token) :=
  let last := y.release (· != .openParen)
  if last.waiting.isEmpty then .ok last.output.toList else .error .unbalanced

end Yard

/-- The tokens in postfix order. -/
def order (ts : List Token) : Except EvalError (List Token) := do
  let y ← ts.foldlM Yard.step Yard.start
  y.finish

@[simp] theorem order_nil : order [] = .ok [] := rfl

end DeskCalc.Postfix
