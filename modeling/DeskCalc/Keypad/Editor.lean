/-
  DeskCalc.Keypad.Editor — the line on the display, and what each key does to it.

  The line is never empty: it starts as `0`, and returns to it when cleared or when
  its last character is deleted. A failed evaluation leaves `Error` on it, and the
  next key that types starts over from `0`. Texts that a key does not know are
  passed over and change nothing.

  Proved:
  - `display_start`: a fresh editor shows `0`.
  - `resume_of_ne_error`: only the error line is started over.
  - `replay_append`: labels are replayed one after the other.
-/

import DeskCalc.Evaluation
import DeskCalc.Immediate
import DeskCalc.Keypad.Key
import DeskCalc.Number.Constant

namespace DeskCalc.Keypad

structure Editor where
  line : List Char
  deriving DecidableEq, Repr

namespace Editor

def zero : List Char := ['0']

def start : Editor := ⟨zero⟩

def display (e : Editor) : String := String.ofList e.line

/-- After an error typing starts over. -/
def resume (e : Editor) : Editor := if e.line = Number.errorChars then start else e

/-- The digit or point that a text is. -/
def digit? (text : String) : Option Char :=
  match text.toList with
  | [c] => if Number.Decimal.isNumeric c then some c else none
  | _ => none

/-- A digit takes the place of a lone zero. A line holds one point at most. -/
def typeDigit (c : Char) (e : Editor) : Editor :=
  let e := e.resume
  if e.line = zero ∧ c ≠ '.' then ⟨[c]⟩
  else if c = '.' ∧ '.' ∈ e.line then e
  else ⟨e.line ++ [c]⟩

def digit (text : String) (e : Editor) : Editor :=
  match digit? text with
  | some c => e.typeDigit c
  | none => e

/-- The character that an operator or parenthesis is typed as. -/
def symbol? : String → Option Char
  | "+" => some '+'
  | "-" => some '-'
  | "−" => some '-'
  | "x" => some 'x'
  | "×" => some 'x'
  | "*" => some 'x'
  | "/" => some '/'
  | "^" => some '^'
  | "(" => some '('
  | ")" => some ')'
  | _ => none

def endsInOperator (line : List Char) : Bool := (line.getLast?.bind Operator.ofChar?).isSome

/-- An operator takes the place of one that ends the line; a parenthesis is added in any case. -/
def typeSymbol (c : Char) (e : Editor) : Editor :=
  let e := e.resume
  if endsInOperator e.line ∧ c ≠ '(' ∧ c ≠ ')' then ⟨e.line.dropLast ++ [c]⟩ else ⟨e.line ++ [c]⟩

def operator (symbol : String) (e : Editor) : Editor :=
  match symbol? symbol with
  | some c => e.typeSymbol c
  | none => e

def constant? : String → Option Float
  | "e" => some Number.euler
  | "pi" => some Number.pi
  | "π" => some Number.pi
  | _ => none

/-- A constant takes the place of the whole line. -/
def constant (name : String) (e : Editor) : Editor :=
  match constant? name with
  | some value => ⟨Number.toChars value⟩
  | none => e

def clear (_ : Editor) : Editor := start

def delete (e : Editor) : Editor :=
  let e := e.resume
  if 1 < e.line.length then ⟨e.line.dropLast⟩ else start

/-- The value takes the place of the line. -/
def equals (e : Editor) : Editor :=
  match evaluateFinite e.display with
  | .ok value => ⟨Number.resultChars value⟩
  | .error _ => ⟨Number.errorChars⟩

/-- Evaluate, then act on the number that is on the display. -/
def applyImmediate (action : Immediate) (e : Editor) : Editor :=
  match Number.ofChars? e.equals.line with
  | some value => ⟨Number.resultChars (action.apply value)⟩
  | none => ⟨Number.errorChars⟩

/-- The name and its opening parenthesis, in place of a lone zero. -/
def insertFunction (name : String) (e : Editor) : Editor :=
  let e := e.resume
  let call := name.toList ++ ['(']
  if e.line = zero then ⟨call⟩ else ⟨e.line ++ call⟩

def function (name : String) (e : Editor) : Editor :=
  match Immediate.ofName? name with
  | some action => e.applyImmediate action
  | none => e.insertFunction name

def press (e : Editor) : Key → Editor
  | .digit text => e.digit text
  | .operator symbol => e.operator symbol
  | .constant name => e.constant name
  | .function name => e.function name
  | .clear => e.clear
  | .delete => e.delete
  | .equals => e.equals

/-- Press the key of a label; an unknown label has none. -/
def pressLabel (e : Editor) (label : String) : Editor :=
  match Key.ofLabel? label with
  | some key => e.press key
  | none => e

/-- Press the keys of labels in a row. -/
def replay (e : Editor) (labels : List String) : Editor := labels.foldl pressLabel e

theorem display_start : start.display = "0" := rfl

theorem resume_of_ne_error {e : Editor} (h : e.line ≠ Number.errorChars) : e.resume = e := if_neg h

theorem replay_append (e : Editor) (xs ys : List String) : e.replay (xs ++ ys) = (e.replay xs).replay ys :=
  List.foldl_append

end Editor

end DeskCalc.Keypad
