/-
  DeskCalc.Proofs.Token.Kind — the kinds of tokens, and how many there are of each.

  Two counts decide whether a row of tokens can have one value: its numbers, which are
  the values it brings, and its operators, each of which makes one value of two.
-/

import DeskCalc.Token

namespace DeskCalc.Token

def isNumber : Token → Bool
  | number _ => true
  | _ => false

def isOperator : Token → Bool
  | operator _ => true
  | _ => false

def isUnknown : Token → Bool
  | unknown _ => true
  | _ => false

def isParen : Token → Bool
  | leftParen => true
  | rightParen => true
  | _ => false

/-- What is put out as a value, whether it means something or not. -/
def isValue (t : Token) : Bool := t.isNumber || t.isUnknown

def numbers (ts : List Token) : Nat := ts.countP isNumber

def operators (ts : List Token) : Nat := ts.countP isOperator

@[simp] theorem numbers_nil : numbers [] = 0 := rfl

@[simp] theorem operators_nil : operators [] = 0 := rfl

theorem numbers_append (ts us : List Token) : numbers (ts ++ us) = numbers ts + numbers us :=
  List.countP_append

theorem operators_append (ts us : List Token) : operators (ts ++ us) = operators ts + operators us :=
  List.countP_append

theorem isUnknown_iff {t : Token} : t.isUnknown = true ↔ ∃ text, t = unknown text := by
  cases t <;> simp [isUnknown]

/-- The first unknown token of a row, told from its values alone. -/
theorem find?_unknown_filter (ts : List Token) : (ts.filter isValue).find? isUnknown = ts.find? isUnknown := by
  have kinds : (fun t : Token => decide (isValue t = true ∧ isUnknown t = true)) = isUnknown := by
    funext t
    cases t <;> rfl
  rw [List.find?_filter, kinds]

end DeskCalc.Token
