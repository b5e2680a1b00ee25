/-
  DeskCalc.EvalError — why an expression has no value.

  The causes are kept apart for logs and for callers; a display shows none of them,
  only that there is no result.
-/

import DeskCalc.Number.Numeral

namespace DeskCalc

inductive EvalError where
  /-- A parenthesis without its partner. -/
  | unbalanced
  /-- An operator or function, given by its text, that found too few values. -/
  | missingOperand (token : String)
  /-- Another number of values than one at the end. -/
  | leftover (count : Nat)
  /-- A word or numeral that means nothing, given as it was written. -/
  | unknownToken (text : String)
  /-- A value was asked of an empty stack. -/
  | emptyStack
  /-- A value that is infinite or not a number. -/
  | notFinite (value : Float)
  deriving DecidableEq, Repr

namespace EvalError

def message : EvalError → String
  | unbalanced => "parenthèses non appariées"
  | missingOperand token => "opérande manquant pour '" ++ token ++ "'"
  | leftover count => "expression invalide : " ++ count.repr ++ " valeur(s) restante(s) sur la pile"
  | unknownToken text => "jeton inconnu : '" ++ text ++ "'"
  | emptyStack => "pile vide"
  | notFinite value => "résultat non fini : " ++ Number.text value

end EvalError

end DeskCalc
