/-
  DeskCalc.Immediate — the keys that act at once on the value of the display.

  They never stand in an expression. Each has the name on its key and a long name.
  The factorial is that of whole numbers from zero on; past 170 it exceeds every
  finite double, and of any other value there is none.
-/

import DeskCalc.Number.Binary64

namespace DeskCalc

inductive Immediate where
  | factorial
  | reciprocal
  | percent
  deriving DecidableEq, Repr

namespace Immediate

def ofName? : String → Option Immediate
  | "x!" => some factorial
  | "!" => some factorial
  | "factorial" => some factorial
  | "1/x" => some reciprocal
  | "reciprocal" => some reciprocal
  | "%" => some percent
  | "percent" => some percent
  | _ => none

/-- The product of the doubles 2, 3, … n in this order. -/
def productUpTo (n : Nat) : Float := (List.range' 2 (n - 1)).foldl (fun product i => product * Float.ofNat i) 1

def factorialOf (x : Float) : Float :=
  match Number.Binary64.natural? x with
  | some n => if n ≤ 170 then productUpTo n else Number.Binary64.ofMagnitude false Number.Binary64.infinity
  | none => Number.Binary64.nan

def apply : Immediate → Float → Float
  | factorial, x => factorialOf x
  | reciprocal, x => 1 / x
  | percent, x => x / 100

end Immediate

end DeskCalc
