/-
  DeskCalc.ScientificFunction — the functions of one value that an expression may call.

  Angles are in degrees. A function binds tighter than every operator.

  Proved:
  - `mem_all`: the table of functions is complete.
  - `ofName?_name`: every function is read back from its name.
  - `precedence_lt`: operators have the lower precedence.
-/

import DeskCalc.Number.Constant
import DeskCalc.Operator

namespace DeskCalc

inductive ScientificFunction where
  | sin
  | cos
  | tan
  | asin
  | acos
  | atan
  | log
  | ln
  | sqrt
  deriving DecidableEq, Repr

namespace ScientificFunction

def all : List ScientificFunction := [sin, cos, tan, asin, acos, atan, log, ln, sqrt]

def name : ScientificFunction → String
  | sin => "sin"
  | cos => "cos"
  | tan => "tan"
  | asin => "asin"
  | acos => "acos"
  | atan => "atan"
  | log => "log"
  | ln => "ln"
  | sqrt => "sqrt"

def ofName? (word : String) : Option ScientificFunction := all.find? fun f => f.name == word

def precedence : Nat := 4

def toRadians (x : Float) : Float := x * Number.pi / 180

def toDegrees (x : Float) : Float := x * 180 / Number.pi

/-- `log` is the logarithm to base ten and `ln` the natural one. -/
def apply : ScientificFunction → Float → Float
  | sin, x => (toRadians x).sin
  | cos, x => (toRadians x).cos
  | tan, x => (toRadians x).tan
  | asin, x => toDegrees x.asin
  | acos, x => toDegrees x.acos
  | atan, x => toDegrees x.atan
  | log, x => x.log10
  | ln, x => x.log
  | sqrt, x => x.sqrt

theorem mem_all (f : ScientificFunction) : f ∈ all := by cases f <;> decide

theorem ofName?_name (f : ScientificFunction) : ofName? f.name = some f := by cases f <;> decide

theorem precedence_lt (op : Operator) : op.precedence < precedence := by cases op <;> decide

end ScientificFunction

end DeskCalc
