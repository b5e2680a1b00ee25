/-
  DeskCalc.Keypad.Key — the keys of the keypad and their labels.

  A key carries the text that it hands to the editor. Every label of the keypad is
  in one table, with the spellings of a label that a host may send instead of it;
  a label that is not in the table belongs to no key.

  Proved:
  - `ofLabel?_eq_some`: a key that a label gives stands in the table under it.
-/

namespace DeskCalc.Keypad

inductive Key where
  /-- A digit or the point. -/
  | digit (text : String)
  /-- An operator or a parenthesis. -/
  | operator (symbol : String)
  | constant (name : String)
  /-- A scientific function, or a function that acts at once on the display. -/
  | function (name : String)
  | clear
  | delete
  | equals
  deriving DecidableEq, Repr

namespace Key

def editing : List (String × Key) := [("AC", clear), ("Del", delete), ("=", equals)]

def digits : List (String × Key) :=
  ["0", "1", "2", "3", "4", "5", "6", "7", "8", "9", "."].map fun label => (label, digit label)

def operators : List (String × Key) :=
  [("+", operator "+"), ("-", operator "-"), ("−", operator "-"), ("×", operator "x"), ("x", operator "x"),
    ("*", operator "x"), ("/", operator "/"), ("^", operator "^"), ("x^y", operator "^"), ("(", operator "("),
    (")", operator ")")]

def constants : List (String × Key) := ["e", "pi", "π"].map fun label => (label, constant label)

def functions : List (String × Key) :=
  ["sin", "cos", "tan", "asin", "acos", "atan", "log", "ln", "sqrt", "x!", "!", "factorial", "1/x", "reciprocal",
    "%", "percent"].map fun label => (label, function label)

/-- Every label and its key. -/
def labels : List (String × Key) := editing ++ digits ++ operators ++ constants ++ functions

def ofLabel? (label : String) : Option Key := labels.lookup label

theorem ofLabel?_eq_some {label : String} {key : Key} (h : ofLabel? label = some key) : (label, key) ∈ labels := by
  obtain ⟨before, after, eq, _⟩ := List.lookup_eq_some_iff.mp h
  simp [eq]

end Key

end DeskCalc.Keypad
