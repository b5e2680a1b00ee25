/-
  DeskCalc.Token.Scan — the tokens of a text.

  From left to right, a text is cut into longest runs of digits and points, which
  are numerals, longest runs of letters, which are words, and single characters.
  The word `x` is a multiplication, the name of a function is that function, and
  any other word is unknown, as is a numeral that is no number. A minus sign
  directly before a numeral belongs to it where no value can have ended: at the
  start, after an opening parenthesis, and after an operator. Elsewhere it is the
  operator. Characters that begin nothing are passed over, so they only separate.

  Proved:
  - `word_name`: the name of a function is scanned as that function.
-/

import DeskCalc.Text.Letter
import DeskCalc.Token

namespace DeskCalc.Token

/-! ## Single tokens -/

def numeral (cs : List Char) : Token :=
  match Number.ofChars? cs with
  | some value => number value
  | none => unknown (String.ofList cs)

def word (cs : List Char) : Token :=
  if cs = ['x'] then operator .times
  else
    match ScientificFunction.ofName? (String.ofList cs) with
    | some f => function f
    | none => unknown (String.ofList cs)

def symbol? : Char → Option Token
  | '(' => some leftParen
  | ')' => some rightParen
  | c => (Operator.ofChar? c).map operator

/-- Whether a minus sign after this token signs the numeral that follows it. -/
def takesSign : Option Token → Bool
  | none => true
  | some leftParen => true
  | some (operator _) => true
  | some _ => false

/-! ## Scanning -/

theorem length_dropWhile_lt_succ (p : Char → Bool) (cs : List Char) : (cs.dropWhile p).length < cs.length + 1 :=
  Nat.lt_succ_of_le (List.dropWhile_suffix p).length_le

/-- The tokens of a text, given the token before it. -/
def scan (previous : Option Token) : List Char → List Token
  | [] => []
  | c :: cs =>
    let digits := cs.takeWhile Number.Decimal.isNumeric
    if Number.Decimal.isNumeric c || (c == '-' && takesSign previous && !digits.isEmpty) then
      let token := numeral (c :: digits)
      token :: scan (some token) (cs.dropWhile Number.Decimal.isNumeric)
    else if Text.isLetter c then
      let token := word (c :: cs.takeWhile Text.isLetter)
      token :: scan (some token) (cs.dropWhile Text.isLetter)
    else
      match symbol? c with
      | some token => token :: scan (some token) cs
      | none => scan previous cs
  termination_by cs => cs.length
  decreasing_by
    · exact length_dropWhile_lt_succ _ cs
    · exact length_dropWhile_lt_succ _ cs
    · exact Nat.lt_succ_self _
    · exact Nat.lt_succ_self _

def ofText (text : String) : List Token := scan none text.toList

theorem word_name (f : ScientificFunction) : word f.name.toList = function f := by cases f <;> decide +kernel

end DeskCalc.Token
