/-
  DeskCalc.Text.Blank — the characters that separate words.

  A blank is a character with the property White_Space of Unicode: the controls tab
  to carriage return, the space and the next-line control, and the spaces and
  separators of all widths beyond ASCII. The zero-width space is none of them.

  Proved:
  - `isBlank_of_isWhitespace`: the blanks of ASCII are among them.
-/

namespace DeskCalc.Text

def blanks : List Nat :=
  [0x09, 0x0A, 0x0B, 0x0C, 0x0D, 0x20, 0x85, 0xA0, 0x1680, 0x2000, 0x2001, 0x2002, 0x2003, 0x2004, 0x2005, 0x2006,
    0x2007, 0x2008, 0x2009, 0x200A, 0x2028, 0x2029, 0x202F, 0x205F, 0x3000]

def isBlank (c : Char) : Bool := blanks.contains c.toNat

/-- The words of a line: what stands between blanks, as often as it is not empty. -/
def words (line : String) : List String :=
  ((line.toList.splitOnP isBlank).filter (!·.isEmpty)).map String.ofList

theorem isBlank_of_isWhitespace {c : Char} (h : c.isWhitespace = true) : isBlank c = true := by
  simp only [Char.isWhitespace, Bool.or_eq_true, decide_eq_true_eq] at h
  rcases h with ((rfl | rfl) | rfl) | rfl <;> decide

end DeskCalc.Text
