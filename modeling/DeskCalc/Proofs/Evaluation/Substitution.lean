/-
  DeskCalc.Proofs.Evaluation.Substitution — an expression in parentheses is worth what its value is.

  Scanning starts again behind an opening parenthesis and goes on behind a closing one
  as if nothing had been between them, so the tokens of a text in parentheses stand in
  the middle of the others as they stand alone (`ofText_parens`). The text of a finite
  value is one token in that place. What has a value may be exchanged for it there, so
  the text may be exchanged for the text of its value, in any surroundings.

  Proved:
  - `scan_toChars`: the text of a finite double is scanned as it where a sign is taken.
  - `valueOf_parens`: a text in parentheses may be exchanged for the text of its value.
-/

import DeskCalc.Proofs.Evaluation.Text
import DeskCalc.Proofs.Postfix.Block
import DeskCalc.Proofs.Token.Cut

namespace DeskCalc

/-- The value of a text alone, which need not be finite. -/
def valueOf (text : String) : Except EvalError Float := (evaluate text).map Evaluation.value

theorem valueOf_eq (text : String) : valueOf text = Postfix.order (Token.ofText text) >>= Postfix.value := by
  rw [valueOf, evaluate]
  cases Postfix.order (Token.ofText text) with
  | error e => rfl
  | ok ordered =>
    show Except.map _ (Postfix.value ordered >>= _) = Postfix.value ordered
    cases Postfix.value ordered <;> rfl

/-! ## Tokens in parentheses -/

namespace Token

theorem scan_toChars {v : Float} (h : Number.Binary64.isFinite v = true) {previous : Option Token}
    (hp : takesSign previous = true) : scan previous (Number.toChars v) = [number v] := by
  have value := Number.ofChars?_toChars h
  rw [Number.toChars_of_finite h] at value ⊢
  exact scan_signed_numeral (Number.Decimal.ofChars?_toChars _) value hp

/-- The tokens of a text in parentheses are its own, wherever it stands. -/
theorem ofText_parens (before inner behind : String) :
    ofText (before ++ "(" ++ inner ++ ")" ++ behind) =
      ofText before ++ (leftParen :: ofText inner ++ [rightParen]) ++ scan (some rightParen) behind.toList := by
  have chars : (before ++ "(" ++ inner ++ ")" ++ behind).toList =
      before.toList ++ '(' :: (inner.toList ++ ')' :: behind.toList) := by
    simp only [String.toList_append, List.append_assoc]
    rfl
  have inside : scan (some leftParen) inner.toList = ofText inner :=
    scan_congr (show takesSign (some leftParen) = takesSign none from rfl) _
  rw [ofText, chars, scan_leftParen, scan_rightParen, inside]
  simp [ofText]

theorem ofText_text {v : Float} (h : Number.Binary64.isFinite v = true) : ofText (Number.text v) = [number v] := by
  rw [ofText, Number.text, String.toList_ofList, scan_toChars h rfl]

end Token

/-- A text in parentheses may be exchanged for the text of its value, whatever stands around it: the value
    of the whole stays the same, or the error. -/
theorem valueOf_parens {inner : String} {v : Float} (h : valueOf inner = .ok v)
    (hf : Number.Binary64.isFinite v = true) (before behind : String) :
    valueOf (before ++ "(" ++ inner ++ ")" ++ behind) =
      valueOf (before ++ "(" ++ Number.text v ++ ")" ++ behind) := by
  obtain ⟨ordered, ho, hv⟩ := Outcome.bind_eq_ok.mp (valueOf_eq inner ▸ h)
  rw [valueOf_eq, valueOf_eq, Token.ofText_parens, Token.ofText_parens, Token.ofText_text hf]
  exact Postfix.order_value_block ho hv _ _

/-- A difference that is negative, as the base of a power behind a minus sign. -/
theorem valueOf_parens_negative :
    valueOf "1-3" = .ok (-2) ∧ Number.Binary64.isFinite (-2) = true ∧
      valueOf ("5-" ++ "(" ++ "1-3" ++ ")" ++ "^2") = valueOf ("5-" ++ "(" ++ Number.text (-2) ++ ")" ++ "^2") := by
  have value : valueOf "1-3" = .ok (-2) := Outcome.ok_of_toOption (by decide +kernel)
  have finite : Number.Binary64.isFinite (-2) = true := by decide +kernel
  exact ⟨value, finite, valueOf_parens value finite "5-" "^2"⟩

end DeskCalc
