/-
  DeskCalc.Proofs.Evaluation.Text — the value of an expression that is written as a text.

  Proved:
  - `evaluate_of_stages`: an evaluation from its three stages.
  - `evaluate_unknown`: an unknown word or numeral is an error in any text.
  - `evaluate_spelled`: every way of writing an expression has the value of its tree.
-/

import DeskCalc.Evaluation
import DeskCalc.Proofs.Postfix.Account
import DeskCalc.Proofs.Postfix.Block
import DeskCalc.Proofs.Postfix.Derived
import DeskCalc.Proofs.Token.Spelling

namespace DeskCalc

open Grammar (Tree Derives)
open Token (Spells)

theorem evaluate_of_stages {text : String} {ts ordered : List Token} {v : Float} (ht : Token.ofText text = ts)
    (ho : Postfix.order ts = .ok ordered) (hv : Postfix.value ordered = .ok v) :
    evaluate text = .ok ⟨v, ts, ordered⟩ := by
  simp only [evaluate, ht, ho, hv, bind, Except.bind, pure, Except.pure]

/-- A text with an unknown word or numeral has no value, wherever it stands. -/
theorem evaluate_unknown {text word : String} (h : .unknown word ∈ Token.ofText text) (e : Evaluation) :
    evaluate text ≠ .ok e := by
  intro he
  obtain ⟨ordered, ho, he⟩ := Outcome.bind_eq_ok.mp he
  obtain ⟨v, hv, -⟩ := Outcome.bind_eq_ok.mp he
  exact Postfix.value_unknown ((Postfix.mem_order_iff ho _).mpr ⟨h, rfl⟩) v hv

theorem ofText_spelled {text : String} {ts : List Token} {t : Tree} (hd : Derives .expression ts t)
    (hs : Spells none ts text.toList) : Token.ofText text = ts :=
  Token.scan_spelled hs (Grammar.derives_alternates hd)

theorem evaluate_derived {text : String} {ts : List Token} {t : Tree} (hd : Derives .expression ts t)
    (ht : Token.ofText text = ts) : evaluate text = .ok ⟨t.value, ts, t.listing⟩ :=
  evaluate_of_stages ht (Postfix.order_derived hd) (Postfix.value_listing t)

/-- However an expression is written, its text is scanned as its tokens and has the value of its tree. -/
theorem evaluate_spelled {text : String} {ts : List Token} {t : Tree} (hd : Derives .expression ts t)
    (hs : Spells none ts text.toList) : Token.ofText text = ts ∧ evaluate text = .ok ⟨t.value, ts, t.listing⟩ :=
  ⟨ofText_spelled hd hs, evaluate_derived hd (ofText_spelled hd hs)⟩

/-- Both kinds of minus sign next to each other, and a word behind the letter of multiplication. -/
theorem evaluate_both_minus_signs :
    let five := Number.ofDecimal false ⟨5, 0⟩
    let three := Number.ofDecimal true ⟨3, 0⟩
    let half := Number.ofDecimal true ⟨5, 1⟩
    let ts : List Token := [.number five, .operator .minus, .number three, .operator .times, .function .sqrt,
      .leftParen, .number half, .rightParen]
    let t := Tree.binary .minus (.number five) (.binary .times (.number three) (.call .sqrt (.number half)))
    Derives .expression ts t ∧ Spells none ts "5--3x sqrt(-.5)".toList ∧
      Token.ofText "5--3x sqrt(-.5)" = ts ∧ evaluate "5--3x sqrt(-.5)" = .ok ⟨t.value, ts, t.listing⟩ := by
  intro five three half ts t
  have argument : Derives .atom [.leftParen, .number half, .rightParen] (.number half) :=
    .parens (.single (.single (.single (.number half))))
  have product : Derives .term _ (.binary .times (.number three) (.call .sqrt (.number half))) :=
    .binary .times (.single (.single (.number three))) (.single (.call .sqrt argument))
  have derived : Derives .expression ts t := .binary .minus (.single (.single (.single (.number five)))) product
  have call : Spells (some (.operator .times)) _ (' ' :: ("sqrt".toList ++ ['(', '-', '.', '5', ')'])) :=
    .ignored (by decide) <| .token (.function .sqrt) (fun _ => Span.stop_cons (by decide) _) <|
      .token .leftParen (fun _ => Span.stop_cons (by decide) _) <|
      .numeral true (show Number.Decimal.ofChars? ['.', '5'] = some ⟨5, 1⟩ from rfl) (by simp) <|
      .token .rightParen (fun _ c hc => by cases hc) .nil
  have spelled : Spells none ts "5--3x sqrt(-.5)".toList :=
    .numeral false (show Number.Decimal.ofChars? ['5'] = some ⟨5, 0⟩ from rfl) (by simp) <|
      .token (.operator .minus) (fun _ => Span.stop_cons (by decide) _) <|
      .numeral true (show Number.Decimal.ofChars? ['3'] = some ⟨3, 0⟩ from rfl) (by simp) <|
      .token (.operator .times) (fun _ => Span.stop_cons (by decide) _) call
  exact ⟨derived, spelled, evaluate_spelled derived spelled⟩

end DeskCalc
