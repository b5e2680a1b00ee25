/-
  DeskCalc.Proofs.Evaluation.Malformed — rows of tokens that have a value.

  Nothing but counts is checked: parentheses in the yard, values on the stack. So a row
  that has a value need not be an expression: `2 3 +` has one, and so have operands in
  front of their function and empty parentheses beside a number. What is certain is
  less. The parentheses are balanced, no token is unknown, there is one number more
  than operators, and the value is that of one tree, made of the tokens of the row with
  the numbers as they stood. The row is an expression, and the tree its own, exactly
  when operands and operators take turns in it.

  Proved:
  - `juxtaposed_not_derived`: a row that has a value and is no expression.
  - `valued_tree`: what a row that has a value stands for, and when it is an expression.
-/

import DeskCalc.Proofs.Evaluation.Verdict
import DeskCalc.Proofs.Grammar.Alternating
import DeskCalc.Proofs.Postfix.Derived
import DeskCalc.Proofs.Postfix.Forest

namespace DeskCalc

open Grammar (Tree Derives Alternates)
open Nesting (Balanced)
open Token (numbers operators isParen isValue)

/-- A sum behind both its operands has a value, though no expression is written so. -/
theorem juxtaposed_not_derived :
    let ts : List Token := [.number 2, .number 3, .operator .plus]
    Postfix.order ts = .ok ts ∧ Postfix.value ts = .ok 5 ∧ ¬∃ t, Derives .expression ts t := by
  intro ts
  refine ⟨by decide +kernel, by decide +kernel, ?_⟩
  rintro ⟨t, derived⟩
  have turns := Grammar.derives_alternates derived
  have second : Grammar.beginsOperand (.number 3) = Grammar.wantsOperand (some (.number 2)) := turns.2.1
  cases second

/-- A row that has a value is derived, as the tree whose listing its order is, exactly when operands and
    operators take turns in it. -/
theorem derives_iff_alternates {ts : List Token} {t : Tree} (ho : Postfix.order ts = .ok t.listing)
    (known : Known ts) (count : numbers ts = operators ts + 1) : Derives .expression ts t ↔ Alternates none ts := by
  constructor
  · exact Grammar.derives_alternates
  · intro turns
    obtain ⟨u, derived⟩ := Grammar.derives_of_alternates turns known (Postfix.balanced_of_order ho) count
    have listed := Postfix.order_derived derived
    rw [ho] at listed
    injection listed with listed
    rwa [Postfix.listing_injective listed]

/-- A row that has a value is balanced, known and has one number more than operators. Its value is that of
    one tree, made of its tokens; the row is that tree's expression when operands and operators take turns,
    and only then. -/
theorem valued_tree {ts out : List Token} {v : Float} (ho : Postfix.order ts = .ok out)
    (hv : Postfix.value out = .ok v) :
    Balanced .leftParen .rightParen ts ∧ Known ts ∧ numbers ts = operators ts + 1 ∧
      ∃ t : Tree, t.listing = out ∧ t.value = v ∧ (∀ u : Tree, u.listing = out → u = t) ∧
        out.Perm (ts.filter (!isParen ·)) ∧ out.filter isValue = ts.filter isValue ∧
        (Derives .expression ts t ↔ Alternates none ts) := by
  obtain ⟨known, count⟩ := tells_value ho hv
  obtain ⟨t, rfl, value⟩ := Postfix.exists_tree_of_value hv
  refine ⟨Postfix.balanced_of_order ho, known, count, t, rfl, value, ?_, Postfix.order_perm ho, ?_⟩
  · exact fun u hu => Postfix.listing_injective hu
  · exact ⟨Postfix.order_values ho, derives_iff_alternates ho known count⟩

/-- A sum in parentheses times a root, in which tokens take turns. -/
theorem valued_tree_product :
    let ts : List Token := [.leftParen, .number 1, .operator .plus, .number 2, .rightParen, .operator .times,
      .function .sqrt, .number 4]
    let out : List Token := [.number 1, .number 2, .operator .plus, .number 4, .function .sqrt, .operator .times]
    Postfix.order ts = .ok out ∧ Postfix.value out = .ok 6 ∧
      Balanced .leftParen .rightParen ts ∧ Known ts ∧ numbers ts = operators ts + 1 ∧
      ∃ t : Tree, t.listing = out ∧ t.value = 6 ∧ (∀ u : Tree, u.listing = out → u = t) ∧
        out.Perm (ts.filter (!isParen ·)) ∧ out.filter isValue = ts.filter isValue ∧
        (Derives .expression ts t ↔ Alternates none ts) := by
  intro ts out
  have order : Postfix.order ts = .ok out := by decide +kernel
  have value : Postfix.value out = .ok 6 := by decide +kernel
  exact ⟨order, value, valued_tree order value⟩

end DeskCalc
