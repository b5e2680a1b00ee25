/-
  DeskCalc.Proofs.Evaluation.Verdict — what the outcome of an evaluation tells about the text.

  Parentheses come first: they decide alone whether there is an order. With an order
  the rest is counting, and the order has the tokens of the text, its values as they
  stood. So a value, a number of values left, an unknown token and a missing operand
  each say something about the text itself. Nothing is ever asked of an empty stack,
  and whether the value is finite is not looked at.

  Proved:
  - `order_value_eq_unbalanced_iff`: the one error that depends on the parentheses alone.
  - `valueOf_tells`: what each outcome says of the text.
-/

import DeskCalc.Proofs.Evaluation.Substitution
import DeskCalc.Proofs.Postfix.Account
import DeskCalc.Proofs.Postfix.Count
import DeskCalc.Proofs.Token.Nesting

namespace DeskCalc

open Nesting (Balanced)
open Token (numbers operators isParen isUnknown isValue)

/-- A row of tokens without an unknown one. -/
def Known (ts : List Token) : Prop := ∀ t ∈ ts, t.isUnknown = false

/-- What an outcome says of the tokens. -/
def Tells (ts : List Token) : Except EvalError Float → Prop
  | .ok _ => Known ts ∧ numbers ts = operators ts + 1
  | .error .unbalanced => ¬Balanced .leftParen .rightParen ts
  | .error (.missingOperand token) =>
    (∃ op, .operator op ∈ ts ∧ token = String.singleton op.symbol) ∨ ∃ f, .function f ∈ ts ∧ token = f.name
  | .error (.leftover count) =>
    Known ts ∧ numbers ts = operators ts + count ∧ count ≠ 1 ∧ (count = 0 → ∀ t ∈ ts, t.isParen = true)
  | .error (.unknownToken text) => ts.find? isUnknown = some (.unknown text)
  | .error .emptyStack => False
  | .error (.notFinite _) => False

theorem known_order {ts out : List Token} (h : Postfix.order ts = .ok out) (known : Known out) : Known ts := by
  intro t ht
  by_cases hp : t.isParen = true
  · cases t <;> first | rfl | cases hp
  · exact known t ((Postfix.mem_order_iff h t).mpr ⟨ht, Bool.not_eq_true _ ▸ hp⟩)

theorem tells_value {ts out : List Token} {v : Float} (h : Postfix.order ts = .ok out)
    (hv : Postfix.value out = .ok v) : Tells ts (.ok v) := by
  have run := Postfix.value_eq_ok_iff.mp hv
  have size : 1 + operators out = 0 + numbers out := Postfix.run_size run
  rw [Postfix.numbers_order h, Postfix.operators_order h] at size
  exact ⟨known_order h (Postfix.known_of_run run), by omega⟩

theorem tells_leftover {ts out : List Token} {s : Stack Float} (h : Postfix.order ts = .ok out)
    (hs : Postfix.run .empty out = .ok s) (hne : s.size ≠ 1) : Tells ts (.error (.leftover s.size)) := by
  have size := Postfix.run_size hs
  rw [Postfix.numbers_order h, Postfix.operators_order h, Stack.size_empty] at size
  refine ⟨known_order h (Postfix.known_of_run hs), by omega, hne, fun zero t ht => ?_⟩
  -- nothing was put out, so there was nothing but parentheses
  have nothing : out = [] := by
    by_cases hout : out = []
    · exact hout
    · have := Postfix.run_size_pos hs hout
      omega
  by_cases hp : t.isParen = true
  · exact hp
  · have := (Postfix.mem_order_iff h t).mpr ⟨ht, Bool.not_eq_true _ ▸ hp⟩
    rw [nothing] at this
    cases this

/-- The token at which an evaluation stops is one of the text. -/
theorem tells_stop {ts out : List Token} {e : EvalError} (h : Postfix.order ts = .ok out)
    (he : Postfix.run .empty out = .error e) : Tells ts (.error e) := by
  obtain ⟨before, t, behind, s, rfl, passed, stopped⟩ := Postfix.run_error he
  have member := (Postfix.mem_order_iff h t).mp (List.mem_append_right before List.mem_cons_self)
  rcases Postfix.step_error stopped with ⟨short, rfl⟩ | ⟨text, rfl, rfl⟩ | ⟨paren, -⟩
  · cases t with
    | operator op => exact Or.inl ⟨op, member.1, rfl⟩
    | function f => exact Or.inr ⟨f, member.1, String.ofList_toList⟩
    | _ => cases short
  · show ts.find? isUnknown = some (.unknown text)
    have known : before.find? isUnknown = none :=
      List.find?_eq_none.mpr fun t ht => by simp [Postfix.known_of_run passed t ht]
    rw [← Postfix.find?_unknown_order h, List.find?_append, known]
    rfl
  · rw [member.2] at paren
    cases paren

theorem tells_order_value (ts : List Token) : Tells ts (Postfix.order ts >>= Postfix.value) := by
  by_cases balanced : Balanced .leftParen .rightParen ts
  · obtain ⟨out, ho⟩ := Postfix.order_of_balanced balanced
    rw [ho]
    show Tells ts (Postfix.value out)
    cases hv : Postfix.value out with
    | ok v => exact tells_value ho hv
    | error e =>
      rcases Postfix.value_error_cases hv with stopped | ⟨s, hs, hne, rfl⟩
      · exact tells_stop ho stopped
      · exact tells_leftover ho hs hne
  · rw [Postfix.order_of_not_balanced balanced]
    exact balanced

theorem order_value_eq_unbalanced_iff (ts : List Token) :
    Postfix.order ts >>= Postfix.value = .error .unbalanced ↔ ¬Balanced .leftParen .rightParen ts := by
  constructor
  · intro h
    have := tells_order_value ts
    rwa [h] at this
  · intro h
    rw [Postfix.order_of_not_balanced h]
    rfl

/-- The outcome for a text: it is an error of parentheses exactly when those of the text are unbalanced,
    whatever else the text holds, and every outcome tells of the tokens what it stands for. -/
theorem valueOf_tells (text : String) :
    (valueOf text = .error .unbalanced ↔ ¬Balanced '(' ')' text.toList) ∧
      Tells (Token.ofText text) (valueOf text) := by
  rw [valueOf_eq, order_value_eq_unbalanced_iff, Token.balanced_ofText_iff]
  exact ⟨Iff.rfl, tells_order_value _⟩

/-- The error of the parentheses hides that of the word, and that of the word the missing operand. -/
example : valueOf "(foo+" = .error .unbalanced ∧ valueOf "foo+" = .error (.unknownToken "foo") := by
  decide +kernel

end DeskCalc
