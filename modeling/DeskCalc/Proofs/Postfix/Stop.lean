/-
  DeskCalc.Proofs.Postfix.Stop — the token at which an evaluation stops.

  How many values are there before a token is a count of the tokens before it, numbers
  less operators. An evaluation stops at the first token that is unknown, a parenthesis,
  or takes more than the count; with none such it ends, and the count of all tokens
  says with how many values. No number is looked at for that, and none decides where a
  token goes in an order. So rows that differ only in the values of their numbers have
  all of them a value, or fail with the same error.

  Proved:
  - `run_of_no_stop`: an evaluation passes where the counts let it.
  - `order_shape`: the order of a row, whatever the values of its numbers.
  - `value_by_counting`: how an evaluation ends, told by the counts.
-/

import DeskCalc.Proofs.Postfix.Account
import DeskCalc.Proofs.Postfix.Count
import DeskCalc.Proofs.Postfix.Labels

namespace DeskCalc

/-- A token with zero for the value of a number: all that is looked at to place it. -/
def Token.shape : Token → Token
  | number _ => number 0
  | t => t

namespace Postfix

open Nesting (Balanced openAfter)
open Outcome (verdict)
open Token (numbers operators isParen isUnknown shape)

/-! ## Counting -/

/-- How many values tokens leave, by counting. -/
def depth (ts : List Token) : Int := numbers ts - operators ts

/-- Whether an evaluation stops at a token, `d` being the count before it. -/
def Stops (d : Int) (t : Token) : Prop := t.isUnknown = true ∨ t.isParen = true ∨ d < t.arity

instance (d : Int) (t : Token) : Decidable (Stops d t) := by unfold Stops; infer_instance

/-- The first token at which the counts stop an evaluation. -/
def stop? (ts : List Token) : Option (Fin ts.length) :=
  (List.finRange ts.length).find? fun i => Stops (depth (ts.take i)) (ts.get i)

/-- The error of an evaluation that stops at a token. -/
def refusal : Token → EvalError
  | .unknown text => .unknownToken text
  | .leftParen => .unbalanced
  | .rightParen => .unbalanced
  | t => .missingOperand t.text

theorem depth_of_run {ts : List Token} {s : Stack Float} (h : run .empty ts = .ok s) : depth ts = s.size := by
  have size := run_size h
  rw [Stack.size_empty] at size
  unfold depth
  omega

/-! ## One token -/

theorem stops_of_error {s : Stack Float} {t : Token} {e : EvalError} (h : step s t = .error e) :
    Stops s.size t ∧ e = refusal t := by
  rcases step_error h with ⟨short, rfl⟩ | ⟨text, rfl, rfl⟩ | ⟨paren, rfl⟩
  · refine ⟨Or.inr (Or.inr (Int.ofNat_lt.mpr short)), ?_⟩
    cases t with
    | operator op => rfl
    | function f => rfl
    | _ => cases short
  · exact ⟨Or.inl rfl, rfl⟩
  · refine ⟨Or.inr (Or.inl paren), ?_⟩
    cases t with
    | leftParen => rfl
    | rightParen => rfl
    | _ => cases paren

theorem not_stops_of_ok {s s' : Stack Float} {t : Token} (h : step s t = .ok s') : ¬Stops s.size t := by
  have there : t.arity ≤ s.size ∧ t.isUnknown = false ∧ t.isParen = false := by
    obtain ⟨v, rfl, -⟩ | ⟨f, x, rest, rfl, rfl, -⟩ | ⟨op, right, left, rest, rfl, rfl, -⟩ := step_eq_ok_iff.mp h
    · exact ⟨Nat.zero_le _, rfl, rfl⟩
    · exact ⟨Nat.le_add_left 1 _, rfl, rfl⟩
    · exact ⟨Nat.le_add_left 2 _, rfl, rfl⟩
  rintro (unknown | paren | short)
  · rw [there.2.1] at unknown
    cases unknown
  · rw [there.2.2] at paren
    cases paren
  · exact absurd there.1 (Nat.not_le.mpr (Int.ofNat_lt.mp short))

theorem step_of_stops {s : Stack Float} {t : Token} (h : Stops s.size t) : step s t = .error (refusal t) := by
  cases hs : step s t with
  | ok s' => exact absurd h (not_stops_of_ok hs)
  | error e => rw [(stops_of_error hs).2]

/-! ## Runs -/

/-- At none of the tokens the counts stop an evaluation. -/
def NoStop (ts : List Token) : Prop := ∀ before t behind, ts = before ++ t :: behind → ¬Stops (depth before) t

theorem run_of_no_stop {ts : List Token} (h : NoStop ts) : ∃ s, run .empty ts = .ok s := by
  cases hr : run .empty ts with
  | ok s => exact ⟨s, rfl⟩
  | error e =>
    obtain ⟨before, t, behind, s, split, passed, stopped⟩ := run_error hr
    have stops := (stops_of_error stopped).1
    rw [← depth_of_run passed] at stops
    exact absurd stops (h before t behind split)

theorem run_of_stop {before behind : List Token} {t : Token} (h : NoStop before) (stops : Stops (depth before) t) :
    run .empty (before ++ t :: behind) = .error (refusal t) := by
  obtain ⟨s, passed⟩ := run_of_no_stop h
  rw [depth_of_run passed] at stops
  rw [run_append, passed]
  show run s (t :: behind) = _
  rw [run_cons, step_of_stops stops]
  rfl

/-! ## Positions -/

/-- A split of a row, told by its position. -/
theorem exists_position {ts before behind : List Token} {t : Token} (h : ts = before ++ t :: behind) :
    ∃ i : Fin ts.length, (i : Nat) = before.length ∧ ts.take i = before ∧ ts.get i = t := by
  subst h
  exact ⟨⟨before.length, by simp⟩, rfl, by simp, by simp⟩

theorem no_stop_of_stop?_none {ts : List Token} (h : stop? ts = none) : NoStop ts := by
  intro before t behind split
  obtain ⟨i, -, rfl, rfl⟩ := exists_position split
  simpa using List.find?_eq_none.mp h i (List.mem_finRange i)

theorem stops_of_stop?_some {ts : List Token} {i : Fin ts.length} (h : stop? ts = some i) :
    Stops (depth (ts.take i)) (ts.get i) ∧ NoStop (ts.take i) := by
  obtain ⟨stops, k, hk, at_k, first⟩ := List.find?_eq_some_iff_getElem.mp h
  refine ⟨of_decide_eq_true stops, fun before t behind split => ?_⟩
  have whole : ts = before ++ t :: (behind ++ ts.drop i) := by
    rw [← List.cons_append, ← List.append_assoc, ← split, List.take_append_drop]
  obtain ⟨j, hj, rfl, rfl⟩ := exists_position whole
  have earlier : (j : Nat) < k := by
    have length := congrArg List.length split
    have position := congrArg Fin.val at_k
    rw [List.getElem_finRange] at position
    simp at length position
    omega
  have passes := first j earlier
  rw [List.getElem_finRange] at passes
  simpa using passes

/-! ## The end of an evaluation -/

/-- With one value on the stack there is a result, with any other number an error that tells it. -/
theorem verdict_of_run_ok {ts : List Token} {s : Stack Float} (h : run .empty ts = .ok s) :
    verdict (value ts) = if s.size = 1 then .ok () else .error (.leftover s.size) := by
  split
  · rename_i single
    obtain ⟨v, rfl⟩ := exists_single single
    rw [value_of_single h]
    rfl
  · rename_i several
    rw [value_of_leftover h several]
    rfl

/-! ## Rows that differ only in the values of their numbers -/

theorem shape_eq_leftParen (t : Token) : t.shape = .leftParen ↔ t = .leftParen := by cases t <;> simp [shape]

theorem shape_eq_rightParen (t : Token) : t.shape = .rightParen ↔ t = .rightParen := by cases t <;> simp [shape]

theorem balanced_shape (ts : List Token) :
    Balanced .leftParen .rightParen (ts.map shape) ↔ Balanced .leftParen .rightParen ts := by
  rw [Nesting.balanced_iff Yard.paren_ne, Nesting.balanced_iff Yard.paren_ne,
    Nesting.openAfter_map shape_eq_leftParen shape_eq_rightParen]

section

variable {α : Type} (kind : α → Token)

theorem bindsAtLeast_shape (op : Operator) :
    Labels.bindsAtLeast op ∘ shape ∘ kind = Labels.bindsAtLeast op ∘ kind := by
  funext a
  show Labels.bindsAtLeast op (kind a).shape = Labels.bindsAtLeast op (kind a)
  cases kind a <;> rfl

theorem notOpening_shape : Labels.notOpening ∘ shape ∘ kind = Labels.notOpening ∘ kind := by
  funext a
  show Labels.notOpening (kind a).shape = Labels.notOpening (kind a)
  cases kind a <;> rfl

theorem call_shape (l : Labels α) : l.call (shape ∘ kind) = l.call kind := by
  rcases l with ⟨out, _ | ⟨a, rest⟩⟩
  · rfl
  · cases ha : kind a <;> simp [Labels.call, ha, shape]

theorem pass_shape (l : Labels α) (a : α) : l.pass (shape ∘ kind) a = l.pass kind a := by
  rw [Labels.pass, Labels.pass]
  simp only [Labels.release, bindsAtLeast_shape, notOpening_shape, call_shape]
  cases ha : kind a <;> simp [ha, shape]

theorem arrange_shape (row : List α) : arrange (shape ∘ kind) row = arrange kind row := by
  have same : Labels.pass (shape ∘ kind) = Labels.pass kind := by
    funext l a
    exact pass_shape kind l a
  rw [arrange, arrange, Labels.run, Labels.run, same]

end

/-- The values of numbers do not decide where a token goes. -/
theorem order_shape {ts out : List Token} (h : order ts = .ok out) : order (ts.map shape) = .ok (out.map shape) := by
  obtain ⟨out', h'⟩ := order_of_balanced ((balanced_shape ts).mpr (balanced_of_order h))
  have labelled : order (ts.map id) = .ok out := by rw [List.map_id, h]
  have shaped : order (ts.map (shape ∘ id)) = .ok out' := h'
  rw [h', order_map shaped, arrange_shape, order_map labelled, List.map_map]

/-- What a token does to the size of a stack, that size and the token decide. -/
theorem step_congr {s s' : Stack Float} (hs : s.size = s'.size) (t : Token) :
    (step s t).map Stack.size = (step s' t).map Stack.size := by
  cases h : step s t with
  | error e =>
    obtain ⟨stops, rfl⟩ := stops_of_error h
    rw [step_of_stops (hs ▸ stops)]
  | ok u =>
    cases h' : step s' t with
    | error e =>
      have stops := (stops_of_error h').1
      rw [← hs] at stops
      exact absurd stops (not_stops_of_ok h)
    | ok u' =>
      have size := step_size h
      have size' := step_size h'
      exact congrArg Except.ok (show u.size = u'.size by omega)

theorem step_shape {s s' : Stack Float} (hs : s.size = s'.size) (t : Token) :
    (step s t).map Stack.size = (step s' t.shape).map Stack.size := by
  cases t with
  | number v => exact congrArg (fun n => Except.ok (n + 1)) hs
  | _ => exact step_congr hs _

theorem run_shape {s s' : Stack Float} (hs : s.size = s'.size) (ts : List Token) :
    (run s ts).map Stack.size = (run s' (ts.map shape)).map Stack.size := by
  induction ts generalizing s s' with
  | nil => exact congrArg Except.ok hs
  | cons t ts ih =>
    have first := step_shape hs t
    rw [List.map_cons, run_cons, run_cons]
    cases h : step s t with
    | error e =>
      rw [h] at first
      rw [Outcome.map_eq_error.mp first.symm]
      rfl
    | ok u =>
      rw [h] at first
      obtain ⟨u', h', size⟩ := Outcome.map_eq_ok.mp first.symm
      rw [h']
      exact ih size.symm

/-- Nor do they decide how an evaluation ends. -/
theorem verdict_shape (ts : List Token) : verdict (value (ts.map shape)) = verdict (value ts) := by
  have same : (run .empty ts).map Stack.size = (run .empty (ts.map shape)).map Stack.size := run_shape rfl ts
  cases h : run .empty ts with
  | error e =>
    rw [h] at same
    rw [value_of_run_error h, value_of_run_error (Outcome.map_eq_error.mp same.symm)]
  | ok s =>
    rw [h] at same
    obtain ⟨s', h', size⟩ := Outcome.map_eq_ok.mp same.symm
    rw [verdict_of_run_ok h, verdict_of_run_ok h', size]

theorem verdict_order_shape (row : List Token) :
    verdict (order (row.map shape) >>= value) = verdict (order row >>= value) := by
  by_cases balanced : Balanced .leftParen .rightParen row
  · obtain ⟨out, h⟩ := order_of_balanced balanced
    rw [h, order_shape h]
    exact verdict_shape out
  · rw [order_of_not_balanced balanced, order_of_not_balanced (mt (balanced_shape row).mp balanced)]

/-! ## How an evaluation ends -/

theorem refusal_ne_emptyStack (t : Token) : refusal t ≠ .emptyStack := by cases t <;> simp [refusal]

theorem value_of_stop {ts : List Token} {i : Fin ts.length} (h : stop? ts = some i) :
    value ts = .error (refusal (ts.get i)) := by
  obtain ⟨stops, before⟩ := stops_of_stop?_some h
  have split : ts = ts.take i ++ ts.get i :: ts.drop (i + 1) := by simp
  exact value_of_run_error ((congrArg (run .empty) split).trans (run_of_stop before stops))

theorem value_of_no_stop {ts : List Token} (h : stop? ts = none) :
    ∃ n : Nat, depth ts = n ∧ if n = 1 then ∃ v, value ts = .ok v else value ts = .error (.leftover n) := by
  obtain ⟨s, passed⟩ := run_of_no_stop (no_stop_of_stop?_none h)
  have ended := verdict_of_run_ok passed
  refine ⟨s.size, depth_of_run passed, ?_⟩
  split
  · rename_i single
    rw [if_pos single] at ended
    exact Outcome.verdict_eq_ok.mp ended
  · rename_i single
    rw [if_neg single] at ended
    exact Outcome.verdict_eq_error.mp ended

theorem value_ne_emptyStack (ts : List Token) : value ts ≠ .error .emptyStack := by
  intro empty
  cases h : stop? ts with
  | some i =>
    rw [value_of_stop h] at empty
    exact refusal_ne_emptyStack _ (Except.error.inj empty)
  | none =>
    obtain ⟨n, -, ended⟩ := value_of_no_stop h
    split at ended
    · obtain ⟨v, hv⟩ := ended
      rw [hv] at empty
      cases empty
    · rw [ended] at empty
      cases empty

/-- The counts decide how an evaluation ends, up to the value: at the first token that they stop, with its error;
    else with as many values as they say, and only one is a result. Nothing is asked of an empty stack. Rows that
    differ only in the values of their numbers, be they infinite or not a number, end in the same way. -/
theorem value_by_counting (ts : List Token) :
    (match stop? ts with
      | some i => value ts = .error (refusal (ts.get i))
      | none => ∃ n : Nat, depth ts = n ∧ if n = 1 then ∃ v, value ts = .ok v else value ts = .error (.leftover n)) ∧
    value ts ≠ .error .emptyStack ∧
    ∀ row row' : List Token, row.map shape = row'.map shape →
      verdict (order row >>= value) = verdict (order row' >>= value) := by
  refine ⟨?_, value_ne_emptyStack ts, fun row row' same => ?_⟩
  · cases h : stop? ts with
    | some i => exact value_of_stop h
    | none => exact value_of_no_stop h
  · rw [← verdict_order_shape row, same, verdict_order_shape row']

/-- A quotient that is not a number ends as one that is. -/
theorem value_by_counting_not_a_number :
    let row : List Token := [.number 0, .operator .divide, .number 0, .operator .plus]
    let row' : List Token := [.number 6, .operator .divide, .number 3, .operator .plus]
    row.map shape = row'.map shape ∧ verdict (order row >>= value) = verdict (order row' >>= value) := by
  intro row row'
  have same : row.map shape = row'.map shape := rfl
  exact ⟨same, (value_by_counting []).2.2 row row' same⟩

end Postfix

end DeskCalc
