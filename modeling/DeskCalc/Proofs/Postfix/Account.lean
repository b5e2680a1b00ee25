/-
  DeskCalc.Proofs.Postfix.Account — the yard loses nothing, adds nothing and keeps count.

  The tokens of a row may be taken for labels of their own, so what is out at the end is
  what came in, in another order (`order_perm`). Values go out at once, hence in the order
  they came in (`order_values`). The opening parentheses that wait are those still open,
  so a row has an order exactly when its parentheses are balanced.

  Proved:
  - `run_opened`: the parentheses that wait are counted as those of the row.
  - `order_of_balanced` / `order_of_not_balanced`: which rows have an order.
  - `order_perm` / `order_values`: what an order keeps of its row.
-/

import DeskCalc.Proofs.Nesting
import DeskCalc.Proofs.Postfix.Labels
import DeskCalc.Proofs.Token.Kind

namespace DeskCalc.Postfix

open Nesting (Balanced openAfter)
open Token (isParen isUnknown isValue numbers operators)

/-! ## Entries -/

namespace Pending

theorem isValue_token (p : Pending) : p.token.isValue = false := by cases p <;> rfl

theorem ne_openParen_of_bindsAtLeast {op : Operator} {p : Pending} (h : p.bindsAtLeast op = true) : p ≠ openParen := by
  rintro rfl
  cases h

end Pending

namespace Yard

theorem call_cases (out : List Token) (w : List Pending) :
    (yard out w).call = yard out w ∨
      ∃ f below, w = .function f :: below ∧ (yard out w).call = yard (out ++ [.function f]) below := by
  rcases w with _ | ⟨_ | op | f, below⟩
  · exact Or.inl rfl
  · exact Or.inl rfl
  · exact Or.inl rfl
  · exact Or.inr ⟨f, below, rfl, call_function out f below⟩

/-! ## The parentheses that wait -/

def opened (y : Yard) : Nat := y.waiting.items.count .openParen

theorem opened_yard (out : List Token) (w : List Pending) : (yard out w).opened = w.count .openParen := rfl

theorem opened_call (out : List Token) (w : List Pending) : (yard out w).call.opened = w.count .openParen := by
  rcases call_cases out w with h | ⟨f, below, rfl, h⟩
  · rw [h, opened_yard]
  · rw [h, opened_yard, List.count_cons_of_ne (by simp)]

theorem count_openParen_append {inner : List Pending} (h : .openParen ∉ inner) (below : List Pending) :
    (inner ++ below).count .openParen = below.count .openParen := by
  rw [List.count_append, List.count_eq_zero.mpr h, Nat.zero_add]

theorem paren_ne : (.leftParen : Token) ≠ .rightParen := by simp

/-- The yard refuses a token exactly where the count of open parentheses is lost, and keeps it otherwise. -/
theorem step_opened (y : Yard) (t : Token) :
    (y.step t).map opened = (openAfter .leftParen .rightParen y.opened [t]).elim (.error .unbalanced) .ok := by
  rw [eq_yard y]
  generalize y.output.toList = out, y.waiting.items = w
  cases t with
  | number v => rfl
  | unknown text => rfl
  | function f =>
    rw [step_function, Nesting.openAfter_other (by simp) (by simp)]
    exact congrArg Except.ok (List.count_cons_of_ne (by simp))
  | leftParen =>
    rw [step_leftParen, Nesting.openAfter_opening]
    exact congrArg Except.ok List.count_cons_self
  | operator op =>
    obtain ⟨inner, below, rfl, hi, hb⟩ := Span.exists_span (Pending.bindsAtLeast op) w
    have none : .openParen ∉ inner := fun hm => Pending.ne_openParen_of_bindsAtLeast (hi _ hm) rfl
    rw [step_operator out hi hb, Nesting.openAfter_other (by simp) (by simp)]
    refine congrArg Except.ok ?_
    rw [opened_yard, opened_yard, count_openParen_append none, List.count_cons_of_ne (by simp)]
  | rightParen =>
    rw [step]
    by_cases hw : .openParen ∈ w
    · obtain ⟨inner, below, rfl, hi⟩ := List.eq_append_cons_of_mem hw
      rw [close_behind out below hi, opened_yard, count_openParen_append hi, List.count_cons_self,
        Nesting.openAfter_closing_succ paren_ne]
      exact congrArg Except.ok (opened_call _ below)
    · rw [close_of_not_mem out hw, opened_yard, List.count_eq_zero.mpr hw, Nesting.openAfter_closing_zero paren_ne]
      rfl

theorem run_opened (y : Yard) (ts : List Token) :
    (y.run ts).map opened = (openAfter .leftParen .rightParen y.opened ts).elim (.error .unbalanced) .ok := by
  induction ts generalizing y with
  | nil => rfl
  | cons t ts ih =>
    calc (y.run (t :: ts)).map opened
        = (y.step t).map opened >>= fun n => (openAfter .leftParen .rightParen n ts).elim (.error .unbalanced) .ok := by
          rw [run_cons]
          cases y.step t with
          | error e => rfl
          | ok u => exact ih u
      _ = (openAfter .leftParen .rightParen y.opened ([t] ++ ts)).elim (.error .unbalanced) .ok := by
          rw [step_opened, Nesting.openAfter_append]
          cases openAfter Token.leftParen .rightParen y.opened [t] <;> rfl

end Yard

/-! ## Which rows have an order -/

theorem order_of_balanced {ts : List Token} (h : Balanced .leftParen .rightParen ts) : ∃ out, order ts = .ok out := by
  have run := Yard.run_opened Yard.start ts
  rw [show Yard.start.opened = 0 from rfl, (Nesting.balanced_iff Yard.paren_ne).mp h] at run
  obtain ⟨y, hy, closed⟩ := Outcome.map_eq_ok.mp run
  refine ⟨y.output.toList ++ y.waiting.items.map Pending.token, ?_⟩
  rw [order_eq, hy]
  show y.finish = _
  rw [Yard.eq_yard y, Yard.finish_yard, if_neg (List.count_eq_zero.mp closed)]
  rfl

theorem order_of_not_balanced {ts : List Token} (h : ¬Balanced .leftParen .rightParen ts) :
    order ts = .error .unbalanced := by
  have run := Yard.run_opened Yard.start ts
  rw [Nesting.balanced_iff Yard.paren_ne] at h
  rw [show Yard.start.opened = 0 from rfl] at run
  rw [order_eq]
  cases hy : Yard.start.run ts with
  | error e =>
    rw [hy] at run
    obtain ⟨-, rfl⟩ := Outcome.elim_eq_error.mp run.symm
    rfl
  | ok y =>
    rw [hy] at run
    have still : .openParen ∈ y.waiting.items := by
      refine List.count_pos_iff.mp (Nat.pos_of_ne_zero fun zero => h ?_)
      rw [Outcome.elim_eq_ok.mp run.symm]
      exact congrArg some zero
    show y.finish = _
    rw [Yard.eq_yard y, Yard.finish_yard, if_pos still]

theorem balanced_of_order {ts out : List Token} (h : order ts = .ok out) : Balanced .leftParen .rightParen ts := by
  by_cases hb : Balanced .leftParen .rightParen ts
  · exact hb
  · rw [order_of_not_balanced hb] at h
    cases h

/-! ## What is kept -/

namespace Yard

/-- The values that are out. -/
def values (y : Yard) : List Token := y.output.toList.filter isValue

theorem values_released (out : List Token) (inner w : List Pending) :
    (yard (out ++ inner.map Pending.token) w).values = (yard out w).values := by
  have none : (inner.map Pending.token).filter isValue = [] := by
    refine List.filter_eq_nil_iff.mpr fun t ht => ?_
    obtain ⟨p, -, rfl⟩ := List.mem_map.mp ht
    rw [Pending.isValue_token p]
    exact Bool.false_ne_true
  show (out ++ inner.map Pending.token).filter isValue = out.filter isValue
  rw [List.filter_append, none, List.append_nil]

theorem values_call (out : List Token) (w : List Pending) : (yard out w).call.values = (yard out w).values := by
  rcases call_cases out w with h | ⟨f, below, rfl, h⟩
  · rw [h]
  · rw [h]
    exact values_released out [.function f] below

theorem step_values {y y' : Yard} {t : Token} (h : y.step t = .ok y') : y'.values = y.values ++ [t].filter isValue := by
  rw [eq_yard y] at h ⊢
  generalize y.output.toList = out, y.waiting.items = w at h ⊢
  obtain ⟨-, rfl⟩ | ⟨p, rfl, -, rfl⟩ | ⟨op, inner, below, rfl, rfl, -, -, rfl⟩ | ⟨inner, below, rfl, -, rfl, rfl⟩ :=
    step_cases h
  · exact List.filter_append out [t]
  · rw [List.filter_cons_of_neg (by rw [Pending.isValue_token p]; exact Bool.false_ne_true)]
    exact (List.append_nil _).symm
  · rw [values_released]
    exact (List.append_nil _).symm
  · rw [values_call, values_released]
    exact (List.append_nil _).symm

theorem run_values {y y' : Yard} {ts : List Token} (h : y.run ts = .ok y') :
    y'.values = y.values ++ ts.filter isValue := by
  induction ts generalizing y with
  | nil =>
    injection h with h
    rw [h, List.filter_nil, List.append_nil]
  | cons t ts ih =>
    obtain ⟨u, hs, hu⟩ := run_cons_eq_ok.mp h
    rw [ih hu, step_values hs, List.append_assoc, ← List.filter_append]
    rfl

end Yard

/-- An order is made of the tokens of its row, without the parentheses. -/
theorem order_perm {ts out : List Token} (h : order ts = .ok out) : out.Perm (ts.filter (!isParen ·)) := by
  -- the tokens of a row may be their own labels
  have labelled : order (ts.map id) = .ok out := by rw [List.map_id, h]
  rw [order_map labelled, List.map_id]
  exact arrange_perm labelled

/-- The values of a row are in its order as they stood. -/
theorem order_values {ts out : List Token} (h : order ts = .ok out) : out.filter isValue = ts.filter isValue := by
  obtain ⟨out', w, hr, -, rfl⟩ := order_eq_ok h
  exact (Yard.values_released out' w []).trans (Yard.run_values hr)

section

variable {ts out : List Token} (h : order ts = .ok out)

include h

theorem mem_order_iff (t : Token) : t ∈ out ↔ t ∈ ts ∧ t.isParen = false := by
  rw [(order_perm h).mem_iff, List.mem_filter, Bool.not_eq_true']

theorem numbers_order : numbers out = numbers ts := by
  have kinds : (fun t : Token => t.isNumber && !isParen t) = Token.isNumber := by
    funext t
    cases t <;> rfl
  rw [numbers, (order_perm h).countP_eq, List.countP_filter, kinds, numbers]

theorem operators_order : operators out = operators ts := by
  have kinds : (fun t : Token => t.isOperator && !isParen t) = Token.isOperator := by
    funext t
    cases t <;> rfl
  rw [operators, (order_perm h).countP_eq, List.countP_filter, kinds, operators]

/-- The first unknown token is met first in the order too. -/
theorem find?_unknown_order : out.find? isUnknown = ts.find? isUnknown := by
  rw [← Token.find?_unknown_filter out, order_values h, Token.find?_unknown_filter]

end

end DeskCalc.Postfix
