/-
  DeskCalc.Proofs.Grammar.Alternating — tokens that take turns are derived.

  Derived tokens take turns, their parentheses are balanced, and they hold one number
  more than operators. Here is the converse. A row is read from the left, and what has
  been read is described by what it becomes with the next operand (`AwaitsOperand`) and
  with none (`Complete`): with nothing open, an expression; inside a parenthesis, an
  expression behind it that the closing partner makes an operand of what stands before.
  Every token that takes its turn leads from one description to the other.

  Proved:
  - `derives_snoc`: an expression is continued by an operator and an atom.
  - `derives_of_alternates`: balanced tokens that take turns are derived.
-/

import DeskCalc.Proofs.Grammar
import DeskCalc.Proofs.Nesting
import DeskCalc.Proofs.Token.Kind

namespace DeskCalc.Grammar

open Nesting (openAfter)
open Token (numbers operators isUnknown)

/-! ## Continuing an expression -/

theorem Derives.of_atom {ts : List Token} {t : Tree} (h : Derives .atom ts t) (k : Layer) : Derives k ts t := by
  cases k with
  | atom => exact h
  | factor => exact .single h
  | term => exact .single (.single h)
  | expression => exact .single (.single (.single h))

theorem Layer.bound_tighter_le {k : Layer} {op : Operator} (h : k.bound ≤ op.precedence) (hk : k ≠ ofOperator op) :
    k.tighter.bound ≤ op.precedence := by
  revert h hk
  cases k <;> cases op <;> decide

/-- The operator goes to the layer that it builds: into the right operand of a looser one, and around its own. -/
theorem derives_snoc {k : Layer} {ts us : List Token} {t u : Tree} {op : Operator} (h : Derives k ts t)
    (hk : k.bound ≤ op.precedence) (hu : Derives .atom us u) : ∃ t', Derives k (ts ++ .operator op :: us) t' := by
  have no_atom : ¬Layer.atom.bound ≤ op.precedence := by cases op <;> decide
  induction h with
  | number v => exact absurd hk no_atom
  | parens _ => exact absurd hk no_atom
  | call f _ => exact absurd hk no_atom
  | binary other hl hr _ ih =>
    by_cases own : Layer.ofOperator other = .ofOperator op
    · have whole := Derives.binary other hl hr
      rw [own] at whole ⊢
      exact ⟨_, .binary op whole (hu.of_atom _)⟩
    · obtain ⟨r, hr'⟩ := ih (Layer.bound_tighter_le hk own)
      rw [List.append_assoc]
      exact ⟨_, .binary other hl hr'⟩
  | @single k ts t hs ih =>
    by_cases own : k = .ofOperator op
    · subst own
      exact ⟨_, .binary op (.single hs) (hu.of_atom _)⟩
    · obtain ⟨t', ht⟩ := ih (Layer.bound_tighter_le hk own)
      exact ⟨t', .single ht⟩

/-! ## Rows that are read in part -/

/-- What has been read with `n` parentheses open is an expression so far, inside the last of them. With
    any operand in place of that parenthesis and all behind it, the same holds with one open less. -/
def Complete : Nat → List Token → Prop
  | 0, ts => ∃ t, Derives .expression ts t
  | n + 1, ts =>
    ∃ outer inner, ts = outer ++ .leftParen :: inner ∧ (∃ t, Derives .expression inner t) ∧
      ∀ us u, Derives .atom us u → Complete n (outer ++ us)

/-- Any operand completes what has been read. -/
def AwaitsOperand (n : Nat) (ts : List Token) : Prop := ∀ us u, Derives .atom us u → Complete n (ts ++ us)

theorem awaitsOperand_nil : AwaitsOperand 0 [] := fun _ u hu => ⟨u, hu.of_atom _⟩

theorem AwaitsOperand.number {n : Nat} {ts : List Token} (h : AwaitsOperand n ts) (v : Float) :
    Complete n (ts ++ [.number v]) := h _ _ (.number v)

theorem AwaitsOperand.function {n : Nat} {ts : List Token} (h : AwaitsOperand n ts) (f : ScientificFunction) :
    AwaitsOperand n (ts ++ [.function f]) := by
  intro us u hu
  rw [List.append_assoc]
  exact h _ _ (.call f hu)

theorem AwaitsOperand.leftParen {n : Nat} {ts : List Token} (h : AwaitsOperand n ts) :
    AwaitsOperand (n + 1) (ts ++ [.leftParen]) := by
  intro us u hu
  exact ⟨ts, us, by rw [List.append_assoc]; rfl, ⟨u, hu.of_atom _⟩, h⟩

theorem Complete.operator {n : Nat} {ts : List Token} (h : Complete n ts) (op : Operator) :
    AwaitsOperand n (ts ++ [.operator op]) := by
  intro us u hu
  have loosest : Layer.expression.bound ≤ op.precedence := Operator.precedence_pos op
  rw [List.append_assoc]
  cases n with
  | zero =>
    obtain ⟨t, ht⟩ := h
    exact derives_snoc ht loosest hu
  | succ n =>
    obtain ⟨outer, inner, rfl, ⟨t, ht⟩, closes⟩ := h
    exact ⟨outer, _, List.append_assoc .., derives_snoc ht loosest hu, closes⟩

theorem Complete.rightParen {n : Nat} {ts : List Token} (h : Complete (n + 1) ts) :
    Complete n (ts ++ [.rightParen]) := by
  obtain ⟨outer, inner, rfl, ⟨t, ht⟩, closes⟩ := h
  rw [List.append_assoc]
  exact closes _ _ (.parens ht)

/-! ## Whole rows -/

/-- What has been read, `previous` being its last token. -/
def Reads (n : Nat) (previous : Option Token) (ts : List Token) : Prop :=
  if wantsOperand previous then AwaitsOperand n ts else Complete n ts

/-- A token that takes its turn is read, and opens or closes what it has to. -/
theorem Reads.step {n m : Nat} {previous : Option Token} {read : List Token} {t : Token} (h : Reads n previous read)
    (turn : beginsOperand t = wantsOperand previous) (known : t.isUnknown = false)
    (opens : openAfter .leftParen .rightParen n [t] = some m) : Reads m (some t) (read ++ [t]) := by
  rw [Reads, ← turn] at h
  cases t with
  | number v =>
    cases opens
    exact AwaitsOperand.number h v
  | function f =>
    cases opens
    exact AwaitsOperand.function h f
  | leftParen =>
    cases opens
    exact AwaitsOperand.leftParen h
  | operator op =>
    cases opens
    exact Complete.operator h op
  | rightParen =>
    cases n with
    | zero => cases opens
    | succ n =>
      cases opens
      exact Complete.rightParen h
  | unknown text => cases known

/-- How many operands stand complete behind `previous` and wait for an operator. -/
def operands (previous : Option Token) : Nat := if wantsOperand previous then 0 else 1

/-- A number adds an operand, and an operator takes one. -/
theorem operands_step {previous : Option Token} {t : Token} (turn : beginsOperand t = wantsOperand previous)
    (known : t.isUnknown = false) :
    numbers [t] + operands previous = operators [t] + operands (some t) := by
  rw [operands, ← turn]
  cases t with
  | unknown text => cases known
  | _ => rfl

/-- The rest of a row, behind what has been read of it. -/
theorem derives_of_reads {ts : List Token} {n : Nat} {previous : Option Token} {read : List Token}
    (hr : Reads n previous read) (ha : Alternates previous ts) (known : ∀ t ∈ ts, t.isUnknown = false)
    (closed : openAfter .leftParen .rightParen n ts = some 0)
    (count : numbers ts + operands previous = operators ts + 1) : ∃ t, Derives .expression (read ++ ts) t := by
  induction ts generalizing n previous read with
  | nil =>
    obtain rfl : n = 0 := Option.some.inj closed
    have complete : wantsOperand previous = false := by
      by_cases hw : wantsOperand previous = true
      · simp [operands, hw] at count
      · simpa using hw
    rw [List.append_nil]
    rw [Reads, complete] at hr
    exact hr
  | cons t ts ih =>
    have first := known t List.mem_cons_self
    rw [← List.singleton_append, Nesting.openAfter_append] at closed
    obtain ⟨m, opens, closed⟩ := Option.bind_eq_some_iff.mp closed
    have turned := operands_step ha.1 first
    rw [← List.singleton_append, Token.numbers_append, Token.operators_append] at count
    rw [← List.singleton_append, ← List.append_assoc]
    exact ih (hr.step ha.1 first opens) ha.2 (fun u hu => known u (List.mem_cons_of_mem _ hu)) closed (by omega)

/-- Balanced tokens that take turns, none of them unknown and one number more than operators, are derived. -/
theorem derives_of_alternates {ts : List Token} (ha : Alternates none ts) (known : ∀ t ∈ ts, t.isUnknown = false)
    (balanced : Nesting.Balanced .leftParen .rightParen ts) (count : numbers ts = operators ts + 1) :
    ∃ t, Derives .expression ts t := by
  have start : Reads 0 none [] := awaitsOperand_nil
  exact derives_of_reads start ha known ((Nesting.balanced_iff (by simp)).mp balanced) count

end DeskCalc.Grammar
