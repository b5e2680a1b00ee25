/-
  DeskCalc.Proofs.Postfix.Value — what a postfix sequence does to the stack.

  A token that finds its values looks at no more of the stack than it takes, so a
  run can be had above any other stack (`run_above`): a sequence that has a value by
  itself only pushes that value. The listing of a tree is such a sequence.

  Proved:
  - `step_eq_ok_iff`: the three ways in which a token succeeds.
  - `run_above`: what lies below the values of a run is left as it is.
  - `value_of_run_error` / `value_of_single` / `value_of_leftover`: how a run ends.
  - `run_of_value`: a sequence with a value pushes it.
  - `value_listing`: the listing of a tree has the value of the tree.
  - `value_unknown`: a sequence with an unknown token has no value.
-/

import DeskCalc.Postfix.Value
import DeskCalc.Proofs.Grammar
import DeskCalc.Proofs.Outcome

namespace DeskCalc.Postfix

open Grammar (Tree)

/-! ## One token -/

theorem step_of_le {s : Stack Float} {t : Token} (h : t.arity ≤ s.size) : step s t = applyToken s t :=
  if_neg (Nat.not_lt.mpr h)

theorem step_number (s : Stack Float) (v : Float) : step s (.number v) = .ok (s.push v) := rfl

theorem step_function_cons (f : ScientificFunction) (x : Float) (rest : List Float) :
    step ⟨x :: rest⟩ (.function f) = .ok ⟨f.apply x :: rest⟩ :=
  step_of_le (by simp [Token.arity, Stack.size])

theorem step_operator_cons (op : Operator) (right left : Float) (rest : List Float) :
    step ⟨right :: left :: rest⟩ (.operator op) = .ok ⟨op.apply left right :: rest⟩ :=
  step_of_le (by simp [Token.arity, Stack.size])

/-- What a token that succeeds does to the stack. -/
theorem step_eq_ok_iff {s s' : Stack Float} {t : Token} :
    step s t = .ok s' ↔
      (∃ v, t = .number v ∧ s' = s.push v) ∨
      (∃ f x rest, t = .function f ∧ s = ⟨x :: rest⟩ ∧ s' = ⟨f.apply x :: rest⟩) ∨
      (∃ op right left rest, t = .operator op ∧ s = ⟨right :: left :: rest⟩ ∧ s' = ⟨op.apply left right :: rest⟩) := by
  constructor
  · intro h
    cases t with
    | number v =>
      rw [step_number] at h
      injection h with h
      exact Or.inl ⟨v, rfl, h.symm⟩
    | function f =>
      rcases s with ⟨_ | ⟨x, rest⟩⟩
      · cases h
      · rw [step_function_cons] at h
        injection h with h
        exact Or.inr (Or.inl ⟨f, x, rest, rfl, rfl, h.symm⟩)
    | operator op =>
      rcases s with ⟨_ | ⟨right, _ | ⟨left, rest⟩⟩⟩
      · cases h
      · cases h
      · rw [step_operator_cons] at h
        injection h with h
        exact Or.inr (Or.inr ⟨op, right, left, rest, rfl, rfl, h.symm⟩)
    | _ => cases h
  · intro h
    rcases h with ⟨v, rfl, rfl⟩ | ⟨f, x, rest, rfl, rfl, rfl⟩ | ⟨op, right, left, rest, rfl, rfl, rfl⟩
    · exact step_number s v
    · exact step_function_cons f x rest
    · exact step_operator_cons op right left rest

/-! ## Runs -/

@[simp] theorem run_nil (s : Stack Float) : run s [] = .ok s := rfl

theorem run_cons (s : Stack Float) (t : Token) (ts : List Token) : run s (t :: ts) = step s t >>= (run · ts) := rfl

theorem run_cons_eq_ok {s s' : Stack Float} {t : Token} {ts : List Token} :
    run s (t :: ts) = .ok s' ↔ ∃ u, step s t = .ok u ∧ run u ts = .ok s' :=
  Outcome.bind_eq_ok

/-- The stack `s` with everything of `base` below it. -/
def above (base s : Stack Float) : Stack Float := ⟨s.items ++ base.items⟩

theorem step_above {s s' : Stack Float} {t : Token} (base : Stack Float) (h : step s t = .ok s') :
    step (above base s) t = .ok (above base s') := by
  obtain ⟨v, rfl, rfl⟩ | ⟨f, x, rest, rfl, rfl, rfl⟩ | ⟨op, right, left, rest, rfl, rfl, rfl⟩ := step_eq_ok_iff.mp h
  · rfl
  · exact step_function_cons f x _
  · exact step_operator_cons op right left _

theorem run_above {ts : List Token} {s s' : Stack Float} (base : Stack Float) (h : run s ts = .ok s') :
    run (above base s) ts = .ok (above base s') := by
  induction ts generalizing s with
  | nil =>
    injection h with h
    rw [run_nil, h]
  | cons t ts ih =>
    obtain ⟨u, hs, hu⟩ := run_cons_eq_ok.mp h
    rw [run_cons, step_above base hs]
    exact ih hu

/-! ## Values -/

theorem value_of_run_error {ts : List Token} {e : EvalError} (h : run .empty ts = .error e) : value ts = .error e := by
  rw [value, h]
  rfl

theorem value_of_single {ts : List Token} {v : Float} (h : run .empty ts = .ok ⟨[v]⟩) : value ts = .ok v := by
  rw [value, h]
  rfl

theorem value_of_leftover {ts : List Token} {s : Stack Float} (h : run .empty ts = .ok s) (hs : s.size ≠ 1) :
    value ts = .error (.leftover s.size) := by
  rw [value, h]
  exact if_pos hs

theorem exists_single {s : Stack Float} (h : s.size = 1) : ∃ v, s = ⟨[v]⟩ := by
  obtain ⟨v, hv⟩ := List.length_eq_one_iff.mp h
  exact ⟨v, congrArg Stack.mk hv⟩

theorem value_eq_ok_iff {ts : List Token} {v : Float} : value ts = .ok v ↔ run .empty ts = .ok ⟨[v]⟩ := by
  constructor
  · intro h
    cases hr : run .empty ts with
    | error e =>
      rw [value_of_run_error hr] at h
      cases h
    | ok s =>
      by_cases hs : s.size = 1
      · obtain ⟨x, rfl⟩ := exists_single hs
        rw [value_of_single hr] at h
        injection h with h
        rw [h]
      · rw [value_of_leftover hr hs] at h
        cases h
  · exact value_of_single

/-- A sequence that has a value pushes it, whatever the stack. -/
theorem run_of_value {ts : List Token} {v : Float} (h : value ts = .ok v) (s : Stack Float) :
    run s ts = .ok (s.push v) :=
  run_above s (value_eq_ok_iff.mp h)

theorem run_listing (t : Tree) (s : Stack Float) : run s t.listing = .ok (s.push t.value) := by
  induction t generalizing s with
  | number v => rfl
  | call f argument ih =>
    rw [Tree.listing, run_append, ih]
    exact step_function_cons f _ _
  | binary op left right ihl ihr =>
    rw [Tree.listing, run_append, run_append, ihl]
    show run (s.push left.value) right.listing >>= _ = _
    rw [ihr]
    exact step_operator_cons op _ _ _

theorem value_listing (t : Tree) : value t.listing = .ok t.value :=
  value_eq_ok_iff.mpr (run_listing t .empty)

theorem run_unknown {ts : List Token} {text : String} (h : Token.unknown text ∈ ts) (s s' : Stack Float) :
    run s ts ≠ .ok s' := by
  induction ts generalizing s with
  | nil => cases h
  | cons t ts ih =>
    intro hr
    obtain ⟨u, hs, hu⟩ := run_cons_eq_ok.mp hr
    rcases List.mem_cons.mp h with rfl | h
    · cases hs
    · exact ih h u hu

theorem value_unknown {ts : List Token} {text : String} (h : Token.unknown text ∈ ts) (v : Float) : value ts ≠ .ok v :=
  fun hv => run_unknown h .empty _ (value_eq_ok_iff.mp hv)

end DeskCalc.Postfix
