/-
  DeskCalc.Proofs.Postfix.Count — how an evaluation ends, by counting.

  A number adds a value to the stack, an operator takes one away, a function leaves
  their count as it is. So the size of the stack is a count of tokens, whatever the
  values are. An evaluation stops at the first token that is unknown, a parenthesis or
  short of values, or it ends with the values that are left.

  Proved:
  - `run_size`: the size of the stack, by counting.
  - `step_error`: what makes a token fail.
  - `value_error_cases`: an evaluation without a value stops or has another number of
    values left than one.
-/

import DeskCalc.Proofs.Postfix.Value
import DeskCalc.Proofs.Token.Kind

namespace DeskCalc.Postfix

open Token (numbers operators isParen isUnknown)

/-! ## The size of the stack -/

theorem step_size {s s' : Stack Float} {t : Token} (h : step s t = .ok s') :
    s'.size + operators [t] = s.size + numbers [t] := by
  obtain ⟨v, rfl, rfl⟩ | ⟨f, x, rest, rfl, rfl, rfl⟩ | ⟨op, right, left, rest, rfl, rfl, rfl⟩ := step_eq_ok_iff.mp h
  · rfl
  · rfl
  · rfl

theorem run_size {ts : List Token} {s s' : Stack Float} (h : run s ts = .ok s') :
    s'.size + operators ts = s.size + numbers ts := by
  induction ts generalizing s with
  | nil =>
    injection h with h
    rw [h]
    rfl
  | cons t ts ih =>
    obtain ⟨u, hs, hu⟩ := run_cons_eq_ok.mp h
    have first := step_size hs
    have later := ih hu
    rw [← List.singleton_append, Token.numbers_append, Token.operators_append]
    omega

/-- Values that are there do not all go away. -/
theorem step_size_pos {s s' : Stack Float} {t : Token} (h : step s t = .ok s') : 0 < s'.size := by
  obtain ⟨v, rfl, rfl⟩ | ⟨f, x, rest, rfl, rfl, rfl⟩ | ⟨op, right, left, rest, rfl, rfl, rfl⟩ := step_eq_ok_iff.mp h
  all_goals exact Nat.succ_pos _

theorem run_size_pos {ts : List Token} {s s' : Stack Float} (h : run s ts = .ok s') (hne : ts ≠ []) : 0 < s'.size := by
  obtain ⟨before, t, rfl⟩ := List.eq_nil_or_concat ts |>.resolve_left hne
  rw [List.concat_eq_append, run_append] at h
  obtain ⟨u, -, hu⟩ := Outcome.bind_eq_ok.mp h
  obtain ⟨last, hs, hl⟩ := run_cons_eq_ok.mp hu
  injection hl with hl
  exact hl ▸ step_size_pos hs

/-! ## Failures -/

theorem step_error {s : Stack Float} {t : Token} {e : EvalError} (h : step s t = .error e) :
    (s.size < t.arity ∧ e = .missingOperand t.text) ∨
    (∃ text, t = .unknown text ∧ e = .unknownToken text) ∨
    (t.isParen = true ∧ e = .unbalanced) := by
  by_cases short : s.size < t.arity
  · rw [step, if_pos short] at h
    injection h with h
    exact Or.inl ⟨short, h.symm⟩
  · rw [step_of_le (Nat.not_lt.mp short)] at h
    rcases s with ⟨items⟩
    cases t with
    | number v => cases h
    | function f =>
      rcases items with _ | ⟨x, rest⟩
      · exact absurd Nat.one_pos short
      · cases h
    | operator op =>
      rcases items with _ | ⟨right, _ | ⟨left, rest⟩⟩
      · exact absurd Nat.two_pos short
      · exact absurd Nat.one_lt_two short
      · cases h
    | leftParen =>
      injection h with h
      exact Or.inr (Or.inr ⟨rfl, h.symm⟩)
    | rightParen =>
      injection h with h
      exact Or.inr (Or.inr ⟨rfl, h.symm⟩)
    | unknown text =>
      injection h with h
      exact Or.inr (Or.inl ⟨text, rfl, h.symm⟩)

/-- A run that fails stops at one token, those before it having passed. -/
theorem run_error {ts : List Token} {s : Stack Float} {e : EvalError} (h : run s ts = .error e) :
    ∃ before t behind s', ts = before ++ t :: behind ∧ run s before = .ok s' ∧ step s' t = .error e := by
  induction ts generalizing s with
  | nil => cases h
  | cons t ts ih =>
    rw [run_cons] at h
    cases hs : step s t with
    | error e' =>
      rw [hs] at h
      injection h with h
      exact ⟨[], t, ts, s, rfl, rfl, h ▸ hs⟩
    | ok u =>
      rw [hs] at h
      obtain ⟨before, t', behind, s', rfl, hb, he⟩ := ih h
      refine ⟨t :: before, t', behind, s', rfl, ?_, he⟩
      rw [run_cons, hs]
      exact hb

theorem value_error_cases {ts : List Token} {e : EvalError} (h : value ts = .error e) :
    run .empty ts = .error e ∨ ∃ s, run .empty ts = .ok s ∧ s.size ≠ 1 ∧ e = .leftover s.size := by
  cases hr : run .empty ts with
  | error e' =>
    rw [value_of_run_error hr] at h
    injection h with h
    rw [h]
    exact Or.inl rfl
  | ok s =>
    by_cases hs : s.size = 1
    · obtain ⟨v, rfl⟩ := exists_single hs
      rw [value_of_single hr] at h
      cases h
    · rw [value_of_leftover hr hs] at h
      injection h with h
      exact Or.inr ⟨s, rfl, hs, h.symm⟩

/-- A run that passes has met no unknown token. -/
theorem known_of_run {ts : List Token} {s s' : Stack Float} (h : run s ts = .ok s') :
    ∀ t ∈ ts, t.isUnknown = false := by
  intro t ht
  by_cases hu : t.isUnknown = true
  · obtain ⟨text, rfl⟩ := Token.isUnknown_iff.mp hu
    exact absurd h (run_unknown ht s s')
  · simpa using hu

end DeskCalc.Postfix
