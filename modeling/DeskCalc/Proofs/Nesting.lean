/-
  DeskCalc.Proofs.Nesting — parentheses that pair off.

  A row is balanced when no part of it from the start closes more than it opens, and
  the whole closes as many as it opens. Read from the left this is one number, how
  many are open; it is lost for good where one is closed that was not opened
  (`openAfter`). The same is said of the characters of a text and of its tokens.

  Proved:
  - `openAfter_eq_some_iff`: the number that is open, by counting.
  - `balanced_iff`: a row is balanced when none is open at its end.
-/

namespace DeskCalc.Nesting

variable {α : Type} [DecidableEq α] {opening closing : α}

/-- Nowhere from the start more are closed than opened, and at the end as many. -/
structure Balanced (opening closing : α) (row : List α) : Prop where
  never_below : ∀ part, part <+: row → part.count closing ≤ part.count opening
  level : row.count closing = row.count opening

/-- How many are open behind a row, `n` being open before it, unless one is closed that was not opened. -/
def openAfter (opening closing : α) : Nat → List α → Option Nat
  | n, [] => some n
  | n, a :: row =>
    if a = opening then openAfter opening closing (n + 1) row
    else if a = closing then
      match n with
      | 0 => none
      | n + 1 => openAfter opening closing n row
    else openAfter opening closing n row

@[simp] theorem openAfter_opening (n : Nat) (row : List α) :
    openAfter opening closing n (opening :: row) = openAfter opening closing (n + 1) row := by
  simp [openAfter]

theorem openAfter_closing_zero (h : opening ≠ closing) (row : List α) :
    openAfter opening closing 0 (closing :: row) = none := by
  simp [openAfter, h.symm]

theorem openAfter_closing_succ (h : opening ≠ closing) (n : Nat) (row : List α) :
    openAfter opening closing (n + 1) (closing :: row) = openAfter opening closing n row := by
  simp [openAfter, h.symm]

theorem openAfter_other {a : α} (ho : a ≠ opening) (hc : a ≠ closing) (n : Nat) (row : List α) :
    openAfter opening closing n (a :: row) = openAfter opening closing n row := by
  simp [openAfter, ho, hc]

/-- What neither opens nor closes may be left out. -/
theorem openAfter_skip {row : List α} (ho : opening ∉ row) (hc : closing ∉ row) (n : Nat) (rest : List α) :
    openAfter opening closing n (row ++ rest) = openAfter opening closing n rest := by
  induction row with
  | nil => rfl
  | cons a row ih =>
    simp only [List.mem_cons, not_or] at ho hc
    rw [List.cons_append, openAfter_other (Ne.symm ho.1) (Ne.symm hc.1), ih ho.2 hc.2]

theorem openAfter_append (n : Nat) (row rest : List α) :
    openAfter opening closing n (row ++ rest) =
      (openAfter opening closing n row).bind (openAfter opening closing · rest) := by
  induction row generalizing n with
  | nil => rfl
  | cons a row ih =>
    simp only [List.cons_append, openAfter]
    by_cases ho : a = opening
    · simp only [ho, if_true, ih]
    by_cases hc : a = closing
    · subst hc
      cases n with
      | zero => simp [ho]
      | succ n => simp [ho, ih]
    · simp only [ho, hc, if_false, ih]

/-- The count is kept by what changes no parenthesis and makes none. -/
theorem openAfter_map {f : α → α} (ho : ∀ a, f a = opening ↔ a = opening) (hc : ∀ a, f a = closing ↔ a = closing)
    (n : Nat) (row : List α) : openAfter opening closing n (row.map f) = openAfter opening closing n row := by
  induction row generalizing n with
  | nil => rfl
  | cons a row ih => simp only [List.map_cons, openAfter, ho, hc, ih]

omit [DecidableEq α] in
/-- A condition on the parts of a row from its start, with the first element taken off. -/
theorem forall_prefix_cons {P : List α → Prop} {a : α} {row : List α} :
    (∀ part, part <+: a :: row → P part) ↔ P [] ∧ ∀ part, part <+: row → P (a :: part) := by
  constructor
  · intro h
    exact ⟨h _ List.nil_prefix, fun part hp => h _ ((List.prefix_cons_inj a).mpr hp)⟩
  · rintro ⟨nil, cons⟩ part hp
    rcases List.prefix_cons_iff.mp hp with rfl | ⟨rest, rfl, hr⟩
    · exact nil
    · exact cons rest hr

theorem openAfter_eq_some_iff (h : opening ≠ closing) {row : List α} {n k : Nat} :
    openAfter opening closing n row = some k ↔
      (∀ part, part <+: row → part.count closing ≤ n + part.count opening) ∧
        n + row.count opening = k + row.count closing := by
  induction row generalizing n with
  | nil => simp [openAfter]
  | cons a row ih =>
    rw [forall_prefix_cons]
    by_cases ho : a = opening
    · subst ho
      have closed (part : List α) : (a :: part).count closing = part.count closing := List.count_cons_of_ne h
      simp only [openAfter_opening, ih, closed, List.count_cons_self, List.count_nil, Nat.zero_le, true_and,
        Nat.add_right_comm n, Nat.add_assoc]
    · by_cases hc : a = closing
      · subst hc
        have opened (part : List α) : (a :: part).count opening = part.count opening :=
          List.count_cons_of_ne h.symm
        cases n with
        | zero =>
          rw [openAfter_closing_zero h]
          simp only [opened, List.count_cons_self, reduceCtorEq, false_iff, not_and]
          intro parts
          have := parts.2 [] List.nil_prefix
          simp at this
        | succ n =>
          rw [openAfter_closing_succ h, ih]
          simp only [opened, List.count_cons_self, List.count_nil, Nat.zero_le, true_and]
          refine and_congr (forall₂_congr fun part _ => ?_) ?_
          · omega
          · omega
      · have opened (part : List α) : (a :: part).count opening = part.count opening := List.count_cons_of_ne ho
        have closed (part : List α) : (a :: part).count closing = part.count closing := List.count_cons_of_ne hc
        simp only [openAfter_other ho hc, ih, opened, closed, List.count_nil, Nat.zero_le, true_and]

theorem balanced_iff (h : opening ≠ closing) {row : List α} :
    Balanced opening closing row ↔ openAfter opening closing 0 row = some 0 := by
  rw [openAfter_eq_some_iff h]
  simp only [Nat.zero_add]
  exact ⟨fun b => ⟨b.never_below, b.level.symm⟩, fun ⟨below, level⟩ => ⟨below, level.symm⟩⟩

end DeskCalc.Nesting
