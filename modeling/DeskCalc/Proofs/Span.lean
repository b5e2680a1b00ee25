/-
  DeskCalc.Proofs.Span — where a longest initial run ends.

  The yard releases a run of entries and the scanner cuts off a run of characters.
  Both have to know that a run ends where the text behind it does not continue it.
-/

namespace DeskCalc.Span

variable {α : Type} {p : α → Bool}

/-- A text does not continue a run if its first element does not. -/
theorem stop_cons {a : α} (h : p a = false) (as : List α) : ∀ b ∈ (a :: as).head?, p b = false := by
  intro b hb
  cases hb
  exact h

theorem takeWhile_append_of_stop (xs : List α) {ys : List α} (hy : ∀ a ∈ ys.head?, p a = false) :
    (xs ++ ys).takeWhile p = xs.takeWhile p := by
  induction xs with
  | nil =>
    cases ys with
    | nil => rfl
    | cons y ys => exact List.takeWhile_cons_of_neg (by simp [hy y rfl])
  | cons x xs ih => by_cases hx : p x = true <;> simp [hx, ih]

theorem dropWhile_append_of_stop (xs : List α) {ys : List α} (hy : ∀ a ∈ ys.head?, p a = false) :
    (xs ++ ys).dropWhile p = xs.dropWhile p ++ ys := by
  induction xs with
  | nil =>
    cases ys with
    | nil => rfl
    | cons y ys => exact List.dropWhile_cons_of_neg (by simp [hy y rfl])
  | cons x xs ih => by_cases hx : p x = true <;> simp [hx, ih]

/-- A run that the rest does not continue is the longest one. -/
theorem takeWhile_span {xs ys : List α} (hx : ∀ a ∈ xs, p a = true) (hy : ∀ a ∈ ys.head?, p a = false) :
    (xs ++ ys).takeWhile p = xs := by
  have stop := takeWhile_append_of_stop [] hy
  rw [List.nil_append, List.takeWhile_nil] at stop
  rw [List.takeWhile_append_of_pos hx, stop, List.append_nil]

theorem dropWhile_span {xs ys : List α} (hx : ∀ a ∈ xs, p a = true) (hy : ∀ a ∈ ys.head?, p a = false) :
    (xs ++ ys).dropWhile p = ys := by
  have stop := dropWhile_append_of_stop [] hy
  rw [List.nil_append, List.dropWhile_nil, List.nil_append] at stop
  rw [List.dropWhile_append_of_pos hx, stop]

/-- Every text is a run and a rest that does not continue it. -/
theorem exists_span (p : α → Bool) (as : List α) :
    ∃ xs ys, as = xs ++ ys ∧ (∀ a ∈ xs, p a = true) ∧ ∀ a ∈ ys.head?, p a = false := by
  refine ⟨as.takeWhile p, as.dropWhile p, List.takeWhile_append_dropWhile.symm, ?_, ?_⟩
  · exact fun a ha => List.all_eq_true.mp List.all_takeWhile a ha
  · intro a ha
    have stop := List.head?_dropWhile_not p as
    rw [Option.mem_def.mp ha] at stop
    simpa using stop

end DeskCalc.Span
