/-
  DeskCalc.Proofs.Outcome — computations that give a result or an error.

  Every stage of an evaluation can fail. What follows from its success is had by
  taking the stages apart, each with the result it passed on.
-/

namespace DeskCalc.Outcome

variable {ε α β : Type} {x : Except ε α}

theorem bind_eq_ok {f : α → Except ε β} {b : β} : x >>= f = .ok b ↔ ∃ a, x = .ok a ∧ f a = .ok b := by
  constructor
  · intro h
    cases x with
    | error e => cases h
    | ok a => exact ⟨a, rfl, h⟩
  · intro h
    obtain ⟨a, rfl, h⟩ := h
    exact h

theorem map_eq_ok {f : α → β} {b : β} : x.map f = .ok b ↔ ∃ a, x = .ok a ∧ f a = b := by
  constructor
  · intro h
    cases x with
    | error e => cases h
    | ok a => exact ⟨a, rfl, Except.ok.inj h⟩
  · intro h
    obtain ⟨a, rfl, rfl⟩ := h
    rfl

theorem map_eq_error {f : α → β} {e : ε} : x.map f = .error e ↔ x = .error e := by
  cases x <;> simp [Except.map]

theorem ok_of_toOption {a : α} (h : x.toOption = some a) : x = .ok a := by
  cases x with
  | error e => cases h
  | ok b => exact congrArg Except.ok (Option.some.inj h)

/-! ## Outcomes without their results -/

/-- Success, or the error, without the result. -/
def verdict (x : Except ε α) : Except ε Unit := x.map fun _ => ()

theorem verdict_eq_ok : verdict x = .ok () ↔ ∃ a, x = .ok a := by
  simp [verdict, map_eq_ok]

theorem verdict_eq_error {e : ε} : verdict x = .error e ↔ x = .error e := map_eq_error

/-! ## What may be missing, with an error in its place -/

section

variable {o : Option α} {e : ε}

theorem elim_eq_ok {a : α} : o.elim (.error e) .ok = Except.ok a ↔ o = some a := by
  cases o <;> simp

theorem elim_eq_error {e' : ε} : o.elim (.error e) .ok = (Except.error e' : Except ε α) ↔ o = none ∧ e = e' := by
  cases o <;> simp

end

end DeskCalc.Outcome
