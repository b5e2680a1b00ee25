/-
  DeskCalc.Proofs.Keypad.Evaluating — what the keys that evaluate the line leave on it.

  A function that acts at once goes by way of the display: it evaluates the line, reads
  the number that is shown, and shows what it makes of that. The number that is read is
  the value itself but for the sign of zero, and no function tells the two zeros apart by
  what is shown. So the key shows what it makes of the value, and an error where there
  is no finite value.

  Proved:
  - `resultChars_apply`: the sign of zero is not seen behind a function that acts at once.
  - `press_action`: the line behind a key that evaluates.
  - `press_action_cases`: it is the text of a finite result, or an error.
  - `immediate_acts_on_value`: a function that acts at once acts on the value of the line.
-/

import DeskCalc.Proofs.Evaluation.Substitution
import DeskCalc.Proofs.Keypad.Key
import DeskCalc.Proofs.Keypad.Line
import DeskCalc.Proofs.Number.Result
import DeskCalc.Proofs.Outcome

namespace DeskCalc

open Number (resultChars resultText withoutZeroSign)
open Number.Binary64 (isFinite magnitude)

theorem evaluateFinite_eq_ok_iff {text : String} {v : Float} :
    evaluateFinite text = .ok v ↔ valueOf text = .ok v ∧ isFinite v = true := by
  constructor
  · intro h
    obtain ⟨evaluation, he, hv⟩ := Outcome.bind_eq_ok.mp h
    obtain ⟨finite, rfl⟩ := (requireFinite_eq_ok_iff _ _).mp hv
    exact ⟨Outcome.map_eq_ok.mpr ⟨evaluation, he, rfl⟩, finite⟩
  · rintro ⟨value, finite⟩
    obtain ⟨evaluation, he, rfl⟩ := Outcome.map_eq_ok.mp value
    exact Outcome.bind_eq_ok.mpr ⟨evaluation, he, (requireFinite_eq_ok_iff _ _).mpr ⟨finite, rfl⟩⟩

theorem isFinite_of_evaluateFinite {text : String} {v : Float} (h : evaluateFinite text = .ok v) :
    isFinite v = true :=
  (evaluateFinite_eq_ok_iff.mp h).2

/-- Both zeros are shown alike behind every function that acts at once. -/
theorem Immediate.resultChars_apply (action : Immediate) (v : Float) :
    resultChars (action.apply (withoutZeroSign v)) = resultChars (action.apply v) := by
  by_cases hz : magnitude v = 0
  · have zero := Number.Binary64.ofMagnitude_magnitude v
    rw [hz] at zero
    rw [Number.withoutZeroSign_of_zero hz, ← zero]
    cases action <;> cases Number.Binary64.isNegative v <;> decide +kernel
  · rw [Number.withoutZeroSign_of_ne hz]

namespace Keypad

/-- The line behind a key that evaluates. -/
theorem press_action {key : Key} {act : Float → Float} (h : key.action? = some act) (e : Editor) :
    e.press key = match evaluateFinite e.display with
      | .ok v => ⟨resultChars (act v)⟩
      | .error _ => ⟨Number.errorChars⟩ := by
  rcases Key.action?_eq_some h with ⟨rfl, rfl⟩ | ⟨name, action, rfl, ha, rfl⟩
  · rfl
  rw [Editor.press_immediate ha, Editor.applyImmediate, Editor.equals]
  cases hv : evaluateFinite e.display with
  | error _ => rfl
  | ok v =>
    dsimp only
    rw [Number.ofChars?_resultChars (isFinite_of_evaluateFinite hv)]
    exact congrArg Editor.mk (action.resultChars_apply v)

/-- A key that evaluates shows a finite result, or an error if the value or the result is not finite. -/
theorem press_action_cases {key : Key} {act : Float → Float} (h : key.action? = some act) (e : Editor) :
    (∃ v, evaluateFinite e.display = .ok v ∧ isFinite (act v) = true ∧ e.press key = ⟨resultChars (act v)⟩) ∨
      (∀ v, evaluateFinite e.display = .ok v → isFinite (act v) = false) ∧ e.press key = ⟨Number.errorChars⟩ := by
  rw [press_action h]
  cases evaluateFinite e.display with
  | error err => exact Or.inr ⟨nofun, rfl⟩
  | ok v =>
    by_cases hf : isFinite (act v) = true
    · exact Or.inl ⟨v, rfl, hf, rfl⟩
    · have lost : isFinite (act v) = false := Bool.not_eq_true _ ▸ hf
      refine Or.inr ⟨fun w hw => Except.ok.inj hw ▸ lost, ?_⟩
      exact congrArg Editor.mk (Number.resultChars_of_not_finite lost)

/-- A function that acts at once shows what it makes of the value of the line, and an error if the line has no
    value or none that is finite: that the value goes by way of the display is not seen. -/
theorem immediate_acts_on_value {name : String} {action : Immediate} (h : Immediate.ofName? name = some action)
    (e : Editor) :
    (∀ v, valueOf e.display = .ok v → isFinite v = true → (e.function name).display = resultText (action.apply v)) ∧
      ((∀ v, valueOf e.display = .ok v → isFinite v = false) → (e.function name).display = "Error") := by
  have immediate : (Key.function name).action? = some action.apply := by
    rw [Key.action?, h]
    rfl
  have line : e.function name = _ := press_action immediate e
  constructor
  · intro v value finite
    rw [line, evaluateFinite_eq_ok_iff.mpr ⟨value, finite⟩]
    rfl
  · intro lost
    rw [line]
    cases hv : evaluateFinite e.display with
    | error err => rfl
    | ok v =>
      obtain ⟨value, finite⟩ := evaluateFinite_eq_ok_iff.mp hv
      rw [lost v value] at finite
      cases finite

/-- The factorial of a negative zero, which is on the display without its sign, and that of no number. -/
theorem immediate_acts_on_value_negative_zero :
    let e : Editor := ⟨['0', 'x', '-', '3']⟩
    let lost : Editor := ⟨['5', '/', '0']⟩
    Immediate.ofName? "x!" = some .factorial ∧ valueOf e.display = .ok (-0.0) ∧ e.equals.display = "0" ∧
      (e.function "x!").display = resultText (Immediate.factorial.apply (-0.0)) ∧
      (e.function "x!").display = "1" ∧ (lost.function "x!").display = "Error" := by
  intro e lost
  have key : Immediate.ofName? "x!" = some .factorial := by decide
  have value : valueOf e.display = .ok (-0.0) := Outcome.ok_of_toOption (by decide +kernel)
  have none : ∀ v, valueOf lost.display = .ok v → isFinite v = false := by
    intro v hv
    have nan : valueOf lost.display = .ok Number.Binary64.nan := Outcome.ok_of_toOption (by decide +kernel)
    rw [nan] at hv
    rw [← Except.ok.inj hv]
    decide +kernel
  have shown := (immediate_acts_on_value key e).1 _ value (by decide +kernel)
  have error := (immediate_acts_on_value key lost).2 none
  exact ⟨key, value, by decide +kernel, shown, by decide +kernel, error⟩

end Keypad

end DeskCalc
