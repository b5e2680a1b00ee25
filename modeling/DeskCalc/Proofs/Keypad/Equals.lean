/-
  DeskCalc.Proofs.Keypad.Equals — the key `=` and the command `eval`, and the key pressed again.

  Both hosts refuse a value that is not finite, the editor before it writes the result
  and the command when it writes it, so both show the same. The text of a result is one
  numeral: evaluated again, it gives the number that it shows, and that is shown the
  same way. `Error` is no word that means anything, so it stays as well.

  Proved:
  - `evaluate_resultText`: the text of a finite result has the result as its value.
  - `newline_not_mem_resultChars` / `run_eval`: a result is one line, and what `eval` prints.
  - `equals_equals`: the key pressed again changes nothing.
  - `equals_settles`: what is shown, that it stays, and what it is worth.
-/

import DeskCalc.CommandLine
import DeskCalc.Proofs.Evaluation.Substitution
import DeskCalc.Proofs.Grammar.Alternating
import DeskCalc.Proofs.Keypad.Line
import DeskCalc.Proofs.Number.Lossless

namespace DeskCalc

open Grammar (Tree Derives)
open Number (resultChars resultText withoutZeroSign)
open Number.Binary64 (isFinite)

/-! ## The text of a result -/

theorem evaluate_resultText {v : Float} (h : isFinite v = true) :
    evaluate (resultText v) =
      .ok ⟨withoutZeroSign v, [.number (withoutZeroSign v)], [.number (withoutZeroSign v)]⟩ :=
  evaluate_derived (Grammar.Derives.of_atom (.number _) .expression) (Number.ofText_resultText h)

theorem valueOf_resultText {v : Float} (h : isFinite v = true) : valueOf (resultText v) = .ok (withoutZeroSign v) := by
  rw [valueOf, evaluate_resultText h]
  rfl

/-- A result stands on one line. -/
theorem newline_not_mem_resultChars (x : Float) : '\n' ∉ resultChars x := by
  by_cases hf : isFinite x = true
  · obtain ⟨negative, cs, d, eq, hd⟩ := Number.resultChars_of_finite hf
    have numeral : '\n' ∉ cs := fun h => absurd ((Number.Decimal.isNumeric_of_ofChars? hd).2 _ h) (by decide)
    rw [eq, List.mem_append]
    exact not_or_intro (by cases negative <;> decide) numeral
  · rw [Number.resultChars_of_not_finite (Bool.not_eq_true _ ▸ hf)]
    decide

/-! ## The two hosts -/

/-- The lines of `eval` are the steps, if they are asked for, and behind them the result, or that there is none. -/
theorem exists_evaluationLines (expression : String) (steps : Bool) :
    ∃ before, (steps = false → before = []) ∧ CommandLine.evaluationLines expression steps =
      before ++ [match evaluate expression with
        | .ok e => resultText e.value
        | .error _ => "Error"] := by
  rw [CommandLine.evaluationLines]
  cases evaluate expression with
  | ok e => exact ⟨_, fun unasked => by rw [unasked]; rfl, rfl⟩
  | error _ => exact ⟨[], fun _ => rfl, rfl⟩

/-- Behind the end of the options any text is an expression. -/
theorem run_eval (expression : String) (steps : Bool) (input : List UInt8) :
    CommandLine.run ("eval" :: (if steps then ["--demarche"] else []) ++ ["--", expression]) input =
      ⟨0, CommandLine.joinLines (CommandLine.evaluationLines expression steps)⟩ := by
  have command : CommandLine.ofArgs ("eval" :: (if steps then ["--demarche"] else []) ++ ["--", expression]) =
      .ok (.evaluate expression steps) := by
    cases steps <;>
      simp [CommandLine.ofArgs, CommandLine.programArgs, CommandLine.evaluateArgs, CommandLine.evaluateRest]
  rw [CommandLine.run, command]
  rfl

namespace Keypad.Editor

theorem equals_of_error {e : Editor} {err : EvalError} (h : evaluate e.display = .error err) :
    e.equals = ⟨Number.errorChars⟩ :=
  equals_of_ne_ok fun evaluation he => by rw [h] at he; cases he

/-- The two ways in which the key ends: with a finite value, or with an error. -/
theorem equals_cases (e : Editor) :
    (∃ evaluation, evaluate e.display = .ok evaluation ∧ isFinite evaluation.value = true ∧
      e.equals = ⟨resultChars evaluation.value⟩) ∨ e.equals = ⟨Number.errorChars⟩ := by
  cases he : evaluate e.display with
  | error err => exact Or.inr (equals_of_error he)
  | ok evaluation =>
    by_cases hf : isFinite evaluation.value = true
    · exact Or.inl ⟨evaluation, rfl, hf, equals_of_ok he⟩
    · right
      rw [equals_of_ok he, Number.resultChars_of_not_finite (Bool.not_eq_true _ ▸ hf)]

/-- What the key shows. -/
theorem display_equals_eq (e : Editor) :
    e.equals.display = match evaluate e.display with
      | .ok evaluation => resultText evaluation.value
      | .error _ => "Error" := by
  cases he : evaluate e.display with
  | error err => exact congrArg display (equals_of_error he)
  | ok evaluation => exact congrArg display (equals_of_ok he)

theorem equals_error : (⟨Number.errorChars⟩ : Editor).equals = ⟨Number.errorChars⟩ := by decide +kernel

theorem equals_equals (e : Editor) : e.equals.equals = e.equals := by
  rcases equals_cases e with ⟨evaluation, -, finite, shown⟩ | shown
  · have again := evaluate_resultText finite
    rw [resultText, ← display, ← shown] at again
    rw [equals_of_ok again, Number.resultChars_withoutZeroSign, shown]
  · rw [shown, equals_error]

theorem newline_not_mem_equals (e : Editor) : '\n' ∉ e.equals.display.toList := by
  rw [display, String.toList_ofList]
  rcases equals_cases e with ⟨evaluation, -, -, shown⟩ | shown
  · rw [shown]
    exact newline_not_mem_resultChars _
  · rw [shown]
    decide

/-- Whatever is on the line, the key shows what `eval` prints for it as its last line, and as its only one if
    the steps are not asked for. Pressed again any number of times it changes nothing, and what it shows is
    worth what was computed unless it is an error. -/
theorem equals_settles (e : Editor) :
    (∀ steps, (CommandLine.evaluationLines e.display steps).getLast? = some e.equals.display) ∧
      (∀ steps input, ∃ before : List String, (steps = false → before = []) ∧
        CommandLine.run ("eval" :: (if steps then ["--demarche"] else []) ++ ["--", e.display]) input =
          ⟨0, String.join (before.map (· ++ "\n")) ++ (e.equals.display ++ "\n")⟩) ∧
      '\n' ∉ e.equals.display.toList ∧
      (∀ presses, Nat.iterate equals presses e.equals = e.equals) ∧
      (e.equals.display ≠ "Error" → ∃ computed shown, valueOf e.display = .ok computed ∧
        valueOf e.equals.display = .ok shown ∧ isFinite computed = true ∧ shown = withoutZeroSign computed ∧
        (shown == computed) = true) := by
  have lines : ∀ steps, ∃ before, (steps = false → before = []) ∧
      CommandLine.evaluationLines e.display steps = before ++ [e.equals.display] := fun steps => by
    rw [display_equals_eq]
    exact exists_evaluationLines e.display steps
  refine ⟨fun steps => ?_, fun steps input => ?_, newline_not_mem_equals e,
    fun presses => Function.iterate_fixed (equals_equals e) presses, fun hne => ?_⟩
  · obtain ⟨before, -, own⟩ := lines steps
    rw [own, List.getLast?_concat]
  · obtain ⟨before, alone, own⟩ := lines steps
    refine ⟨before, alone, ?_⟩
    rw [run_eval, own, CommandLine.joinLines_append, CommandLine.joinLines_singleton]
    rfl
  · rcases equals_cases e with ⟨evaluation, he, finite, shown⟩ | shown
    · refine ⟨evaluation.value, withoutZeroSign evaluation.value, ?_, ?_, finite, rfl, ?_⟩
      · rw [valueOf, he]
        rfl
      · rw [shown]
        exact valueOf_resultText finite
      · exact Number.withoutZeroSign_beq finite
    · exact absurd (congrArg display shown) hne

/-- A product that is negative zero, shown and read again as zero. -/
theorem equals_settles_negative_zero :
    let e : Editor := ⟨['0', 'x', '-', '3']⟩
    e.equals.display ≠ "Error" ∧ e.equals.display = "0" ∧
      (∀ steps, (CommandLine.evaluationLines e.display steps).getLast? = some e.equals.display) ∧
      CommandLine.run ["eval", "--", "0x-3"] [] = ⟨0, "0\n"⟩ ∧
      (∀ presses, Nat.iterate equals presses e.equals = e.equals) ∧
      ∃ computed shown, valueOf e.display = .ok computed ∧ valueOf e.equals.display = .ok shown ∧
        isFinite computed = true ∧ shown = withoutZeroSign computed ∧ (shown == computed) = true := by
  intro e
  have value : e.equals.display ≠ "Error" := by decide +kernel
  have zero : e.equals.display = "0" := by decide +kernel
  obtain ⟨last, printed, -, again, worth⟩ := equals_settles e
  obtain ⟨before, alone, text⟩ := printed false []
  rw [alone rfl, zero] at text
  exact ⟨value, zero, last, text, again, worth value⟩

end Keypad.Editor

end DeskCalc
