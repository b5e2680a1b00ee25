/-
  DeskCalc.Proofs.Keypad.Safety — what an editor keeps to, whatever its host asks of it.

  A host may call every operation in any order and with any texts, empty ones, long ones
  and such as no key carries. An operation leaves the line as it is, ends in what it has
  typed, or replaces the whole line by a text that is not empty. One that evaluates
  leaves a plain numeral or `Error`, whatever stood there before.

  Proved:
  - `press_ne_nil`: what one operation preserves.
  - `press_evaluates`: what an operation that evaluates leaves on the line.
  - `calls_safe`: both, behind any calls on a fresh editor.
-/

import DeskCalc.Proofs.Keypad.Evaluating
import DeskCalc.Proofs.Keypad.Shape
import DeskCalc.Proofs.Number.Plain

namespace DeskCalc

open Number (Plain)
open Number.Binary64 (isFinite)

namespace Keypad

/-! ## Calls -/

/-- What a host can ask of an editor, with texts of its own choice. -/
inductive Call where
  | digit (text : String)
  | operator (symbol : String)
  | constant (name : String)
  | function (name : String)
  | clear
  | delete
  | equals
  | press (key : Key)
  deriving DecidableEq, Repr

namespace Call

def run (e : Editor) : Call → Editor
  | digit text => e.digit text
  | operator symbol => e.operator symbol
  | constant name => e.constant name
  | function name => e.function name
  | clear => e.clear
  | delete => e.delete
  | equals => e.equals
  | press key => e.press key

/-- The key whose press a call amounts to. -/
def key : Call → Key
  | digit text => .digit text
  | operator symbol => .operator symbol
  | constant name => .constant name
  | function name => .function name
  | clear => .clear
  | delete => .delete
  | equals => .equals
  | press key => key

theorem run_eq_press (call : Call) (e : Editor) : call.run e = e.press call.key := by cases call <;> rfl

end Call

/-! ## The line is never empty -/

namespace Editor

variable {e : Editor}

theorem resume_ne_nil (h : e.line ≠ []) : e.resume.line ≠ [] := by
  rw [resume]
  split
  · exact tidy_zero.ne_nil
  · exact h

theorem typeDigit_ne_nil (h : e.line ≠ []) (c : Char) : (e.typeDigit c).line ≠ [] := by
  rw [typeDigit]
  split
  · exact List.cons_ne_nil c []
  · split
    · exact resume_ne_nil h
    · simp

/-- The operator that is replaced may be all there is, and another one is in its place at once. -/
theorem typeSymbol_ne_nil (c : Char) (e : Editor) : (e.typeSymbol c).line ≠ [] := by
  rw [typeSymbol]
  split <;> simp

theorem insertFunction_ne_nil (name : String) (e : Editor) : (e.insertFunction name).line ≠ [] := by
  rw [insertFunction]
  split <;> simp

theorem delete_ne_nil (e : Editor) : e.delete.line ≠ [] := by
  rw [delete]
  split
  · rename_i longer
    refine List.ne_nil_of_length_pos ?_
    rw [List.length_dropLast]
    omega
  · exact tidy_zero.ne_nil

theorem constant_ne_nil (h : e.line ≠ []) (name : String) : (e.constant name).line ≠ [] := by
  rw [constant]
  cases hv : constant? name with
  | none => exact h
  | some value => exact (Number.plain_toChars (isFinite_of_constant? hv)).ne_nil

end Editor

theorem press_action_ne_nil {key : Key} {act : Float → Float} (h : key.action? = some act) (e : Editor) :
    (e.press key).line ≠ [] := by
  rcases press_action_cases h e with ⟨v, -, -, shown⟩ | ⟨-, shown⟩
  · rw [shown]
    exact Number.resultChars_ne_nil _
  · rw [shown]
    exact List.cons_ne_nil _ _

/-- Whatever text a key carries, it leaves a line that is not empty. -/
theorem press_ne_nil {e : Editor} (h : e.line ≠ []) (key : Key) : (e.press key).line ≠ [] := by
  cases key with
  | digit text =>
    rw [Editor.press, Editor.digit]
    cases Editor.digit? text with
    | none => exact h
    | some c => exact Editor.typeDigit_ne_nil h c
  | operator symbol =>
    rw [Editor.press, Editor.operator]
    cases Editor.symbol? symbol with
    | none => exact h
    | some c => exact Editor.typeSymbol_ne_nil c e
  | constant name => exact Editor.constant_ne_nil h name
  | function name =>
    cases hi : Immediate.ofName? name with
    | none =>
      rw [Editor.press, Editor.function, hi]
      exact Editor.insertFunction_ne_nil name e
    | some action =>
      have immediate : (Key.function name).action? = some action.apply := by rw [Key.action?, hi]; rfl
      exact press_action_ne_nil immediate e
  | clear => exact tidy_zero.ne_nil
  | delete => exact Editor.delete_ne_nil e
  | equals => exact press_action_ne_nil rfl e

/-! ## What an evaluation leaves -/

theorem press_evaluates {key : Key} (h : key.evaluates = true) (e : Editor) :
    (e.press key).display = "Error" ∨
      (Plain (e.press key).line ∧ ∃ v, Number.ofChars? (e.press key).line = some v ∧ isFinite v = true) := by
  obtain ⟨act, ha⟩ := Option.isSome_iff_exists.mp h
  rcases press_action_cases ha e with ⟨v, -, finite, shown⟩ | ⟨-, shown⟩
  · rw [shown]
    refine Or.inr ⟨Number.plain_resultChars finite, _, Number.ofChars?_resultChars finite, ?_⟩
    rwa [Number.isFinite_withoutZeroSign]
  · rw [shown]
    exact Or.inl rfl

theorem calls_ne_nil {e : Editor} (h : e.line ≠ []) (calls : List Call) : (calls.foldl Call.run e).line ≠ [] := by
  induction calls generalizing e with
  | nil => exact h
  | cons call calls ih =>
    refine ih ?_
    rw [Call.run_eq_press]
    exact press_ne_nil h call.key

/-- Behind any calls on a fresh editor the display is not empty, and right behind a call that evaluates it
    shows `Error` or a plain numeral, which is read as a finite number. -/
theorem calls_safe (calls : List Call) (last : Call) :
    let e := last.run (calls.foldl Call.run Editor.start)
    e.display ≠ "" ∧
      (last.key.evaluates = true → e.display = "Error" ∨
        (Plain e.line ∧ ∃ v, Number.ofChars? e.line = some v ∧ isFinite v = true)) := by
  intro e
  have before : (calls.foldl Call.run Editor.start).line ≠ [] := calls_ne_nil tidy_zero.ne_nil calls
  have run : e = (calls.foldl Call.run Editor.start).press last.key := Call.run_eq_press last _
  rw [run]
  exact ⟨fun empty => press_ne_nil before last.key (String.ofList_eq_empty_iff.mp empty),
    fun evaluates => press_evaluates evaluates _⟩

/-- A name that no key carries, deleted again, and then a function that acts at once on what is left. -/
theorem calls_safe_reciprocal :
    let calls : List Call := [.function "é", .delete, .operator "", .delete, .operator "×", .operator "−", .digit "12",
      .delete, .digit "7"]
    let e := Call.run (calls.foldl Call.run Editor.start) (.function "reciprocal")
    (Call.function "reciprocal").key.evaluates = true ∧ e.display = "0.14285714285714285" ∧ e.display ≠ "" ∧
      (e.display = "Error" ∨ (Plain e.line ∧ ∃ v, Number.ofChars? e.line = some v ∧ isFinite v = true)) := by
  intro calls e
  have evaluates : (Call.function "reciprocal").key.evaluates = true := by decide
  obtain ⟨shown, result⟩ := calls_safe calls (.function "reciprocal")
  exact ⟨evaluates, by decide +kernel, shown, result evaluates⟩

end Keypad

end DeskCalc
