/-
  DeskCalc.Proofs.Keypad.Recovery — when the display is `Error`, and what becomes of it.

  The error is no state of its own but a text on the line. No key that types spells it,
  for its letters are on no key, so it is left by an evaluation that failed. Evaluated
  again it stays, for it is an unknown word. Every other key starts over from `0`, so
  behind it nothing of the error is left.

  Proved:
  - `press_error_iff`: when a key that evaluates shows an error.
  - `pressAll_error`: keys that evaluate do not leave it.
  - `press_resume`: every other key of the keypad starts over from it.
  - `error_iff_failed`: the error is shown behind a failure that only evaluations
    have followed, and what is typed on it is as if typed on a fresh editor.
-/

import DeskCalc.Proofs.Keypad.Evaluating
import DeskCalc.Proofs.Keypad.Shape

namespace DeskCalc.Keypad

open Number.Binary64 (isFinite)

namespace Editor

variable {e : Editor}

theorem display_eq_error_iff : e.display = "Error" ↔ e = ⟨Number.errorChars⟩ := by
  constructor
  · intro h
    have line : e.line = Number.errorChars := String.ofList_injective h
    rw [← line]
  · rintro rfl
    rfl

theorem resume_resume (e : Editor) : e.resume.resume = e.resume := by
  by_cases h : e.line = Number.errorChars
  · have afresh : e.resume = start := if_pos h
    rw [afresh]
    rfl
  · rw [resume_of_ne_error h, resume_of_ne_error h]

end Editor

/-! ## Failures -/

/-- A key that evaluates fails on a line without a finite value, and where what it makes of the value is
    not finite. -/
def Fails (e : Editor) (key : Key) : Prop :=
  ∃ act, key.action? = some act ∧ ∀ v, evaluateFinite e.display = .ok v → isFinite (act v) = false

theorem press_error_iff {key : Key} (h : key.evaluates = true) (e : Editor) :
    (e.press key).display = "Error" ↔ Fails e key := by
  obtain ⟨act, ha⟩ := Option.isSome_iff_exists.mp h
  rcases press_action_cases ha e with ⟨v, value, finite, shown⟩ | ⟨failed, shown⟩
  · rw [shown]
    constructor
    · intro error
      have lost := (Number.resultText_eq_error_iff (act v)).mp error
      rw [finite] at lost
      cases lost
    · rintro ⟨act', ha', failed⟩
      obtain rfl : act = act' := Option.some.inj (ha.symm.trans ha')
      rw [failed v value] at finite
      cases finite
  · rw [shown]
    exact ⟨fun _ => ⟨act, ha, failed⟩, fun _ => rfl⟩

/-- The error is no expression. -/
theorem evaluateFinite_error (v : Float) : evaluateFinite "Error" ≠ .ok v := by
  intro h
  have none : (evaluateFinite "Error").toOption = none := by decide +kernel
  rw [h] at none
  cases none

theorem press_error {key : Key} (h : key.evaluates = true) :
    (⟨Number.errorChars⟩ : Editor).press key = ⟨Number.errorChars⟩ := by
  obtain ⟨act, ha⟩ := Option.isSome_iff_exists.mp h
  refine Editor.display_eq_error_iff.mp ((press_error_iff h _).mpr ⟨act, ha, fun v hv => ?_⟩)
  exact absurd hv (evaluateFinite_error v)

theorem pressAll_error {keys : List Key} (h : ∀ key ∈ keys, key.evaluates = true) :
    (⟨Number.errorChars⟩ : Editor).pressAll keys = ⟨Number.errorChars⟩ := by
  induction keys with
  | nil => rfl
  | cons key keys ih =>
    show ((⟨Number.errorChars⟩ : Editor).press key).pressAll keys = _
    rw [press_error (h key List.mem_cons_self)]
    exact ih fun later hl => h later (List.mem_cons_of_mem _ hl)

/-! ## Other keys -/

theorem Tidy.display_ne_error {e : Editor} (h : Tidy e.line) : e.display ≠ "Error" := by
  intro error
  obtain rfl := Editor.display_eq_error_iff.mp error
  exact ne_error_of_alphabet h.characters rfl

/-- A key of the keypad that does not evaluate starts over from an error. -/
theorem press_resume {key : Key} (hk : key.OnKeypad) (hn : key.evaluates = false) (e : Editor) :
    e.resume.press key = e.press key := by
  have known := Key.known_of_onKeypad hk
  cases key with
  | digit text =>
    obtain ⟨c, hc⟩ := Option.isSome_iff_exists.mp known
    simp only [Editor.press, Editor.digit, hc, Editor.typeDigit, Editor.resume_resume]
  | operator symbol =>
    obtain ⟨c, hc⟩ := Option.isSome_iff_exists.mp known
    simp only [Editor.press, Editor.operator, hc, Editor.typeSymbol, Editor.resume_resume]
  | constant name =>
    obtain ⟨value, hv⟩ := Option.isSome_iff_exists.mp known
    simp only [Editor.press, Editor.constant, hv]
  | function name =>
    obtain ⟨f, rfl⟩ := Key.scientific_of_known known hn
    simp only [Editor.press_scientific, Editor.insertFunction, Editor.resume_resume]
  | clear => rfl
  | delete => simp only [Editor.press, Editor.delete, Editor.resume_resume]
  | equals => cases hn

/-! ## Runs -/

theorem pressAll_shaped {keys : List Key} (h : ∀ key ∈ keys, key.OnKeypad) {e : Editor} (he : Shaped e.line) :
    Shaped (e.pressAll keys).line := by
  induction keys generalizing e with
  | nil => exact he
  | cons key keys ih =>
    exact ih (fun later hl => h later (List.mem_cons_of_mem _ hl)) (press_shape he (h key List.mem_cons_self))

/-- Behind a failure keys that evaluate leave the error. -/
theorem error_of_failed {e : Editor} {before after : List Key} {key : Key} (failed : Fails (e.pressAll before) key)
    (evaluates : ∀ later ∈ after, later.evaluates = true) :
    (e.pressAll (before ++ key :: after)).display = "Error" := by
  have own : key.evaluates = true := by
    obtain ⟨act, ha, -⟩ := failed
    rw [Key.evaluates, ha]
    rfl
  have shown := Editor.display_eq_error_iff.mp ((press_error_iff own _).mpr failed)
  rw [Editor.pressAll_append]
  show (((e.pressAll before).press key).pressAll after).display = "Error"
  rw [shown, pressAll_error evaluates]
  rfl

/-- Behind keys on a fresh editor an error was left by a failure on a line that was none. -/
theorem failed_of_error {keys : List Key} (h : ∀ key ∈ keys, key.OnKeypad)
    (error : (Editor.start.pressAll keys).display = "Error") :
    ∃ before key after, keys = before ++ key :: after ∧ (Editor.start.pressAll before).display ≠ "Error" ∧
      Fails (Editor.start.pressAll before) key ∧ ∀ later ∈ after, later.evaluates = true := by
  induction keys using List.reverseRecOn with
  | nil => exact absurd error (by decide)
  | append_singleton keys last ih =>
    have earlier : ∀ key ∈ keys, key.OnKeypad := fun key hk => h key (List.mem_append_left _ hk)
    have shaped := pressAll_shaped earlier shaped_start
    rw [Editor.pressAll_append] at error
    have evaluates : last.evaluates = true := by
      by_cases he : last.evaluates = true
      · exact he
      · have tidy := press_tidy shaped (h last (by simp)) (Bool.not_eq_true _ ▸ he)
        exact absurd error tidy.display_ne_error
    by_cases already : (Editor.start.pressAll keys).display = "Error"
    · obtain ⟨before, key, after, rfl, fine, failed, later⟩ := ih earlier already
      refine ⟨before, key, after ++ [last], by simp, fine, failed, fun k hk => ?_⟩
      rcases List.mem_append.mp hk with hk | hk
      · exact later k hk
      · rwa [List.mem_singleton.mp hk]
    · exact ⟨keys, last, [], rfl, already, (press_error_iff evaluates _).mp error, nofun⟩

/-- A fresh editor shows `Error` exactly behind a key that evaluated and failed, with none but evaluating keys
    after it; the first of these failed on a line that was no error. Any other key of the keypad leads on from
    an error as from a fresh editor, so whatever is pressed after it. -/
theorem error_iff_failed {keys : List Key} (h : ∀ key ∈ keys, key.OnKeypad) :
    ((Editor.start.pressAll keys).display = "Error" ↔
        ∃ before key after, keys = before ++ key :: after ∧ Fails (Editor.start.pressAll before) key ∧
          ∀ later ∈ after, later.evaluates = true) ∧
      ((Editor.start.pressAll keys).display = "Error" →
        ∃ before key after, keys = before ++ key :: after ∧ (Editor.start.pressAll before).display ≠ "Error" ∧
          Fails (Editor.start.pressAll before) key ∧ ∀ later ∈ after, later.evaluates = true) ∧
      ∀ (e : Editor) (key : Key) (rest : List Key), e.display = "Error" → key.OnKeypad → key.evaluates = false →
        e.press key = Editor.start.press key ∧ e.pressAll (key :: rest) = Editor.start.pressAll (key :: rest) := by
  refine ⟨⟨fun error => ?_, ?_⟩, failed_of_error h, fun e key rest error hk hn => ?_⟩
  · obtain ⟨before, key, after, split, -, failed, later⟩ := failed_of_error h error
    exact ⟨before, key, after, split, failed, later⟩
  · rintro ⟨before, key, after, rfl, failed, later⟩
    exact error_of_failed failed later
  · obtain rfl := Editor.display_eq_error_iff.mp error
    have afresh : (⟨Number.errorChars⟩ : Editor).press key = Editor.start.press key := (press_resume hk hn _).symm
    exact ⟨afresh, congrArg (Editor.pressAll · rest) afresh⟩

/-- The factorial of 171 is not finite, of the error there is no percentage, and a point starts over. -/
theorem error_iff_failed_factorial :
    let keys : List Key := [.digit "1", .digit "7", .digit "1", .function "x!", .function "%"]
    (∀ key ∈ keys, key.OnKeypad) ∧ (Editor.start.pressAll keys).display = "Error" ∧
      (∃ before key after, keys = before ++ key :: after ∧ (Editor.start.pressAll before).display ≠ "Error" ∧
        Fails (Editor.start.pressAll before) key ∧ ∀ later ∈ after, later.evaluates = true) ∧
      (Editor.start.pressAll keys).press (.digit ".") = Editor.start.press (.digit ".") := by
  intro keys
  have onKeypad : ∀ key ∈ keys, key.OnKeypad := by
    have labels : ["1", "7", "1", "x!", "%"].map Key.ofLabel? = keys.map some := by decide
    intro key hk
    have entry : some key ∈ keys.map some := List.mem_map_of_mem hk
    rw [← labels] at entry
    obtain ⟨label, -, hl⟩ := List.mem_map.mp entry
    exact ⟨label, hl⟩
  have error : (Editor.start.pressAll keys).display = "Error" := by decide +kernel
  obtain ⟨-, cause, afresh⟩ := error_iff_failed onKeypad
  exact ⟨onKeypad, error, cause error, (afresh _ (.digit ".") [] error ⟨".", by decide⟩ (by decide)).1⟩

end DeskCalc.Keypad
