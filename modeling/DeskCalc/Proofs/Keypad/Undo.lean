/-
  DeskCalc.Proofs.Keypad.Undo — deleting takes back what was typed.

  A key that inserts adds its characters to the line, or puts them in the place of a
  lone zero. Deleted one by one the characters that were added uncover the line they
  were added to. Those that took the place of the zero leave it behind, for deleting
  the last character leaves a zero, and deleting that zero leaves it too: so zeros
  typed on a zero, of which one is left, do no harm. Deleting starts over from `Error`,
  but no line on the way spells it, for no key that inserts types its capital letter.

  Proved:
  - `delete_concat` / `delete_iterate`: deleting uncovers what characters were added to.
  - `press_inserts`: the two things that a key which inserts may do to the line.
  - `delete_press`: what one key typed is taken back.
  - `delete_typed`: and so is what was typed with any number of keys.
  - `delete_undoes_typing`: this, on every line of the keypad but `Error`.
-/

import DeskCalc.Proofs.Keypad.Recovery

namespace DeskCalc.Keypad

/-! ## Lines that are written with keys -/

/-- A line of characters that are on keys or in results: it is not empty, and not `Error`. -/
structure Written (line : List Char) : Prop where
  ne_nil : line ≠ []
  characters : ∀ c ∈ line, c ∈ alphabet

theorem Tidy.written {line : List Char} (h : Tidy line) : Written line := ⟨h.ne_nil, h.characters⟩

theorem Written.ne_error {line : List Char} (h : Written line) : line ≠ Number.errorChars :=
  ne_error_of_alphabet h.characters

theorem Written.append {line cs : List Char} (h : Written line) (hcs : ∀ c ∈ cs, c ∈ alphabet) :
    Written (line ++ cs) where
  ne_nil := by simp [h.ne_nil]
  characters c hc := (List.mem_append.mp hc).elim (h.characters c) (hcs c)

namespace Editor

/-! ## Deleting -/

theorem delete_concat {line : List Char} {c : Char} (hne : line ≠ []) (h : Written (line ++ [c])) :
    delete ⟨line ++ [c]⟩ = ⟨line⟩ := by
  have longer : 1 < (line ++ [c]).length := by
    have := List.length_pos_iff.mpr hne
    simp
    omega
  rw [delete, resume_of_ne_error h.ne_error]
  simp only [longer, if_true, List.dropLast_concat]

theorem delete_single {c : Char} (h : Written [c]) : delete ⟨[c]⟩ = start := by
  rw [delete, resume_of_ne_error h.ne_error]
  rfl

/-- Characters that were added to a line are taken off it again. -/
theorem delete_iterate {line cs : List Char} (h : Written line) (hcs : ∀ c ∈ cs, c ∈ alphabet) :
    delete^[cs.length] ⟨line ++ cs⟩ = ⟨line⟩ := by
  induction cs using List.reverseRecOn with
  | nil => rw [List.append_nil]; rfl
  | append_singleton cs c ih =>
    have earlier : ∀ d ∈ cs, d ∈ alphabet := fun d hd => hcs d (List.mem_append_left _ hd)
    have whole : Written (line ++ cs ++ [c]) := by
      rw [List.append_assoc]
      exact h.append hcs
    rw [List.length_append, List.length_singleton, Function.iterate_succ_apply, ← List.append_assoc,
      delete_concat (h.append earlier).ne_nil whole, ih earlier]

/-- Characters that took the place of a lone zero are deleted to it. -/
theorem delete_to_zero {cs : List Char} (h : Written cs) : delete^[cs.length] ⟨cs⟩ = start := by
  obtain ⟨c, cs, rfl⟩ := List.exists_cons_of_ne_nil h.ne_nil
  have first : Written [c] := ⟨by simp, by simpa using h.characters c List.mem_cons_self⟩
  have rest : ∀ d ∈ cs, d ∈ alphabet := fun d hd => h.characters d (List.mem_cons_of_mem _ hd)
  have uncovered := delete_iterate first rest
  rw [List.singleton_append] at uncovered
  rw [List.length_cons, Function.iterate_succ_apply', uncovered, delete_single first]

end Editor

/-! ## Keys that insert -/

/-- `Inserts line key cs`: on the line the key inserts the characters `cs`. A point is inserted where there is
    none, and an operator where none ends the line. -/
inductive Inserts (line : List Char) : Key → List Char → Prop
  | digit {text : String} {c : Char} : Editor.digit? text = some c → (c = '.' → '.' ∉ line) →
      Inserts line (.digit text) [c]
  | paren {symbol : String} {c : Char} : Editor.symbol? symbol = some c → c = '(' ∨ c = ')' →
      Inserts line (.operator symbol) [c]
  | operator {symbol : String} {c : Char} : Editor.symbol? symbol = some c → Editor.endsInOperator line = false →
      Inserts line (.operator symbol) [c]
  | function (f : ScientificFunction) : Inserts line (.function f.name) (f.name.toList ++ ['('])

theorem Inserts.written {line : List Char} {key : Key} {cs : List Char} (h : Inserts line key cs) : Written cs := by
  have symbol {text : String} {c : Char} (hc : Editor.symbol? text = some c) : c ∈ alphabet :=
    mem_alphabet_of_symbol (Editor.mem_of_symbol? hc)
  cases h with
  | digit hc _ => exact ⟨by simp, by simpa using mem_alphabet_of_isNumeric (Editor.isNumeric_of_digit? hc)⟩
  | paren hc _ => exact ⟨by simp, by simpa using symbol hc⟩
  | operator hc _ => exact ⟨by simp, by simpa using symbol hc⟩
  | function f => exact ⟨by simp, mem_alphabet_of_call f⟩

section

variable {e : Editor} {key : Key} {cs : List Char}

/-- The characters are added to the line, or put in the place of a lone zero. -/
theorem press_inserts (h : Inserts e.line key cs) (he : e.line ≠ Number.errorChars) :
    e.press key = ⟨e.line ++ cs⟩ ∨ (e.line = Editor.zero ∧ e.press key = ⟨cs⟩) := by
  cases h with
  | @digit text c hc point =>
    have typed : e.press (.digit text) = e.typeDigit c := by rw [Editor.press, Editor.digit, hc]
    rw [typed]
    by_cases hz : e.line = Editor.zero ∧ c ≠ '.'
    · right
      refine ⟨hz.1, ?_⟩
      rw [Editor.typeDigit, Editor.resume_of_ne_error he]
      exact if_pos hz
    · exact Or.inl (Editor.typeDigit_append he (by simpa using hz) point)
  | @paren symbol c hc paren =>
    left
    rw [Editor.press, Editor.operator, hc]
    exact Editor.typeSymbol_append he fun _ => paren
  | @operator symbol c hc none =>
    left
    rw [Editor.press, Editor.operator, hc]
    exact Editor.typeSymbol_append he fun ends => by rw [none] at ends; cases ends
  | function f =>
    rw [Editor.press_scientific]
    by_cases hz : e.line = Editor.zero
    · right
      refine ⟨hz, ?_⟩
      rw [Editor.insertFunction, Editor.resume_of_ne_error he]
      exact if_pos hz
    · exact Or.inl (Editor.insertFunction_append f.name he hz)

theorem press_written (h : Inserts e.line key cs) (hw : Written e.line) : Written (e.press key).line := by
  rcases press_inserts h hw.ne_error with added | ⟨-, replaced⟩
  · rw [added]
    exact hw.append h.written.characters
  · rw [replaced]
    exact h.written

/-- What a key typed is taken back by deleting as many characters. -/
theorem delete_press (h : Inserts e.line key cs) (hw : Written e.line) :
    Editor.delete^[cs.length] (e.press key) = e := by
  rcases press_inserts h hw.ne_error with added | ⟨hz, replaced⟩
  · rw [added]
    exact Editor.delete_iterate hw h.written.characters
  · have afresh : Editor.start = e := by
      rw [Editor.start, ← hz]
    rw [replaced, Editor.delete_to_zero h.written, afresh]

end

/-! ## Keys in a row -/

/-- `Types e keys n`: pressed in turn every one of the keys inserts, `n` characters altogether. -/
inductive Types : Editor → List Key → Nat → Prop
  | nil {e : Editor} : Types e [] 0
  | cons {e : Editor} {key : Key} {keys : List Key} {cs : List Char} {n : Nat} : Inserts e.line key cs →
      Types (e.press key) keys n → Types e (key :: keys) (cs.length + n)

/-- The later characters are deleted first, and what is then on the line is what the first key has typed. -/
theorem delete_typed {e : Editor} {keys : List Key} {n : Nat} (h : Types e keys n) (hw : Written e.line) :
    Editor.delete^[n] (e.pressAll keys) = e := by
  induction h with
  | nil => rfl
  | @cons e key keys cs n first later ih =>
    rw [Function.iterate_add_apply]
    show Editor.delete^[cs.length] (Editor.delete^[n] ((e.press key).pressAll keys)) = e
    rw [ih (press_written first hw), delete_press first hw]

theorem pressAll_delete (e : Editor) (n : Nat) : e.pressAll (List.replicate n .delete) = Editor.delete^[n] e := by
  induction n generalizing e with
  | zero => rfl
  | succ n ih => exact ih e.delete

/-- On whatever line the keypad has led to, but for `Error`, the key that deletes takes back what was typed with
    keys that insert, if it is pressed once for each character. -/
theorem delete_undoes_typing {before : List Key} (h : ∀ key ∈ before, key.OnKeypad)
    (fine : (Editor.start.pressAll before).display ≠ "Error") {typed : List Key} {n : Nat}
    (types : Types (Editor.start.pressAll before) typed n) :
    ((Editor.start.pressAll before).pressAll typed).pressAll (List.replicate n .delete) =
      Editor.start.pressAll before := by
  have shaped := pressAll_shaped h shaped_start
  have tidy : Tidy (Editor.start.pressAll before).line := by
    refine shaped.resolve_left fun error => fine ?_
    rw [Editor.display, error]
    rfl
  rw [pressAll_delete, delete_typed types tidy.written]

/-- Zeros that are typed on a zero leave one zero, a digit takes its place, and deleting brings it back. -/
theorem delete_undoes_typing_zeros :
    let before : List Key := [.digit "7", .delete]
    let typed : List Key := [.digit "0", .digit "0", .digit "5", .operator "x", .function "sin", .digit ".",
      .operator ")"]
    (∀ key ∈ before, key.OnKeypad) ∧ (Editor.start.pressAll before).display = "0" ∧
      Types (Editor.start.pressAll before) typed 10 ∧
      ((Editor.start.pressAll before).pressAll typed).display = "5xsin(.)" ∧
      ((Editor.start.pressAll before).pressAll typed).pressAll (List.replicate 10 .delete) =
        Editor.start.pressAll before := by
  intro before typed
  have onKeypad : ∀ key ∈ before, key.OnKeypad := by
    intro key hk
    rcases List.mem_pair.mp hk with rfl | rfl
    · exact ⟨"7", by decide⟩
    · exact ⟨"Del", by decide⟩
  have fine : (Editor.start.pressAll before).display ≠ "Error" := by decide
  have types : Types (Editor.start.pressAll before) typed 10 :=
    .cons (.digit (c := '0') rfl (by decide)) <| .cons (.digit (c := '0') rfl (by decide)) <|
      .cons (.digit (c := '5') rfl (by decide)) <| .cons (.operator (c := 'x') rfl (by decide)) <|
      .cons (.function .sin) <| .cons (.digit (c := '.') rfl (by decide)) <|
      .cons (.paren (c := ')') rfl (by decide)) .nil
  exact ⟨onKeypad, by decide, types, by decide, delete_undoes_typing onKeypad fine types⟩

end DeskCalc.Keypad
