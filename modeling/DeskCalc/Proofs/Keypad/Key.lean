/-
  DeskCalc.Proofs.Keypad.Key — what the keys of the keypad carry, and presses in a row.

  A host may hand any text to the editor with a key, and a text that the editor does not
  know changes nothing. The keys that labels give carry known texts only. Some of them
  evaluate the line: the key `=`, and the functions that act at once on its value.

  Proved:
  - `known_of_onKeypad`: the text of a key of the keypad is one that the editor knows.
  - `pressAll_append`: presses are done one after the other.
-/

import DeskCalc.Keypad.Editor

namespace DeskCalc.Keypad

namespace Key

/-! ## Texts of keys -/

/-- A key that some label gives. -/
def OnKeypad (key : Key) : Prop := ∃ label, ofLabel? label = some key

/-- Whether the editor knows the text that a key carries. -/
def known : Key → Bool
  | digit text => (Editor.digit? text).isSome
  | operator symbol => (Editor.symbol? symbol).isSome
  | constant name => (Editor.constant? name).isSome
  | function name => (Immediate.ofName? name).isSome || (ScientificFunction.ofName? name).isSome
  | _ => true

theorem known_of_onKeypad {key : Key} (h : key.OnKeypad) : key.known = true := by
  have table : ∀ entry ∈ labels, entry.2.known = true := by decide
  obtain ⟨label, hl⟩ := h
  exact table _ (ofLabel?_eq_some hl)

/-! ## Keys that evaluate -/

/-- What a key makes of the value of the line, if it evaluates it: the key `=` leaves it as it is. -/
def action? : Key → Option (Float → Float)
  | equals => some id
  | function name => (Immediate.ofName? name).map Immediate.apply
  | _ => none

def evaluates (key : Key) : Bool := key.action?.isSome

theorem action?_eq_some {key : Key} {act : Float → Float} (h : key.action? = some act) :
    (key = equals ∧ act = id) ∨
      ∃ name action, key = function name ∧ Immediate.ofName? name = some action ∧ act = action.apply := by
  cases key with
  | equals => exact Or.inl ⟨rfl, (Option.some.inj h).symm⟩
  | function name =>
    obtain ⟨action, ha, rfl⟩ := Option.map_eq_some_iff.mp h
    exact Or.inr ⟨name, action, rfl, ha, rfl⟩
  | _ => cases h

/-- A function of the keypad that does not act at once is one of those that are inserted. -/
theorem scientific_of_known {name : String} (h : (function name).known = true)
    (he : (function name).evaluates = false) : ∃ f : ScientificFunction, name = f.name := by
  have immediate : (Immediate.ofName? name).isSome = false := by
    rw [evaluates, action?, Option.isSome_map] at he
    exact he
  rw [known, immediate, Bool.false_or] at h
  obtain ⟨f, hf⟩ := Option.isSome_iff_exists.mp h
  rw [ScientificFunction.ofName?] at hf
  have named := List.find?_some hf
  exact ⟨f, (beq_iff_eq.mp named).symm⟩

end Key

namespace Editor

theorem press_immediate {name : String} {action : Immediate} (h : Immediate.ofName? name = some action) (e : Editor) :
    e.press (.function name) = e.applyImmediate action := by
  rw [press, function, h]

theorem press_scientific (f : ScientificFunction) (e : Editor) :
    e.press (.function f.name) = e.insertFunction f.name := by
  cases f <;> rfl

/-! ## Presses in a row -/

def pressAll (e : Editor) (keys : List Key) : Editor := keys.foldl press e

theorem pressAll_append (e : Editor) (keys later : List Key) :
    e.pressAll (keys ++ later) = (e.pressAll keys).pressAll later :=
  List.foldl_append

end Editor

end DeskCalc.Keypad
