/-
  DeskCalc.Proofs.Keypad.Line — what the typing keys add to a line.

  Between two keys that type a token the last character of the line says enough: it
  tells whether an operator would be replaced, and a line that is `Error` or the lone
  zero ends like no operator and no opening parenthesis (`Ends`). Where no rule that
  replaces something applies, a key adds its own characters and nothing else.

  Proved:
  - `glyphs_digits` / `glyphs_operator` / `glyphs_function`: what the keys type.
  - `typeDigit_append` / `typeSymbol_append` / `insertFunction_append`: when it is added.
  - `replay_digits`: digits and at most one point are added one after the other.
  - `equals_of_ok` / `equals_of_ne_ok`: what an evaluation leaves on the line.
  - `Ends.settled` / `Ends.not_operator`: what the last character rules out.
-/

import DeskCalc.Keypad.Editor
import DeskCalc.Proofs.Token.Spelling

namespace DeskCalc.Keypad

open Number.Decimal (isNumeric forall_numeric)

/-! ## Labels -/

def digitLabels (cs : List Char) : List String := cs.map String.singleton

def signLabels (negative : Bool) : List String := if negative then ["−"] else []

def operatorLabel : Operator → String
  | .plus => "+"
  | .minus => "−"
  | .times => "×"
  | .divide => "/"
  | .power => "x^y"

/-- The characters that the key of a label types. -/
def glyphs (label : String) : List Char :=
  match Key.ofLabel? label with
  | some (.digit text) => text.toList
  | some (.operator symbol) => (Editor.symbol? symbol).toList
  | some (.function name) => name.toList ++ ['(']
  | _ => []

theorem glyphs_digit {c : Char} (h : isNumeric c = true) : glyphs (String.singleton c) = [c] :=
  forall_numeric (P := fun d => glyphs (String.singleton d) = [d]) (by decide) h

theorem glyphs_operator (op : Operator) : glyphs (operatorLabel op) = [op.symbol] := by cases op <;> rfl

theorem glyphs_function (f : ScientificFunction) : glyphs f.name = f.name.toList ++ ['('] := by cases f <;> rfl

theorem glyphs_digits {cs : List Char} (h : ∀ c ∈ cs, isNumeric c = true) : (digitLabels cs).flatMap glyphs = cs := by
  induction cs with
  | nil => rfl
  | cons c cs ih =>
    rw [digitLabels, List.map_cons, List.flatMap_cons, glyphs_digit (h c List.mem_cons_self)]
    exact congrArg _ (ih fun d hd => h d (List.mem_cons_of_mem _ hd))

theorem glyphs_sign (negative : Bool) : (signLabels negative).flatMap glyphs = Number.signChars negative := by
  cases negative <;> rfl

theorem count_digitLabels (cs : List Char) : (digitLabels cs).count "." = cs.count '.' := by
  rw [digitLabels, List.count, List.countP_map, List.count]
  refine List.countP_congr fun c _ => ?_
  rw [Function.comp, beq_iff_eq, beq_iff_eq]
  exact String.singleton_inj (d := '.')

/-- The points on the keys of a number and of what is typed behind it. -/
theorem count_numeralLabels (negative : Bool) (cs : List Char) (ks : List String) :
    (signLabels negative ++ digitLabels cs ++ ks).count "." = cs.count '.' + ks.count "." := by
  rw [List.count_append, List.count_append, count_digitLabels]
  cases negative <;> simp [signLabels]

namespace Editor

/-! ## Keys of labels -/

theorem pressLabel_digit {c : Char} (h : isNumeric c = true) (e : Editor) :
    e.pressLabel (String.singleton c) = e.typeDigit c := by
  obtain ⟨label, character⟩ := forall_numeric (P := fun d => Key.ofLabel? (String.singleton d) =
    some (.digit (String.singleton d)) ∧ digit? (String.singleton d) = some d) (by decide) h
  simp only [pressLabel, label, press, digit, character]

theorem pressLabel_operator (op : Operator) (e : Editor) :
    e.pressLabel (operatorLabel op) = e.typeSymbol op.symbol := by
  cases op <;> rfl

theorem pressLabel_function (f : ScientificFunction) (e : Editor) : e.pressLabel f.name = e.insertFunction f.name := by
  cases f <;> rfl

/-! ## Lines that keys add to -/

theorem typeDigit_append {line : List Char} {c : Char} (he : line ≠ Number.errorChars) (hz : line = zero → c = '.')
    (hp : c = '.' → '.' ∉ line) : typeDigit c ⟨line⟩ = ⟨line ++ [c]⟩ := by
  rw [typeDigit, resume_of_ne_error he]
  rw [if_neg fun h => h.2 (hz h.1), if_neg fun h => hp h.1 h.2]

theorem typeSymbol_append {line : List Char} {c : Char} (he : line ≠ Number.errorChars)
    (ho : endsInOperator line = true → c = '(' ∨ c = ')') : typeSymbol c ⟨line⟩ = ⟨line ++ [c]⟩ := by
  rw [typeSymbol, resume_of_ne_error he]
  refine if_neg fun h => ?_
  rcases ho h.1 with hc | hc
  · exact h.2.1 hc
  · exact h.2.2 hc

theorem insertFunction_append {line : List Char} (name : String) (he : line ≠ Number.errorChars) (hz : line ≠ zero) :
    insertFunction name ⟨line⟩ = ⟨line ++ (name.toList ++ ['('])⟩ := by
  rw [insertFunction, resume_of_ne_error he]
  exact if_neg hz

/-- A line that digits are added to. -/
structure Settled (line : List Char) : Prop where
  ne_nil : line ≠ []
  ne_zero : line ≠ zero
  ne_error : line ≠ Number.errorChars

theorem ne_error_of_numeric (line : List Char) {c : Char} (h : isNumeric c = true) :
    line ++ [c] ≠ Number.errorChars := by
  intro eq
  have last : c = 'r' := by simpa [Number.errorChars] using congrArg List.getLast? eq
  rw [last] at h
  cases h

theorem Settled.digit {line : List Char} {c : Char} (h : Settled line) (hc : isNumeric c = true) :
    Settled (line ++ [c]) where
  ne_nil := by simp
  ne_zero eq := by
    have := congrArg List.length eq
    have := List.length_pos_iff.mpr h.ne_nil
    simp only [List.length_append, List.length_singleton, zero] at *
    omega
  ne_error := ne_error_of_numeric line hc

/-- Digits are added in their order, and a point if the line has none. -/
theorem replay_digits {line cs : List Char} (h : Settled line) (hcs : ∀ c ∈ cs, isNumeric c = true)
    (hp : line.count '.' + cs.count '.' ≤ 1) : (⟨line⟩ : Editor).replay (digitLabels cs) = ⟨line ++ cs⟩ := by
  induction cs generalizing line with
  | nil => rw [List.append_nil]; rfl
  | cons c cs ih =>
    have hc := hcs c List.mem_cons_self
    have point : c = '.' → '.' ∉ line := by
      intro eq
      subst eq
      rw [List.count_cons_self] at hp
      exact List.count_eq_zero.mp (by omega)
    have typed : (⟨line⟩ : Editor).pressLabel (String.singleton c) = ⟨line ++ [c]⟩ := by
      rw [pressLabel_digit hc, typeDigit_append h.ne_error (fun hz => absurd hz h.ne_zero) point]
    have later := ih (h.digit hc) (fun d hd => hcs d (List.mem_cons_of_mem _ hd)) (by
      rw [List.count_append, List.count_singleton]
      rw [List.count_cons] at hp
      omega)
    rw [List.append_assoc] at later
    show Editor.replay ((⟨line⟩ : Editor).pressLabel (String.singleton c)) (digitLabels cs) = _
    rw [typed]
    exact later

/-! ## The result on the line -/

theorem equals_of_ok {e : Editor} {evaluation : Evaluation} (h : evaluate e.display = .ok evaluation) :
    e.equals = ⟨Number.resultChars evaluation.value⟩ := by
  have value : evaluateFinite e.display = requireFinite evaluation.value := by
    rw [evaluateFinite, h]
    rfl
  rw [equals, value, requireFinite]
  by_cases hf : Number.Binary64.isFinite evaluation.value = true
  · rw [if_pos hf]
  · rw [if_neg hf, Number.resultChars_of_not_finite (Bool.not_eq_true _ ▸ hf)]

theorem equals_of_ne_ok {e : Editor} (h : ∀ evaluation, evaluate e.display ≠ .ok evaluation) :
    e.equals = ⟨Number.errorChars⟩ := by
  rw [equals, evaluateFinite]
  cases he : evaluate e.display with
  | error err => rfl
  | ok evaluation => exact absurd he (h evaluation)

end Editor

/-! ## The last character -/

/-- Whether the text of a token can end in a character. -/
def endsIn : Token → Char → Bool
  | .number _, c => isNumeric c
  | .operator op, c => c == op.symbol
  | .leftParen, c => c == '('
  | .rightParen, c => c == ')'
  | _, _ => false

/-- A line whose last token is `t`, as far as its last character tells. -/
def Ends (t : Token) (line : List Char) : Prop := ∃ c, line.getLast? = some c ∧ endsIn t c = true

namespace Ends

variable {t : Token} {line : List Char}

theorem append (line : List Char) {cs : List Char} {c : Char} (hc : cs.getLast? = some c) (h : endsIn t c = true) :
    Ends t (line ++ cs) := ⟨c, by rw [List.getLast?_append, hc]; rfl, h⟩

theorem ne_error (h : Ends t line) : line ≠ Number.errorChars := by
  obtain ⟨c, hc, h⟩ := h
  intro eq
  subst eq
  obtain rfl : 'r' = c := Option.some.inj hc
  cases t with
  | operator op => cases op <;> cases h
  | _ => cases h

theorem settled (h : Ends t line) (hw : Grammar.wantsOperand (some t) = true) : Editor.Settled line where
  ne_nil := by
    obtain ⟨c, hc, _⟩ := h
    intro eq
    subst eq
    cases hc
  ne_zero := by
    obtain ⟨c, hc, h⟩ := h
    intro eq
    subst eq
    obtain rfl : '0' = c := Option.some.inj hc
    cases t with
    | operator op => cases op <;> cases h
    | leftParen => cases h
    | function f => cases h
    | _ => cases hw
  ne_error := h.ne_error

theorem not_operator (h : Ends t line) (ht : ∀ op, t ≠ .operator op) : Editor.endsInOperator line = false := by
  obtain ⟨c, hc, h⟩ := h
  have none : Operator.ofChar? c = none := by
    cases t with
    | number v => exact forall_numeric (P := fun d => Operator.ofChar? d = none) (by decide) h
    | operator op => exact absurd rfl (ht op)
    | leftParen =>
      obtain rfl : c = '(' := by simpa [endsIn] using h
      rfl
    | rightParen =>
      obtain rfl : c = ')' := by simpa [endsIn] using h
      rfl
    | _ => cases h
  rw [Editor.endsInOperator, hc]
  show (Operator.ofChar? c).isSome = false
  rw [none]
  rfl

end Ends

end DeskCalc.Keypad
