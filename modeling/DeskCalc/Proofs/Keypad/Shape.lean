/-
  DeskCalc.Proofs.Keypad.Shape — what the line of an editor looks like, whatever keys are pressed.

  A line is `Error`, or it is tidy: written with the characters that keys and results
  are made of, with one point at most, and without two operators next to each other.
  Typing adds a character that fits behind the last one, or takes the place of the
  operator that ends the line; deleting cuts a tidy line short; a value or a constant
  takes the place of the whole line, and its text is a numeral. So every longest run of
  digits and points, a lone point apart, is read as a number.

  Proved:
  - `Tidy.append` / `Tidy.replace` / `Tidy.cut`: the three changes of a line.
  - `tidy_numeral`: a numeral is tidy, its sign included.
  - `press_tidy` / `press_shape`: what one key of the keypad leaves, and what it preserves.
  - `replay_shape`: the shape of the line, and its runs, behind any labels.
-/

import DeskCalc.Proofs.Keypad.Key
import DeskCalc.Proofs.Keypad.Line
import DeskCalc.Proofs.Token.Cut

namespace DeskCalc.Keypad

open Number (signChars)
open Number.Decimal (isNumeric forall_numeric)
open Token (IsRun scan)

/-! ## Tidy lines -/

def isOperator (c : Char) : Bool := (Operator.ofChar? c).isSome

/-- What lines are written with: digits, the point, operators, parentheses, and the letters of the functions. -/
def alphabet : List Char :=
  ['0', '1', '2', '3', '4', '5', '6', '7', '8', '9', '.', '+', '-', 'x', '/', '^', '(', ')'] ++
    ScientificFunction.all.flatMap fun f => f.name.toList

/-- Two neighbours that are not both operators. -/
def Beside (a b : Char) : Prop := ¬(isOperator a = true ∧ isOperator b = true)

instance (a b : Char) : Decidable (Beside a b) := inferInstanceAs (Decidable (¬_))

structure Tidy (line : List Char) : Prop where
  ne_nil : line ≠ []
  characters : ∀ c ∈ line, c ∈ alphabet
  one_point : line.count '.' ≤ 1
  apart : line.IsChain Beside

theorem beside_of_left {a : Char} (h : isOperator a = false) (b : Char) : Beside a b := fun both => by simp [h] at both

theorem beside_of_right {b : Char} (h : isOperator b = false) (a : Char) : Beside a b := fun both => by simp [h] at both

/-- What holds of the characters of a text, tried one by one. -/
theorem forall_of_all {P : Char → Prop} [DecidablePred P] {cs : List Char}
    (h : cs.all (fun c => decide (P c)) = true) : ∀ c ∈ cs, P c :=
  fun c hc => of_decide_eq_true (List.all_eq_true.mp h c hc)

theorem tidy_zero : Tidy Editor.zero := ⟨by decide, forall_of_all (by decide), by decide, List.isChain_singleton _⟩

theorem Tidy.append {line cs : List Char} (h : Tidy line) (characters : ∀ c ∈ cs, c ∈ alphabet)
    (points : line.count '.' + cs.count '.' ≤ 1) (apart : cs.IsChain Beside)
    (joint : ∀ a ∈ line.getLast?, ∀ b ∈ cs.head?, Beside a b) : Tidy (line ++ cs) where
  ne_nil := by simp [h.ne_nil]
  characters c hc := (List.mem_append.mp hc).elim (h.characters c) (characters c)
  one_point := by rwa [List.count_append]
  apart := List.isChain_append.mpr ⟨h.apart, apart, joint⟩

theorem Tidy.cut {line part : List Char} (h : Tidy line) (hp : part <+: line) (hne : part ≠ []) : Tidy part where
  ne_nil := hne
  characters c hc := h.characters c (hp.subset hc)
  one_point := Nat.le_trans (hp.sublist.count_le '.') h.one_point
  apart := by
    obtain ⟨rest, rfl⟩ := hp
    exact (List.isChain_append.mp h.apart).1

/-- Another operator in the place of the last one. -/
theorem Tidy.replace {front : List Char} {last c : Char} (h : Tidy (front ++ [last]))
    (operator : isOperator last = true) (character : c ∈ alphabet) (point : c ≠ '.') : Tidy (front ++ [c]) where
  ne_nil := by simp
  characters d hd := by
    rcases List.mem_append.mp hd with hd | hd
    · exact h.characters d (List.mem_append_left _ hd)
    · rwa [List.mem_singleton.mp hd]
  one_point := by
    have before := h.one_point
    rw [List.count_append] at before ⊢
    rw [List.count_singleton, if_neg (by simpa using point)]
    omega
  apart := by
    obtain ⟨chain, -, joint⟩ := List.isChain_append.mp h.apart
    refine List.isChain_append.mpr ⟨chain, List.isChain_singleton c, fun a ha b _ => ?_⟩
    -- the one before the last is no operator, for the last is one
    refine beside_of_left ?_ b
    by_cases ho : isOperator a = true
    · exact absurd ⟨ho, operator⟩ (joint a ha last rfl)
    · simpa using ho

theorem isOperator_of_isNumeric {c : Char} (h : isNumeric c = true) : isOperator c = false :=
  forall_numeric (P := fun d => isOperator d = false) (by decide) h

theorem mem_alphabet_of_isNumeric {c : Char} (h : isNumeric c = true) : c ∈ alphabet :=
  forall_numeric (P := fun d => d ∈ alphabet) (by decide) h

theorem mem_alphabet_of_symbol {c : Char} (h : c ∈ ['+', '-', 'x', '/', '^', '(', ')']) : c ∈ alphabet :=
  forall_of_all (P := fun d => d ∈ alphabet) (by decide) c h

theorem mem_alphabet_of_call (f : ScientificFunction) : ∀ c ∈ f.name.toList ++ ['('], c ∈ alphabet :=
  forall_of_all (by cases f <;> decide)

/-- The capital letter of the error is on no key. -/
theorem ne_error_of_alphabet {line : List Char} (h : ∀ c ∈ line, c ∈ alphabet) : line ≠ Number.errorChars := by
  rintro rfl
  exact absurd (h 'E' (by decide)) (by decide)

/-- Nothing that is no operator stands beside an operator only. -/
theorem isChain_of_not_operator {cs : List Char} (h : ∀ c ∈ cs, isOperator c = false) : cs.IsChain Beside := by
  induction cs with
  | nil => exact List.isChain_nil
  | cons c cs ih =>
    refine List.isChain_cons.mpr ⟨fun b _ => ?_, ih fun d hd => h d (List.mem_cons_of_mem _ hd)⟩
    exact beside_of_left (h c List.mem_cons_self) b

theorem tidy_numeral {cs : List Char} {d : Number.Decimal} (h : Number.Decimal.ofChars? cs = some d) (negative : Bool) :
    Tidy (signChars negative ++ cs) := by
  obtain ⟨hne, numeric⟩ := Number.Decimal.isNumeric_of_ofChars? h
  have number : Tidy cs := {
    ne_nil := hne
    characters := fun c hc => mem_alphabet_of_isNumeric (numeric c hc)
    one_point := Number.Decimal.count_point_of_ofChars? h
    apart := isChain_of_not_operator fun c hc => isOperator_of_isNumeric (numeric c hc) }
  cases negative with
  | false => exact number
  | true =>
    obtain ⟨c, cs, rfl⟩ := List.exists_cons_of_ne_nil hne
    have beside : Beside '-' c := beside_of_right (isOperator_of_isNumeric (numeric c List.mem_cons_self)) _
    exact {
      ne_nil := by simp
      characters := fun d hd => (List.mem_cons.mp hd).elim (fun eq => eq ▸ by decide) (number.characters d)
      one_point := by
        rw [show signChars true ++ c :: cs = '-' :: c :: cs from rfl, List.count_cons_of_ne (by decide)]
        exact number.one_point
      apart := List.isChain_cons_cons.mpr ⟨beside, number.apart⟩ }

/-! ## Keys -/

/-- The shape of a line: `Error`, or tidy. -/
def Shaped (line : List Char) : Prop := line = Number.errorChars ∨ Tidy line

theorem shaped_start : Shaped Editor.start.line := Or.inr tidy_zero

namespace Editor

variable {e : Editor}

theorem resume_tidy (h : Shaped e.line) : Tidy e.resume.line := by
  rw [resume]
  by_cases he : e.line = Number.errorChars
  · rw [if_pos he]
    exact tidy_zero
  · rw [if_neg he]
    exact h.resolve_left he

theorem typeDigit_tidy {c : Char} (h : Shaped e.line) (hc : isNumeric c = true) : Tidy (e.typeDigit c).line := by
  have tidy := resume_tidy h
  have digit : ∀ d ∈ [c], isNumeric d = true := by simpa using hc
  have character : ∀ d ∈ [c], d ∈ alphabet := fun d hd => mem_alphabet_of_isNumeric (digit d hd)
  rw [typeDigit]
  by_cases hz : e.resume.line = zero ∧ c ≠ '.'
  · rw [if_pos hz]
    exact ⟨by simp, character, List.count_le_length, List.isChain_singleton c⟩
  rw [if_neg hz]
  by_cases hp : c = '.' ∧ '.' ∈ e.resume.line
  · rw [if_pos hp]
    exact tidy
  rw [if_neg hp]
  refine tidy.append character ?_ (List.isChain_singleton c) fun a _ b hb => ?_
  · by_cases point : c = '.'
    · subst point
      rw [List.count_eq_zero.mpr fun hm => hp ⟨rfl, hm⟩]
      exact Nat.le_refl 1
    · rw [List.count_singleton, if_neg (by simpa using point)]
      exact tidy.one_point
  · cases hb
    exact beside_of_right (isOperator_of_isNumeric hc) a

theorem isNumeric_of_digit? {text : String} {c : Char} (h : digit? text = some c) : isNumeric c = true := by
  unfold digit? at h
  split at h
  · split at h
    · rename_i hc
      cases h
      exact hc
    · cases h
  · cases h

theorem mem_of_symbol? {symbol : String} {c : Char} (h : symbol? symbol = some c) :
    c ∈ ['+', '-', 'x', '/', '^', '(', ')'] := by
  unfold symbol? at h
  split at h
  all_goals first | (injection h with h; subst h; decide) | cases h

theorem typeSymbol_tidy {c : Char} (h : Shaped e.line) (hc : c ∈ ['+', '-', 'x', '/', '^', '(', ')']) :
    Tidy (e.typeSymbol c).line := by
  have tidy := resume_tidy h
  have character : c ∈ alphabet := mem_alphabet_of_symbol hc
  have point : c ≠ '.' := by
    rintro rfl
    exact absurd hc (by decide)
  have paren : c = '(' ∨ c = ')' → isOperator c = false := by
    rintro (rfl | rfl) <;> decide
  obtain ⟨front, last, split⟩ : ∃ front last, e.resume.line = front ++ [last] :=
    ⟨_, _, (List.dropLast_append_getLast tidy.ne_nil).symm⟩
  have ends : endsInOperator e.resume.line = isOperator last := by
    rw [split, endsInOperator, List.getLast?_append]
    rfl
  rw [typeSymbol, ends]
  by_cases replaced : isOperator last = true ∧ c ≠ '(' ∧ c ≠ ')'
  · rw [if_pos replaced, split, List.dropLast_concat]
    rw [split] at tidy
    exact tidy.replace replaced.1 character point
  · rw [if_neg replaced]
    refine tidy.append (by simpa using character) ?_ (List.isChain_singleton c) fun a ha b hb => ?_
    · rw [List.count_singleton, if_neg (by simpa using point)]
      exact tidy.one_point
    · cases hb
      rw [split, List.getLast?_append] at ha
      cases ha
      by_cases operator : isOperator last = true
      · refine beside_of_right (paren ?_) _
        by_cases hl : c = '('
        · exact Or.inl hl
        · exact Or.inr (Decidable.of_not_not fun hr => replaced ⟨operator, hl, hr⟩)
      · exact beside_of_left (Bool.not_eq_true _ ▸ operator) _

theorem insertFunction_tidy (h : Shaped e.line) (f : ScientificFunction) : Tidy (e.insertFunction f.name).line := by
  have tidy := resume_tidy h
  have characters := mem_alphabet_of_call f
  have plain : ∀ c ∈ f.name.toList ++ ['('], isOperator c = false := forall_of_all (by cases f <;> decide)
  have points : (f.name.toList ++ ['(']).count '.' = 0 := by cases f <;> decide
  have apart := isChain_of_not_operator plain
  rw [insertFunction]
  by_cases hz : e.resume.line = zero
  · rw [if_pos hz]
    exact ⟨by simp, characters, Nat.le_trans (Nat.le_of_eq points) (Nat.zero_le 1), apart⟩
  · rw [if_neg hz]
    refine tidy.append characters ?_ apart fun a _ b hb => ?_
    · rw [points]
      exact tidy.one_point
    · exact beside_of_right (plain b (List.mem_of_mem_head? hb)) a

theorem delete_tidy (h : Shaped e.line) : Tidy e.delete.line := by
  have tidy := resume_tidy h
  rw [delete]
  by_cases hl : 1 < e.resume.line.length
  · rw [if_pos hl]
    refine tidy.cut (List.dropLast_prefix _) fun eq => ?_
    have := congrArg List.length eq
    simp at this
    omega
  · rw [if_neg hl]
    exact tidy_zero

end Editor

theorem resultChars_shaped (x : Float) : Shaped (Number.resultChars x) := by
  by_cases hf : Number.Binary64.isFinite x = true
  · obtain ⟨negative, cs, d, eq, hd⟩ := Number.resultChars_of_finite hf
    rw [eq]
    exact Or.inr (tidy_numeral hd negative)
  · exact Or.inl (Number.resultChars_of_not_finite (Bool.not_eq_true _ ▸ hf))

theorem toChars_tidy {x : Float} (h : Number.Binary64.isFinite x = true) : Tidy (Number.toChars x) := by
  rw [Number.toChars_of_finite h]
  exact tidy_numeral (Number.Decimal.ofChars?_toChars _) _

namespace Editor

variable {e : Editor}

theorem equals_shaped (e : Editor) : Shaped e.equals.line := by
  rw [equals]
  cases evaluateFinite e.display with
  | ok value => exact resultChars_shaped value
  | error _ => exact Or.inl rfl

theorem applyImmediate_shaped (action : Immediate) (e : Editor) : Shaped (e.applyImmediate action).line := by
  rw [applyImmediate]
  cases Number.ofChars? e.equals.line with
  | some value => exact resultChars_shaped _
  | none => exact Or.inl rfl

theorem isFinite_of_constant? {name : String} {x : Float} (h : constant? name = some x) :
    Number.Binary64.isFinite x = true := by
  have finite : Number.Binary64.isFinite Number.euler = true ∧ Number.Binary64.isFinite Number.pi = true := by
    decide +kernel
  unfold constant? at h
  split at h
  · simp only [Option.some.injEq] at h
    exact h ▸ finite.1
  · simp only [Option.some.injEq] at h
    exact h ▸ finite.2
  · simp only [Option.some.injEq] at h
    exact h ▸ finite.2
  · cases h

end Editor

/-- A key of the keypad that does not evaluate the line leaves it tidy. -/
theorem press_tidy {e : Editor} {key : Key} (h : Shaped e.line) (hk : key.OnKeypad) (hn : key.evaluates = false) :
    Tidy (e.press key).line := by
  have known := Key.known_of_onKeypad hk
  cases key with
  | digit text =>
    obtain ⟨c, hc⟩ := Option.isSome_iff_exists.mp known
    rw [Editor.press, Editor.digit, hc]
    exact Editor.typeDigit_tidy h (Editor.isNumeric_of_digit? hc)
  | operator symbol =>
    obtain ⟨c, hc⟩ := Option.isSome_iff_exists.mp known
    rw [Editor.press, Editor.operator, hc]
    exact Editor.typeSymbol_tidy h (Editor.mem_of_symbol? hc)
  | constant name =>
    obtain ⟨value, hv⟩ := Option.isSome_iff_exists.mp known
    rw [Editor.press, Editor.constant, hv]
    exact toChars_tidy (Editor.isFinite_of_constant? hv)
  | function name =>
    obtain ⟨f, rfl⟩ := Key.scientific_of_known known hn
    rw [Editor.press_scientific]
    exact Editor.insertFunction_tidy h f
  | clear => exact tidy_zero
  | delete => exact Editor.delete_tidy h
  | equals => cases hn

theorem press_shape {e : Editor} {key : Key} (h : Shaped e.line) (hk : key.OnKeypad) : Shaped (e.press key).line := by
  cases he : key.action? with
  | none => exact Or.inr (press_tidy h hk (by rw [Key.evaluates, he]; rfl))
  | some act =>
    rcases Key.action?_eq_some he with ⟨rfl, -⟩ | ⟨name, action, rfl, ha, -⟩
    · exact Editor.equals_shaped e
    · rw [Editor.press_immediate ha]
      exact Editor.applyImmediate_shaped action e

theorem pressLabel_shape {e : Editor} (h : Shaped e.line) (label : String) : Shaped (e.pressLabel label).line := by
  rw [Editor.pressLabel]
  cases hk : Key.ofLabel? label with
  | some key => exact press_shape h ⟨label, hk⟩
  | none => exact h

theorem replay_shaped {e : Editor} (h : Shaped e.line) (labels : List String) : Shaped (e.replay labels).line := by
  induction labels generalizing e with
  | nil => exact h
  | cons label labels ih => exact ih (pressLabel_shape h label)

/-! ## Runs of digits and points -/

/-- A run in a line with one point at most is read, unless it is a lone point. -/
theorem run_is_read {line front run behind : List Char} (h : IsRun line front run behind) (points : line.count '.' ≤ 1)
    (lone : run ≠ ['.']) : ∃ d, Number.Decimal.ofChars? run = some d := by
  refine Number.Decimal.exists_ofChars? h.ne_nil h.numeric ?_ lone
  rw [h.split, List.count_append, List.count_append] at points
  omega

theorem no_run_in_error {front run behind : List Char} : ¬IsRun Number.errorChars front run behind := by
  intro h
  obtain ⟨c, cs, rfl⟩ := List.exists_cons_of_ne_nil h.ne_nil
  have numeric := h.numeric c List.mem_cons_self
  have letters : ∀ d ∈ Number.errorChars, isNumeric d = false := forall_of_all (by decide)
  have member : c ∈ Number.errorChars := by
    rw [h.split]
    simp
  rw [letters c member] at numeric
  cases numeric

/-- A fresh editor, whatever labels it is given, shows `Error` or a tidy line; and every longest run of digits
    and points on the line but a lone point is scanned as a number, with the sign before it or without. -/
theorem replay_shape (labels : List String) :
    let e := Editor.start.replay labels
    (e.display = "Error" ∨ Tidy e.line) ∧
      ∀ front run behind, IsRun e.line front run behind → run ≠ ['.'] →
        ∃ negative before value, front = before ++ signChars negative ∧
          Number.ofChars? (signChars negative ++ run) = some value ∧
          Token.ofText e.display = scan none before ++ .number value :: scan (some (.number value)) behind := by
  intro e
  have shaped : Shaped e.line := replay_shaped (Or.inr tidy_zero) labels
  refine ⟨shaped.imp_left fun he => congrArg String.ofList he, fun front run behind h lone => ?_⟩
  have tidy : Tidy e.line := by
    rcases shaped with he | tidy
    · rw [he] at h
      exact absurd h no_run_in_error
    · exact tidy
  obtain ⟨d, read⟩ := run_is_read h tidy.one_point lone
  obtain ⟨negative, before, split, scanned⟩ := Token.scan_run none h
  refine ⟨negative, before, _, split, Number.ofChars?_signChars read negative, ?_⟩
  rw [Token.numeral_signChars read negative] at scanned
  rw [Token.ofText, Editor.display, String.toList_ofList]
  exact scanned

/-- A sign and a number without a whole part, typed behind an operator that was replaced and a deleted one. -/
theorem replay_shape_signed :
    let e := Editor.start.replay ["sqrt", "6", "+", "×", "(", "/", "Del", "−", ".", ".", "5"]
    IsRun e.line ['s', 'q', 'r', 't', '(', '6', 'x', '(', '-'] ['.', '5'] [] ∧ (['.', '5'] : List Char) ≠ ['.'] ∧
      (e.display = "Error" ∨ Tidy e.line) ∧
      ∃ negative before value, ['s', 'q', 'r', 't', '(', '6', 'x', '(', '-'] = before ++ signChars negative ∧
        Number.ofChars? (signChars negative ++ ['.', '5']) = some value ∧
        Token.ofText e.display = scan none before ++ .number value :: scan (some (.number value)) [] := by
  intro e
  have line : e.line = ['s', 'q', 'r', 't', '(', '6', 'x', '(', '-'] ++ ['.', '5'] ++ [] := by decide +kernel
  have run : IsRun e.line ['s', 'q', 'r', 't', '(', '6', 'x', '(', '-'] ['.', '5'] [] :=
    ⟨line, by simp, forall_of_all (by decide), fun c hc => by cases hc; decide, fun c hc => by cases hc⟩
  have lone : (['.', '5'] : List Char) ≠ ['.'] := by simp
  obtain ⟨shape, runs⟩ := replay_shape ["sqrt", "6", "+", "×", "(", "/", "Del", "−", ".", ".", "5"]
  exact ⟨run, lone, shape, runs _ _ _ run lone⟩

end DeskCalc.Keypad
