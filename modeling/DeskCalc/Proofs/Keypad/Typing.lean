/-
  DeskCalc.Proofs.Keypad.Typing — an expression that is typed key by key.

  Behind a token the line ends as the token does, so no key finds anything to replace
  and each adds its own characters (`replay_typed`). The first number is apart: the
  line is not empty before it, and its lone zero gives way to a digit but not to a
  point. What is then on the line reads as the number that was typed (`replay_on_zero`).

  Proved:
  - `replay_number`: the keys of a numeral add it to the line, its sign in front.
  - `replay_typed`: the keys of tokens add their characters to the line.
  - `replay_on_zero`: digits typed on a zero read as they do alone.
-/

import DeskCalc.Proofs.Keypad.Line

namespace DeskCalc.Keypad

open Grammar (Alternates wantsOperand)
open Number (ofDecimal signChars)
open Number.Decimal (isNumeric)

/-! ## Typing -/

/-- `Typed previous ts ks`: behind `previous`, the tokens `ts` are typed by the keys with the labels `ks`.
    A number is negative only behind an opening parenthesis, and a function key types the parenthesis of
    its argument too. -/
inductive Typed : Option Token → List Token → List String → Prop
  | done {previous : Option Token} : Typed previous [] []
  | number {previous : Option Token} (negative : Bool) {cs : List Char} {d : Number.Decimal} {ts : List Token}
      {ks : List String} : Number.Decimal.ofChars? cs = some d → (negative = true → previous = some .leftParen) →
      Typed (some (.number (ofDecimal negative d))) ts ks →
      Typed previous (.number (ofDecimal negative d) :: ts) (signLabels negative ++ digitLabels cs ++ ks)
  | operator {previous : Option Token} (op : Operator) {ts : List Token} {ks : List String} :
      Typed (some (.operator op)) ts ks → Typed previous (.operator op :: ts) (operatorLabel op :: ks)
  | leftParen {previous : Option Token} {ts : List Token} {ks : List String} :
      Typed (some .leftParen) ts ks → Typed previous (.leftParen :: ts) ("(" :: ks)
  | rightParen {previous : Option Token} {ts : List Token} {ks : List String} :
      Typed (some .rightParen) ts ks → Typed previous (.rightParen :: ts) (")" :: ks)
  | call {previous : Option Token} (f : ScientificFunction) {ts : List Token} {ks : List String} :
      Typed (some .leftParen) ts ks → Typed previous (.function f :: .leftParen :: ts) (f.name :: ks)

/-! ## The line -/

theorem last_numeral {cs : List Char} {d : Number.Decimal} (h : Number.Decimal.ofChars? cs = some d) :
    ∃ c, cs.getLast? = some c ∧ isNumeric c = true := by
  obtain ⟨hne, hcs⟩ := Number.Decimal.isNumeric_of_ofChars? h
  exact ⟨_, List.getLast?_eq_some_getLast hne, hcs _ (List.getLast_mem hne)⟩

theorem replay_sign {negative : Bool} {t : Token} {line : List Char} (he : Ends t line)
    (hw : wantsOperand (some t) = true) (hn : negative = true → t = .leftParen) :
    (⟨line⟩ : Editor).replay (signLabels negative) = ⟨line ++ signChars negative⟩ ∧
      Editor.Settled (line ++ signChars negative) := by
  cases negative with
  | false =>
    rw [show signChars false = [] from rfl, List.append_nil]
    exact ⟨rfl, he.settled hw⟩
  | true =>
    obtain rfl := hn rfl
    have typed : (⟨line⟩ : Editor).pressLabel (operatorLabel .minus) = ⟨line ++ ['-']⟩ := by
      rw [Editor.pressLabel_operator]
      refine Editor.typeSymbol_append he.ne_error fun h => ?_
      rw [he.not_operator (by simp)] at h
      cases h
    have signed : Ends (.operator .minus) (line ++ ['-']) := .append line rfl rfl
    exact ⟨typed, signed.settled rfl⟩

/-- The keys of a numeral add it to the line. -/
theorem replay_number {negative : Bool} {cs : List Char} {d : Number.Decimal} {t : Token} {line : List Char}
    (hd : Number.Decimal.ofChars? cs = some d) (he : Ends t line) (hw : wantsOperand (some t) = true)
    (hn : negative = true → t = .leftParen) (hp : line.count '.' + cs.count '.' ≤ 1) :
    (⟨line⟩ : Editor).replay (signLabels negative ++ digitLabels cs) = ⟨line ++ (signChars negative ++ cs)⟩ := by
  obtain ⟨sign, settled⟩ := replay_sign he hw hn
  have points : (line ++ signChars negative).count '.' = line.count '.' := by
    rw [List.count_append]
    cases negative <;> rfl
  rw [Editor.replay_append, sign, Editor.replay_digits settled (Number.Decimal.isNumeric_of_ofChars? hd).2 (by omega),
    List.append_assoc]

/-- A key that adds its characters, and no point, in front of others. -/
theorem replay_key {k : String} {ks : List String} {line : List Char} (hk : k ≠ "." ∧ '.' ∉ glyphs k)
    (hp : line.count '.' + (k :: ks).count "." ≤ 1) (typed : (⟨line⟩ : Editor).pressLabel k = ⟨line ++ glyphs k⟩)
    (later : (line ++ glyphs k).count '.' + ks.count "." ≤ 1 →
      (⟨line ++ glyphs k⟩ : Editor).replay ks = ⟨line ++ glyphs k ++ ks.flatMap glyphs⟩) :
    (⟨line⟩ : Editor).replay (k :: ks) = ⟨line ++ (k :: ks).flatMap glyphs⟩ := by
  rw [List.count_cons_of_ne hk.1] at hp
  rw [List.count_append, List.count_eq_zero.mpr hk.2] at later
  show ((⟨line⟩ : Editor).pressLabel k).replay ks = _
  rw [typed, later hp, List.flatMap_cons, List.append_assoc]

/-- The keys behind a token add their characters to the line. -/
theorem replay_typed {previous : Option Token} {ts : List Token} {ks : List String} {line : List Char}
    (h : Typed previous ts ks) (ha : Alternates previous ts) (he : ∃ t, previous = some t ∧ Ends t line)
    (hp : line.count '.' + ks.count "." ≤ 1) : (⟨line⟩ : Editor).replay ks = ⟨line ++ ks.flatMap glyphs⟩ := by
  induction h generalizing line with
  | done => rw [List.flatMap_nil, List.append_nil]; rfl
  | @number _ negative cs d ts ks hd hn _ ih =>
    obtain ⟨t, rfl, he⟩ := he
    obtain ⟨c, last, numeric⟩ := last_numeral hd
    have points := count_numeralLabels negative cs ks
    have numeral := replay_number hd he ha.1.symm (fun h => Option.some.inj (hn h)) (by omega)
    have ends : Ends (.number (ofDecimal negative d)) (line ++ (signChars negative ++ cs)) :=
      .append line (by rw [List.getLast?_append, last]; rfl) numeric
    have later := ih ha.2 ⟨_, rfl, ends⟩ (by
      rw [List.count_append, List.count_append, show (signChars negative).count '.' = 0 by cases negative <;> rfl]
      omega)
    rw [Editor.replay_append, numeral, later, List.flatMap_append, List.flatMap_append, glyphs_sign,
      glyphs_digits (Number.Decimal.isNumeric_of_ofChars? hd).2, List.append_assoc]
  | operator op _ ih =>
    obtain ⟨t, rfl, he⟩ := he
    have operand : ∀ other, t ≠ .operator other := by
      intro other eq
      subst eq
      cases ha.1
    refine replay_key (by cases op <;> decide) hp ?_ fun hp => ih ha.2 ⟨_, rfl, ?_⟩ hp
    · rw [Editor.pressLabel_operator, glyphs_operator]
      refine Editor.typeSymbol_append he.ne_error fun h => ?_
      rw [he.not_operator operand] at h
      cases h
    · rw [glyphs_operator]
      exact .append line rfl (beq_self_eq_true _)
  | leftParen _ ih =>
    obtain ⟨t, rfl, he⟩ := he
    refine replay_key (by decide) hp ?_ fun hp => ih ha.2 ⟨_, rfl, .append line rfl rfl⟩ hp
    exact Editor.typeSymbol_append he.ne_error fun _ => Or.inl rfl
  | rightParen _ ih =>
    obtain ⟨t, rfl, he⟩ := he
    refine replay_key (by decide) hp ?_ fun hp => ih ha.2 ⟨_, rfl, .append line rfl rfl⟩ hp
    exact Editor.typeSymbol_append he.ne_error fun _ => Or.inr rfl
  | call f _ ih =>
    obtain ⟨t, rfl, he⟩ := he
    have settled := he.settled ha.1.symm
    refine replay_key (by cases f <;> decide) hp ?_ fun hp => ih ha.2.2 ⟨_, rfl, ?_⟩ hp
    · rw [Editor.pressLabel_function, glyphs_function]
      exact Editor.insertFunction_append _ settled.ne_error settled.ne_zero
    · rw [glyphs_function]
      exact .append line (by rw [List.getLast?_append]; rfl) rfl

/-! ## The first keys -/

/-- Digits on a line that may be the lone zero: it gives way to them, or stands in front of the point, and
    what is read is the same. -/
theorem replay_on_zero {line cs : List Char} (he : line ≠ Number.errorChars) (hcs : ∀ c ∈ cs, isNumeric c = true)
    (hp : line.count '.' + cs.count '.' ≤ 1) :
    ∃ shown, (⟨line⟩ : Editor).replay (digitLabels cs) = ⟨shown⟩ ∧ shown.count '.' = line.count '.' + cs.count '.' ∧
      ∀ d, Number.Decimal.ofChars? (line ++ cs) = some d → Number.Decimal.ofChars? shown = some d := by
  induction cs generalizing line with
  | nil => exact ⟨line, rfl, rfl, fun d hd => by rwa [List.append_nil] at hd⟩
  | cons c cs ih =>
    have hc := hcs c List.mem_cons_self
    have htail : ∀ e ∈ cs, isNumeric e = true := fun e he => hcs e (List.mem_cons_of_mem _ he)
    have first : (⟨line⟩ : Editor).replay (digitLabels (c :: cs)) =
        (Editor.typeDigit c ⟨line⟩).replay (digitLabels cs) := by
      rw [← Editor.pressLabel_digit hc]
      rfl
    by_cases hz : line = Editor.zero ∧ c ≠ '.'
    · obtain ⟨rfl, hpoint⟩ := hz
      have digit := Number.Decimal.isDigit_of_isNumeric hc hpoint
      have alone : [c].count '.' = 0 := List.count_eq_zero.mpr (by simpa using hpoint.symm)
      rw [List.count_cons_of_ne hpoint, show Editor.zero.count '.' = 0 from rfl] at hp ⊢
      have shown_eq : Editor.typeDigit c ⟨Editor.zero⟩ = ⟨[c]⟩ := if_pos ⟨rfl, hpoint⟩
      obtain ⟨shown, typed, points, read⟩ :=
        ih (show [c] ≠ Number.errorChars from Editor.ne_error_of_numeric [] hc) htail (by omega)
      refine ⟨shown, by rw [first, shown_eq, typed], by omega, fun d hd => ?_⟩
      exact read d (Number.Decimal.ofChars?_of_zero_cons digit hd)
    · have point : c = '.' → '.' ∉ line := by
        intro eq
        subst eq
        rw [List.count_cons_self] at hp
        exact List.count_eq_zero.mp (by omega)
      have shown_eq : Editor.typeDigit c ⟨line⟩ = ⟨line ++ [c]⟩ :=
        Editor.typeDigit_append he (fun h => Decidable.of_not_not fun hc => hz ⟨h, hc⟩) point
      have points_eq : (line ++ [c]).count '.' + cs.count '.' = line.count '.' + (c :: cs).count '.' := by
        rw [← List.count_append, ← List.count_append, List.append_assoc]
        rfl
      obtain ⟨shown, typed, points, read⟩ := ih (Editor.ne_error_of_numeric line hc) htail (by omega)
      refine ⟨shown, by rw [first, shown_eq, typed], by omega, fun d hd => read d ?_⟩
      rwa [List.append_assoc]

end DeskCalc.Keypad
