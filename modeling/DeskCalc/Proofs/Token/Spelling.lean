/-
  DeskCalc.Proofs.Token.Spelling — the ways of writing tokens as a text.

  A number is written as a numeral, with its sign glued in front, but not directly
  behind the name of a function. A multiplication has two signs, one of them a letter.
  Ignored characters may stand anywhere between tokens, and they have to where two
  words would run into one.

  Proved:
  - `scan_spelled`: a text that spells tokens in which operands and operators take
    turns is scanned as these tokens, so every minus sign is read as it was meant.
-/

import DeskCalc.Proofs.Grammar
import DeskCalc.Proofs.Number.ReadBack
import DeskCalc.Proofs.Token.Scan

namespace DeskCalc.Token

open Grammar (wantsOperand beginsOperand Alternates)
open Number (ofDecimal signChars)
open Number.Decimal (isNumeric)
open Text (isLetter)

/-! ## Numerals -/

theorem numeral_signChars {cs : List Char} {d : Number.Decimal} (h : Number.Decimal.ofChars? cs = some d)
    (negative : Bool) : numeral (signChars negative ++ cs) = number (ofDecimal negative d) := by
  rw [numeral, Number.ofChars?_signChars h negative]

/-- A numeral is one token, and its sign belongs to it where a sign can be taken. -/
theorem scan_signChars {cs rest : List Char} {d : Number.Decimal} {previous : Option Token}
    (h : Number.Decimal.ofChars? cs = some d) {negative : Bool} (hp : negative = true → takesSign previous = true)
    (hrest : ∀ c ∈ rest.head?, isNumeric c = false) :
    scan previous (signChars negative ++ cs ++ rest) =
      number (ofDecimal negative d) :: scan (some (number (ofDecimal negative d))) rest := by
  obtain ⟨hne, hcs⟩ := Number.Decimal.isNumeric_of_ofChars? h
  have token := numeral_signChars h negative
  cases negative with
  | true =>
    have first := scan_signed (hp rfl) hne hcs hrest
    rwa [show '-' :: cs = signChars true ++ cs from rfl, token] at first
  | false =>
    have first := scan_numeral previous hne hcs hrest
    rwa [show cs = signChars false ++ cs from rfl, token] at first

/-- A text that is a numeral and nothing else is the one token of what it is read as. -/
theorem scan_signed_numeral {cs : List Char} {d : Number.Decimal} {negative : Bool} {v : Float}
    {previous : Option Token} (h : Number.Decimal.ofChars? cs = some d)
    (hv : Number.ofChars? (signChars negative ++ cs) = some v) (hp : takesSign previous = true) :
    scan previous (signChars negative ++ cs) = [number v] := by
  have nothing : ∀ c ∈ ([] : List Char).head?, isNumeric c = false := by simp
  have scanned := scan_signChars h (fun _ : negative = true => hp) nothing
  rw [Number.ofChars?_signChars h] at hv
  rwa [List.append_nil, scan, Option.some.inj hv] at scanned

/-! ## Spellings -/

/-- One way of writing a token behind `previous`. -/
inductive Writes (previous : Option Token) : Token → List Char → Prop
  | numeral (negative : Bool) {cs : List Char} {d : Number.Decimal} : Number.Decimal.ofChars? cs = some d →
      (negative = true → ∀ f, previous ≠ some (function f)) →
      Writes previous (number (ofDecimal negative d)) (signChars negative ++ cs)
  | operator (op : Operator) : Writes previous (operator op) [op.symbol]
  | cross : Writes previous (operator .times) ['×']
  | function (f : ScientificFunction) : Writes previous (function f) f.name.toList
  | leftParen : Writes previous leftParen ['(']
  | rightParen : Writes previous rightParen [')']

/-- A text of letters: the multiplication `x` or the name of a function. -/
def IsWord (cs : List Char) : Prop := ∀ c ∈ cs, isLetter c = true

/-- `Spells previous ts cs`: the text `cs`, behind `previous`, is a way of writing the tokens `ts`. A word
    is not followed by a letter at once: before another word there has to be an ignored character. -/
inductive Spells : Option Token → List Token → List Char → Prop
  | nil {previous : Option Token} : Spells previous [] []
  | ignored {previous : Option Token} {ts : List Token} {c : Char} {cs : List Char} :
      isIgnored c = true → Spells previous ts cs → Spells previous ts (c :: cs)
  | token {previous : Option Token} {t : Token} {ts : List Token} {cs rest : List Char} : Writes previous t cs →
      (IsWord cs → ∀ c ∈ rest.head?, isLetter c = false) → Spells (some t) ts rest →
      Spells previous (t :: ts) (cs ++ rest)

theorem not_isWord_numeral {cs : List Char} {d : Number.Decimal} (h : Number.Decimal.ofChars? cs = some d)
    (negative : Bool) : ¬IsWord (signChars negative ++ cs) := by
  obtain ⟨hne, hcs⟩ := Number.Decimal.isNumeric_of_ofChars? h
  obtain ⟨c, cs, rfl⟩ := List.exists_cons_of_ne_nil hne
  intro word
  have numeric := hcs c List.mem_cons_self
  rw [isNumeric_of_isLetter (word c (List.mem_append_right _ List.mem_cons_self))] at numeric
  cases numeric

/-- Anything may follow a numeral, also a word. -/
theorem Spells.numeral {previous : Option Token} {ts : List Token} {cs rest : List Char} {d : Number.Decimal}
    (negative : Bool) (h : Number.Decimal.ofChars? cs = some d)
    (hf : negative = true → ∀ f, previous ≠ some (function f))
    (hs : Spells (some (number (ofDecimal negative d))) ts rest) :
    Spells previous (number (ofDecimal negative d) :: ts) (signChars negative ++ cs ++ rest) :=
  .token (.numeral negative h hf) (fun word => absurd word (not_isWord_numeral h negative)) hs

/-! ## Scanning a spelling -/

theorem isWord_times : IsWord ['x'] := List.all_eq_true.mp (by decide)

theorem isWord_name (f : ScientificFunction) : IsWord f.name.toList :=
  List.all_eq_true.mp (by cases f <;> decide)

theorem name_ne_nil (f : ScientificFunction) : f.name.toList ≠ [] := by cases f <;> decide

theorem symbol?_operator {op : Operator} (h : op ≠ .times) : symbol? op.symbol = some (operator op) := by
  cases op with
  | times => exact absurd rfl h
  | _ => rfl

/-- What does not begin an operand is a symbol or a word. -/
theorem head_of_writes {previous : Option Token} {t : Token} {cs : List Char} (h : Writes previous t cs)
    (hb : beginsOperand t = false) : ∃ c rest, cs = c :: rest ∧ isNumeric c = false := by
  cases h with
  | operator op => exact ⟨_, _, rfl, by cases op <;> decide⟩
  | cross => exact ⟨_, _, rfl, by decide⟩
  | rightParen => exact ⟨_, _, rfl, by decide⟩
  | _ => cases hb

/-- No numeral goes on behind an operand. -/
theorem head_of_spells {previous : Option Token} {ts : List Token} {cs : List Char} (h : Spells previous ts cs)
    (ha : Alternates previous ts) (hp : wantsOperand previous = false) : ∀ c ∈ cs.head?, isNumeric c = false := by
  intro c hc
  cases h with
  | nil => cases hc
  | ignored hi _ =>
    cases hc
    exact isNumeric_of_isIgnored hi
  | token hw _ _ =>
    obtain ⟨d, ds, rfl, hd⟩ := head_of_writes hw (ha.1.trans hp)
    cases hc
    exact hd

theorem takesSign_of_wantsOperand {previous : Option Token} (h : wantsOperand previous = true)
    (hf : ∀ f, previous ≠ some (function f)) : takesSign previous = true := by
  rcases previous with _ | ⟨v | op | f | _ | _ | text⟩
  · rfl
  · cases h
  · rfl
  · exact absurd rfl (hf f)
  · rfl
  · cases h
  · cases h

theorem takesSign_of_not_wantsOperand {previous : Option Token} (h : wantsOperand previous = false) :
    takesSign previous = false := by
  rcases previous with _ | ⟨v | op | f | _ | _ | text⟩
  · cases h
  · rfl
  · cases h
  · cases h
  · cases h
  · rfl
  · rfl

/-- A written token is scanned as itself, before what cannot continue it. -/
theorem scan_written {previous : Option Token} {t : Token} {cs rest : List Char} (h : Writes previous t cs)
    (ha : beginsOperand t = wantsOperand previous)
    (hn : wantsOperand (some t) = false → ∀ c ∈ rest.head?, isNumeric c = false)
    (hl : IsWord cs → ∀ c ∈ rest.head?, isLetter c = false) :
    scan previous (cs ++ rest) = t :: scan (some t) rest := by
  cases h with
  | numeral negative hd hf =>
    exact scan_signChars hd (fun h => takesSign_of_wantsOperand ha.symm (hf h)) (hn rfl)
  | operator op =>
    by_cases ht : op = .times
    · subst ht
      exact scan_word previous (show ['x'] ≠ [] by simp) isWord_times (hl isWord_times)
    · have hx : op.symbol ≠ 'x' := by
        cases op with
        | times => exact absurd rfl ht
        | _ => decide
      exact scan_symbol (symbol?_operator ht) hx fun _ => Or.inl (takesSign_of_not_wantsOperand ha.symm)
  | cross => exact scan_symbol rfl (by decide) (fun h => absurd h (by decide))
  | function f =>
    have first := scan_word previous (name_ne_nil f) (isWord_name f) (hl (isWord_name f))
    rwa [word_name] at first
  | leftParen => exact scan_symbol rfl (by decide) (fun h => absurd h (by decide))
  | rightParen => exact scan_symbol rfl (by decide) (fun h => absurd h (by decide))

/-- A text is scanned as the tokens that it spells. -/
theorem scan_spelled {previous : Option Token} {ts : List Token} {cs : List Char} (h : Spells previous ts cs)
    (ha : Alternates previous ts) : scan previous cs = ts := by
  induction h with
  | nil => rw [scan]
  | ignored hi _ ih => rw [scan_ignored _ _ hi, ih ha]
  | token hw hl hs ih => rw [scan_written hw ha.1 (head_of_spells hs ha.2) hl, ih ha.2]

end DeskCalc.Token
