/-
  DeskCalc.Proofs.Token.Lexeme — the tokens of a text, by a grammar.

  The grammar has two levels. A text is cut into pieces: longest runs of digits and
  points, longest runs of letters, and all other characters one by one. Of the pieces
  the single characters that are no symbols are dropped, and each other piece is a
  lexeme, with the token that it means. There is one exception: a minus sign directly
  before a run of digits and points, where no value can have ended, is one lexeme with
  the run. So every character that is not dropped is in one lexeme, in its place.

  Proved:
  - `exists_pieces`: every text can be cut into pieces.
  - `exists_lexes`: pieces can always be read as lexemes.
  - `scan_lexed`: the scanner finds the lexemes of a grammatical reading.
  - `chars_of_lexes`: lexemes are made of all the characters that are not dropped.
  - `ofText_iff_lexes`: the scanner and the grammar agree on every text.
-/

import DeskCalc.Proofs.Token.Scan
import Mathlib.Data.List.SplitBy

namespace DeskCalc.Token

open Number.Decimal (isNumeric)
open Text (isLetter)

/-! ## Pieces -/

/-- One character or more, all of one kind. -/
def AllOf (p : Char → Bool) (cs : List Char) : Prop := cs ≠ [] ∧ ∀ c ∈ cs, p c = true

/-- A run of digits and points, a run of letters, or another character by itself. -/
def IsPiece (cs : List Char) : Prop :=
  AllOf isNumeric cs ∨ AllOf isLetter cs ∨ ∃ c, cs = [c] ∧ isNumeric c = false ∧ isLetter c = false

/-- Neighbours that are not parts of one longer run. -/
def Longest (left right : List Char) : Prop :=
  ¬(AllOf isNumeric left ∧ AllOf isNumeric right) ∧ ¬(AllOf isLetter left ∧ AllOf isLetter right)

/-- A text cut into pieces, its runs being the longest ones. -/
structure Pieces (text : List Char) (pieces : List (List Char)) : Prop where
  joined : pieces.flatten = text
  kinds : ∀ piece ∈ pieces, IsPiece piece
  longest : pieces.IsChain Longest

/-! ## Lexemes -/

/-- Characters of a text, and the token that they are read as. -/
structure Lexeme where
  chars : List Char
  token : Token

/-- A numeral is a number, or unknown if it is no number's. -/
inductive ReadsNumeral (cs : List Char) : Token → Prop
  | number {v : Float} : Number.ofChars? cs = some v → ReadsNumeral cs (number v)
  | unknown : Number.ofChars? cs = none → ReadsNumeral cs (unknown (String.ofList cs))

/-- A word is the multiplication, a function, or unknown if it is neither. -/
inductive ReadsWord : List Char → Token → Prop
  | times : ReadsWord ['x'] (operator .times)
  | function (f : ScientificFunction) : ReadsWord f.name.toList (function f)
  | unknown {cs : List Char} : cs ≠ ['x'] → (∀ f : ScientificFunction, cs ≠ f.name.toList) →
      ReadsWord cs (unknown (String.ofList cs))

/-- The characters that are tokens by themselves. -/
def symbolTable : List (Char × Token) :=
  [('+', operator .plus), ('-', operator .minus), ('×', operator .times), ('/', operator .divide),
    ('^', operator .power), ('(', leftParen), (')', rightParen)]

/-- What a piece by itself means. -/
inductive Means : List Char → Token → Prop
  | numeral {cs : List Char} {t : Token} : AllOf isNumeric cs → ReadsNumeral cs t → Means cs t
  | word {cs : List Char} {t : Token} : AllOf isLetter cs → ReadsWord cs t → Means cs t
  | symbol {c : Char} {t : Token} : (c, t) ∈ symbolTable → Means [c] t

/-- No value can have ended at this token: there is none, or it opens a parenthesis or is an operator. -/
def NoValueEnds (previous : Option Token) : Prop :=
  previous = none ∨ previous = some leftParen ∨ ∃ op, previous = some (operator op)

/-- The piece is the sign of a numeral: a minus sign directly before a run, where no value can have ended. -/
def Signs (previous : Option Token) (piece : List Char) (behind : List (List Char)) : Prop :=
  piece = ['-'] ∧ NoValueEnds previous ∧ ∃ run ∈ behind.head?, AllOf isNumeric run

/-- `Lexes previous pieces lexemes`: behind the token `previous`, the pieces are read as the lexemes. -/
inductive Lexes : Option Token → List (List Char) → List Lexeme → Prop
  | nil {previous : Option Token} : Lexes previous [] []
  | dropped {previous : Option Token} {c : Char} {behind : List (List Char)} {lexemes : List Lexeme} :
      isIgnored c = true → Lexes previous behind lexemes → Lexes previous ([c] :: behind) lexemes
  | alone {previous : Option Token} {piece : List Char} {t : Token} {behind : List (List Char)}
      {lexemes : List Lexeme} : Means piece t → ¬Signs previous piece behind → Lexes (some t) behind lexemes →
      Lexes previous (piece :: behind) (⟨piece, t⟩ :: lexemes)
  | signed {previous : Option Token} {run : List Char} {t : Token} {behind : List (List Char)}
      {lexemes : List Lexeme} : NoValueEnds previous → AllOf isNumeric run → ReadsNumeral ('-' :: run) t →
      Lexes (some t) behind lexemes → Lexes previous (['-'] :: run :: behind) (⟨'-' :: run, t⟩ :: lexemes)

/-! ## Every text can be cut -/

/-- The two kinds of characters that make runs. -/
def MakesRuns (p : Char → Bool) : Prop := p = isNumeric ∨ p = isLetter

theorem runs_numeric : MakesRuns isNumeric := Or.inl rfl

theorem runs_letters : MakesRuns isLetter := Or.inr rfl

/-- A character is of one kind at most. -/
theorem kind_unique {p q : Char → Bool} (hp : MakesRuns p) (hq : MakesRuns q) {c : Char} (h : p c = true)
    (h' : q c = true) : p = q := by
  rcases hp with rfl | rfl <;> rcases hq with rfl | rfl
  · rfl
  · rw [isLetter_of_isNumeric h] at h'
    cases h'
  · rw [isNumeric_of_isLetter h] at h'
    cases h'
  · rfl

/-- Whether two neighbouring characters belong to one run. -/
def together (a b : Char) : Bool := (isNumeric a && isNumeric b) || (isLetter a && isLetter b)

section

variable {p : Char → Bool} (hp : MakesRuns p)

include hp

theorem together_of {a b : Char} (ha : p a = true) (hb : p b = true) : together a b = true := by
  rcases hp with rfl | rfl <;> simp [together, ha, hb]

theorem of_together {a b : Char} (h : together a b = true) (ha : p a = true) : p b = true := by
  simp only [together, Bool.or_eq_true, Bool.and_eq_true] at h
  rcases h with ⟨numeric, hb⟩ | ⟨letter, hb⟩
  · rw [kind_unique hp runs_numeric ha numeric, hb]
  · rw [kind_unique hp runs_letters ha letter, hb]

theorem allOf_of_chain {c : Char} {cs : List Char} (h : (c :: cs).IsChain (together · ·)) (hc : p c = true) :
    AllOf p (c :: cs) := by
  refine ⟨List.cons_ne_nil _ _, ?_⟩
  induction cs generalizing c with
  | nil => exact List.forall_mem_singleton.mpr hc
  | cons d cs ih =>
    obtain ⟨joined, rest⟩ := List.isChain_cons_cons.mp h
    exact List.forall_mem_cons.mpr ⟨hc, ih rest (of_together hp joined hc)⟩

theorem not_allOf_of_apart {left right : List Char}
    (h : ∃ hl hr, together (left.getLast hl) (right.head hr) = false) : ¬(AllOf p left ∧ AllOf p right) := by
  rintro ⟨allLeft, allRight⟩
  obtain ⟨hl, hr, apart⟩ := h
  rw [together_of hp (allLeft.2 _ (List.getLast_mem hl)) (allRight.2 _ (List.head_mem hr))] at apart
  cases apart

/-- A piece is a run if its first character is of a run. -/
theorem allOf_of_isPiece {c : Char} {cs : List Char} (h : IsPiece (c :: cs)) (hc : p c = true) : AllOf p (c :: cs) := by
  rcases h with numeric | letters | ⟨d, single, hn, hl⟩
  · rw [kind_unique hp runs_numeric hc (numeric.2 c List.mem_cons_self)]
    exact numeric
  · rw [kind_unique hp runs_letters hc (letters.2 c List.mem_cons_self)]
    exact letters
  · obtain ⟨rfl, rfl⟩ := List.cons.inj single
    rcases hp with rfl | rfl
    · rw [hn] at hc
      cases hc
    · rw [hl] at hc
      cases hc

/-- What stands behind a piece begins with a run only if the next piece is one. -/
theorem head_flatten {behind : List (List Char)} (kinds : ∀ piece ∈ behind, IsPiece piece)
    (h : ∀ piece ∈ behind.head?, ¬AllOf p piece) : ∀ c ∈ behind.flatten.head?, p c = false := by
  intro c hc
  rcases behind with _ | ⟨_ | ⟨d, ds⟩, rest⟩
  · cases hc
  · rcases kinds [] List.mem_cons_self with ⟨ne, -⟩ | ⟨ne, -⟩ | ⟨d, single, -⟩
    · exact absurd rfl ne
    · exact absurd rfl ne
    · cases single
  · obtain rfl : d = c := Option.some.inj hc
    by_cases hd : p d = true
    · exact absurd (allOf_of_isPiece hp (kinds _ List.mem_cons_self) hd) (h _ rfl)
    · simpa using hd

end

theorem isPiece_of_chain {cs : List Char} (hne : cs ≠ []) (h : cs.IsChain (together · ·)) : IsPiece cs := by
  obtain ⟨c, cs, rfl⟩ := List.exists_cons_of_ne_nil hne
  by_cases hn : isNumeric c = true
  · exact Or.inl (allOf_of_chain runs_numeric h hn)
  by_cases hl : isLetter c = true
  · exact Or.inr (Or.inl (allOf_of_chain runs_letters h hl))
  refine Or.inr (Or.inr ⟨c, ?_, by simpa using hn, by simpa using hl⟩)
  cases cs with
  | nil => rfl
  | cons d cs =>
    have joined := (List.isChain_cons_cons.mp h).1
    simp [together, hn, hl] at joined

theorem exists_pieces (text : List Char) : ∃ pieces, Pieces text pieces := by
  refine ⟨text.splitBy together, List.flatten_splitBy _ _, fun piece hp => ?_, ?_⟩
  · exact isPiece_of_chain (List.ne_nil_of_mem_splitBy hp) (List.isChain_of_mem_splitBy hp)
  · exact (List.isChain_getLast_head_splitBy together text).imp fun _ _ apart =>
      ⟨not_allOf_of_apart runs_numeric apart, not_allOf_of_apart runs_letters apart⟩

/-! ## Every piece can be read -/

theorem exists_readsNumeral (cs : List Char) : ∃ t, ReadsNumeral cs t := by
  cases h : Number.ofChars? cs with
  | some v => exact ⟨_, .number h⟩
  | none => exact ⟨_, .unknown h⟩

theorem exists_readsWord (cs : List Char) : ∃ t, ReadsWord cs t := by
  by_cases times : cs = ['x']
  · subst times
    exact ⟨_, .times⟩
  by_cases named : ∃ f : ScientificFunction, cs = f.name.toList
  · obtain ⟨f, rfl⟩ := named
    exact ⟨_, .function f⟩
  · exact ⟨_, .unknown times fun f eq => named ⟨f, eq⟩⟩

theorem exists_symbol {c : Char} (hn : isNumeric c = false) (hl : isLetter c = false) (hi : isIgnored c = false) :
    ∃ t, (c, t) ∈ symbolTable := by
  have listed : (symbolTable.map Prod.fst).contains c = true := by
    simp only [isIgnored, hn, hl, Bool.not_false, Bool.true_and, Bool.not_eq_false'] at hi
    exact hi
  obtain ⟨⟨d, t⟩, mem, rfl⟩ := List.mem_map.mp (List.contains_iff_mem.mp listed)
  exact ⟨t, mem⟩

theorem exists_means {piece : List Char} (h : IsPiece piece) :
    (∃ t, Means piece t) ∨ ∃ c, piece = [c] ∧ isIgnored c = true := by
  rcases h with numeric | letters | ⟨c, rfl, hn, hl⟩
  · obtain ⟨t, ht⟩ := exists_readsNumeral piece
    exact Or.inl ⟨t, .numeral numeric ht⟩
  · obtain ⟨t, ht⟩ := exists_readsWord piece
    exact Or.inl ⟨t, .word letters ht⟩
  · by_cases hi : isIgnored c = true
    · exact Or.inr ⟨c, rfl, hi⟩
    · obtain ⟨t, ht⟩ := exists_symbol hn hl (by simpa using hi)
      exact Or.inl ⟨t, .symbol ht⟩

theorem exists_lexes : ∀ (previous : Option Token) (pieces : List (List Char)), (∀ piece ∈ pieces, IsPiece piece) →
    ∃ lexemes, Lexes previous pieces lexemes
  | previous, [], _ => ⟨[], .nil⟩
  | previous, piece :: behind, kinds => by
    have kinds' := (List.forall_mem_cons.mp kinds).2
    by_cases hs : Signs previous piece behind
    · obtain ⟨rfl, starts, run, first, numeric⟩ := hs
      obtain ⟨behind, rfl⟩ := List.head?_eq_some_iff.mp first
      obtain ⟨t, ht⟩ := exists_readsNumeral ('-' :: run)
      obtain ⟨lexemes, read⟩ := exists_lexes (some t) behind (List.forall_mem_cons.mp kinds').2
      exact ⟨_, .signed starts numeric ht read⟩
    · rcases exists_means (List.forall_mem_cons.mp kinds).1 with ⟨t, ht⟩ | ⟨c, rfl, hi⟩
      · obtain ⟨lexemes, read⟩ := exists_lexes (some t) behind kinds'
        exact ⟨_, .alone ht hs read⟩
      · obtain ⟨lexemes, read⟩ := exists_lexes previous behind kinds'
        exact ⟨_, .dropped hi read⟩
  termination_by _ pieces => pieces.length

/-! ## The scanner finds the lexemes -/

theorem numeral_eq_of_reads {cs : List Char} {t : Token} (h : ReadsNumeral cs t) : numeral cs = t := by
  cases h with
  | number read => rw [numeral, read]
  | unknown unread => rw [numeral, unread]

theorem word_eq_of_reads {cs : List Char} {t : Token} (h : ReadsWord cs t) : word cs = t := by
  cases h with
  | times => rfl
  | function f => exact word_name f
  | unknown times named =>
    have unnamed : ScientificFunction.ofName? (String.ofList cs) = none := by
      refine List.find?_eq_none.mpr fun f _ same => named f ?_
      rw [beq_iff_eq.mp same, String.toList_ofList]
    rw [word, if_neg times, unnamed]

theorem symbol?_of_mem {c : Char} {t : Token} (h : (c, t) ∈ symbolTable) : symbol? c = some t ∧ c ≠ 'x' := by
  simp only [symbolTable, List.mem_cons, Prod.mk.injEq, List.not_mem_nil, or_false] at h
  rcases h with ⟨rfl, rfl⟩ | ⟨rfl, rfl⟩ | ⟨rfl, rfl⟩ | ⟨rfl, rfl⟩ | ⟨rfl, rfl⟩ | ⟨rfl, rfl⟩ | ⟨rfl, rfl⟩
  all_goals exact ⟨rfl, by decide⟩

theorem takesSign_iff (previous : Option Token) : takesSign previous = true ↔ NoValueEnds previous := by
  rcases previous with _ | (_ | _ | _ | _ | _ | _) <;> simp [takesSign, NoValueEnds]

theorem not_allOf_head {p : Char → Bool} {piece : List Char} {behind : List (List Char)}
    (longest : (piece :: behind).IsChain Longest) (hp : MakesRuns p) (h : AllOf p piece) :
    ∀ next ∈ behind.head?, ¬AllOf p next := by
  intro next first all
  obtain ⟨numeric, letters⟩ := (List.isChain_cons.mp longest).1 next first
  rcases hp with rfl | rfl
  · exact numeric ⟨h, all⟩
  · exact letters ⟨h, all⟩

/-- Where no more of the run stands behind the piece, the text behind it does not continue the run. -/
theorem stop_behind {p : Char → Bool} {piece : List Char} {behind : List (List Char)} (hp : MakesRuns p)
    (kinds : ∀ next ∈ behind, IsPiece next) (longest : (piece :: behind).IsChain Longest) (h : AllOf p piece) :
    ∀ c ∈ behind.flatten.head?, p c = false :=
  head_flatten hp kinds (not_allOf_head longest hp h)

/-- A piece that is no sign is read by itself. -/
theorem scan_alone {previous : Option Token} {piece : List Char} {t : Token} {behind : List (List Char)}
    (kinds : ∀ next ∈ behind, IsPiece next) (longest : (piece :: behind).IsChain Longest) (ht : Means piece t)
    (hs : ¬Signs previous piece behind) :
    scan previous (piece ++ behind.flatten) = t :: scan (some t) behind.flatten := by
  cases ht with
  | numeral numeric read =>
    rw [scan_numeral previous numeric.1 numeric.2 (stop_behind runs_numeric kinds longest numeric),
      numeral_eq_of_reads read]
  | word letters read =>
    rw [scan_word previous letters.1 letters.2 (stop_behind runs_letters kinds longest letters), word_eq_of_reads read]
  | symbol mem =>
    obtain ⟨single, hx⟩ := symbol?_of_mem mem
    refine scan_symbol single hx fun minus => ?_
    subst minus
    by_cases starts : takesSign previous = true
    · refine Or.inr (head_flatten runs_numeric kinds fun run first numeric => hs ?_)
      exact ⟨rfl, (takesSign_iff previous).mp starts, run, first, numeric⟩
    · exact Or.inl (by simpa using starts)

/-- The induction is on the reading, and the pieces that are left stay pieces of the text that is left. -/
theorem scan_lexed {previous : Option Token} {pieces : List (List Char)} {lexemes : List Lexeme}
    (h : Lexes previous pieces lexemes) (kinds : ∀ piece ∈ pieces, IsPiece piece) (longest : pieces.IsChain Longest) :
    scan previous pieces.flatten = lexemes.map Lexeme.token := by
  induction h with
  | nil => rw [List.flatten_nil, scan, List.map_nil]
  | dropped ignored read ih =>
    rw [List.flatten_cons, List.singleton_append, scan_ignored _ _ ignored]
    exact ih (List.forall_mem_cons.mp kinds).2 (List.isChain_cons.mp longest).2
  | alone means sign read ih =>
    have kinds' := (List.forall_mem_cons.mp kinds).2
    rw [List.flatten_cons, scan_alone kinds' longest means sign, List.map_cons]
    exact congrArg _ (ih kinds' (List.isChain_cons.mp longest).2)
  | signed starts numeric number read ih =>
    have kinds' := (List.forall_mem_cons.mp (List.forall_mem_cons.mp kinds).2).2
    have longest' := (List.isChain_cons.mp longest).2
    rw [List.flatten_cons, List.flatten_cons, List.singleton_append, ← List.cons_append,
      scan_signed ((takesSign_iff _).mpr starts) numeric.1 numeric.2 (stop_behind runs_numeric kinds' longest' numeric),
      numeral_eq_of_reads number, List.map_cons]
    exact congrArg _ (ih kinds' (List.isChain_cons.mp longest').2)

/-! ## No character is lost -/

theorem not_isIgnored_of_allOf {p : Char → Bool} (hp : MakesRuns p) {cs : List Char} (h : AllOf p cs) :
    ∀ c ∈ cs, isIgnored c = false := by
  intro c hc
  rcases hp with rfl | rfl <;> simp [isIgnored, h.2 c hc]

theorem not_isIgnored_of_means {piece : List Char} {t : Token} (h : Means piece t) :
    ∀ c ∈ piece, isIgnored c = false := by
  cases h with
  | numeral numeric read => exact not_isIgnored_of_allOf runs_numeric numeric
  | word letters read => exact not_isIgnored_of_allOf runs_letters letters
  | symbol mem => exact List.forall_mem_singleton.mpr (isIgnored_of_symbol? (symbol?_of_mem mem).1)

theorem filter_kept {cs : List Char} (h : ∀ c ∈ cs, isIgnored c = false) : cs.filter (!isIgnored ·) = cs :=
  List.filter_eq_self.mpr fun c hc => by rw [h c hc, Bool.not_false]

theorem chars_of_lexes {previous : Option Token} {pieces : List (List Char)} {lexemes : List Lexeme}
    (h : Lexes previous pieces lexemes) :
    lexemes.flatMap Lexeme.chars = pieces.flatten.filter (!isIgnored ·) := by
  induction h with
  | nil => rfl
  | dropped ignored read ih =>
    rw [List.flatten_cons, List.filter_append, ih, List.filter_singleton, ignored]
    rfl
  | alone means sign read ih =>
    rw [List.flatMap_cons, ih, List.flatten_cons, List.filter_append, filter_kept (not_isIgnored_of_means means)]
  | @signed _ run _ _ _ starts numeric number read ih =>
    have kept : ∀ c ∈ '-' :: run, isIgnored c = false :=
      List.forall_mem_cons.mpr ⟨by decide, not_isIgnored_of_allOf runs_numeric numeric⟩
    rw [List.flatMap_cons, ih, List.flatten_cons, List.flatten_cons, List.singleton_append, ← List.cons_append,
      List.filter_append, filter_kept kept]

/-! ## Texts -/

/--
The tokens of a text are those of its lexemes, of which every text has some, and the
lexemes are made of the characters of the text, in order and without the ignored ones.
-/
theorem ofText_iff_lexes (text : String) (ts : List Token) :
    ofText text = ts ↔ ∃ pieces lexemes, Pieces text.toList pieces ∧ Lexes none pieces lexemes ∧
      lexemes.map Lexeme.token = ts ∧ lexemes.flatMap Lexeme.chars = text.toList.filter (!isIgnored ·) := by
  constructor
  · rintro rfl
    obtain ⟨pieces, cut⟩ := exists_pieces text.toList
    obtain ⟨lexemes, read⟩ := exists_lexes none pieces cut.kinds
    refine ⟨pieces, lexemes, cut, read, ?_, ?_⟩
    · rw [ofText, ← cut.joined, scan_lexed read cut.kinds cut.longest]
    · rw [← cut.joined, chars_of_lexes read]
  · rintro ⟨pieces, lexemes, cut, read, rfl, -⟩
    rw [ofText, ← cut.joined, scan_lexed read cut.kinds cut.longest]

end DeskCalc.Token
