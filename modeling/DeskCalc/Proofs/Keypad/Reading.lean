/-
  DeskCalc.Proofs.Keypad.Reading — how the line of a typed expression is read.

  The text is scanned as the tokens that were typed but for one pair of neighbours:
  the key of the multiplication types a letter, and a function key behind it types
  more of them, so the two are read as one unknown word (`glued`). An expression
  without such a pair is computed as it was typed. With one it is an error, whatever
  its value.

  Proved:
  - `scan_typed`: what the characters of typed tokens are scanned as.
  - `scan_line`: what the line of an expression is scanned as, its first number included.
  - `typed_display`: when the value of a typed expression is shown, and when an error.
-/

import DeskCalc.Proofs.Evaluation.Text
import DeskCalc.Proofs.Keypad.Typing

namespace DeskCalc.Keypad

open Grammar (Tree Derives Alternates wantsOperand)
open Number.Decimal (isNumeric)
open Token (scan IsWord)

/-! ## Words that run together -/

/-- Whether a multiplication stands directly before a function. -/
def timesCall : List Token → Bool
  | [] => false
  | .operator .times :: .function _ :: _ => true
  | _ :: ts => timesCall ts

/-- The tokens as they are read from the line: the letter of a multiplication and the name of a function
    directly behind it are one word. -/
def glued : List Token → List Token
  | [] => []
  | .operator .times :: .function f :: ts => .unknown (String.ofList ('x' :: f.name.toList)) :: glued ts
  | t :: ts => t :: glued ts

theorem glued_cons {t : Token} {ts : List Token} (h : ∀ f us, t = .operator .times → ts ≠ .function f :: us) :
    glued (t :: ts) = t :: glued ts := by
  rw [glued]
  exact fun f us ht hts => h f us ht hts

theorem glued_eq {ts : List Token} (h : timesCall ts = false) : glued ts = ts := by
  fun_induction glued ts with
  | case1 => rfl
  | case2 f ts ih => cases h
  | case3 t ts hne ih =>
    rw [timesCall] at h
    · rw [ih h]
    · exact hne

theorem unknown_mem_glued {ts : List Token} (h : timesCall ts = true) : ∃ word, .unknown word ∈ glued ts := by
  fun_induction glued ts with
  | case1 => cases h
  | case2 f ts ih => exact ⟨_, List.mem_cons_self⟩
  | case3 t ts hne ih =>
    rw [timesCall] at h
    · obtain ⟨word, hw⟩ := ih h
      exact ⟨word, List.mem_cons_of_mem _ hw⟩
    · exact hne

/-! ## Scanning the line -/

theorem word_times_name (f : ScientificFunction) :
    Token.word ('x' :: f.name.toList) = .unknown (String.ofList ('x' :: f.name.toList)) := by
  cases f <;> decide +kernel

/-- Before the parenthesis of a call there is one word. -/
theorem scan_word_paren (previous : Option Token) {cs : List Char} (hne : cs ≠ []) (h : IsWord cs) (rest : List Char) :
    scan previous (cs ++ '(' :: rest) = Token.word cs :: .leftParen :: scan (some .leftParen) rest := by
  have paren := Span.stop_cons (show Text.isLetter '(' = false by decide) rest
  rw [Token.scan_word previous hne h paren, Token.scan_symbol rfl (by decide) fun h => absurd h (by decide)]

theorem scan_call (previous : Option Token) (f : ScientificFunction) (rest : List Char) :
    scan previous (glyphs f.name ++ rest) = .function f :: .leftParen :: scan (some .leftParen) rest := by
  rw [glyphs_function, List.append_assoc, ← Token.word_name]
  exact scan_word_paren previous (Token.name_ne_nil f) (Token.isWord_name f) rest

/-- The letter of a multiplication and the name of a function run into one unknown word. -/
theorem scan_times_call (previous : Option Token) (f : ScientificFunction) (rest : List Char) :
    scan previous ('x' :: (glyphs f.name ++ rest)) =
      .unknown (String.ofList ('x' :: f.name.toList)) :: .leftParen :: scan (some .leftParen) rest := by
  have word : IsWord ('x' :: f.name.toList) := by
    intro c hc
    rcases List.mem_cons.mp hc with rfl | hc
    · decide
    · exact Token.isWord_name f c hc
  rw [glyphs_function, List.append_assoc, ← word_times_name]
  exact scan_word_paren previous (by simp) word rest

/-- No numeral goes on behind an operand. -/
theorem isNumeric_head {previous : Option Token} {ts : List Token} {ks : List String} (h : Typed previous ts ks)
    (ha : Alternates previous ts) (hp : wantsOperand previous = false) :
    ∀ c ∈ (ks.flatMap glyphs).head?, isNumeric c = false := by
  intro c hc
  cases h with
  | done => cases hc
  | operator op _ =>
    rw [List.flatMap_cons, glyphs_operator] at hc
    cases hc
    cases op <;> decide
  | rightParen _ =>
    cases hc
    decide
  | number => cases ha.1.trans hp
  | leftParen => cases ha.1.trans hp
  | call => cases ha.1.trans hp

/-- No word goes on behind an operator, unless a function is called there. -/
theorem isLetter_head {previous : Option Token} {ts : List Token} {ks : List String} (h : Typed previous ts ks)
    (ha : Alternates previous ts) (hp : wantsOperand previous = true) (hf : ∀ f us, ts ≠ .function f :: us) :
    ∀ c ∈ (ks.flatMap glyphs).head?, Text.isLetter c = false := by
  intro c hc
  cases h with
  | done => cases hc
  | number negative hd _ _ =>
    obtain ⟨hne, hcs⟩ := Number.Decimal.isNumeric_of_ofChars? hd
    obtain ⟨first, rest, rfl⟩ := List.exists_cons_of_ne_nil hne
    rw [List.flatMap_append, List.flatMap_append, glyphs_sign, glyphs_digits hcs] at hc
    cases negative with
    | true =>
      cases hc
      decide
    | false =>
      cases hc
      exact Token.isLetter_of_isNumeric (hcs _ List.mem_cons_self)
  | leftParen _ =>
    cases hc
    decide
  | operator => cases ha.1.trans hp
  | rightParen => cases ha.1.trans hp
  | call f => exact absurd rfl (hf f _)

/-- The text of an operator in front of typed tokens. -/
theorem scan_operator {previous : Option Token} {op : Operator} {ts : List Token} {ks : List String}
    (h : Typed (some (.operator op)) ts ks) (ha : Alternates previous (.operator op :: ts))
    (behind : scan (some (.operator op)) (ks.flatMap glyphs) = glued ts) :
    scan previous (op.symbol :: ks.flatMap glyphs) = glued (.operator op :: ts) := by
  by_cases hf : op = .times ∧ ∃ f us, ts = .function f :: us
  · obtain ⟨rfl, f, us, rfl⟩ := hf
    cases h with
    | call f h =>
      -- the name is scanned in another place now, but behind the parenthesis all is as before
      rw [List.flatMap_cons, scan_call] at behind
      injection behind with _ behind
      injection behind with _ behind
      rw [List.flatMap_cons]
      exact (scan_times_call previous f _).trans (by rw [behind]; rfl)
  · have apart : ∀ f us, (.operator op : Token) = .operator .times → ts ≠ .function f :: us := by
      intro f us ht hts
      injection ht with ht
      exact hf ⟨ht, f, us, hts⟩
    have unread : IsWord [op.symbol] → ∀ c ∈ (ks.flatMap glyphs).head?, Text.isLetter c = false := by
      intro word
      refine isLetter_head h ha.2 rfl fun f us => apart f us ?_
      cases op with
      | times => rfl
      | _ => cases word _ List.mem_cons_self
    rw [glued_cons apart, ← behind]
    exact Token.scan_written (.operator op) ha.1 (fun hw => by cases hw) unread

/-- The text of typed tokens is scanned as the tokens, each pair that runs into one word as that word. -/
theorem scan_typed {previous : Option Token} {ts : List Token} {ks : List String} (h : Typed previous ts ks)
    (ha : Alternates previous ts) : scan previous (ks.flatMap glyphs) = glued ts := by
  induction h with
  | done => rw [List.flatMap_nil, scan]; rfl
  | @number previous negative cs d ts ks hd hn h ih =>
    have sign : negative = true → ∀ f, previous ≠ some (.function f) := by
      intro hneg f
      rw [hn hneg]
      simp
    have token := Token.scan_written (.numeral negative hd sign) ha.1 (fun _ => isNumeric_head h ha.2 rfl)
      (fun word => absurd word (Token.not_isWord_numeral hd negative))
    have numeric := (Number.Decimal.isNumeric_of_ofChars? hd).2
    rw [List.flatMap_append, List.flatMap_append, glyphs_sign, glyphs_digits numeric, token, ih ha.2]
    rfl
  | operator op h ih =>
    rw [List.flatMap_cons, glyphs_operator]
    exact scan_operator h ha (ih ha.2)
  | leftParen _ ih =>
    rw [List.flatMap_cons, glued_cons (by simp), ← ih ha.2]
    exact Token.scan_written .leftParen ha.1 (fun hw => by cases hw) fun word => by cases word _ List.mem_cons_self
  | rightParen h ih =>
    rw [List.flatMap_cons, glued_cons (by simp), ← ih ha.2]
    exact Token.scan_written .rightParen ha.1 (fun _ => isNumeric_head h ha.2 rfl)
      fun word => by cases word _ List.mem_cons_self
  | call f h ih =>
    rw [List.flatMap_cons, scan_call, ih ha.2.2]
    rfl

/-! ## From a fresh editor -/

/-- The line of an expression that is typed on a fresh editor is scanned as its tokens, glued where they run
    into one word. -/
theorem scan_line {ts : List Token} {ks : List String} (h : Typed none ts ks) (ha : Alternates none ts) (hne : ts ≠ [])
    (hl : ks.head? ≠ some "(") (hp : ks.count "." ≤ 1) : scan none (Editor.start.replay ks).line = glued ts := by
  cases h with
  | done => exact absurd rfl hne
  | @number _ negative cs d ts ks hd hn h =>
    cases negative with
    | true => cases hn rfl
    | false =>
      have points := count_numeralLabels false cs ks
      have numeric := (Number.Decimal.isNumeric_of_ofChars? hd).2
      have none_yet : Editor.zero.count '.' = 0 := rfl
      obtain ⟨shown, typed, points', read⟩ := replay_on_zero (show Editor.zero ≠ Number.errorChars by decide) numeric
        (by omega)
      have shown_read := read d (Number.Decimal.ofChars?_zero_cons hd)
      obtain ⟨c, last, hc⟩ := last_numeral shown_read
      have later := replay_typed h ha.2 ⟨_, rfl, c, last, hc⟩ (by omega)
      rw [Editor.replay_append, show Editor.start.replay (signLabels false ++ digitLabels cs) = _ from typed, later]
      have first := Token.scan_written (.numeral false shown_read (by simp)) ha.1 (fun _ => isNumeric_head h ha.2 rfl)
        (fun word => absurd word (Token.not_isWord_numeral shown_read false))
      exact first.trans (by rw [scan_typed h ha.2]; rfl)
  | operator => cases ha.1
  | rightParen => cases ha.1
  | leftParen => exact absurd rfl hl
  | @call _ f ts ks h =>
    have typed : Editor.start.replay (f.name :: ks) = (⟨glyphs f.name⟩ : Editor).replay ks := by
      rw [glyphs_function]
      show (Editor.start.pressLabel f.name).replay ks = _
      rw [Editor.pressLabel_function]
      rfl
    have points : (glyphs f.name).count '.' + ks.count "." ≤ 1 := by
      have label : f.name ≠ "." := by cases f <;> decide
      have name : (glyphs f.name).count '.' = 0 := by cases f <;> decide
      rw [List.count_cons_of_ne label] at hp
      omega
    have ends : Ends .leftParen (glyphs f.name) := by
      rw [glyphs_function]
      exact .append _ rfl rfl
    rw [typed, replay_typed h ha.2.2 ⟨_, rfl, ends⟩ points]
    exact scan_typed (.call f h) ha

theorem display_equals {ts : List Token} {t : Tree} {e : Editor} (hd : Derives .expression ts t)
    (he : scan none e.line = glued ts) :
    e.equals.display = if timesCall ts then "Error" else Number.resultText t.value := by
  have text : Token.ofText e.display = glued ts := by rw [Token.ofText, Editor.display, String.toList_ofList, he]
  cases hc : timesCall ts with
  | true =>
    obtain ⟨word, hw⟩ := unknown_mem_glued hc
    rw [← text] at hw
    rw [Editor.equals_of_ne_ok (evaluate_unknown hw)]
    rfl
  | false =>
    rw [glued_eq hc] at text
    rw [Editor.equals_of_ok (evaluate_derived hd text)]
    rfl

/-- A typed expression shows the value of its tree unless a multiplication stands directly before a function.
    Then it shows an error, which is right only for a value that is not finite. -/
theorem typed_display {ts : List Token} {t : Tree} {ks : List String} (hd : Derives .expression ts t)
    (hk : Typed none ts ks) (hl : ks.head? ≠ some "(") (hp : ks.count "." ≤ 1) :
    let shown := (Editor.start.replay (ks ++ ["="])).display
    (shown = Number.resultText t.value ↔ timesCall ts = false ∨ Number.Binary64.isFinite t.value = false) ∧
      (shown = "Error" ↔ timesCall ts = true ∨ Number.Binary64.isFinite t.value = false) := by
  intro shown
  have scanned := scan_line hk (Grammar.derives_alternates hd) (Grammar.derives_ne_nil hd) hl hp
  have shown_eq : shown = if timesCall ts then "Error" else Number.resultText t.value := by
    show (Editor.start.replay (ks ++ ["="])).display = _
    rw [Editor.replay_append]
    exact display_equals hd scanned
  rw [shown_eq, ← Number.resultText_eq_error_iff]
  cases timesCall ts with
  | true => simp [eq_comm]
  | false => simp

/-- A product of a called root and a negative number in parentheses. -/
theorem typed_display_product :
    let sixteen := Number.ofDecimal false ⟨16, 0⟩
    let half := Number.ofDecimal true ⟨5, 1⟩
    let ts : List Token := [.function .sqrt, .leftParen, .number sixteen, .rightParen, .operator .times,
      .leftParen, .number half, .rightParen]
    let t := Tree.binary .times (.call .sqrt (.number sixteen)) (.number half)
    let ks := ["sqrt", "1", "6", ")", "×", "(", "−", ".", "5", ")"]
    Derives .expression ts t ∧ Typed none ts ks ∧ ks.head? ≠ some "(" ∧ ks.count "." ≤ 1 ∧
      let shown := (Editor.start.replay (ks ++ ["="])).display
      (shown = Number.resultText t.value ↔ timesCall ts = false ∨ Number.Binary64.isFinite t.value = false) ∧
        (shown = "Error" ↔ timesCall ts = true ∨ Number.Binary64.isFinite t.value = false) := by
  intro sixteen half ts t ks
  have argument (v : Float) : Derives .atom [.leftParen, .number v, .rightParen] (.number v) :=
    .parens (.single (.single (.single (.number v))))
  have derived : Derives .expression ts t :=
    .single (.binary .times (.single (.single (.call .sqrt (argument sixteen)))) (.single (argument half)))
  have typed : Typed none ts ks :=
    .call .sqrt <| .number false (show Number.Decimal.ofChars? ['1', '6'] = some ⟨16, 0⟩ from rfl) (by simp) <|
      .rightParen <| .operator .times <| .leftParen <|
      .number true (show Number.Decimal.ofChars? ['.', '5'] = some ⟨5, 1⟩ from rfl) (fun _ => rfl) <| .rightParen .done
  exact ⟨derived, typed, by decide, by decide, typed_display derived typed (by decide) (by decide)⟩

/-- Twice the root of 16 is typed as one unknown word, and shown as an error in place of 8. -/
theorem times_root_display :
    let two := Number.ofDecimal false ⟨2, 0⟩
    let sixteen := Number.ofDecimal false ⟨16, 0⟩
    let ts : List Token := [.number two, .operator .times, .function .sqrt, .leftParen, .number sixteen, .rightParen]
    let t := Tree.binary .times (.number two) (.call .sqrt (.number sixteen))
    let ks := ["2", "×", "sqrt", "1", "6", ")"]
    Derives .expression ts t ∧ Typed none ts ks ∧ ks.head? ≠ some "(" ∧ ks.count "." ≤ 1 ∧
      Number.resultText t.value = "8" ∧ (Editor.start.replay (ks ++ ["="])).display = "Error" := by
  intro two sixteen ts t ks
  have root : Derives .atom _ (.call .sqrt (.number sixteen)) :=
    .call .sqrt (.parens (.single (.single (.single (.number sixteen)))))
  have derived : Derives .expression ts t :=
    .single (.binary .times (.single (.single (.number two))) (.single root))
  have typed : Typed none ts ks :=
    .number false (show Number.Decimal.ofChars? ['2'] = some ⟨2, 0⟩ from rfl) (by simp) <| .operator .times <|
      .call .sqrt <| .number false (show Number.Decimal.ofChars? ['1', '6'] = some ⟨16, 0⟩ from rfl) (by simp) <|
      .rightParen .done
  have value : Number.resultText t.value = "8" := by decide +kernel
  have shown : (Editor.start.replay (ks ++ ["="])).display = "Error" := by decide +kernel
  exact ⟨derived, typed, by decide, by decide, value, shown⟩

end DeskCalc.Keypad
