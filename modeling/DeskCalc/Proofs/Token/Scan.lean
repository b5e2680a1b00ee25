/-
  DeskCalc.Proofs.Token.Scan — how the scanner cuts one piece off a text.

  Digits and points, letters, and symbols are different characters, so each branch of
  the scanner is taken by texts that can be told by their first piece. A piece ends
  where the text behind it does not continue it. Of the token before a text only one
  thing matters, whether it takes a sign.

  Proved:
  - `scan_numeral` / `scan_signed` / `scan_word` / `scan_symbol` / `scan_ignored`: the
    first piece of a text.
  - `scan_congr`: the tokens of a text depend on whether a sign is taken in front of it.
-/

import DeskCalc.Proofs.Number.Decimal
import DeskCalc.Token.Scan

namespace DeskCalc.Token

open Number.Decimal (isNumeric)
open Text (isLetter)

/-! ## Kinds of characters -/

theorem isLetter_of_isNumeric {c : Char} (h : isNumeric c = true) : isLetter c = false :=
  Number.Decimal.forall_numeric (P := fun d => isLetter d = false) (by decide) h

theorem isNumeric_of_isLetter {c : Char} (h : isLetter c = true) : isNumeric c = false := by
  by_cases hn : isNumeric c = true
  · rw [isLetter_of_isNumeric hn] at h
    cases h
  · simpa using hn

def symbols : List Char := ['(', ')', '+', '-', 'x', '×', '/', '^']

theorem mem_symbols {c : Char} {t : Token} (h : symbol? c = some t) : c ∈ symbols := by
  unfold symbol? at h
  split at h
  · decide
  · decide
  · unfold Operator.ofChar? at h
    split at h
    case h_7 => cases h
    all_goals decide

theorem forall_symbol {P : Char → Prop} [DecidablePred P] (h : symbols.all (fun d => decide (P d)) = true) {c : Char}
    {t : Token} (hc : symbol? c = some t) : P c :=
  of_decide_eq_true (List.all_eq_true.mp h c (mem_symbols hc))

theorem isNumeric_of_symbol? {c : Char} {t : Token} (h : symbol? c = some t) : isNumeric c = false :=
  forall_symbol (P := fun d => isNumeric d = false) (by decide) h

/-- Beyond ASCII letters are looked up, which is quick in a list and slow in an array. -/
theorem isLetter_cross : isLetter '×' = false := by
  rw [isLetter, if_neg (by decide), ← Array.any_toList]
  decide +kernel

/-- Of the symbols only `x` is a letter. -/
theorem isLetter_of_symbol? {c : Char} {t : Token} (h : symbol? c = some t) (hx : c ≠ 'x') : isLetter c = false := by
  rcases forall_symbol (P := fun d => d = 'x' ∨ d = '×' ∨ isLetter d = false) (by decide) h with rfl | rfl | hl
  · exact absurd rfl hx
  · exact isLetter_cross
  · exact hl

/-! ## The first piece -/

/-- The guard of the numeral branch: a numeric character, or the sign of a numeral. -/
theorem scan_numeral {cs rest : List Char} (previous : Option Token) (hne : cs ≠ [])
    (hcs : ∀ c ∈ cs, isNumeric c = true) (hrest : ∀ c ∈ rest.head?, isNumeric c = false) :
    scan previous (cs ++ rest) = numeral cs :: scan (some (numeral cs)) rest := by
  obtain ⟨c, cs, rfl⟩ := List.exists_cons_of_ne_nil hne
  have hc : isNumeric c = true := hcs c List.mem_cons_self
  have htail : ∀ d ∈ cs, isNumeric d = true := fun d hd => hcs d (List.mem_cons_of_mem _ hd)
  rw [List.cons_append, scan, if_pos (by rw [hc]; rfl), Span.takeWhile_span htail hrest,
    Span.dropWhile_span htail hrest]

theorem scan_signed {cs rest : List Char} {previous : Option Token} (hp : takesSign previous = true) (hne : cs ≠ [])
    (hcs : ∀ c ∈ cs, isNumeric c = true) (hrest : ∀ c ∈ rest.head?, isNumeric c = false) :
    scan previous ('-' :: cs ++ rest) = numeral ('-' :: cs) :: scan (some (numeral ('-' :: cs))) rest := by
  have guard : (isNumeric '-' || ('-' == '-' && takesSign previous && !cs.isEmpty)) = true := by
    simp [hp, hne]
  rw [List.cons_append, scan, Span.takeWhile_span hcs hrest, if_pos guard, Span.dropWhile_span hcs hrest]

theorem scan_word {cs rest : List Char} (previous : Option Token) (hne : cs ≠ [])
    (hcs : ∀ c ∈ cs, isLetter c = true) (hrest : ∀ c ∈ rest.head?, isLetter c = false) :
    scan previous (cs ++ rest) = word cs :: scan (some (word cs)) rest := by
  obtain ⟨c, cs, rfl⟩ := List.exists_cons_of_ne_nil hne
  have hc : isLetter c = true := hcs c List.mem_cons_self
  have htail : ∀ d ∈ cs, isLetter d = true := fun d hd => hcs d (List.mem_cons_of_mem _ hd)
  have minus : (c == '-') = false := by
    rw [beq_eq_false_iff_ne]
    intro eq
    subst eq
    revert hc
    decide
  rw [List.cons_append, scan, if_neg (by simp [isNumeric_of_isLetter hc, minus]), if_pos hc,
    Span.takeWhile_span htail hrest, Span.dropWhile_span htail hrest]

/-- A symbol is a token by itself, unless it is the sign of a numeral. -/
theorem scan_symbol {c : Char} {t : Token} {previous : Option Token} {rest : List Char} (ht : symbol? c = some t)
    (hx : c ≠ 'x') (hminus : c = '-' → takesSign previous = false ∨ ∀ d ∈ rest.head?, isNumeric d = false) :
    scan previous (c :: rest) = t :: scan (some t) rest := by
  have guard : (isNumeric c || (c == '-' && takesSign previous && !(rest.takeWhile isNumeric).isEmpty)) = false := by
    rw [isNumeric_of_symbol? ht, Bool.false_or]
    by_cases hc : c = '-'
    · rcases hminus hc with h | h
      · simp [h]
      · have := Span.takeWhile_append_of_stop (p := isNumeric) [] h
        rw [List.nil_append] at this
        simp [this]
    · simp [hc]
  rw [scan, guard, isLetter_of_symbol? ht hx, ht]
  rfl

/-- What is no numeric character, no letter and no symbol. -/
def isIgnored (c : Char) : Bool := !isNumeric c && !isLetter c && !(['+', '-', '×', '/', '^', '(', ')'].contains c)

theorem isNumeric_of_isIgnored {c : Char} (h : isIgnored c = true) : isNumeric c = false := by
  simp only [isIgnored, Bool.and_eq_true, Bool.not_eq_true'] at h
  exact h.1.1

theorem isLetter_of_isIgnored {c : Char} (h : isIgnored c = true) : isLetter c = false := by
  simp only [isIgnored, Bool.and_eq_true, Bool.not_eq_true'] at h
  exact h.1.2

theorem isIgnored_of_symbol? {c : Char} {t : Token} (h : symbol? c = some t) : isIgnored c = false := by
  rcases forall_symbol (P := fun d => d = 'x' ∨ ['+', '-', '×', '/', '^', '(', ')'].contains d = true) (by decide) h
    with rfl | listed
  · decide
  · rw [isIgnored, listed]
    exact Bool.and_false _

theorem symbol?_of_isIgnored {c : Char} (h : isIgnored c = true) : symbol? c = none := by
  cases hs : symbol? c with
  | none => rfl
  | some t =>
    rw [isIgnored_of_symbol? hs] at h
    cases h

theorem scan_ignored {c : Char} (previous : Option Token) (rest : List Char) (h : isIgnored c = true) :
    scan previous (c :: rest) = scan previous rest := by
  have hminus : (c == '-') = false := by
    rw [beq_eq_false_iff_ne]
    intro eq
    subst eq
    revert h
    decide
  rw [scan, isNumeric_of_isIgnored h, isLetter_of_isIgnored h, symbol?_of_isIgnored h, hminus]
  rfl

/-! ## The token before -/

/-- Scanning depends on the token before only in whether that takes a sign. -/
theorem scan_congr {p q : Option Token} (h : takesSign p = takesSign q) (cs : List Char) : scan p cs = scan q cs := by
  fun_induction scan p cs with
  | case1 p => rw [scan]
  | case2 p c cs digits guard token ih =>
    rw [scan, ← h, if_pos guard]
  | case3 p c cs digits guard letter token ih =>
    rw [scan, ← h, if_neg guard, if_pos letter]
  | case4 p c cs digits guard letter t ht ih =>
    rw [scan, ← h, if_neg guard, if_neg letter, ht]
  | case5 p c cs digits guard letter ht ih =>
    rw [scan, ← h, if_neg guard, if_neg letter, ht]
    exact ih h

end DeskCalc.Token
