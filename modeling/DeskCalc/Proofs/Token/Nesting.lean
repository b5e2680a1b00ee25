/-
  DeskCalc.Proofs.Token.Nesting — the parentheses of a text are those of its tokens.

  A parenthesis is a token by itself wherever it stands, and no other piece of a text
  holds one. So whatever else is in a text, it is balanced when its tokens are.

  Proved:
  - `openAfter_scan`: scanning keeps the count of open parentheses.
  - `balanced_ofText_iff`: a text is balanced when its tokens are.
-/

import DeskCalc.Proofs.Nesting
import DeskCalc.Proofs.Token.Scan

namespace DeskCalc.Token

open Nesting (Balanced openAfter)
open Number.Decimal (isNumeric)
open Text (isLetter)

theorem numeral_ne_paren (cs : List Char) : numeral cs ≠ leftParen ∧ numeral cs ≠ rightParen := by
  unfold numeral
  split <;> simp

theorem word_ne_paren (cs : List Char) : word cs ≠ leftParen ∧ word cs ≠ rightParen := by
  unfold word
  split
  · simp
  · split <;> simp

/-- A symbol that is a parenthesis as a token is one as a character. -/
theorem symbol?_paren {c : Char} {t : Token} (h : symbol? c = some t) :
    (c = '(' ∧ t = leftParen) ∨ (c = ')' ∧ t = rightParen) ∨
      (c ≠ '(' ∧ c ≠ ')' ∧ t ≠ leftParen ∧ t ≠ rightParen) := by
  unfold symbol? at h
  split at h
  · injection h with h
    exact Or.inl ⟨rfl, h.symm⟩
  · injection h with h
    exact Or.inr (Or.inl ⟨rfl, h.symm⟩)
  · rename_i hl hr
    obtain ⟨op, -, rfl⟩ := Option.map_eq_some_iff.mp h
    exact Or.inr (Or.inr ⟨hl, hr, by simp, by simp⟩)

/-- A run of characters that holds no parenthesis leaves the count as it is. -/
theorem openAfter_run {p : Char → Bool} (hl : p '(' = false) (hr : p ')' = false) {c : Char} (hc : c ≠ '(' ∧ c ≠ ')')
    (n : Nat) (cs : List Char) :
    openAfter '(' ')' n (c :: cs) = openAfter '(' ')' n (cs.dropWhile p) := by
  have none {d : Char} (hd : p d = false) : d ∉ cs.takeWhile p := by
    intro hm
    rw [List.all_eq_true.mp List.all_takeWhile d hm] at hd
    cases hd
  rw [Nesting.openAfter_other hc.1 hc.2]
  conv => lhs; rw [← List.takeWhile_append_dropWhile (p := p) (l := cs)]
  exact Nesting.openAfter_skip (none hl) (none hr) n _

theorem openAfter_scan (previous : Option Token) (cs : List Char) (n : Nat) :
    openAfter leftParen rightParen n (scan previous cs) = openAfter '(' ')' n cs := by
  fun_induction scan previous cs generalizing n with
  | case1 previous => rfl
  | case2 previous c cs digits guard token ih =>
    have hc : c ≠ '(' ∧ c ≠ ')' := by
      constructor <;> rintro rfl <;> simp [isNumeric] at guard
    have ht := numeral_ne_paren (c :: digits)
    rw [Nesting.openAfter_other ht.1 ht.2, ih, openAfter_run (p := isNumeric) rfl rfl hc]
  | case3 previous c cs digits guard letter token ih =>
    have hc : c ≠ '(' ∧ c ≠ ')' := by
      constructor <;> rintro rfl <;> revert letter <;> decide
    have ht := word_ne_paren (c :: cs.takeWhile isLetter)
    rw [Nesting.openAfter_other ht.1 ht.2, ih, openAfter_run (p := isLetter) (by decide) (by decide) hc]
  | case4 previous c cs digits guard letter t ht ih =>
    rcases symbol?_paren ht with ⟨rfl, rfl⟩ | ⟨rfl, rfl⟩ | ⟨hl, hr, hl', hr'⟩
    · rw [Nesting.openAfter_opening, Nesting.openAfter_opening, ih]
    · cases n with
      | zero => rw [Nesting.openAfter_closing_zero (by simp), Nesting.openAfter_closing_zero (by decide)]
      | succ n => rw [Nesting.openAfter_closing_succ (by simp), Nesting.openAfter_closing_succ (by decide), ih]
    · rw [Nesting.openAfter_other hl' hr', Nesting.openAfter_other hl hr, ih]
  | case5 previous c cs digits guard letter ht ih =>
    have hc : c ≠ '(' ∧ c ≠ ')' := by
      constructor <;> rintro rfl <;> cases ht
    rw [Nesting.openAfter_other hc.1 hc.2, ih]

theorem balanced_ofText_iff (text : String) :
    Balanced leftParen rightParen (ofText text) ↔ Balanced '(' ')' text.toList := by
  rw [Nesting.balanced_iff (by simp), Nesting.balanced_iff (by decide), ofText, openAfter_scan]

end DeskCalc.Token
