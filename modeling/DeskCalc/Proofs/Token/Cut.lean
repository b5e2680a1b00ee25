/-
  DeskCalc.Proofs.Token.Cut — between which characters a text may be cut.

  A numeral and a word are longest runs, and a minus sign may belong to the numeral
  behind it. Between any other two characters no piece goes on, so a text may be cut
  there and scanned in two parts, and in front of a parenthesis it always may. A longest
  run of digits and points is therefore one token wherever it stands, with the minus
  sign before it or without.

  Proved:
  - `scan_cut`: a text is scanned in two parts where no piece goes on.
  - `scan_leftParen` / `scan_rightParen`: at a parenthesis scanning starts again.
  - `scan_run`: a longest run of digits and points is one token.
-/

import DeskCalc.Proofs.Token.Scan

namespace DeskCalc.Span

variable {α : Type} {p : α → Bool}

/-- A run that does not go on from one part into the next is that of the first part. -/
theorem span_append_of_apart {xs rest : List α} (hne : xs ≠ [])
    (apart : ∀ a ∈ xs.getLast?, ∀ b ∈ rest.head?, p a = true → p b = false) :
    (xs ++ rest).takeWhile p = xs.takeWhile p ∧ (xs ++ rest).dropWhile p = xs.dropWhile p ++ rest := by
  induction xs with
  | nil => exact absurd rfl hne
  | cons x xs ih =>
    by_cases hx : p x = true
    · by_cases hxs : xs = []
      · subst hxs
        have stop : ∀ b ∈ rest.head?, p b = false := fun b hb => apart x rfl b hb hx
        exact ⟨takeWhile_append_of_stop [x] stop, dropWhile_append_of_stop [x] stop⟩
      · have later := ih hxs fun a ha => apart a (by rwa [List.getLast?_cons_of_ne_nil hxs])
        simp [hx, later.1, later.2]
    · simp [hx]

/-- What a run leaves of a row ends as the row does. -/
theorem getLast?_dropWhile {x a : α} {xs : List α} (h : a ∈ (xs.dropWhile p).getLast?) : a ∈ (x :: xs).getLast? := by
  rw [← List.takeWhile_append_dropWhile (p := p) (l := xs), ← List.cons_append, List.getLast?_append,
    Option.mem_def.mp h]
  rfl

end DeskCalc.Span

namespace DeskCalc.Token

open Number (signChars)
open Number.Decimal (isNumeric)
open Text (isLetter)

/-! ## Cutting -/

/-- Two neighbours that stand in one piece. -/
def Joins (a b : Char) : Prop :=
  (isNumeric a = true ∧ isNumeric b = true) ∨ (isLetter a = true ∧ isLetter b = true) ∨ (a = '-' ∧ isNumeric b = true)

/-- No piece goes on from one part into the next. -/
def Apart (cs rest : List Char) : Prop := ∀ a ∈ cs.getLast?, ∀ b ∈ rest.head?, ¬Joins a b

/-- What continues neither a numeral nor a word is apart from anything. -/
theorem Apart.of_stop (cs : List Char) {rest : List Char} (hn : ∀ c ∈ rest.head?, isNumeric c = false)
    (hl : ∀ c ∈ rest.head?, isLetter c = false) : Apart cs rest := by
  rintro a - b hb (⟨-, numeric⟩ | ⟨-, letter⟩ | ⟨-, numeric⟩)
  · rw [hn b hb] at numeric
    cases numeric
  · rw [hl b hb] at letter
    cases letter
  · rw [hn b hb] at numeric
    cases numeric

theorem Apart.tail {c : Char} {cs rest : List Char} (h : Apart (c :: cs) rest) (hne : cs ≠ []) : Apart cs rest :=
  fun a ha => h a (by rwa [List.getLast?_cons_of_ne_nil hne])

theorem Apart.dropWhile {c : Char} {cs rest : List Char} {p : Char → Bool} (h : Apart (c :: cs) rest) :
    Apart (cs.dropWhile p) rest :=
  fun a ha => h a (Span.getLast?_dropWhile ha)

theorem Apart.span {c : Char} {cs rest : List Char} {p : Char → Bool} (h : Apart (c :: cs) rest) (hc : p c = true)
    (hp : ∀ a b, p a = true → p b = true → Joins a b) :
    (cs ++ rest).takeWhile p = cs.takeWhile p ∧ (cs ++ rest).dropWhile p = cs.dropWhile p ++ rest := by
  have whole := Span.span_append_of_apart (p := p) (List.cons_ne_nil c cs) fun a ha b hb hpa => by
    by_cases hpb : p b = true
    · exact absurd (hp a b hpa hpb) (h a ha b hb)
    · simpa using hpb
  simpa [hc] using whole

/-- Whether a minus sign stands before a digit is seen in the first part. -/
theorem Apart.digits {cs rest : List Char} (h : Apart ('-' :: cs) rest) :
    (cs ++ rest).takeWhile isNumeric = cs.takeWhile isNumeric ∧
      (cs ++ rest).dropWhile isNumeric = cs.dropWhile isNumeric ++ rest := by
  have stop : ∀ b ∈ rest.head?, (cs = [] ∨ ∃ a ∈ cs.getLast?, isNumeric a = true) → isNumeric b = false := by
    intro b hb hcs
    by_cases hn : isNumeric b = true
    · rcases hcs with rfl | ⟨a, ha, hna⟩
      · exact absurd (Or.inr (Or.inr ⟨rfl, hn⟩)) (h '-' rfl b hb)
      · have hne : cs ≠ [] := by rintro rfl; cases ha
        exact absurd (Or.inl ⟨hna, hn⟩) (h.tail hne a ha b hb)
    · simpa using hn
  by_cases hne : cs = []
  · subst hne
    have none : ∀ b ∈ rest.head?, isNumeric b = false := fun b hb => stop b hb (Or.inl rfl)
    exact ⟨Span.takeWhile_append_of_stop [] none, Span.dropWhile_append_of_stop [] none⟩
  · exact Span.span_append_of_apart hne fun a ha b hb hna => stop b hb (Or.inr ⟨a, ha, hna⟩)

/-- The guard of the numeral branch is decided in the first part. -/
theorem Apart.guard {c : Char} {cs rest : List Char} (h : Apart (c :: cs) rest) (previous : Option Token) :
    (isNumeric c || (c == '-' && takesSign previous && !((cs ++ rest).takeWhile isNumeric).isEmpty)) =
      (isNumeric c || (c == '-' && takesSign previous && !(cs.takeWhile isNumeric).isEmpty)) := by
  by_cases hc : c = '-'
  · subst hc
    rw [h.digits.1]
  · rw [beq_eq_false_iff_ne.mpr hc, Bool.false_and, Bool.false_and, Bool.false_and]

theorem getLast?_cons_or (t : Token) (ts : List Token) (previous : Option Token) :
    (t :: ts).getLast?.or previous = ts.getLast?.or (some t) := by
  rw [List.getLast?_cons]
  cases ts.getLast? <;> rfl

/-- The invariant is that the parts stay apart: what is left of the first part ends as it did. -/
theorem scan_cut (previous : Option Token) (cs : List Char) {rest : List Char} (apart : Apart cs rest) :
    scan previous (cs ++ rest) = scan previous cs ++ scan ((scan previous cs).getLast?.or previous) rest := by
  fun_induction scan previous cs with
  | case1 previous => rfl
  | case2 previous c cs digits guard token ih =>
    have pieces : (cs ++ rest).takeWhile isNumeric = cs.takeWhile isNumeric ∧
        (cs ++ rest).dropWhile isNumeric = cs.dropWhile isNumeric ++ rest := by
      by_cases hc : isNumeric c = true
      · exact apart.span hc fun a b ha hb => Or.inl ⟨ha, hb⟩
      · obtain rfl : c = '-' := by simp_all
        exact apart.digits
    rw [List.cons_append, scan, apart.guard, if_pos guard, pieces.1, pieces.2, getLast?_cons_or, List.cons_append]
    exact congrArg _ (ih apart.dropWhile)
  | case3 previous c cs digits guard letter token ih =>
    have pieces := apart.span letter fun a b ha hb => Or.inr (Or.inl ⟨ha, hb⟩)
    rw [List.cons_append, scan, apart.guard, if_neg guard, if_pos letter, pieces.1, pieces.2, getLast?_cons_or,
      List.cons_append]
    exact congrArg _ (ih apart.dropWhile)
  | case4 previous c cs digits guard letter t ht ih =>
    rw [List.cons_append, scan, apart.guard, if_neg guard, if_neg letter, ht, getLast?_cons_or, List.cons_append]
    by_cases hne : cs = []
    · subst hne
      rw [scan]
      rfl
    · exact congrArg _ (ih (apart.tail hne))
  | case5 previous c cs digits guard letter ht ih =>
    rw [List.cons_append, scan, apart.guard, if_neg guard, if_neg letter, ht]
    by_cases hne : cs = []
    · subst hne
      rw [scan]
      rfl
    · exact ih (apart.tail hne)

/-- In front of a symbol that neither signs a numeral nor is a word, the text before it is scanned alone. -/
theorem scan_append_symbol (previous : Option Token) (cs : List Char) {c : Char} {t : Token} (rest : List Char)
    (ht : symbol? c = some t) (hx : c ≠ 'x') (hm : c ≠ '-') :
    scan previous (cs ++ c :: rest) = scan previous cs ++ t :: scan (some t) rest := by
  have hn := Span.stop_cons (isNumeric_of_symbol? ht) rest
  have hl := Span.stop_cons (isLetter_of_symbol? ht hx) rest
  rw [scan_cut previous cs (.of_stop cs hn hl), scan_symbol ht hx fun h => absurd h hm]

theorem scan_leftParen (previous : Option Token) (cs rest : List Char) :
    scan previous (cs ++ '(' :: rest) = scan previous cs ++ .leftParen :: scan (some .leftParen) rest :=
  scan_append_symbol previous cs rest rfl (by decide) (by decide)

theorem scan_rightParen (previous : Option Token) (cs rest : List Char) :
    scan previous (cs ++ ')' :: rest) = scan previous cs ++ .rightParen :: scan (some .rightParen) rest :=
  scan_append_symbol previous cs rest rfl (by decide) (by decide)

/-! ## Runs of digits and points -/

/-- A longest run of digits and points in a text. -/
structure IsRun (text front run behind : List Char) : Prop where
  split : text = front ++ run ++ behind
  ne_nil : run ≠ []
  numeric : ∀ c ∈ run, isNumeric c = true
  starts : ∀ c ∈ front.getLast?, isNumeric c = false
  ends : ∀ c ∈ behind.head?, isNumeric c = false

/-- A longest run is one token, with a minus sign before it or without. -/
theorem scan_run (previous : Option Token) {text front run behind : List Char} (h : IsRun text front run behind) :
    ∃ negative before, front = before ++ signChars negative ∧
      scan previous text = scan previous before ++
        numeral (signChars negative ++ run) :: scan (some (numeral (signChars negative ++ run))) behind := by
  obtain ⟨rfl, hne, numeric, starts, ends⟩ := h
  by_cases hm : front.getLast? = some '-'
  · obtain ⟨before, rfl⟩ := List.getLast?_eq_some_iff.mp hm
    have cut : scan previous (before ++ ['-'] ++ run ++ behind) =
        scan previous before ++ scan ((scan previous before).getLast?.or previous) ('-' :: run ++ behind) := by
      rw [List.append_assoc, List.append_assoc]
      exact scan_cut previous before (.of_stop before (Span.stop_cons (by decide) _) (Span.stop_cons (by decide) _))
    generalize hl : (scan previous before).getLast?.or previous = last at cut
    by_cases hs : takesSign last = true
    · exact ⟨true, before, rfl, by rw [cut, scan_signed hs hne numeric ends]; rfl⟩
    · have alone : scan previous (before ++ ['-']) = scan previous before ++ [operator .minus] := by
        rw [scan_cut previous before (.of_stop before (Span.stop_cons (by decide) _) (Span.stop_cons (by decide) _)), hl,
          scan_symbol rfl (by decide) fun _ => Or.inl (Bool.not_eq_true _ ▸ hs), scan]
      refine ⟨false, before ++ ['-'], (List.append_nil _).symm, ?_⟩
      rw [cut, alone, List.cons_append, scan_symbol rfl (by decide) fun _ => Or.inl (Bool.not_eq_true _ ▸ hs),
        scan_numeral _ hne numeric ends, List.append_assoc]
      rfl
  · refine ⟨false, front, (List.append_nil _).symm, ?_⟩
    have apart : Apart front (run ++ behind) := by
      intro a ha b hb joins
      obtain ⟨c, cs, rfl⟩ := List.exists_cons_of_ne_nil hne
      cases hb
      have hnb := numeric b List.mem_cons_self
      rcases joins with ⟨hna, -⟩ | ⟨-, hlb⟩ | ⟨rfl, -⟩
      · rw [starts a ha] at hna
        cases hna
      · rw [isLetter_of_isNumeric hnb] at hlb
        cases hlb
      · exact hm ha
    rw [List.append_assoc, scan_cut previous front apart, scan_numeral _ hne numeric ends]
    rfl

end DeskCalc.Token
