/-
  DeskCalc.Proofs.Number.Decimal — reading and writing decimals.

  A decimal is read from digits alone, or from digits with one point among them. What
  is written for a decimal has one of these forms and is read back as it. The value of
  a text depends on its digits and on how many stand behind the point, so zeros in
  front change nothing.

  Proved:
  - `ofChars?_eq_some_iff`: the two forms of a text that is read.
  - `isNumeric_of_ofChars?`: only texts of numeric characters are read.
  - `exists_ofChars?`: all of them with one point at most are, but for a lone point.
  - `ofChars?_toChars`: every decimal is read back from its text.
  - `ofChars?_zero_cons`: a zero in front of a text that is read changes nothing.
-/

import DeskCalc.Number.Decimal
import DeskCalc.Proofs.Span

namespace DeskCalc.Number.Decimal

/-! ## Reading -/

def Digits (cs : List Char) : Prop := ∀ c ∈ cs, c.isDigit = true

theorem ofChars?_of_digits {cs : List Char} (hne : cs ≠ []) (h : Digits cs) :
    ofChars? cs = some (ofWhole (Nat.ofDigitChars 10 cs 0)) := by
  have taken : cs.takeWhile Char.isDigit = cs := by
    rw [← List.append_nil cs, List.takeWhile_append_of_pos h, List.takeWhile_nil]
  have dropped : cs.dropWhile Char.isDigit = [] := by
    rw [← List.append_nil cs, List.dropWhile_append_of_pos h, List.dropWhile_nil]
  simp [ofChars?, taken, dropped, hne]

theorem ofChars?_of_point {whole rest : List Char} (hw : Digits whole) (hr : Digits rest)
    (hne : whole ≠ [] ∨ rest ≠ []) :
    ofChars? (whole ++ '.' :: rest) = some ⟨Nat.ofDigitChars 10 (whole ++ rest) 0, rest.length⟩ := by
  have stop : ∀ c ∈ ('.' :: rest).head?, c.isDigit = false := by
    intro c hc
    cases hc
    rfl
  have taken := Span.takeWhile_span hw stop
  have dropped := Span.dropWhile_span hw stop
  have guard : rest.all Char.isDigit ∧ ¬(whole.isEmpty ∧ rest.isEmpty) := by
    refine ⟨List.all_eq_true.mpr hr, ?_⟩
    simp only [List.isEmpty_iff]
    intro h
    obtain ⟨rfl, rfl⟩ := h
    simp at hne
  rw [ofChars?, taken, dropped]
  exact if_pos ⟨rfl, guard⟩

theorem ofChars?_eq_some_iff {cs : List Char} {d : Decimal} :
    ofChars? cs = some d ↔
      (cs ≠ [] ∧ Digits cs ∧ d = ofWhole (Nat.ofDigitChars 10 cs 0)) ∨
      (∃ whole rest, cs = whole ++ '.' :: rest ∧ Digits whole ∧ Digits rest ∧ (whole ≠ [] ∨ rest ≠ []) ∧
        d = ⟨Nat.ofDigitChars 10 (whole ++ rest) 0, rest.length⟩) := by
  constructor
  · intro h
    have hw : Digits (cs.takeWhile Char.isDigit) := fun c hc => List.all_eq_true.mp List.all_takeWhile c hc
    have split : cs = cs.takeWhile Char.isDigit ++ cs.dropWhile Char.isDigit := List.takeWhile_append_dropWhile.symm
    cases hrest : cs.dropWhile Char.isDigit with
    | nil =>
      rw [hrest, List.append_nil] at split
      rw [← split] at hw
      rw [ofChars?, hrest, ← split] at h
      by_cases hne : cs = []
      · simp [hne] at h
      · exact Or.inl ⟨hne, hw, by simpa [hne] using h.symm⟩
    | cons point rest =>
      rw [hrest] at split
      rw [ofChars?, hrest] at h
      dsimp only at h
      split at h
      · rename_i guard
        obtain ⟨rfl, hr, hne⟩ := guard
        refine Or.inr ⟨_, rest, split, hw, List.all_eq_true.mp hr, ?_, (Option.some.inj h).symm⟩
        by_cases hz : cs.takeWhile Char.isDigit = []
        · exact Or.inr fun hr => hne (by simp [hz, hr])
        · exact Or.inl hz
      · cases h
  · intro h
    rcases h with ⟨hne, hd, rfl⟩ | ⟨whole, rest, rfl, hw, hr, hne, rfl⟩
    · exact ofChars?_of_digits hne hd
    · exact ofChars?_of_point hw hr hne

/-! ## Numeric characters -/

/-- The characters of numbers, one by one. -/
def numerics : List Char := ['0', '1', '2', '3', '4', '5', '6', '7', '8', '9', '.']

theorem mem_numerics {c : Char} (h : isNumeric c = true) : c ∈ numerics := by
  have digits : ∀ n ∈ List.range' 48 10, Char.ofNat n ∈ numerics := by decide
  rw [isNumeric, Bool.or_eq_true, beq_iff_eq] at h
  rcases h with h | rfl
  · simp only [Char.isDigit, Bool.and_eq_true, decide_eq_true_eq, UInt32.le_iff_toNat_le] at h
    have bounds : 48 ≤ c.toNat ∧ c.toNat ≤ 57 := h
    rw [← Char.ofNat_toNat c]
    exact digits _ (List.mem_range'_1.mpr (by omega))
  · decide

/-- What holds of each of them holds of every numeric character. -/
theorem forall_numeric {P : Char → Prop} [DecidablePred P] (h : numerics.all (fun d => decide (P d)) = true) {c : Char}
    (hc : isNumeric c = true) : P c :=
  of_decide_eq_true (List.all_eq_true.mp h c (mem_numerics hc))

theorem isNumeric_of_isDigit {c : Char} (h : c.isDigit = true) : isNumeric c = true := by
  rw [isNumeric, h, Bool.true_or]

theorem isNumeric_of_ofChars? {cs : List Char} {d : Decimal} (h : ofChars? cs = some d) :
    cs ≠ [] ∧ ∀ c ∈ cs, isNumeric c = true := by
  obtain ⟨hne, hd, -⟩ | ⟨whole, rest, rfl, hw, hr, -, -⟩ := ofChars?_eq_some_iff.mp h
  · exact ⟨hne, fun c hc => isNumeric_of_isDigit (hd c hc)⟩
  · refine ⟨by simp, fun c hc => ?_⟩
    rcases List.mem_append.mp hc with hc | hc
    · exact isNumeric_of_isDigit (hw c hc)
    · rcases List.mem_cons.mp hc with rfl | hc
      · rfl
      · exact isNumeric_of_isDigit (hr c hc)

/-! ## Points -/

theorem Digits.count_point {cs : List Char} (h : Digits cs) : cs.count '.' = 0 :=
  List.count_eq_zero.mpr fun hm => by cases h '.' hm

theorem count_point_of_ofChars? {cs : List Char} {d : Decimal} (h : ofChars? cs = some d) : cs.count '.' ≤ 1 := by
  obtain ⟨-, hd, -⟩ | ⟨whole, rest, rfl, hw, hr, -, -⟩ := ofChars?_eq_some_iff.mp h
  · rw [hd.count_point]
    exact Nat.zero_le 1
  · have before := hw.count_point
    have behind := hr.count_point
    rw [List.count_append, List.count_cons_self]
    omega

theorem isDigit_of_isNumeric {c : Char} (h : isNumeric c = true) (hc : c ≠ '.') : c.isDigit = true := by
  rw [isNumeric, Bool.or_eq_true, beq_iff_eq] at h
  exact h.resolve_right hc

/-- Numeric characters with one point at most are read, unless the point is all there is. -/
theorem exists_ofChars? {cs : List Char} (hne : cs ≠ []) (hcs : ∀ c ∈ cs, isNumeric c = true)
    (hp : cs.count '.' ≤ 1) (lone : cs ≠ ['.']) : ∃ d, ofChars? cs = some d := by
  by_cases point : '.' ∈ cs
  · obtain ⟨whole, rest, rfl, hw⟩ := List.eq_append_cons_of_mem point
    rw [List.count_append, List.count_cons_self] at hp
    have hr : '.' ∉ rest := List.count_eq_zero.mp (by omega)
    have digits {ds : List Char} (hd : ∀ c ∈ ds, c ∈ whole ++ '.' :: rest) (none : '.' ∉ ds) : Digits ds :=
      fun c hc => isDigit_of_isNumeric (hcs c (hd c hc)) fun eq => none (eq ▸ hc)
    refine ⟨_, ofChars?_of_point (digits (fun c hc => by simp [hc]) hw) (digits (fun c hc => by simp [hc]) hr) ?_⟩
    by_cases hwhole : whole = []
    · subst hwhole
      exact Or.inr fun hrest => lone (by rw [hrest]; rfl)
    · exact Or.inl hwhole
  · exact ⟨_, ofChars?_of_digits hne fun c hc => isDigit_of_isNumeric (hcs c hc) fun eq => point (eq ▸ hc)⟩

/-! ## Zeros in front -/

theorem digits_cons {c : Char} {cs : List Char} (hc : c.isDigit = true) (h : Digits cs) : Digits (c :: cs) := by
  intro a ha
  rcases List.mem_cons.mp ha with rfl | ha
  · exact hc
  · exact h a ha

theorem ofChars?_zero_cons {cs : List Char} {d : Decimal} (h : ofChars? cs = some d) :
    ofChars? ('0' :: cs) = some d := by
  obtain ⟨hne, hd, rfl⟩ | ⟨whole, rest, rfl, hw, hr, hne, rfl⟩ := ofChars?_eq_some_iff.mp h
  · exact ofChars?_of_digits (by simp) (digits_cons rfl hd)
  · exact ofChars?_of_point (digits_cons rfl hw) hr (Or.inl (by simp))

/-- A zero in front of a digit may be left out. -/
theorem ofChars?_of_zero_cons {c : Char} {cs : List Char} {d : Decimal} (hc : c.isDigit = true)
    (h : ofChars? ('0' :: c :: cs) = some d) : ofChars? (c :: cs) = some d := by
  obtain ⟨-, hd, rfl⟩ | ⟨whole, rest, eq, hw, hr, -, rfl⟩ := ofChars?_eq_some_iff.mp h
  · exact ofChars?_of_digits (by simp) fun a ha => hd a (List.mem_cons_of_mem _ ha)
  · rcases whole with _ | ⟨z, _ | ⟨w, whole⟩⟩
    · cases eq
    · cases eq
      cases hc
    · cases eq
      exact ofChars?_of_point (fun a ha => hw a (List.mem_cons_of_mem _ ha)) hr (Or.inl (by simp))

/-! ## Writing -/

theorem digits_toDigits (n : Nat) : Digits (Nat.toDigits 10 n) :=
  fun _ hc => Nat.isDigit_of_mem_toDigits (by decide) (by decide) hc

theorem isDigit_digitChar (n : Nat) : (n % 10).digitChar.isDigit = true := by
  have := Nat.mod_lt n (by decide : 0 < 10)
  generalize n % 10 = m at this
  revert m
  decide

theorem digits_fraction (n places : Nat) : Digits (fraction n places) := by
  induction places generalizing n with
  | zero => exact fun _ hc => nomatch hc
  | succ places ih =>
    intro c hc
    rcases List.mem_append.mp hc with hc | hc
    · exact ih _ c hc
    · obtain rfl := List.mem_singleton.mp hc
      exact isDigit_digitChar n

theorem length_fraction (n places : Nat) : (fraction n places).length = places := by
  induction places generalizing n with
  | zero => rfl
  | succ places ih => rw [fraction, List.length_append, ih, List.length_singleton]

theorem ofDigitChars_append (cs ds : List Char) (init : Nat) :
    Nat.ofDigitChars 10 (cs ++ ds) init = Nat.ofDigitChars 10 ds (Nat.ofDigitChars 10 cs init) :=
  List.foldl_append

/-- The digits of the fraction take the place of those cut off. -/
theorem ofDigitChars_fraction (n places : Nat) :
    Nat.ofDigitChars 10 (fraction n places) (n / Nat.pow 10 places) = n := by
  induction places generalizing n with
  | zero => exact Nat.div_one n
  | succ places ih =>
    have cut : n / Nat.pow 10 (places + 1) = n / 10 / Nat.pow 10 places := by
      rw [Nat.div_div_eq_div_mul, Nat.mul_comm]
      rfl
    have last : (n % 10).digitChar.toNat - '0'.toNat = n % 10 := by
      have := Nat.mod_lt n (by decide : 0 < 10)
      generalize n % 10 = m at this
      revert m
      decide
    rw [fraction, ofDigitChars_append, cut, ih]
    show 10 * (n / 10) + ((n % 10).digitChar.toNat - '0'.toNat) = n
    rw [last]
    exact Nat.div_add_mod n 10

theorem ofChars?_toChars (d : Decimal) : ofChars? d.toChars = some d := by
  rcases d with ⟨n, places⟩
  rw [toChars]
  split
  · rename_i h
    obtain rfl : places = 0 := h
    have := ofChars?_digits n
    rwa [ofWhole, toChars, if_pos rfl] at this
  · have whole : Nat.toDigits 10 (n / Nat.pow 10 places) ≠ [] := Nat.toDigits_ne_nil
    rw [ofChars?_of_point (digits_toDigits _) (digits_fraction n places) (Or.inl whole), ofDigitChars_append,
      Nat.ofDigitChars_ten_toDigits, ofDigitChars_fraction, length_fraction]

end DeskCalc.Number.Decimal
