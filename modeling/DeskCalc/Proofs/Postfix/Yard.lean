/-
  DeskCalc.Proofs.Postfix.Yard — what each token does to the yard.

  A yard is what is out and what waits. An entry that waits stays in front of its
  operator or parenthesis, so an opening parenthesis bars all below it: tokens that
  pass by themselves pass above it in the same way (`run_behind`), and what
  stands between two parentheses comes out as one block (`run_block`).

  Proved:
  - `step_operator` / `close_behind` / `close_of_not_mem`: the steps that release.
  - `step_cases`: the four ways in which a token passes.
  - `finish_yard`: what is left comes out, unless a parenthesis still waits.
  - `run_behind`: the entries below an opening parenthesis take no part.
  - `run_block`: tokens in parentheses come out in their own order, and then the
    function that was called on them.
-/

import DeskCalc.Postfix.Order
import DeskCalc.Proofs.Outcome
import DeskCalc.Proofs.Span
import DeskCalc.Proofs.Token.Kind

namespace DeskCalc.Postfix

/-- A function is out before any operator waits above it. -/
@[simp] theorem Pending.bindsAtLeast_function (op : Operator) (f : ScientificFunction) :
    (function f).bindsAtLeast op = true :=
  decide_eq_true (Nat.le_of_lt (ScientificFunction.precedence_lt op))

/-- The yard with these tokens out and these entries waiting, the top first. -/
def yard (out : List Token) (waiting : List Pending) : Yard := ⟨out.toArray, ⟨waiting⟩⟩

namespace Yard

theorem start_eq : start = yard [] [] := rfl

theorem eq_yard (y : Yard) : y = yard y.output.toList y.waiting.items := rfl

/-- The tokens of a row pass through the yard. -/
def run (y : Yard) (ts : List Token) : Except EvalError Yard := ts.foldlM step y

@[simp] theorem run_nil (y : Yard) : y.run [] = .ok y := rfl

theorem run_cons (y : Yard) (t : Token) (ts : List Token) : y.run (t :: ts) = y.step t >>= (run · ts) := rfl

theorem run_cons_eq_ok {y y' : Yard} {t : Token} {ts : List Token} :
    y.run (t :: ts) = .ok y' ↔ ∃ u, y.step t = .ok u ∧ u.run ts = .ok y' :=
  Outcome.bind_eq_ok

@[simp] theorem run_single (y : Yard) (t : Token) : y.run [t] = y.step t := by
  rw [run_cons]
  cases y.step t <;> rfl

theorem run_append (y : Yard) (ts us : List Token) : y.run (ts ++ us) = y.run ts >>= (run · us) :=
  List.foldlM_append

/-! ## Releasing -/

theorem release_yard (p : Pending → Bool) (out : List Token) (w : List Pending) :
    (yard out w).release p = yard (out ++ (w.takeWhile p).map Pending.token) (w.dropWhile p) := by
  simp [release, yard, Stack.popWhile]

/-- What may be released goes, and no more if what lies below may not. -/
theorem release_append {p : Pending → Bool} {inner below : List Pending} (out : List Token)
    (hi : ∀ a ∈ inner, p a = true) (hb : ∀ a ∈ below.head?, p a = false) :
    (yard out (inner ++ below)).release p = yard (out ++ inner.map Pending.token) below := by
  rw [release_yard, Span.takeWhile_span hi hb, Span.dropWhile_span hi hb]

/-! ## One token -/

@[simp] theorem step_number (out : List Token) (w : List Pending) (v : Float) :
    (yard out w).step (.number v) = .ok (yard (out ++ [.number v]) w) := by
  simp [step, emit, yard]

@[simp] theorem step_unknown (out : List Token) (w : List Pending) (text : String) :
    (yard out w).step (.unknown text) = .ok (yard (out ++ [.unknown text]) w) := by
  simp [step, emit, yard]

@[simp] theorem step_function (out : List Token) (w : List Pending) (f : ScientificFunction) :
    (yard out w).step (.function f) = .ok (yard out (.function f :: w)) := rfl

@[simp] theorem step_leftParen (out : List Token) (w : List Pending) :
    (yard out w).step .leftParen = .ok (yard out (.openParen :: w)) := rfl

theorem step_value {t : Token} (h : t.isValue = true) (out : List Token) (w : List Pending) :
    (yard out w).step t = .ok (yard (out ++ [t]) w) := by
  cases t with
  | number v => exact step_number out w v
  | unknown text => exact step_unknown out w text
  | _ => cases h

theorem step_hold {p : Pending} (h : ∀ op, p ≠ .operator op) (out : List Token) (w : List Pending) :
    (yard out w).step p.token = .ok (yard out (p :: w)) := by
  cases p with
  | openParen => rfl
  | function f => rfl
  | operator op => exact absurd rfl (h op)

theorem step_operator {op : Operator} {inner below : List Pending} (out : List Token)
    (hi : ∀ a ∈ inner, a.bindsAtLeast op = true) (hb : ∀ a ∈ below.head?, a.bindsAtLeast op = false) :
    (yard out (inner ++ below)).step (.operator op) =
      .ok (yard (out ++ inner.map Pending.token) (.operator op :: below)) := by
  rw [step, release_append out hi hb]
  rfl

@[simp] theorem call_function (out : List Token) (f : ScientificFunction) (w : List Pending) :
    call (yard out (.function f :: w)) = yard (out ++ [.function f]) w := by
  simp [call, yard]

theorem call_of_ne {out : List Token} {w : List Pending} (h : ∀ f, w.head? ≠ some (.function f)) :
    call (yard out w) = yard out w := by
  rcases w with _ | ⟨_ | op | f, w⟩
  · rfl
  · rfl
  · rfl
  · exact absurd rfl (h f)

theorem ne_openParen {w : List Pending} (h : .openParen ∉ w) : ∀ a ∈ w, (a != .openParen) = true := by
  intro a ha
  simp only [bne_iff_ne, ne_eq]
  intro eq
  subst eq
  exact h ha

/-- A closing parenthesis lets out what was put behind its partner. -/
theorem close_behind {inner : List Pending} (out : List Token) (w : List Pending) (hi : .openParen ∉ inner) :
    close (yard out (inner ++ .openParen :: w)) = .ok (call (yard (out ++ inner.map Pending.token) w)) := by
  rw [close, release_append out (ne_openParen hi) (by simp)]
  rfl

theorem release_all {w : List Pending} (out : List Token) (h : .openParen ∉ w) :
    (yard out w).release (· != .openParen) = yard (out ++ w.map Pending.token) [] := by
  have := release_append out (ne_openParen h) (show ∀ a ∈ ([] : List Pending).head?, _ by simp)
  rwa [List.append_nil] at this

theorem close_of_not_mem {w : List Pending} (out : List Token) (h : .openParen ∉ w) :
    close (yard out w) = .error .unbalanced := by
  rw [close, release_all out h]
  rfl

theorem close_eq_ok {out : List Token} {w : List Pending} {y : Yard} (h : close (yard out w) = .ok y) :
    ∃ inner below, .openParen ∉ inner ∧ w = inner ++ .openParen :: below ∧
      y = call (yard (out ++ inner.map Pending.token) below) := by
  by_cases hw : .openParen ∈ w
  · obtain ⟨inner, below, rfl, hi⟩ := List.eq_append_cons_of_mem hw
    rw [close_behind out below hi] at h
    injection h with h
    exact ⟨inner, below, hi, rfl, h.symm⟩
  · rw [close_of_not_mem out hw] at h
    cases h

/-- A value is out at once; a function or an opening parenthesis waits; an operator waits where those that
    bind as tightly have gone; a closing parenthesis lets out what its partner held back, and a function. -/
theorem step_cases {out : List Token} {w : List Pending} {t : Token} {y : Yard} (h : (yard out w).step t = .ok y) :
    (t.isValue = true ∧ y = yard (out ++ [t]) w) ∨
    (∃ p, t = p.token ∧ (∀ op, p ≠ .operator op) ∧ y = yard out (p :: w)) ∨
    (∃ op inner below, t = .operator op ∧ w = inner ++ below ∧ (∀ a ∈ inner, a.bindsAtLeast op = true) ∧
      (∀ a ∈ below.head?, a.bindsAtLeast op = false) ∧
      y = yard (out ++ inner.map Pending.token) (.operator op :: below)) ∨
    (∃ inner below, t = .rightParen ∧ .openParen ∉ inner ∧ w = inner ++ .openParen :: below ∧
      y = (yard (out ++ inner.map Pending.token) below).call) := by
  cases t with
  | number v =>
    rw [step_number] at h
    injection h with h
    exact Or.inl ⟨rfl, h.symm⟩
  | unknown text =>
    rw [step_unknown] at h
    injection h with h
    exact Or.inl ⟨rfl, h.symm⟩
  | function f =>
    rw [step_function] at h
    injection h with h
    exact Or.inr (Or.inl ⟨.function f, rfl, by simp, h.symm⟩)
  | leftParen =>
    rw [step_leftParen] at h
    injection h with h
    exact Or.inr (Or.inl ⟨.openParen, rfl, by simp, h.symm⟩)
  | operator op =>
    obtain ⟨inner, below, rfl, hi, hb⟩ := Span.exists_span (Pending.bindsAtLeast op) w
    rw [step_operator out hi hb] at h
    injection h with h
    exact Or.inr (Or.inr (Or.inl ⟨op, inner, below, rfl, rfl, hi, hb, h.symm⟩))
  | rightParen =>
    obtain ⟨inner, below, hi, rfl, rfl⟩ := close_eq_ok h
    exact Or.inr (Or.inr (Or.inr ⟨inner, below, rfl, hi, rfl, rfl⟩))

/-- At the end all that waits comes out, unless a parenthesis is still open. -/
theorem finish_yard (out : List Token) (w : List Pending) :
    (yard out w).finish = if .openParen ∈ w then .error .unbalanced else .ok (out ++ w.map Pending.token) := by
  split
  · rename_i hw
    obtain ⟨inner, below, rfl, hi⟩ := List.eq_append_cons_of_mem hw
    rw [finish, release_append out (ne_openParen hi) (by simp)]
    rfl
  · rename_i hw
    rw [finish, release_all out hw]
    simp [yard, Stack.isEmpty]

/-! ## Behind an opening parenthesis -/

/-- The yard `y` with `out` before it and, under an opening parenthesis, `w` below it. -/
def behind (out : List Token) (w : List Pending) (y : Yard) : Yard :=
  yard (out ++ y.output.toList) (y.waiting.items ++ .openParen :: w)

theorem behind_yard (out out' : List Token) (w w' : List Pending) :
    behind out w (yard out' w') = yard (out ++ out') (w' ++ .openParen :: w) := rfl

theorem behind_call (out : List Token) (w : List Pending) (y : Yard) : behind out w y.call = (behind out w y).call := by
  rw [eq_yard y]
  rcases y.waiting.items with _ | ⟨_ | op | f, w'⟩
  · rfl
  · rfl
  · rfl
  · rw [call_function, behind_yard, behind_yard, List.cons_append, call_function, List.append_assoc]

/-- No step looks below an opening parenthesis that it does not close. -/
theorem step_behind {y y' : Yard} {t : Token} (out : List Token) (w : List Pending) (h : y.step t = .ok y') :
    (behind out w y).step t = .ok (behind out w y') := by
  rw [eq_yard y] at h ⊢
  generalize y.output.toList = out', y.waiting.items = w' at h ⊢
  rw [behind_yard]
  obtain ⟨hv, rfl⟩ | ⟨p, rfl, hp, rfl⟩ | ⟨op, inner, below, rfl, rfl, hi, hb, rfl⟩ | ⟨inner, below, rfl, hi, rfl, rfl⟩ :=
    step_cases h
  · rw [step_value hv, behind_yard, List.append_assoc]
  · rw [step_hold hp]
    rfl
  · have stop : ∀ a ∈ (below ++ .openParen :: w).head?, a.bindsAtLeast op = false := by
      cases below with
      | nil => exact Span.stop_cons rfl w
      | cons b below => exact hb
    rw [List.append_assoc, step_operator _ hi stop, behind_yard, List.append_assoc]
    rfl
  · rw [step, List.append_assoc, List.cons_append, close_behind _ _ hi, behind_call, behind_yard, List.append_assoc]

theorem run_behind {ts : List Token} {y y' : Yard} (out : List Token) (w : List Pending) (h : y.run ts = .ok y') :
    (behind out w y).run ts = .ok (behind out w y') := by
  induction ts generalizing y with
  | nil =>
    injection h with h
    rw [run_nil, h]
  | cons t ts ih =>
    obtain ⟨u, hs, hu⟩ := run_cons_eq_ok.mp h
    rw [run_cons, step_behind out w hs]
    exact ih hu

end Yard

/-! ## Whole rows -/

theorem order_eq (ts : List Token) : order ts = Yard.start.run ts >>= Yard.finish := rfl

theorem order_eq_ok {ts out : List Token} (h : order ts = .ok out) :
    ∃ out' w, Yard.start.run ts = .ok (yard out' w) ∧ .openParen ∉ w ∧ out = out' ++ w.map Pending.token := by
  obtain ⟨y, hr, hf⟩ := Outcome.bind_eq_ok.mp (order_eq ts ▸ h)
  rw [Yard.eq_yard y] at hr hf
  rw [Yard.finish_yard] at hf
  split at hf
  · cases hf
  · rename_i hw
    injection hf with hf
    exact ⟨_, _, hr, hw, hf.symm⟩

/-- Tokens that have an order come out in it when they stand in parentheses. -/
theorem run_block {ts block : List Token} (h : order ts = .ok block) (out : List Token) (w : List Pending) :
    (yard out w).run (.leftParen :: ts ++ [.rightParen]) = .ok (Yard.call (yard (out ++ block) w)) := by
  obtain ⟨out', w', hr, hw, rfl⟩ := order_eq_ok h
  have inside := Yard.run_behind out w hr
  rw [Yard.start_eq, Yard.behind_yard, Yard.behind_yard, List.append_nil, List.nil_append] at inside
  rw [List.cons_append, Yard.run_cons, Yard.step_leftParen]
  show (yard out (.openParen :: w)).run (ts ++ [.rightParen]) = _
  rw [Yard.run_append, inside]
  show (yard (out ++ out') (w' ++ .openParen :: w)).run [.rightParen] = _
  rw [Yard.run_single, Yard.step, Yard.close_behind _ _ hw, List.append_assoc]

end DeskCalc.Postfix
