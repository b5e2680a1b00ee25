/-
  DeskCalc.Proofs.Postfix.Segments — what waits in the yard, from the bottom up.

  An operator lets out what binds as tightly before it waits, so it never waits right
  above such an entry (`Layered`). That is all the steps have to keep: functions and
  opening parentheses are put on top without a condition, and what is let out, the
  function called on a closed parenthesis included, only makes the stack lower. The
  rest is read off from it. The parentheses still open cut the stack into segments, and
  a segment is made of operators that bind more and more tightly, so that there is at
  most one of each precedence, and of functions above them. No row has to be well
  formed for that, and no more can be said: every stack of segments waits behind some
  row.

  Proved:
  - `step_layered` / `run_layered`: no operator comes to wait above what it lets out.
  - `Segment.length_operators_le`: how many operators a segment can hold.
  - `layered_iff_layout`: the stacks with that property are those made of segments.
  - `run_segments`: what waits behind the front of any row, and when it is refused.
  - `exists_run_layout`: every stack of segments waits behind a row.
-/

import DeskCalc.Proofs.Postfix.Account
import Mathlib.Data.List.Chain
import Mathlib.Data.List.Perm.Subperm

namespace DeskCalc.Postfix

open Nesting (openAfter)

/-! ## Neighbours -/

namespace Pending

/-- An entry may wait right above another unless it is an operator that lets the other out. -/
def RestsOn (upper lower : Pending) : Prop := ∀ op, upper = operator op → lower.bindsAtLeast op = false

theorem restsOn_of_ne {upper : Pending} (h : ∀ op, upper ≠ operator op) (lower : Pending) : upper.RestsOn lower :=
  fun op eq => absurd eq (h op)

theorem operator_restsOn_iff {op : Operator} {lower : Pending} :
    (operator op).RestsOn lower ↔ lower.bindsAtLeast op = false := by
  constructor
  · intro h
    exact h op rfl
  · intro h _ eq
    cases eq
    exact h

theorem operator_restsOn_operator_iff {op other : Operator} :
    (operator op).RestsOn (operator other) ↔ other.precedence < op.precedence := by
  rw [operator_restsOn_iff, bindsAtLeast, decide_eq_false_iff_not, Nat.not_le]

theorem not_operator_restsOn_function (op : Operator) (f : ScientificFunction) : ¬(operator op).RestsOn (function f) := by
  rw [operator_restsOn_iff, bindsAtLeast_function]
  exact Bool.noConfusion

end Pending

/-- No operator waits right above what it would have let out, the top first. -/
def Layered (w : List Pending) : Prop := w.IsChain Pending.RestsOn

namespace Yard

theorem call_layered {out : List Token} {w : List Pending} (h : Layered w) : Layered (yard out w).call.waiting.items := by
  rcases call_cases out w with eq | ⟨f, below, rfl, eq⟩
  · rwa [eq]
  · rw [eq]
    exact h.tail

theorem step_layered {y y' : Yard} {t : Token} (hs : y.step t = .ok y') (h : Layered y.waiting.items) :
    Layered y'.waiting.items := by
  rw [eq_yard y] at hs
  generalize y.output.toList = out, y.waiting.items = w at hs h
  obtain ⟨-, rfl⟩ | ⟨p, -, hne, rfl⟩ | ⟨op, inner, below, -, rfl, -, hb, rfl⟩ | ⟨inner, below, -, -, rfl, rfl⟩ :=
    step_cases hs
  · exact h
  · exact h.cons fun lower _ => Pending.restsOn_of_ne hne lower
  · exact h.right_of_append.cons fun lower hl => Pending.operator_restsOn_iff.mpr (hb lower hl)
  · exact call_layered h.right_of_append.tail

theorem run_layered {y y' : Yard} {ts : List Token} (hr : y.run ts = .ok y') (h : Layered y.waiting.items) :
    Layered y'.waiting.items := by
  induction ts generalizing y with
  | nil =>
    injection hr with hr
    rwa [← hr]
  | cons t ts ih =>
    obtain ⟨u, hs, hu⟩ := run_cons_eq_ok.mp hr
    exact ih hu (step_layered hs h)

end Yard

/-! ## Segments -/

/-- What waits below, between or above the open parentheses, the lowest first: operators, each binding more tightly
    than those below it, and above them functions. -/
structure Segment where
  operators : List Operator
  functions : List ScientificFunction
  ascending : operators.Pairwise (·.precedence < ·.precedence)

namespace Segment

def empty : Segment := ⟨[], [], .nil⟩

def entries (s : Segment) : List Pending := s.operators.map .operator ++ s.functions.map .function

/-- Segments from the bottom up, an opening parenthesis between any two. -/
def layout (segments : List Segment) : List Pending := [.openParen].intercalate (segments.map entries)

/-- There are no more operators in a segment than precedences. -/
theorem length_operators_le (s : Segment) : s.operators.length ≤ 3 := by
  have apart : (s.operators.map Operator.precedence).Nodup := s.ascending.map _ fun _ _ => Nat.ne_of_lt
  have known : s.operators.map Operator.precedence ⊆ [1, 2, 3] := by
    intro n hn
    obtain ⟨op, -, rfl⟩ := List.mem_map.mp hn
    cases op <;> decide
  calc s.operators.length = (s.operators.map Operator.precedence).length := by rw [List.length_map]
    _ ≤ [1, 2, 3].length := (apart.subperm known).length_le

/-! ### From neighbours to segments -/

theorem layout_single (s : Segment) : layout [s] = s.entries := List.intercalate_singleton

theorem layout_cons_cons (s t : Segment) (above : List Segment) :
    layout (s :: t :: above) = s.entries ++ .openParen :: layout (t :: above) := by
  rw [layout, List.map_cons, List.map_cons, List.intercalate_cons_cons, List.append_assoc]
  rfl

/-- The lowest segment is the bottom of the stack, whatever stands above it. -/
theorem exists_layout_cons (above : List Segment) : ∃ rest, ∀ s, layout (s :: above) = s.entries ++ rest := by
  cases above with
  | nil => exact ⟨[], fun s => by rw [layout_single, List.append_nil]⟩
  | cons t above => exact ⟨.openParen :: layout (t :: above), fun s => layout_cons_cons s t above⟩

/-- An entry that is no parenthesis goes below a segment if what was lowest may wait on it. -/
theorem exists_entries_cons (s : Segment) {a : Pending} (hp : a ≠ .openParen)
    (h : ∀ b ∈ s.entries.head?, b.RestsOn a) : ∃ s' : Segment, s'.entries = a :: s.entries := by
  obtain ⟨operators, functions, ascending⟩ := s
  cases a with
  | openParen => exact absurd rfl hp
  | function f =>
    cases operators with
    | nil => exact ⟨⟨[], f :: functions, .nil⟩, rfl⟩
    | cons op ops => exact absurd (h _ rfl) (Pending.not_operator_restsOn_function op f)
  | operator op =>
    suffices tighter : ∀ other ∈ operators, op.precedence < other.precedence from
      ⟨⟨op :: operators, functions, .cons tighter ascending⟩, rfl⟩
    cases operators with
    | nil => simp
    | cons first ops =>
      have lowest : op.precedence < first.precedence := Pending.operator_restsOn_operator_iff.mp (h _ rfl)
      intro other ho
      rcases List.mem_cons.mp ho with rfl | ho
      · exact lowest
      · exact Nat.lt_trans lowest ((List.pairwise_cons.mp ascending).1 other ho)

/-- A stack, the bottom first, in which each entry may wait on the one below it is cut into segments by the
    parentheses in it. -/
theorem exists_layout {w : List Pending} (h : w.IsChain fun lower upper => upper.RestsOn lower) :
    ∃ s above, w = layout (s :: above) ∧ above.length = w.count .openParen := by
  induction w with
  | nil => exact ⟨empty, [], rfl, rfl⟩
  | cons a w ih =>
    obtain ⟨rests, chain⟩ := List.isChain_cons.mp h
    obtain ⟨s, above, eq, count⟩ := ih chain
    -- a new lowest entry joins the lowest segment, or starts one below it
    by_cases hp : a = .openParen
    · subst hp
      refine ⟨empty, s :: above, ?_, ?_⟩
      · rw [layout_cons_cons, eq]
        rfl
      · rw [List.length_cons, List.count_cons_self, count]
    · obtain ⟨rest, split⟩ := exists_layout_cons above
      rw [split] at eq
      obtain ⟨s', hs'⟩ := s.exists_entries_cons hp fun b hb =>
        rests b (eq ▸ List.mem_head?_append_of_mem_head? hb)
      refine ⟨s', above, ?_, ?_⟩
      · rw [split, hs', eq, List.cons_append]
      · rw [List.count_cons_of_ne hp, count]

/-! ### And back -/

theorem entries_chain (s : Segment) : s.entries.IsChain fun lower upper => upper.RestsOn lower := by
  refine List.IsChain.append ?_ ?_ ?_
  · rw [List.isChain_map]
    exact s.ascending.isChain.imp fun _ _ => Pending.operator_restsOn_operator_iff.mpr
  · rw [List.isChain_map]
    exact (List.pairwise_of_forall fun _ _ => Pending.restsOn_of_ne (by simp) _).isChain
  · intro lower _ upper hu
    obtain ⟨f, -, rfl⟩ := List.mem_map.mp (List.mem_of_mem_head? hu)
    exact Pending.restsOn_of_ne (by simp) lower

theorem layout_chain (segments : List Segment) :
    (layout segments).IsChain fun lower upper => upper.RestsOn lower := by
  induction segments with
  | nil => exact .nil
  | cons s above ih =>
    cases above with
    | nil =>
      rw [layout_single]
      exact s.entries_chain
    | cons t above =>
      rw [layout_cons_cons]
      refine s.entries_chain.append (ih.cons fun upper _ op _ => rfl) fun lower _ upper hu => ?_
      cases hu
      exact Pending.restsOn_of_ne (by simp) lower

end Segment

open Segment (layout)

theorem layered_iff_layout {w : List Pending} :
    Layered w ↔ ∃ segments : List Segment, w.reverse = layout segments ∧ segments.length = w.count .openParen + 1 := by
  have turned : Layered w ↔ w.reverse.IsChain fun lower upper => upper.RestsOn lower := by
    rw [List.isChain_reverse, Layered]
  rw [turned]
  constructor
  · intro h
    obtain ⟨s, above, eq, count⟩ := Segment.exists_layout h
    exact ⟨s :: above, eq, by rw [List.length_cons, count, List.count_reverse]⟩
  · rintro ⟨segments, eq, -⟩
    rw [eq]
    exact Segment.layout_chain segments

/-! ## Behind the front of a row -/

/-- Behind the front of any row, what waits is made of segments, one more than there are parentheses still open,
    and the row goes on from there; unless the front closes a parenthesis that was not opened, which refuses it. -/
theorem run_segments (front behind : List Token) :
    match Yard.start.run front with
    | .error e => e = .unbalanced ∧ openAfter .leftParen .rightParen 0 front = none ∧
        order (front ++ behind) = .error e
    | .ok y => order (front ++ behind) = y.run behind >>= Yard.finish ∧
        openAfter .leftParen .rightParen 0 front = some y.opened ∧
        ∃ segments : List Segment, y.waiting.items.reverse = layout segments ∧ segments.length = y.opened + 1 ∧
          ∀ s ∈ segments, s.operators.length ≤ 3 := by
  have counted := Yard.run_opened Yard.start front
  rw [show Yard.start.opened = 0 from rfl] at counted
  rw [order_eq, Yard.run_append]
  cases hr : Yard.start.run front with
  | error e =>
    rw [hr] at counted
    obtain ⟨lost, rfl⟩ := Outcome.elim_eq_error.mp counted.symm
    exact ⟨rfl, lost, rfl⟩
  | ok y =>
    rw [hr] at counted
    obtain ⟨segments, eq, length⟩ := layered_iff_layout.mp (Yard.run_layered hr .nil)
    exact ⟨rfl, Outcome.elim_eq_ok.mp counted.symm, segments, eq, length, fun s _ => s.length_operators_le⟩

/-- Behind `1 + 2 x 3 ^ sin sqrt ( 4 -` three operators and two functions wait below the parenthesis. -/
example :
    let front : List Token := [.number 1, .operator .plus, .number 2, .operator .times, .number 3, .operator .power,
      .function .sin, .function .sqrt, .leftParen, .number 4, .operator .minus]
    (Yard.start.run front).map (·.waiting.items.reverse) =
      .ok (layout [⟨[.plus, .times, .power], [.sin, .sqrt], by decide⟩, ⟨[.minus], [], by decide⟩]) := by rfl

/-! ## Every stack of segments -/

namespace Yard

/-- Nothing is let out by what may wait where it is put. -/
theorem step_token {w : List Pending} {a : Pending} (out : List Token) (h : Layered (a :: w)) :
    (yard out w).step a.token = .ok (yard out (a :: w)) := by
  cases a with
  | openParen => rfl
  | function f => rfl
  | operator op =>
    have none : ∀ b ∈ ([] : List Pending), b.bindsAtLeast op = true := by simp
    have stop : ∀ b ∈ w.head?, b.bindsAtLeast op = false :=
      fun b hb => Pending.operator_restsOn_iff.mp (h.rel_head? hb)
    have passed := step_operator out none stop
    rwa [List.map_nil, List.append_nil] at passed

theorem run_tokens {w : List Pending} (h : Layered w) : start.run (w.reverse.map Pending.token) = .ok (yard [] w) := by
  induction w with
  | nil => rfl
  | cons a w ih =>
    rw [List.reverse_cons, List.map_append, run_append, ih h.tail]
    show (yard [] w).run [a.token] = _
    rw [run_single, step_token [] h]

end Yard

/-- Every stack of segments waits behind some row. -/
theorem exists_run_layout (segments : List Segment) :
    ∃ ts, Yard.start.run ts = .ok (yard [] (layout segments).reverse) := by
  refine ⟨(layout segments).map Pending.token, ?_⟩
  have layered : Layered (layout segments).reverse := List.isChain_reverse.mpr (Segment.layout_chain segments)
  have run := Yard.run_tokens layered
  rwa [List.reverse_reverse] at run

end DeskCalc.Postfix
