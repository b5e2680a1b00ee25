/-
  DeskCalc.Proofs.Postfix.Derived — derived tokens come out as the listing of their tree.

  While the tokens of a layer pass, what they leave waiting binds at least as tightly
  as the layer, and what waits below them binds less tightly or is an opening
  parenthesis. So an operator of the layer lets out all that its left operand left
  behind, and nothing else. Functions need more: those that were called on an atom
  wait right below it, and an atom that ends in a parenthesis lets the last of them
  out. They are therefore counted with the atom, on whichever side it leaves them.

  Proved:
  - `derives_passes`: what derived tokens let out and leave waiting makes up the listing.
  - `derived_order_and_value`: derived tokens have the listing as their order, and it
    has the value of the tree.
-/

import DeskCalc.Proofs.Postfix.Value
import DeskCalc.Proofs.Postfix.Yard

namespace DeskCalc.Postfix

open Grammar

/-! ## What waits inside a layer, and what below it -/

namespace Pending

/-- What the tokens of a layer may leave waiting. -/
def Inside (k : Layer) : Pending → Prop
  | openParen => False
  | operator op => k.bound ≤ op.precedence
  | function _ => True

/-- What may wait below the tokens of a layer. -/
def Outside (k : Layer) : Pending → Prop
  | openParen => True
  | operator op => op.precedence < k.bound
  | function _ => False

theorem Inside.bindsAtLeast {op : Operator} {a : Pending} (h : a.Inside (.ofOperator op)) :
    a.bindsAtLeast op = true := by
  cases a with
  | openParen => exact h.elim
  | operator other =>
    rw [Inside, Layer.ofOperator_bound] at h
    exact decide_eq_true h
  | function f => exact bindsAtLeast_function op f

theorem Outside.bindsAtLeast {op : Operator} {a : Pending} (h : a.Outside (.ofOperator op)) :
    a.bindsAtLeast op = false := by
  cases a with
  | openParen => rfl
  | operator other =>
    rw [Outside, Layer.ofOperator_bound] at h
    exact decide_eq_false (Nat.not_le.mpr h)
  | function f => exact h.elim

theorem Inside.loosen {k : Layer} {a : Pending} (h : a.Inside k.tighter) : a.Inside k := by
  cases a with
  | openParen => exact h
  | operator op => exact Nat.le_trans k.bound_le_tighter h
  | function f => exact h

theorem Outside.tighten {k : Layer} {a : Pending} (h : a.Outside k) : a.Outside k.tighter := by
  cases a with
  | openParen => exact h
  | operator op => exact Nat.lt_of_lt_of_le h k.bound_le_tighter
  | function f => exact h

theorem outside_operator (op : Operator) : (operator op).Outside (Layer.ofOperator op).tighter := by
  have := Layer.bound_lt_tighter (Layer.ofOperator_ne_atom op)
  rwa [Layer.ofOperator_bound] at this

theorem inside_operator (op : Operator) : (operator op).Inside (Layer.ofOperator op) :=
  Nat.le_of_eq (Layer.ofOperator_bound op)

/-- Entries that wait inside a layer are no parentheses. -/
theorem openParen_not_mem_of_inside {k : Layer} {w : List Pending} (h : ∀ a ∈ w, a.Inside k) : openParen ∉ w :=
  fun hw => h _ hw

end Pending

/-! ## Rows of a layer -/

/-- The tokens `ts` pass as a row of layer `k`: with the functions `fs` waiting for them if they are an
    atom, what comes out and what is left waiting make up `listing` and these functions. -/
def Passes (k : Layer) (ts listing : List Token) : Prop :=
  ∀ (out : List Token) (fs : List ScientificFunction) (w : List Pending), (k ≠ .atom → fs = []) →
    (∀ a ∈ w.head?, a.Outside k) → ∃ passed left,
      (yard out (fs.map Pending.function ++ w)).run ts = .ok (yard (out ++ passed) (left ++ w)) ∧
      passed ++ left.map Pending.token = listing ++ fs.map Token.function ∧ ∀ a ∈ left, a.Inside k

theorem inside_functions (k : Layer) (fs : List ScientificFunction) : ∀ a ∈ fs.map Pending.function, a.Inside k := by
  intro a ha
  obtain ⟨f, _, rfl⟩ := List.mem_map.mp ha
  trivial

theorem passes_number (v : Float) : Passes .atom [.number v] [.number v] := by
  intro out fs w _ _
  refine ⟨[.number v], fs.map Pending.function, ?_, ?_, inside_functions _ fs⟩
  · rw [Yard.run_single, Yard.step_number]
  · simp [Pending.token]

/-- A row that passes alone comes out as its listing. -/
theorem order_of_passes {ts listing : List Token} (h : Passes .expression ts listing) : order ts = .ok listing := by
  obtain ⟨passed, left, hr, hl, hi⟩ := h [] [] [] (fun _ => rfl) (by simp)
  rw [List.map_nil, List.append_nil] at hl
  change (yard [] []).run ts = _ at hr
  rw [← hl, order_eq, Yard.start_eq, hr]
  change (yard ([] ++ passed) (left ++ [])).finish = _
  rw [Yard.finish_yard, List.append_nil, if_neg (Pending.openParen_not_mem_of_inside hi), List.nil_append]

theorem passes_parens {ts listing : List Token} (h : Passes .expression ts listing) :
    Passes .atom (.leftParen :: (ts ++ [.rightParen])) listing := by
  intro out fs w _ hw
  have block := run_block (order_of_passes h) out (fs.map Pending.function ++ w)
  rw [List.cons_append] at block
  cases fs with
  | nil =>
    refine ⟨listing, [], ?_, rfl, by simp⟩
    rw [block, List.map_nil, List.nil_append, Yard.call_of_ne fun f hf => hw _ hf]
  | cons f fs =>
    refine ⟨listing ++ [.function f], fs.map Pending.function, ?_, ?_, inside_functions _ fs⟩
    · rw [block, List.map_cons, List.cons_append, Yard.call_function, List.append_assoc]
    · simp [Pending.token]

theorem passes_call (f : ScientificFunction) {ts listing : List Token} (h : Passes .atom ts listing) :
    Passes .atom (.function f :: ts) (listing ++ [.function f]) := by
  intro out fs w _ hw
  obtain ⟨passed, left, hr, hl, hi⟩ := h out (f :: fs) w (fun h => absurd rfl h) hw
  refine ⟨passed, left, ?_, ?_, hi⟩
  · rw [Yard.run_cons, Yard.step_function]
    exact hr
  · rw [hl, List.map_cons, List.append_assoc]
    rfl

theorem passes_binary (op : Operator) {ts us left right : List Token} (hl : Passes (.ofOperator op) ts left)
    (hr : Passes (Layer.ofOperator op).tighter us right) :
    Passes (.ofOperator op) (ts ++ .operator op :: us) (left ++ right ++ [.operator op]) := by
  intro out fs w hfs hw
  obtain rfl := hfs (Layer.ofOperator_ne_atom op)
  obtain ⟨passed, waits, run, out_eq, inside⟩ := hl out [] w (fun _ => rfl) hw
  obtain ⟨passed', waits', run', out_eq', inside'⟩ :=
    hr (out ++ left) [] (.operator op :: w) (fun _ => rfl) (by simpa using Pending.outside_operator op)
  rw [List.map_nil, List.append_nil] at out_eq out_eq'
  rw [List.map_nil, List.nil_append] at run'
  refine ⟨left ++ passed', waits' ++ [.operator op], ?_, ?_, ?_⟩
  · have released := Yard.step_operator (out ++ passed) (fun a ha => (inside a ha).bindsAtLeast)
      (fun a ha => (hw a ha).bindsAtLeast)
    rw [List.append_assoc, out_eq] at released
    rw [Yard.run_append, run]
    show (yard (out ++ passed) (waits ++ w)).run (.operator op :: us) = _
    rw [Yard.run_cons, released]
    show (yard (out ++ left) (.operator op :: w)).run us = _
    rw [run', List.append_assoc, List.append_assoc]
    rfl
  · rw [List.map_append, List.append_assoc, ← List.append_assoc passed', out_eq']
    simp [Pending.token]
  · intro a ha
    rcases List.mem_append.mp ha with ha | ha
    · exact (inside' a ha).loosen
    · obtain rfl := List.mem_singleton.mp ha
      exact Pending.inside_operator op

theorem passes_single {k : Layer} {ts listing : List Token} (h : Passes k.tighter ts listing) :
    Passes k ts listing := by
  intro out fs w hfs hw
  by_cases hk : k = .atom
  · subst hk
    exact h out fs w (fun h => absurd rfl h) hw
  · obtain rfl := hfs hk
    obtain ⟨passed, waits, run, out_eq, inside⟩ := h out [] w (fun _ => rfl) fun a ha => (hw a ha).tighten
    exact ⟨passed, waits, run, out_eq, fun a ha => (inside a ha).loosen⟩

/-! ## Derived tokens -/

theorem derives_passes {k : Layer} {ts : List Token} {t : Tree} (h : Derives k ts t) : Passes k ts t.listing := by
  induction h with
  | number v => exact passes_number v
  | parens _ ih => exact passes_parens ih
  | call f _ ih => exact passes_call f ih
  | binary op _ _ ihl ihr => exact passes_binary op ihl ihr
  | single _ ih => exact passes_single ih

theorem order_derived {ts : List Token} {t : Tree} (h : Derives .expression ts t) : order ts = .ok t.listing :=
  order_of_passes (derives_passes h)

/-- The tokens of an expression come out as the listing of its tree, and the listing has its value. -/
theorem derived_order_and_value {ts : List Token} {t : Tree} (h : Derives .expression ts t) :
    order ts = .ok t.listing ∧ value t.listing = .ok t.value :=
  ⟨order_derived h, value_listing t⟩

/-- Two functions called on one pair of parentheses, in front of a power and a product. -/
theorem nested_call_order_and_value :
    let inner := Tree.binary .plus (.number 2) (.number 3)
    let t := Tree.binary .times (.binary .power (.call .sqrt (.call .sqrt inner)) (.number 4)) (.number 5)
    let ts : List Token := [.function .sqrt, .function .sqrt, .leftParen, .number 2, .operator .plus, .number 3,
      .rightParen, .operator .power, .number 4, .operator .times, .number 5]
    Derives .expression ts t ∧ order ts = .ok t.listing ∧ value t.listing = .ok t.value := by
  intro inner t ts
  have sum : Derives .expression [.number 2, .operator .plus, .number 3] inner :=
    .binary .plus (.single (.single (.single (.number 2)))) (.single (.single (.number 3)))
  have power : Derives .factor _ (.binary .power (.call .sqrt (.call .sqrt inner)) (.number 4)) :=
    .binary .power (.single (.call .sqrt (.call .sqrt (.parens sum)))) (.number 4)
  have derived : Derives .expression ts t := .single (.binary .times (.single power) (.single (.number 5)))
  exact ⟨derived, derived_order_and_value derived⟩

end DeskCalc.Postfix
