/-
  DeskCalc.Proofs.Postfix.Places — where every token of a row comes out.

  An order is told by the positions of the row, one behind the other in the order in
  which their tokens come out. So tokens that are equal are not taken for each other:
  each position but those of parentheses is there once, that of a value before those
  of all tokens behind it, and those between two parentheses that are partners are
  next to each other. This holds of any row whose parentheses are balanced, however
  badly formed it is, and a row whose parentheses are not has no order.

  Proved:
  - `between_eq`: the positions between two others.
  - `places_arrange`: the positions of a row as the yard puts them out.
  - `order_places`: what an order keeps of its row, and which rows have none.
-/

import DeskCalc.Proofs.Postfix.Account
import DeskCalc.Proofs.Postfix.Labels
import Mathlib.Data.List.FinRange

namespace DeskCalc.Postfix

open scoped List
open Nesting (Balanced)
open Token (isParen isValue)

/-- The tokens between two positions. -/
def between (ts : List Token) (a b : Nat) : List Token := (ts.take b).drop (a + 1)

/-- The parentheses at two positions are partners: between them all others pair off. -/
structure Partners (ts : List Token) (a b : Fin ts.length) : Prop where
  opening : ts.get a = .leftParen
  closing : ts.get b = .rightParen
  lt : a < b
  inside : Balanced .leftParen .rightParen (between ts a b)

/-- The positions of a row, without its parentheses, in the order in which their tokens come out. -/
structure Places (ts : List Token) (places : List (Fin ts.length)) : Prop where
  /-- Each position is there once. -/
  perm : places ~ (List.finRange ts.length).filter fun i => !(ts.get i).isParen
  /-- A value comes before all that stands behind it, be that a value, an operator or a function. -/
  values_first : ∀ i j, i < j → (ts.get i).isValue = true → (ts.get j).isParen = false → [i, j] <+ places
  /-- What stands between partners comes out in one piece, in the order that it has alone. -/
  blocks : ∀ a b, Partners ts a b → ∃ left block right, places = left ++ block ++ right ∧
    (∀ i, i ∈ block ↔ a < i ∧ i < b ∧ (ts.get i).isParen = false) ∧ order (between ts a b) = .ok (block.map ts.get)

/-! ## Positions -/

section

variable {n : Nat} {before behind : List (Fin n)} {i : Fin n}

theorem length_before (h : List.finRange n = before ++ i :: behind) : before.length = i := by
  have at_i : (List.finRange n)[before.length]? = some i := by simp [h]
  obtain ⟨hlt, eq⟩ := List.getElem?_eq_some_iff.mp at_i
  rw [List.getElem_finRange] at eq
  exact congrArg Fin.val eq

theorem mem_behind_iff (h : List.finRange n = before ++ i :: behind) (j : Fin n) : j ∈ behind ↔ i < j := by
  have ascending := h ▸ List.pairwise_lt_finRange n
  obtain ⟨-, later, earlier⟩ := List.pairwise_append.mp ascending
  constructor
  · exact fun hj => (List.pairwise_cons.mp later).1 j hj
  · intro hj
    have somewhere : j ∈ before ++ i :: behind := h ▸ List.mem_finRange j
    rcases List.mem_append.mp somewhere with hb | hb
    · exact absurd (earlier j hb i List.mem_cons_self) (Fin.lt_asymm hj)
    · rcases List.mem_cons.mp hb with rfl | hb
      · exact absurd hj (Fin.lt_irrefl _)
      · exact hb

theorem mem_inner_iff {inner : List (Fin n)} {k : Fin n} (h : List.finRange n = before ++ i :: inner ++ k :: behind)
    (j : Fin n) : j ∈ inner ↔ i < j ∧ j < k := by
  have behind_i : j ∈ inner ++ k :: behind ↔ i < j := mem_behind_iff (by rw [h, List.append_assoc]; rfl) j
  have behind_k : j ∈ behind ↔ k < j := mem_behind_iff h j
  constructor
  · intro hj
    have ascending := h ▸ List.pairwise_lt_finRange n
    refine ⟨behind_i.mp (List.mem_append_left _ hj), ?_⟩
    exact (List.pairwise_append.mp ascending).2.2 j (by simp [hj]) k List.mem_cons_self
  · rintro ⟨hi, hk⟩
    rcases List.mem_append.mp (behind_i.mpr hi) with hj | hj
    · exact hj
    · rcases List.mem_cons.mp hj with rfl | hj
      · exact absurd hk (Fin.lt_irrefl _)
      · exact absurd (behind_k.mp hj) (Fin.lt_asymm hk)

end

/-- The tokens between two positions are those of the positions between them. -/
theorem between_eq {ts : List Token} {before inner behind : List (Fin ts.length)} {a b : Fin ts.length}
    (h : List.finRange ts.length = before ++ a :: inner ++ b :: behind) : between ts a b = inner.map ts.get := by
  have front : before.length = a := length_before (by rw [h, List.append_assoc, List.cons_append])
  have back : (before ++ a :: inner).length = b := length_before h
  have whole : ts = (before ++ a :: inner).map ts.get ++ ts.get b :: behind.map ts.get := by
    calc ts = (List.finRange ts.length).map ts.get := ts.map_get_finRange.symm
      _ = _ := by rw [h, List.map_append, List.map_cons]
  calc between ts a b
      = (((before ++ a :: inner).map ts.get ++ ts.get b :: behind.map ts.get).take b).drop (a + 1) :=
        congrArg (fun row => (row.take b).drop (a + 1)) whole
    _ = ((before ++ a :: inner).map ts.get).drop (a + 1) := by
        rw [List.take_left' (by rw [List.length_map, back])]
    _ = inner.map ts.get := by
        have front' : (before.map ts.get ++ [ts.get a]).length = a + 1 := by simp [front]
        rw [List.map_append, List.map_cons, List.append_cons, List.drop_left' front']

/-! ## The places of a row -/

theorem places_arrange {ts out : List Token} (h : order ts = .ok out) :
    Places ts (arrange ts.get (List.finRange ts.length)) ∧
      out = (arrange ts.get (List.finRange ts.length)).map ts.get := by
  have labelled : order ((List.finRange ts.length).map ts.get) = .ok out := by rw [List.map_get_finRange, h]
  refine ⟨⟨arrange_perm labelled, ?_, ?_⟩, order_map labelled⟩
  · intro i j hij value paren
    obtain ⟨before, behind, split⟩ := List.append_of_mem (List.mem_finRange i)
    have apart := List.nodup_finRange ts.length
    rw [split] at labelled apart ⊢
    exact sublist_arrange labelled apart value ((mem_behind_iff split j).mpr hij) paren
  · intro a b partners
    obtain ⟨before, rest, split⟩ := List.append_of_mem (List.mem_finRange a)
    obtain ⟨inner, behind, rfl⟩ := List.append_of_mem ((mem_behind_iff split b).mpr partners.lt)
    obtain ⟨block, alone⟩ := order_of_balanced partners.inside
    rw [← List.cons_append, ← List.append_assoc] at split
    rw [between_eq split] at alone
    obtain ⟨left, right, whole⟩ := arrange_block partners.opening partners.closing alone
    refine ⟨left, arrange ts.get inner, right, split ▸ whole, fun i => ?_, ?_⟩
    · rw [(arrange_perm alone).mem_iff, List.mem_filter, Bool.not_eq_true', mem_inner_iff split, and_assoc]
    · rw [between_eq split, alone, order_map alone]

/-- A row has an order exactly when its parentheses are balanced, and no other error. What comes out are its
    tokens but the parentheses, the values as they stood, and each token from a place of its own. -/
theorem order_places (ts : List Token) :
    match order ts with
    | .error e => e = .unbalanced ∧ ¬Balanced .leftParen .rightParen ts
    | .ok out => Balanced .leftParen .rightParen ts ∧ out ~ ts.filter (!isParen ·) ∧
        out.filter isValue = ts.filter isValue ∧ ∃ places, Places ts places ∧ out = places.map ts.get := by
  by_cases balanced : Balanced .leftParen .rightParen ts
  · obtain ⟨out, h⟩ := order_of_balanced balanced
    rw [h]
    exact ⟨balanced, order_perm h, order_values h, _, places_arrange h⟩
  · rw [order_of_not_balanced balanced]
    exact ⟨rfl, balanced⟩

/-- In `(1 + 2) + 3` the first sum comes out in front of the second. -/
example :
    let ts : List Token := [.leftParen, .number 1, .operator .plus, .number 2, .rightParen, .operator .plus, .number 3]
    arrange ts.get (List.finRange ts.length) = [1, 3, 2, 6, 5] := by decide

end DeskCalc.Postfix
