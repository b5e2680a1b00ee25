/-
  DeskCalc.Proofs.Postfix.Forest — the trees that a postfix sequence stands for.

  A run can be made on trees in place of values: numbers are leaves, and a function or
  an operator is put on top of the trees that it takes. The values of the trees are
  then the stack at every moment, and their listings, the lowest tree first, are the
  tokens that have passed. So a sequence with a value is the listing of a tree, and a
  listing can be read in one way only. A sequence with parentheses or unknown tokens
  in it is no listing.

  Proved:
  - `grow_listing`: the listing of a tree puts it on top of the others.
  - `run_grow`: a run on values is the run on trees.
  - `exists_tree_of_value`: a sequence that has a value is the listing of a tree.
  - `listing_injective`: no two trees have the same listing.
  - `value_iff_listing`: the sequences that have a value are the listings.
-/

import DeskCalc.Proofs.Postfix.Value
import Mathlib.Logic.ExistsUnique

namespace DeskCalc.Postfix

open Grammar (Tree)

/-! ## Runs on trees -/

/-- The trees after a token, the last one first. -/
def graft (forest : List Tree) : Token → Option (List Tree)
  | .number v => some (.number v :: forest)
  | .function f =>
    match forest with
    | argument :: rest => some (.call f argument :: rest)
    | _ => none
  | .operator op =>
    match forest with
    | right :: left :: rest => some (.binary op left right :: rest)
    | _ => none
  | _ => none

def grow (forest : List Tree) (ts : List Token) : Option (List Tree) := ts.foldlM graft forest

theorem grow_cons (forest : List Tree) (t : Token) (ts : List Token) :
    grow forest (t :: ts) = (graft forest t).bind (grow · ts) := rfl

theorem grow_append (forest : List Tree) (ts us : List Token) :
    grow forest (ts ++ us) = (grow forest ts).bind (grow · us) := List.foldlM_append

theorem grow_listing (t : Tree) (forest : List Tree) : grow forest t.listing = some (t :: forest) := by
  induction t generalizing forest with
  | number v => rfl
  | call f argument ih =>
    rw [Tree.listing, grow_append, ih]
    rfl
  | binary op left right ihl ihr =>
    rw [Tree.listing, grow_append, grow_append, ihl, Option.bind_some, ihr]
    rfl

theorem listing_injective {t u : Tree} (h : t.listing = u.listing) : t = u := by
  have grown := grow_listing t []
  rw [h, grow_listing u []] at grown
  injection grown with grown
  injection grown with grown
  exact grown.symm

/-! ## Values and listings of trees -/

/-- The values of trees, as the stack of a run. -/
def valuesOf (forest : List Tree) : Stack Float := ⟨forest.map Tree.value⟩

/-- The listings of trees, that of the lowest first. -/
def listings (forest : List Tree) : List Token := forest.reverse.flatMap Tree.listing

theorem listings_cons (t : Tree) (forest : List Tree) : listings (t :: forest) = listings forest ++ t.listing := by
  simp [listings]

theorem step_graft {forest : List Tree} {s : Stack Float} {t : Token} (h : step (valuesOf forest) t = .ok s) :
    ∃ forest', graft forest t = some forest' ∧ s = valuesOf forest' := by
  obtain ⟨v, rfl, rfl⟩ | ⟨f, x, below, rfl, hs, rfl⟩ | ⟨op, r, l, below, rfl, hs, rfl⟩ := step_eq_ok_iff.mp h
  · exact ⟨_, rfl, rfl⟩
  · rcases forest with _ | ⟨argument, rest⟩
    · cases hs
    · cases hs
      exact ⟨_, rfl, rfl⟩
  · rcases forest with _ | ⟨right, _ | ⟨left, rest⟩⟩
    · cases hs
    · cases hs
    · cases hs
      exact ⟨_, rfl, rfl⟩

theorem graft_listings {forest forest' : List Tree} {t : Token} (h : graft forest t = some forest') :
    listings forest' = listings forest ++ [t] := by
  cases t with
  | number v =>
    cases h
    exact listings_cons _ _
  | function f =>
    rcases forest with _ | ⟨argument, rest⟩
    · cases h
    · cases h
      rw [listings_cons, listings_cons, Tree.listing, List.append_assoc]
  | operator op =>
    rcases forest with _ | ⟨right, _ | ⟨left, rest⟩⟩
    · cases h
    · cases h
    · cases h
      simp only [listings_cons, Tree.listing, List.append_assoc]
  | _ => cases h

theorem run_grow {forest : List Tree} {s : Stack Float} {ts : List Token} (h : run (valuesOf forest) ts = .ok s) :
    ∃ forest', grow forest ts = some forest' ∧ s = valuesOf forest' := by
  induction ts generalizing forest with
  | nil =>
    injection h with h
    exact ⟨forest, rfl, h.symm⟩
  | cons t ts ih =>
    obtain ⟨u, hs, hu⟩ := run_cons_eq_ok.mp h
    obtain ⟨grafted, hg, rfl⟩ := step_graft hs
    obtain ⟨forest', hr, rfl⟩ := ih hu
    exact ⟨forest', by rw [grow_cons, hg]; exact hr, rfl⟩

theorem grow_listings {forest forest' : List Tree} {ts : List Token} (h : grow forest ts = some forest') :
    listings forest' = listings forest ++ ts := by
  induction ts generalizing forest with
  | nil =>
    cases h
    rw [List.append_nil]
  | cons t ts ih =>
    rw [grow_cons] at h
    obtain ⟨grafted, hg, hr⟩ := Option.bind_eq_some_iff.mp h
    rw [ih hr, graft_listings hg, List.append_assoc]
    rfl

/-- A sequence that has a value is the listing of a tree of that value. -/
theorem exists_tree_of_value {ts : List Token} {v : Float} (h : value ts = .ok v) :
    ∃ t : Tree, t.listing = ts ∧ t.value = v := by
  have run : run (valuesOf []) ts = .ok ⟨[v]⟩ := value_eq_ok_iff.mp h
  obtain ⟨forest, grown, single⟩ := run_grow run
  rcases forest with _ | ⟨t, _ | ⟨u, rest⟩⟩
  · cases single
  · cases single
    have listed := grow_listings grown
    rw [listings_cons] at listed
    exact ⟨t, listed, rfl⟩
  · cases single

/-- A sequence has the value of the tree whose listing it is, and no value if it is the listing of none. Which
    tree that is, the sequence alone decides. -/
theorem value_iff_listing (ts : List Token) :
    (∀ v, value ts = .ok v ↔ ∃ t : Tree, t.listing = ts ∧ t.value = v) ∧
      ((∃ v, value ts = .ok v) ↔ ∃! t : Tree, t.listing = ts) := by
  constructor
  · intro v
    constructor
    · exact exists_tree_of_value
    · rintro ⟨t, rfl, rfl⟩
      exact value_listing t
  · constructor
    · rintro ⟨v, hv⟩
      obtain ⟨t, listed, -⟩ := exists_tree_of_value hv
      exact ⟨t, listed, fun u hu => listing_injective (hu.trans listed.symm)⟩
    · rintro ⟨t, rfl, -⟩
      exact ⟨t.value, value_listing t⟩

end DeskCalc.Postfix
