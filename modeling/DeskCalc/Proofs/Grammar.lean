/-
  DeskCalc.Proofs.Grammar — what an expression is, said without the yard and the stack.

  A tree is an expression without its parentheses. It has a value, computed from the
  leaves up, and a listing, its operands in front of what is applied to them. The
  grammar says which rows of tokens stand for a tree, in four layers:
  - an expression is a term, or an expression, `+` or `-`, and a term;
  - a term is a factor, or a term, `x` or `/`, and a factor;
  - a factor is an atom, or a factor, `^`, and an atom;
  - an atom is a number, an expression in parentheses, or a function and an atom.

  Proved:
  - `ofOperator_bound`: the layers are in the order of the operators' precedence.
  - `derives_alternates`: in derived tokens operands and operators take turns.
-/

import DeskCalc.Token

namespace DeskCalc.Grammar

/-! ## Trees -/

inductive Tree where
  | number (value : Float)
  | call (f : ScientificFunction) (argument : Tree)
  | binary (op : Operator) (left right : Tree)
  deriving DecidableEq, Repr

namespace Tree

/-- The tokens of a tree, what is applied behind its operands. -/
def listing : Tree → List Token
  | number value => [.number value]
  | call f argument => argument.listing ++ [.function f]
  | binary op left right => left.listing ++ right.listing ++ [.operator op]

def value : Tree → Float
  | number value => value
  | call f argument => f.apply argument.value
  | binary op left right => op.apply left.value right.value

end Tree

/-! ## Layers -/

inductive Layer where
  | expression
  | term
  | factor
  | atom
  deriving DecidableEq, Repr

namespace Layer

/-- The layer that an operator builds. -/
def ofOperator : Operator → Layer
  | .plus | .minus => expression
  | .times | .divide => term
  | .power => factor

/-- The next layer inwards. Atoms are the innermost. -/
def tighter : Layer → Layer
  | expression => term
  | term => factor
  | factor => atom
  | atom => atom

/-- Operators of a lower precedence stand outside the layer. -/
def bound : Layer → Nat
  | expression => 1
  | term => 2
  | factor => 3
  | atom => 4

@[simp] theorem ofOperator_bound (op : Operator) : (ofOperator op).bound = op.precedence := by cases op <;> rfl

theorem ofOperator_ne_atom (op : Operator) : ofOperator op ≠ atom := by cases op <;> decide

theorem bound_le_tighter (k : Layer) : k.bound ≤ k.tighter.bound := by cases k <;> decide

theorem bound_lt_tighter {k : Layer} (h : k ≠ atom) : k.bound < k.tighter.bound := by
  cases k with
  | atom => exact absurd rfl h
  | _ => decide

end Layer

/-! ## Derivations -/

/-- `Derives k ts t`: by the rules of layer `k` the tokens `ts` stand for the tree `t`. Operators
    associate to the left, so only the left operand may be of the operator's own layer. -/
inductive Derives : Layer → List Token → Tree → Prop
  | number (value : Float) : Derives .atom [.number value] (.number value)
  | parens {ts : List Token} {t : Tree} :
      Derives .expression ts t → Derives .atom (.leftParen :: (ts ++ [.rightParen])) t
  | call (f : ScientificFunction) {ts : List Token} {t : Tree} :
      Derives .atom ts t → Derives .atom (.function f :: ts) (.call f t)
  | binary (op : Operator) {ts us : List Token} {l r : Tree} :
      Derives (.ofOperator op) ts l → Derives (Layer.ofOperator op).tighter us r →
      Derives (.ofOperator op) (ts ++ .operator op :: us) (.binary op l r)
  | single {k : Layer} {ts : List Token} {t : Tree} : Derives k.tighter ts t → Derives k ts t

theorem derives_ne_nil {k : Layer} {ts : List Token} {t : Tree} (h : Derives k ts t) : ts ≠ [] := by
  induction h with
  | binary => simp
  | single _ ih => exact ih
  | _ => exact List.cons_ne_nil _ _

/-! ## Operands and operators take turns -/

/-- Whether an operand has to begin behind this token. -/
def wantsOperand : Option Token → Bool
  | none => true
  | some .leftParen => true
  | some (.operator _) => true
  | some (.function _) => true
  | some _ => false

def beginsOperand : Token → Bool
  | .operator _ => false
  | .rightParen => false
  | _ => true

/-- Behind `previous`, every token begins an operand exactly where one is wanted. -/
def Alternates (previous : Option Token) : List Token → Prop
  | [] => True
  | t :: ts => beginsOperand t = wantsOperand previous ∧ Alternates (some t) ts

/-- Derived tokens stand where an operand is wanted, in front of what may stand behind an operand. -/
theorem derives_alternates_append {k : Layer} {ts : List Token} {t : Tree} (h : Derives k ts t) :
    ∀ (previous : Option Token) (us : List Token), wantsOperand previous = true →
      (∀ u, wantsOperand (some u) = false → Alternates (some u) us) → Alternates previous (ts ++ us) := by
  induction h with
  | number value =>
    intro previous us hp hu
    exact ⟨hp.symm, hu _ rfl⟩
  | parens _ ih =>
    intro previous us hp hu
    rw [List.cons_append, List.append_assoc]
    exact ⟨hp.symm, ih _ _ rfl fun u h => ⟨h.symm, hu _ rfl⟩⟩
  | call f _ ih =>
    intro previous us hp hu
    exact ⟨hp.symm, ih _ _ rfl hu⟩
  | binary op _ _ ihl ihr =>
    intro previous us hp hu
    rw [List.append_assoc]
    exact ihl _ _ hp fun u h => ⟨h.symm, ihr _ _ rfl hu⟩
  | single _ ih => exact ih

theorem derives_alternates {k : Layer} {ts : List Token} {t : Tree} (h : Derives k ts t) : Alternates none ts := by
  have := derives_alternates_append h none [] rfl fun _ _ => trivial
  rwa [List.append_nil] at this

end DeskCalc.Grammar
