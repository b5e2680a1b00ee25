/-
  DeskCalc.Stack — a last-in first-out stack, shared by the two passes over tokens.

  Taking from an empty stack is an error at once.

  Proved:
  - `pop_push`: what is pushed is what the next pop gives back.
  - `pop_eq_error_iff`: a pop fails on the empty stack and on no other.
  - `popWhile_items`: `popWhile` parts the stack in two and loses nothing.
-/

import DeskCalc.EvalError

namespace DeskCalc

structure Stack (α : Type) where
  /-- The top comes first. -/
  items : List α
  deriving DecidableEq, Repr

namespace Stack

variable {α : Type}

def empty : Stack α := ⟨[]⟩

def push (s : Stack α) (a : α) : Stack α := ⟨a :: s.items⟩

def pop (s : Stack α) : Except EvalError (α × Stack α) :=
  match s.items with
  | [] => .error .emptyStack
  | a :: rest => .ok (a, ⟨rest⟩)

/-- The top, left in place. -/
def peek? (s : Stack α) : Option α := s.items.head?

/-- Take from the top as long as `p` holds: what was taken, in that order, and what is left. -/
def popWhile (p : α → Bool) (s : Stack α) : List α × Stack α := (s.items.takeWhile p, ⟨s.items.dropWhile p⟩)

def size (s : Stack α) : Nat := s.items.length

def isEmpty (s : Stack α) : Bool := s.items.isEmpty

@[simp] theorem pop_push (s : Stack α) (a : α) : (s.push a).pop = .ok (a, s) := rfl

theorem popWhile_items (p : α → Bool) (s : Stack α) : (s.popWhile p).1 ++ (s.popWhile p).2.items = s.items :=
  List.takeWhile_append_dropWhile

@[simp] theorem size_empty : (empty : Stack α).size = 0 := rfl

@[simp] theorem size_push (s : Stack α) (a : α) : (s.push a).size = s.size + 1 := rfl

theorem pop_eq_error_iff (s : Stack α) : s.pop = .error .emptyStack ↔ s = empty := by
  rcases s with ⟨_ | ⟨a, rest⟩⟩ <;> simp [pop, empty]

end Stack

end DeskCalc
