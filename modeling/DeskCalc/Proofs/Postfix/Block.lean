/-
  DeskCalc.Proofs.Postfix.Block — tokens in parentheses in the middle of any others.

  What is out is never looked at again, so tokens do the same to a yard with more out
  before (`step_after`), errors included. Tokens that have an order leave the yard as
  they found it but for the block that came out (`run_block`), and a block that has a
  value only pushes it. So what follows the closing parenthesis depends on that value
  alone, however badly formed the tokens around the parentheses are.

  Proved:
  - `run_after` / `finish_after`: a run depends on what is out only by adding to it.
  - `order_block`: the order of a row with tokens in parentheses.
  - `value_block`: a block may be exchanged for its value.
  - `order_value_block`: so may the tokens in parentheses.
-/

import DeskCalc.Proofs.Postfix.Value
import DeskCalc.Proofs.Postfix.Yard

namespace DeskCalc.Postfix

namespace Yard

/-! ## More out before -/

/-- The yard `y` with `out` before what is out of it. -/
def after (out : List Token) (y : Yard) : Yard := yard (out ++ y.output.toList) y.waiting.items

theorem after_yard (out out' : List Token) (w : List Pending) : after out (yard out' w) = yard (out ++ out') w := rfl

theorem after_call (out : List Token) (y : Yard) : (after out y).call = after out y.call := by
  rw [eq_yard y]
  rcases y.waiting.items with _ | ⟨_ | op | f, w⟩
  · rfl
  · rfl
  · rfl
  · rw [call_function, after_yard, after_yard, call_function, List.append_assoc]

theorem after_release (out : List Token) (p : Pending → Bool) (y : Yard) :
    (after out y).release p = after out (y.release p) := by
  rw [eq_yard y, after_yard, release_yard, release_yard, after_yard, List.append_assoc]

theorem after_close (out : List Token) (y : Yard) : (after out y).close = y.close.map (after out) := by
  rw [close, close, after_release]
  generalize y.release (· != .openParen) = inner
  rw [eq_yard inner]
  generalize inner.output.toList = out', inner.waiting.items = w
  cases w with
  | nil => rfl
  | cons a below => exact congrArg Except.ok (after_call out (yard out' below))

theorem step_after (out : List Token) (y : Yard) (t : Token) : (after out y).step t = (y.step t).map (after out) := by
  cases t with
  | number v =>
    rw [eq_yard y, after_yard, step_number, step_number, List.append_assoc]
    rfl
  | unknown text =>
    rw [eq_yard y, after_yard, step_unknown, step_unknown, List.append_assoc]
    rfl
  | function f => rfl
  | leftParen => rfl
  | operator op =>
    rw [step, step, after_release]
    rfl
  | rightParen => exact after_close out y

theorem run_after (out : List Token) (y : Yard) (ts : List Token) :
    (after out y).run ts = (y.run ts).map (after out) := by
  induction ts generalizing y with
  | nil => rfl
  | cons t ts ih =>
    rw [run_cons, run_cons, step_after]
    cases y.step t with
    | error e => rfl
    | ok u => exact ih u

theorem finish_after (out : List Token) (y : Yard) : (after out y).finish = y.finish.map (out ++ ·) := by
  rw [eq_yard y, after_yard, finish_yard, finish_yard]
  split
  · rfl
  · rw [List.append_assoc]
    rfl

end Yard

/-! ## A row with a block in it -/

/-- The order of what comes behind a closing parenthesis, the function before its partner included. -/
def orderBehind (y : Yard) (ts : List Token) : Except EvalError (List Token) :=
  (yard [] y.waiting.items).call.run ts >>= Yard.finish

theorem order_block {ts block : List Token} (h : order ts = .ok block) (before behind : List Token) :
    order (before ++ (.leftParen :: ts ++ [.rightParen]) ++ behind) =
      Yard.start.run before >>= fun y => (orderBehind y behind).map (y.output.toList ++ block ++ ·) := by
  rw [order_eq, Yard.run_append, Yard.run_append]
  cases Yard.start.run before with
  | error e => rfl
  | ok y =>
    have closed := run_block h y.output.toList y.waiting.items
    have out_eq : yard (y.output.toList ++ block) y.waiting.items =
        Yard.after (y.output.toList ++ block) (yard [] y.waiting.items) := by
      rw [Yard.after_yard, List.append_nil]
    rw [← Yard.eq_yard y, out_eq, Yard.after_call] at closed
    show (y.run _ >>= (·.run behind)) >>= Yard.finish = _
    rw [closed]
    show (Yard.after _ _).run behind >>= Yard.finish = (orderBehind y behind).map _
    rw [Yard.run_after, orderBehind]
    cases (yard [] y.waiting.items).call.run behind with
    | error e => rfl
    | ok u => exact Yard.finish_after _ u

/-- A block of a postfix sequence does what its value does. -/
theorem value_block {block : List Token} {v : Float} (h : value block = .ok v) (before behind : List Token) :
    value (before ++ block ++ behind) = value (before ++ [.number v] ++ behind) := by
  have pushed : run .empty (before ++ block) = run .empty (before ++ [.number v]) := by
    rw [run_append, run_append]
    cases run .empty before with
    | error e => rfl
    | ok s => exact run_of_value h s
  have same : run .empty (before ++ block ++ behind) = run .empty (before ++ [.number v] ++ behind) := by
    rw [run_append, run_append .empty _ behind, pushed]
  rw [value, value, same]

/-- Tokens in parentheses that have a value may be exchanged for it, among any others. -/
theorem order_value_block {ts block : List Token} {v : Float} (ho : order ts = .ok block) (hv : value block = .ok v)
    (before behind : List Token) :
    order (before ++ (.leftParen :: ts ++ [.rightParen]) ++ behind) >>= value =
      order (before ++ (.leftParen :: [.number v] ++ [.rightParen]) ++ behind) >>= value := by
  have single : order [.number v] = .ok [.number v] := by
    rw [order_eq, Yard.start_eq, Yard.run_single, Yard.step_number]
    exact Yard.finish_yard [.number v] []
  rw [order_block ho, order_block single]
  cases Yard.start.run before with
  | error e => rfl
  | ok y =>
    show ((orderBehind y behind).map _) >>= value = ((orderBehind y behind).map _) >>= value
    cases orderBehind y behind with
    | error e => rfl
    | ok rest => exact value_block hv y.output.toList rest

end DeskCalc.Postfix
