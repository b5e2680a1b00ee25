/-
  DeskCalc.Proofs.Postfix.Labels — what goes where in the yard.

  The yard looks at the kinds of tokens and at nothing else. So labels that stand for
  tokens can pass in their place and come out as the tokens do (`order_map`), and
  labels tell apart what equal tokens do not. What is out stays in front of what is
  to come, so a value comes out before all that stands behind it. Below an opening
  parenthesis nothing moves before its partner has come, so the labels between the two
  come out in one block, arranged as they are alone.

  Proved:
  - `order_map`: labels that stand for a row are arranged as its order.
  - `arrange_perm`: the labels that come out, those of parentheses being left out.
  - `sublist_arrange`: a value comes before what stands behind it.
  - `arrange_block`: what stands between parentheses that are partners.
-/

import DeskCalc.Proofs.Postfix.Yard
import DeskCalc.Proofs.Token.Kind
import Mathlib.Data.List.TakeWhile

namespace DeskCalc.Postfix

/-- A yard of labels: those that are out, and those that wait, the top first. -/
structure Labels (α : Type) where
  output : List α
  waiting : List α

open scoped List
open Token (isParen isValue)

variable {α : Type} (kind : α → Token)

namespace Labels

/-! ## Labels in place of tokens -/

/-- Whether a token that waits has to be out before `op` may wait above it. -/
def bindsAtLeast (op : Operator) (t : Token) : Bool := t.precedence?.any (op.precedence ≤ ·)

def notOpening : Token → Bool
  | .leftParen => false
  | _ => true

def release (p : Token → Bool) (l : Labels α) : Labels α :=
  ⟨l.output ++ l.waiting.takeWhile (p ∘ kind), l.waiting.dropWhile (p ∘ kind)⟩

def call (l : Labels α) : Labels α :=
  match l.waiting with
  | [] => l
  | a :: rest =>
    match kind a with
    | .function _ => ⟨l.output ++ [a], rest⟩
    | _ => l

/-- A label passes as its token does. A parenthesis without its partner lets out all that waits. -/
def pass (l : Labels α) (a : α) : Labels α :=
  match kind a with
  | .number _ | .unknown _ => ⟨l.output ++ [a], l.waiting⟩
  | .function _ | .leftParen => ⟨l.output, a :: l.waiting⟩
  | .operator op =>
    let rest := l.release kind (bindsAtLeast op)
    ⟨rest.output, a :: rest.waiting⟩
  | .rightParen =>
    let inner := l.release kind notOpening
    call kind ⟨inner.output, inner.waiting.tail⟩

def run (l : Labels α) (row : List α) : Labels α := row.foldl (pass kind) l

def start : Labels α := ⟨[], []⟩

/-- All labels, those that are out in front of those that wait. -/
def all (l : Labels α) : List α := l.output ++ l.waiting

end Labels

/-- The labels of a row as they come out. -/
def arrange (row : List α) : List α := (Labels.start.run kind row).all

variable {kind} {l : Labels α} {y : Yard}

namespace Labels

/-- The yard `y` holds the tokens that the labels of `l` stand for. -/
structure Shows (kind : α → Token) (l : Labels α) (y : Yard) : Prop where
  output : y.output.toList = l.output.map kind
  waiting : y.waiting.items.map Pending.token = l.waiting.map kind

theorem start_shows (kind : α → Token) : Shows kind start Yard.start := ⟨rfl, rfl⟩

theorem emit_shows {a : α} {t : Token} (h : Shows kind l y) (ha : kind a = t) :
    Shows kind ⟨l.output ++ [a], l.waiting⟩ (y.emit t) := by
  constructor
  · simp [Yard.emit, h.output, ha]
  · exact h.waiting

theorem hold_shows {a : α} {p : Pending} (h : Shows kind l y) (ha : kind a = p.token) :
    Shows kind ⟨l.output, a :: l.waiting⟩ (y.hold p) := by
  constructor
  · exact h.output
  · simp [Yard.hold, Stack.push, h.waiting, ha]

theorem release_shows {p : Pending → Bool} {q : Token → Bool} (h : Shows kind l y) (same : ∀ a, q a.token = p a) :
    Shows kind (l.release kind q) (y.release p) := by
  obtain rfl : q ∘ Pending.token = p := funext same
  rw [Yard.eq_yard y, Yard.release_yard]
  constructor
  · show y.output.toList ++ _ = (l.output ++ _).map kind
    rw [List.map_append, ← List.takeWhile_map, ← List.takeWhile_map, h.waiting, h.output]
  · show (y.waiting.items.dropWhile _).map _ = (l.waiting.dropWhile _).map kind
    rw [← List.dropWhile_map, ← List.dropWhile_map, h.waiting]

theorem call_shows (h : Shows kind l y) : Shows kind (l.call kind) y.call := by
  rw [Yard.eq_yard y] at h ⊢
  generalize y.output.toList = out, y.waiting.items = w at h ⊢
  obtain ⟨output, waiting⟩ := h
  change w.map Pending.token = l.waiting.map kind at waiting
  cases w with
  | nil =>
    have none : l.waiting = [] := List.map_eq_nil_iff.mp waiting.symm
    rw [call, none]
    exact ⟨output, by rw [none]; rfl⟩
  | cons p below =>
    obtain ⟨a, rest, hw, hp, hrest⟩ := List.map_eq_cons_iff.mp waiting.symm
    have kept : Shows kind l (yard out (p :: below)) := ⟨output, waiting⟩
    rw [call, hw]
    cases p with
    | function f =>
      simp only [hp, Pending.token]
      rw [Yard.call_function]
      refine ⟨?_, hrest.symm⟩
      change out = l.output.map kind at output
      simp [yard, output, hp, Pending.token]
    | openParen =>
      simp only [hp, Pending.token]
      exact kept
    | operator op =>
      simp only [hp, Pending.token]
      exact kept

theorem bindsAtLeast_token (op : Operator) (p : Pending) : bindsAtLeast op p.token = p.bindsAtLeast op := by
  cases p <;> rfl

theorem notOpening_token (p : Pending) : notOpening p.token = (p != .openParen) := by
  cases p <;> rfl

/-- A label passes as its token does. -/
theorem pass_shows {a : α} {y' : Yard} (h : Shows kind l y) (hs : y.step (kind a) = .ok y') :
    Shows kind (l.pass kind a) y' := by
  rw [pass]
  cases ha : kind a with
  | number v =>
    rw [ha] at hs
    injection hs with hs
    exact hs ▸ emit_shows h ha
  | unknown text =>
    rw [ha] at hs
    injection hs with hs
    exact hs ▸ emit_shows h ha
  | function f =>
    rw [ha] at hs
    injection hs with hs
    exact hs ▸ hold_shows h ha
  | leftParen =>
    rw [ha] at hs
    injection hs with hs
    exact hs ▸ hold_shows h ha
  | operator op =>
    rw [ha] at hs
    injection hs with hs
    exact hs ▸ hold_shows (release_shows h (bindsAtLeast_token op)) ha
  | rightParen =>
    rw [ha, Yard.step, Yard.close] at hs
    have inner := release_shows h notOpening_token
    generalize y.release (· != .openParen) = released at hs inner
    split at hs
    · cases hs
    · rename_i p below hw
      injection hs with hs
      rw [← hs]
      refine call_shows ⟨inner.output, ?_⟩
      show below.map Pending.token = (l.release kind notOpening).waiting.tail.map kind
      rw [List.map_tail, ← inner.waiting, hw]
      rfl

theorem run_shows {row : List α} {y' : Yard} (h : Shows kind l y) (hr : y.run (row.map kind) = .ok y') :
    Shows kind (l.run kind row) y' := by
  induction row generalizing l y with
  | nil =>
    injection hr with hr
    exact hr ▸ h
  | cons a row ih =>
    obtain ⟨u, hs, hu⟩ := Yard.run_cons_eq_ok.mp hr
    exact ih (pass_shows h hs) hu

/-- Where no parenthesis waits, no label stands for one. -/
theorem notOpening_of_shows {out : List Token} {w : List Pending} (h : Shows kind l (yard out w))
    (hw : .openParen ∉ w) : ∀ a ∈ l.waiting, (notOpening ∘ kind) a = true := by
  intro a ha
  have held : kind a ∈ w.map Pending.token := h.waiting ▸ List.mem_map_of_mem ha
  obtain ⟨p, hp, eq⟩ := List.mem_map.mp held
  rw [Function.comp_apply, ← eq, notOpening_token]
  exact Yard.ne_openParen hw p hp

end Labels

/-- Labels come out as the tokens that they stand for. -/
theorem order_map {row : List α} {out : List Token}
    (h : order (row.map kind) = .ok out) : out = (arrange kind row).map kind := by
  obtain ⟨out', w, hr, -, rfl⟩ := order_eq_ok h
  obtain ⟨output, waiting⟩ := Labels.run_shows (Labels.start_shows kind) hr
  rw [arrange, Labels.all, List.map_append, ← output, ← waiting]
  rfl

/-! ## What comes out -/

namespace Labels

section

variable (kind) (l : Labels α)

/-- All labels but those of the parentheses that wait. -/
def content : List α := l.output ++ l.waiting.filter (notOpening ∘ kind)

theorem content_emit (a : α) :
    (content kind ⟨l.output ++ [a], l.waiting⟩).Perm (content kind l ++ [a]) := by
  rw [content, content, List.append_assoc, List.append_assoc]
  exact List.perm_append_comm.append_left l.output

theorem content_hold (a : α) :
    (content kind ⟨l.output, a :: l.waiting⟩).Perm (content kind l ++ [a].filter (notOpening ∘ kind)) := by
  rw [content, content, List.append_assoc, ← List.singleton_append, List.filter_append]
  exact List.perm_append_comm.append_left l.output

theorem content_release {q : Token → Bool} (hq : ∀ t, q t = true → notOpening t = true) :
    content kind (l.release kind q) = content kind l := by
  have whole : (l.waiting.takeWhile (q ∘ kind)).filter (notOpening ∘ kind) = l.waiting.takeWhile (q ∘ kind) :=
    List.filter_eq_self.mpr fun a ha => hq _ (List.all_eq_true.mp List.all_takeWhile a ha)
  calc content kind (l.release kind q)
      = l.output ++ ((l.waiting.takeWhile (q ∘ kind)).filter (notOpening ∘ kind) ++
          (l.waiting.dropWhile (q ∘ kind)).filter (notOpening ∘ kind)) := by
        rw [whole, content, release, List.append_assoc]
    _ = content kind l := by rw [← List.filter_append, List.takeWhile_append_dropWhile, content]

theorem content_call : content kind (l.call kind) = content kind l := by
  rw [call]
  split
  · rfl
  · rename_i a rest hw
    split
    · rename_i f ha
      simp [content, hw, ha, notOpening]
    · rfl

theorem notOpening_of_bindsAtLeast (op : Operator) (t : Token) (h : bindsAtLeast op t = true) :
    notOpening t = true := by
  cases t <;> first | rfl | cases h

/-- What a closing parenthesis takes away, its partner, is no content. -/
theorem content_close :
    content kind ⟨(l.release kind notOpening).output, (l.release kind notOpening).waiting.tail⟩ = content kind l := by
  rw [← content_release kind l fun _ h => h]
  have partner : ∀ a ∈ (l.release kind notOpening).waiting.head?, notOpening (kind a) = false := by
    intro a ha
    have stop := List.head?_dropWhile_not (notOpening ∘ kind) l.waiting
    rw [show (l.waiting.dropWhile (notOpening ∘ kind)).head? = some a from ha] at stop
    simpa using stop
  generalize l.release kind notOpening = inner at partner ⊢
  rcases inner with ⟨out, _ | ⟨a, rest⟩⟩
  · rfl
  · simp [content, partner a rfl]

/-- A label that passes is content, unless it stands for a parenthesis. -/
theorem pass_content (a : α) :
    (content kind (l.pass kind a)).Perm (content kind l ++ [a].filter fun a => !isParen (kind a)) := by
  rw [pass]
  cases ha : kind a with
  | number v => simpa [ha, isParen] using content_emit kind l a
  | unknown text => simpa [ha, isParen] using content_emit kind l a
  | function f => simpa [ha, isParen, notOpening] using content_hold kind l a
  | leftParen => simpa [ha, isParen, notOpening] using content_hold kind l a
  | operator op =>
    have released := content_release kind l (notOpening_of_bindsAtLeast op)
    rw [← released]
    simpa [ha, isParen, notOpening] using content_hold kind (l.release kind (bindsAtLeast op)) a
  | rightParen =>
    simp only [content_call, content_close]
    simp [ha, isParen]

theorem run_content (row : List α) :
    (content kind (l.run kind row)).Perm (content kind l ++ row.filter fun a => !isParen (kind a)) := by
  induction row generalizing l with
  | nil => rw [List.filter_nil, List.append_nil]; exact .refl _
  | cons a row ih =>
    rw [← List.singleton_append, List.filter_append, ← List.append_assoc]
    exact (ih (l.pass kind a)).trans ((pass_content kind l a).append_right _)

end

end Labels

/-- All labels come out, but for those that stand for parentheses. -/
theorem arrange_perm {row : List α} {out : List Token} (h : order (row.map kind) = .ok out) :
    (arrange kind row).Perm (row.filter fun a => !isParen (kind a)) := by
  obtain ⟨out', w, hr, hw, -⟩ := order_eq_ok h
  have shown := Labels.run_shows (Labels.start_shows kind) hr
  have whole := List.filter_eq_self.mpr (Labels.notOpening_of_shows shown hw)
  have passed := Labels.run_content kind Labels.start row
  rw [Labels.content, whole] at passed
  exact passed

/-! ## What comes out first -/

namespace Labels

section

variable (kind) (l : Labels α)

theorem output_release (q : Token → Bool) : l.output <+: (l.release kind q).output := List.prefix_append _ _

theorem output_call : l.output <+: (l.call kind).output := by
  rw [call]
  split
  · exact List.prefix_refl _
  · split
    · exact List.prefix_append _ _
    · exact List.prefix_refl _

/-- What is out stays where it is. -/
theorem output_pass (a : α) : l.output <+: (l.pass kind a).output := by
  rw [pass]
  cases kind a with
  | number v => exact List.prefix_append _ _
  | unknown text => exact List.prefix_append _ _
  | function f => exact List.prefix_refl _
  | leftParen => exact List.prefix_refl _
  | operator op => exact output_release kind l _
  | rightParen =>
    have inner := output_release kind l notOpening
    exact inner.trans (output_call kind ⟨_, (l.release kind notOpening).waiting.tail⟩)

theorem output_run (row : List α) : l.output <+: (l.run kind row).output := by
  induction row generalizing l with
  | nil => exact List.prefix_refl _
  | cons a row ih => exact (output_pass kind l a).trans (ih (l.pass kind a))

end

theorem run_append (l : Labels α) (row rest : List α) : l.run kind (row ++ rest) = (l.run kind row).run kind rest :=
  List.foldl_append

theorem pass_value (l : Labels α) {a : α} (ha : isValue (kind a) = true) :
    l.pass kind a = ⟨l.output ++ [a], l.waiting⟩ := by
  rw [pass]
  cases hk : kind a <;> first | rfl | (rw [hk] at ha; cases ha)

/-- A value is out as soon as it has passed. -/
theorem value_mem_output (l : Labels α) {a : α} (ha : isValue (kind a) = true) (row : List α) :
    a ∈ (l.run kind (row ++ [a])).output := by
  rw [run_append]
  show a ∈ ((l.run kind row).pass kind a).output
  rw [pass_value _ ha]
  exact List.mem_append_right _ (List.mem_singleton.mpr rfl)

/-- What is out has passed. -/
theorem mem_of_mem_output {row : List α} {a : α} (h : a ∈ (start.run kind row).output) : a ∈ row := by
  have content : a ∈ content kind (start.run kind row) := List.mem_append_left _ h
  have passed := (run_content kind start row).mem_iff.mp content
  exact (List.mem_filter.mp passed).1

end Labels

variable (kind) in
theorem output_prefix_arrange (row rest : List α) :
    (Labels.start.run kind row).output <+: arrange kind (row ++ rest) := by
  rw [arrange, Labels.run_append]
  exact (Labels.output_run kind _ rest).trans (List.prefix_append _ _)

/-- A value comes out before all that stands behind it, labels being told apart. -/
theorem sublist_arrange {before behind : List α} {a b : α} {out : List Token}
    (h : order ((before ++ a :: behind).map kind) = .ok out) (apart : (before ++ a :: behind).Nodup)
    (ha : isValue (kind a) = true) (hb : b ∈ behind) (hp : isParen (kind b) = false) :
    [a, b] <+ arrange kind (before ++ a :: behind) := by
  have split : before ++ a :: behind = (before ++ [a]) ++ behind := by simp
  rw [split] at h apart ⊢
  obtain ⟨rest, whole⟩ := output_prefix_arrange kind (before ++ [a]) behind
  have comes : b ∈ arrange kind (before ++ [a] ++ behind) :=
    (arrange_perm h).mem_iff.mpr (List.mem_filter.mpr ⟨List.mem_append_right _ hb, by rw [hp]; rfl⟩)
  rw [← whole] at comes ⊢
  have later : b ∉ (Labels.start.run kind (before ++ [a])).output :=
    fun out => (List.nodup_append.mp apart).2.2 b (Labels.mem_of_mem_output out) b hb rfl
  have first : [a] <+ (Labels.start.run kind (before ++ [a])).output :=
    List.singleton_sublist.mpr (Labels.value_mem_output _ ha before)
  exact first.append (List.singleton_sublist.mpr ((List.mem_append.mp comes).resolve_left later))

/-! ## Between two parentheses -/

namespace Labels

/-- The labels `l` with, above the label `a`, those of `m`. -/
def above (l : Labels α) (a : α) (m : Labels α) : Labels α := ⟨l.output ++ m.output, m.waiting ++ a :: l.waiting⟩

section

variable {a : α} (opening : kind a = .leftParen) (l m : Labels α)

include opening

theorem release_above {q : Token → Bool} (hq : q .leftParen = false) :
    (above l a m).release kind q = above l a (m.release kind q) := by
  have stop : ∀ b ∈ (a :: l.waiting).head?, (q ∘ kind) b = false :=
    Span.stop_cons (by rw [Function.comp_apply, opening, hq]) l.waiting
  rw [release, above, Span.takeWhile_append_of_stop _ stop, Span.dropWhile_append_of_stop _ stop, List.append_assoc]
  rfl

theorem call_above : (above l a m).call kind = above l a (m.call kind) := by
  rcases m with ⟨out, _ | ⟨b, rest⟩⟩
  · simp [call, above, opening]
  · cases hb : kind b <;> simp [call, above, hb]

/-- Nothing below an opening parenthesis takes part, until its partner comes. -/
theorem pass_above {m : Labels α} {b : α} (held : kind b = .rightParen → ∃ c ∈ m.waiting, kind c = .leftParen) :
    (above l a m).pass kind b = above l a (m.pass kind b) := by
  rw [pass, pass]
  cases hb : kind b with
  | number v => simp [above]
  | unknown text => simp [above]
  | function f => simp [above]
  | leftParen => simp [above]
  | operator op =>
    simp only [release_above opening l m (show bindsAtLeast op .leftParen = false from rfl)]
    rfl
  | rightParen =>
    obtain ⟨c, hc, partner⟩ := held hb
    have kept : (m.release kind notOpening).waiting ≠ [] := by
      intro none
      have all := List.dropWhile_eq_nil_iff.mp none c hc
      rw [Function.comp_apply, partner] at all
      cases all
    simp only [release_above opening l m (show notOpening .leftParen = false from rfl)]
    generalize m.release kind notOpening = inner at kept ⊢
    rw [← call_above opening, above, above, List.tail_append_of_ne_nil kept]

theorem run_above {m : Labels α} {y y' : Yard} {row : List α} (h : Shows kind m y)
    (hr : y.run (row.map kind) = .ok y') : (above l a m).run kind row = above l a (m.run kind row) := by
  induction row generalizing m y with
  | nil => rfl
  | cons b row ih =>
    obtain ⟨u, hs, hu⟩ := Yard.run_cons_eq_ok.mp hr
    have held : kind b = .rightParen → ∃ c ∈ m.waiting, kind c = .leftParen := by
      intro hb
      rw [hb, Yard.step, Yard.eq_yard y] at hs
      obtain ⟨inner, below, -, hw, -⟩ := Yard.close_eq_ok hs
      have partner : Token.leftParen ∈ m.waiting.map kind := by
        rw [← h.waiting, hw]
        simp [Pending.token]
      simpa using partner
    show ((above l a m).pass kind b).run kind row = _
    rw [pass_above opening l held]
    exact ih (pass_shows h hs) hu

end

/-- What stands between two parentheses that are partners comes out by itself. -/
theorem run_block {a b : α} {row : List α} {block : List Token} (opening : kind a = .leftParen)
    (closing : kind b = .rightParen) (h : order (row.map kind) = .ok block) (l : Labels α) :
    l.run kind (a :: row ++ [b]) = call kind ⟨l.output ++ arrange kind row, l.waiting⟩ := by
  obtain ⟨out', w, hr, hw, -⟩ := order_eq_ok h
  have shown := run_shows (start_shows kind) hr
  have passed := run_above opening l (start_shows kind) hr
  have entered : l.pass kind a = above l a start := by
    rw [pass]
    simp [opening, above, start]
  have stays := notOpening_of_shows shown hw
  have stop : ∀ c ∈ (a :: l.waiting).head?, (notOpening ∘ kind) c = false :=
    Span.stop_cons (by rw [Function.comp_apply, opening]; rfl) l.waiting
  have closed : (above l a (start.run kind row)).release kind notOpening =
      ⟨l.output ++ arrange kind row, a :: l.waiting⟩ := by
    rw [release, above, Span.takeWhile_span stays stop, Span.dropWhile_span stays stop, List.append_assoc]
    rfl
  rw [run_append]
  show pass kind ((l.pass kind a).run kind row) b = _
  rw [entered, passed, pass]
  simp only [closing, closed, List.tail_cons]

end Labels

theorem arrange_block {before inner behind : List α} {a b : α} {block : List Token} (opening : kind a = .leftParen)
    (closing : kind b = .rightParen) (h : order (inner.map kind) = .ok block) :
    ∃ left right, arrange kind (before ++ a :: inner ++ b :: behind) = left ++ arrange kind inner ++ right := by
  have split : before ++ a :: inner ++ b :: behind = (before ++ (a :: inner ++ [b])) ++ behind := by simp
  obtain ⟨rest, whole⟩ := output_prefix_arrange kind (before ++ (a :: inner ++ [b])) behind
  rw [Labels.run_append, Labels.run_block opening closing h] at whole
  obtain ⟨called, out⟩ := Labels.output_call kind
    ⟨(Labels.start.run kind before).output ++ arrange kind inner, (Labels.start.run kind before).waiting⟩
  refine ⟨(Labels.start.run kind before).output, called ++ rest, ?_⟩
  rw [split, ← whole, ← out]
  simp only [List.append_assoc]

end DeskCalc.Postfix
