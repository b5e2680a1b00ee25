/-
  DeskCalc.Proofs.Token.Trace — the trace of a text is read as the tokens it shows.

  A trace writes every token in one spelling, and a space between any two. So no piece
  goes on from one token into the next: two words stay apart, and a minus sign that is
  an operator has no digit directly behind it. Every token stands behind the same token
  as in the text, so a sign that belonged to its numeral there belongs to it again. What
  means nothing is written as it was read. Only a numeral too large for a finite number
  is lost, for what is written for an infinity is a word.

  Proved:
  - `legible_scan`: each token that is scanned is read back in its place.
  - `scan_traceChars`: and so is a whole trace.
  - `ofText_trace_iff`: which texts have a trace that is read as their tokens.
  - `trace_faithful`: that, and that the trace is worth what the text is.
-/

import DeskCalc.Evaluation
import DeskCalc.Proofs.Outcome
import DeskCalc.Proofs.Token.Lexeme
import DeskCalc.Proofs.Token.Spelling

namespace DeskCalc.Token

open Number (ofDecimal signChars)
open Number.Binary64 (infinity isFinite isNegative magnitude)
open Number.Decimal (isNumeric)
open Text (isLetter)

/-! ## One token in a trace -/

/-- What stands behind a token in a trace: nothing, or a space. -/
def Separated (rest : List Char) : Prop := ∀ c ∈ rest.head?, c = ' '

theorem Separated.stop {rest : List Char} {p : Char → Bool} (h : Separated rest) (hp : p ' ' = false) :
    ∀ c ∈ rest.head?, p c = false := by
  intro c hc
  rw [h c hc, hp]

/-- A number whose numeral was too large for a finite one. -/
def overflows : Token → Bool
  | number v => !isFinite v
  | _ => false

/-- What the text of a token is read as: the token, but for an infinite number, which has no numeral. -/
def reread : Token → List Token
  | number v => if isFinite v then [number v] else (if isNegative v then [operator .minus] else []) ++ [unknown "inf"]
  | t => [t]

theorem reread_of_not_overflows {t : Token} (h : t.overflows = false) : t.reread = [t] := by
  cases t with
  | number v => exact if_pos (by simpa [overflows] using h)
  | _ => rfl

/-- Behind `previous`, and in front of a separator, a token is read back. -/
def Rereads (previous : Option Token) (t : Token) : Prop :=
  ∀ rest, Separated rest → scan previous (t.toChars ++ rest) = t.reread ++ scan (some t) rest

section

variable {previous : Option Token}

theorem rereads_finite {v : Float} (hf : isFinite v = true) (sign : isNegative v = true → takesSign previous = true) :
    Rereads previous (number v) := by
  intro rest separated
  have numeral := Number.Decimal.ofChars?_toChars (Number.shortest (magnitude v))
  have scanned := scan_signChars numeral sign (separated.stop (by decide : isNumeric ' ' = false))
  rw [Number.ofDecimal_shortest hf] at scanned
  rw [toChars, Number.toChars_of_finite hf, reread, if_pos hf]
  exact scanned

/-- An infinity is written as a word, and its sign is an operator before a word. -/
theorem rereads_infinite {v : Float} (hv : magnitude v = infinity) : Rereads previous (number v) := by
  intro rest separated
  have lost : ¬isFinite v = true := by
    rw [Number.Binary64.isFinite_iff, hv]
    exact Nat.lt_irrefl _
  have chars : (number v).toChars = signChars (isNegative v) ++ ['i', 'n', 'f'] := by
    rw [toChars, Number.toChars, hv, if_neg (Nat.lt_irrefl _), if_pos rfl]
  have name (before : Option Token) :
      scan before (['i', 'n', 'f'] ++ rest) = unknown "inf" :: scan (some (number v)) rest := by
    have letters : ∀ c ∈ ['i', 'n', 'f'], isLetter c = true := List.all_eq_true.mp (by decide)
    have word : word ['i', 'n', 'f'] = unknown "inf" := by decide +kernel
    have behind : scan (some (unknown "inf")) rest = scan (some (number v)) rest :=
      scan_congr (show takesSign (some (unknown "inf")) = takesSign (some (number v)) from rfl) rest
    rw [scan_word before (by simp) letters (separated.stop (by decide)), word, behind]
  rw [chars, reread, if_neg lost]
  cases isNegative v with
  | false => exact name previous
  | true =>
    have minus : scan previous ('-' :: (['i', 'n', 'f'] ++ rest)) = _ :: scan _ (['i', 'n', 'f'] ++ rest) :=
      scan_symbol rfl (by decide) fun _ => Or.inr (Span.stop_cons (by decide) _)
    rw [name] at minus
    exact minus

/-- A numeral that was read, with its sign or without one. -/
theorem rereads_numeral {negative : Bool} {cs : List Char} (hne : cs ≠ []) (numeric : ∀ c ∈ cs, isNumeric c = true)
    (sign : negative = true → takesSign previous = true) : Rereads previous (numeral (signChars negative ++ cs)) := by
  cases hd : Number.Decimal.ofChars? cs with
  | some d =>
    have bound : d.magnitude ≤ infinity := Number.nearest_le_infinity _ _
    have size : magnitude (ofDecimal negative d) = d.magnitude := Number.Binary64.magnitude_ofMagnitude bound negative
    rw [numeral_signChars hd]
    by_cases hf : isFinite (ofDecimal negative d) = true
    · refine rereads_finite hf fun signed => sign ?_
      rwa [ofDecimal, Number.Binary64.isNegative_ofMagnitude bound] at signed
    · rw [Number.Binary64.isFinite_iff, size] at hf
      exact rereads_infinite (size.trans (Nat.le_antisymm bound (Nat.le_of_not_lt hf)))
  | none =>
    have unread : numeral (signChars negative ++ cs) = unknown (String.ofList (signChars negative ++ cs)) := by
      rw [numeral, Number.ofChars?_signed numeric, hd]
      rfl
    intro rest separated
    have stop := separated.stop (by decide : isNumeric ' ' = false)
    have chars : (numeral (signChars negative ++ cs)).toChars = signChars negative ++ cs := by
      rw [unread, toChars, String.toList_ofList]
    have itself : (numeral (signChars negative ++ cs)).reread = [numeral (signChars negative ++ cs)] := by
      rw [unread]
      rfl
    rw [chars, itself]
    cases negative with
    | true => exact scan_signed (sign rfl) hne numeric stop
    | false => exact scan_numeral previous hne numeric stop

/-- A word is written with the letters it was read from. -/
theorem toChars_word (cs : List Char) : (word cs).toChars = cs := by
  obtain ⟨t, read⟩ := exists_readsWord cs
  rw [word_eq_of_reads read]
  cases read with
  | times => rfl
  | function f => rfl
  | unknown _ _ => exact String.toList_ofList

theorem rereads_word {cs : List Char} (hne : cs ≠ []) (letters : ∀ c ∈ cs, isLetter c = true) :
    Rereads previous (word cs) := by
  intro rest separated
  have itself : (word cs).reread = [word cs] := by
    obtain ⟨t, read⟩ := exists_readsWord cs
    rw [word_eq_of_reads read]
    cases read <;> rfl
  rw [toChars_word, itself]
  exact scan_word previous hne letters (separated.stop (by decide))

/-- A symbol that is written as it was read. -/
theorem rereads_single {c : Char} {t : Token} (symbol : symbol? c = some t) (hx : c ≠ 'x') (chars : t.toChars = [c])
    (itself : t.reread = [t]) : Rereads previous t := by
  intro rest separated
  rw [chars, itself]
  exact scan_symbol symbol hx fun _ => Or.inr (separated.stop (by decide))

/-- The multiplication is written as a letter, whichever of its signs was read. -/
theorem rereads_operator (op : Operator) : Rereads previous (operator op) := by
  by_cases times : op = .times
  · subst times
    exact rereads_word (List.cons_ne_nil _ _) isWord_times
  · have hx : op.symbol ≠ 'x' := by
      cases op with
      | times => exact absurd rfl times
      | _ => decide
    exact rereads_single (symbol?_operator times) hx rfl rfl

theorem rereads_symbol {c : Char} {t : Token} (h : symbol? c = some t) : Rereads previous t := by
  unfold symbol? at h
  split at h
  · cases h
    exact rereads_single rfl (by decide) rfl rfl
  · cases h
    exact rereads_single rfl (by decide) rfl rfl
  · obtain ⟨op, -, rfl⟩ := Option.map_eq_some_iff.mp h
    exact rereads_operator op

end

/-! ## Traces -/

/-- `Legible previous ts`: in a trace of the tokens behind `previous` every one is read back. -/
inductive Legible : Option Token → List Token → Prop
  | nil {previous : Option Token} : Legible previous []
  | cons {previous : Option Token} {t : Token} {ts : List Token} : Rereads previous t → Legible (some t) ts →
      Legible previous (t :: ts)

/-- What the scanner puts out is legible. The induction is the scanner's own: the token before is the same in
    the text and in the trace. -/
theorem legible_scan (previous : Option Token) (cs : List Char) : Legible previous (scan previous cs) := by
  fun_induction scan previous cs with
  | case1 previous => exact .nil
  | case2 previous c cs digits guard token ih =>
    have run : ∀ d ∈ digits, isNumeric d = true := fun d hd => List.all_eq_true.mp List.all_takeWhile d hd
    refine .cons ?_ ih
    by_cases hc : isNumeric c = true
    · have plain : ∀ d ∈ c :: digits, isNumeric d = true := List.forall_mem_cons.mpr ⟨hc, run⟩
      have unsigned : Rereads previous (numeral (signChars false ++ c :: digits)) :=
        rereads_numeral (List.cons_ne_nil c digits) plain (by simp)
      exact unsigned
    · simp only [hc, Bool.false_or, Bool.and_eq_true, beq_iff_eq, Bool.not_eq_true', List.isEmpty_eq_false_iff] at guard
      obtain ⟨⟨rfl, sign⟩, hne⟩ := guard
      have signed : Rereads previous (numeral (signChars true ++ digits)) := rereads_numeral hne run fun _ => sign
      exact signed
  | case3 previous c cs digits guard letter token ih =>
    have run : ∀ d ∈ cs.takeWhile isLetter, isLetter d = true :=
      fun d hd => List.all_eq_true.mp List.all_takeWhile d hd
    exact .cons (rereads_word (List.cons_ne_nil _ _) (List.forall_mem_cons.mpr ⟨letter, run⟩)) ih
  | case4 previous c cs digits guard letter t ht ih => exact .cons (rereads_symbol ht) ih
  | case5 previous c cs digits guard letter ht ih => exact ih

theorem traceChars_cons_cons (t u : Token) (ts : List Token) :
    traceChars (t :: u :: ts) = t.toChars ++ ' ' :: traceChars (u :: ts) := by
  simp [traceChars, List.intercalate_cons_cons]

/-- A legible row of tokens is read from its trace. -/
theorem scan_traceChars {previous : Option Token} {ts : List Token} (h : Legible previous ts) :
    scan previous (traceChars ts) = ts.flatMap reread := by
  induction h with
  | nil => rw [traceChars, List.map_nil, List.intercalate_nil, scan, List.flatMap_nil]
  | @cons previous t ts first rest ih =>
    rw [List.flatMap_cons, ← ih]
    cases ts with
    | nil =>
      have last := first [] (by simp [Separated])
      rw [List.append_nil] at last
      rw [traceChars, List.map_singleton, List.intercalate_singleton, last]
      rfl
    | cons u ts =>
      have space : Separated (' ' :: traceChars (u :: ts)) := by
        intro c hc
        cases hc
        rfl
      rw [traceChars_cons_cons, first _ space, scan_ignored _ _ (by decide)]

theorem ofText_trace (text : String) : ofText (trace (ofText text)) = (ofText text).flatMap reread := by
  have legible : Legible none (ofText text) := legible_scan none text.toList
  rw [ofText, trace, String.toList_ofList, scan_traceChars legible]

/-! ## Faithful traces -/

/-- No numeral among the tokens was too large for a finite number. -/
def Fits (ts : List Token) : Prop := ∀ t ∈ ts, t.overflows = false

instance (ts : List Token) : Decidable (Fits ts) := inferInstanceAs (Decidable (∀ t ∈ ts, _))

theorem reread_of_fits {ts : List Token} (h : Fits ts) : ts.flatMap reread = ts := by
  induction ts with
  | nil => rfl
  | cons t ts ih =>
    have first := reread_of_not_overflows (h t List.mem_cons_self)
    rw [List.flatMap_cons, first, ih fun u hu => h u (List.mem_cons_of_mem _ hu), List.singleton_append]

/-- Every number that is read from a trace is finite. -/
theorem fits_reread (ts : List Token) : Fits (ts.flatMap reread) := by
  intro u hu
  obtain ⟨t, -, hu⟩ := List.mem_flatMap.mp hu
  cases t with
  | number v =>
    by_cases finite : isFinite v = true
    · obtain rfl : u = number v := by simpa [reread, finite] using hu
      simp [overflows, finite]
    · have word : (isNegative v = true ∧ u = operator .minus) ∨ u = unknown "inf" := by
        simpa [reread, finite] using hu
      rcases word with ⟨-, rfl⟩ | rfl <;> rfl
  | _ =>
    rw [reread, List.mem_singleton] at hu
    · subst hu
      rfl
    · nofun

theorem ofText_trace_iff (text : String) : ofText (trace (ofText text)) = ofText text ↔ Fits (ofText text) := by
  rw [ofText_trace]
  constructor
  · intro same
    have fits := fits_reread (ofText text)
    rwa [same] at fits
  · exact reread_of_fits

end DeskCalc.Token

namespace DeskCalc

open Token (Fits)

theorem tokens_of_evaluate {text : String} {e : Evaluation} (h : evaluate text = .ok e) :
    e.tokens = Token.ofText text := by
  obtain ⟨ordered, -, h⟩ := Outcome.bind_eq_ok.mp h
  obtain ⟨v, -, h⟩ := Outcome.bind_eq_ok.mp h
  cases h
  rfl

/-- The trace of a text is read as the tokens of the text exactly when no numeral of the text is too large for
    a finite number. Then its evaluation has the outcome of the text, the same value or the same error, and so
    has that of the trace that is shown with a value. -/
theorem trace_faithful (text : String) :
    (Token.ofText (Token.trace (Token.ofText text)) = Token.ofText text ↔ Fits (Token.ofText text)) ∧
      (Fits (Token.ofText text) → evaluate (Token.trace (Token.ofText text)) = evaluate text ∧
        ∀ e, evaluate text = .ok e → evaluate (Token.trace e.tokens) = .ok e) := by
  refine ⟨Token.ofText_trace_iff text, fun fits => ?_⟩
  have tokens := (Token.ofText_trace_iff text).mpr fits
  have outcome : evaluate (Token.trace (Token.ofText text)) = evaluate text := by
    rw [evaluate, tokens, evaluate]
  refine ⟨outcome, fun e he => ?_⟩
  rw [tokens_of_evaluate he, outcome, he]

/-- Signs that are glued to their numerals and one that is not, a negative zero, and three unknown tokens. -/
theorem trace_faithful_unknown :
    let text := "-.;1.2.3x(-0)-.50--7 xsin"
    Token.trace (Token.ofText text) = "-. 1.2.3 x ( -0 ) - 0.5 - -7 xsin" ∧ Fits (Token.ofText text) ∧
      Token.ofText (Token.trace (Token.ofText text)) = Token.ofText text ∧
      evaluate text = .error (.unknownToken "-.") ∧
      evaluate (Token.trace (Token.ofText text)) = evaluate text := by
  intro text
  have shown : Token.trace (Token.ofText text) = "-. 1.2.3 x ( -0 ) - 0.5 - -7 xsin" := by decide +kernel
  have fits : Fits (Token.ofText text) := by decide +kernel
  have outcome : evaluate text = .error (.unknownToken "-.") := by decide +kernel
  obtain ⟨same, worth⟩ := trace_faithful text
  exact ⟨shown, fits, same.mpr fits, outcome, (worth fits).1⟩

end DeskCalc
