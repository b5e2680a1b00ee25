/-
  DeskCalc.Proofs.Session.Lines — the lines of an input, and the words of its text.

  An input is cut at its line feeds, and what follows the last of them is a line unless
  it is empty. In a text a line feed is a character of its own, so every line of a text
  is a text, and an input of such lines is one. A line feed and a carriage return are
  blanks: where a text is cut into lines its words are cut anyway, and the words of the
  lines in a row are those of the text.

  Proved:
  - `lineTexts_of_not_mem` / `lineTexts_append`: the last line, and a line in front of others.
  - `lines_encode`: the lines of a text are texts that have its words.
  - `lineTexts_all_iff`: an input is a text exactly if all its lines are.
-/

import DeskCalc.Proofs.Text.Encoding

namespace DeskCalc

/-! ## Pieces -/

/-- What holds of a piece without a separator, and in front of one by what holds behind it, holds of
    every row. -/
theorem pieces_induction {α : Type} [DecidableEq α] (sep : α) {P : List α → Prop}
    (last : ∀ piece, sep ∉ piece → P piece)
    (more : ∀ piece rest, sep ∉ piece → P rest → P (piece ++ sep :: rest)) (xs : List α) : P xs := by
  by_cases h : sep ∈ xs
  · obtain ⟨piece, rest, split, hp⟩ := List.eq_append_cons_of_mem h
    have shorter : rest.length < xs.length := by
      rw [split, List.length_append, List.length_cons]
      omega
    rw [split]
    exact more piece rest hp (pieces_induction sep last more rest)
  · exact last xs h
termination_by xs.length

namespace Text

/-! ## Words -/

theorem words_nil : words "" = [] := by simp [words]

/-- At a blank a text is cut, and the blank belongs to no word. -/
theorem words_append_blank {c : Char} (hc : isBlank c = true) (cs ds : List Char) :
    words (String.ofList (cs ++ c :: ds)) = words (String.ofList cs) ++ words (String.ofList ds) := by
  simp only [words, String.toList_ofList, List.splitOnP_append_cons cs ds hc, List.filter_append, List.map_append]

theorem words_concat_blank {c : Char} (hc : isBlank c = true) (cs : List Char) :
    words (String.ofList (cs ++ [c])) = words (String.ofList cs) := by
  rw [words_append_blank hc]
  exact (congrArg _ words_nil).trans (List.append_nil _)

end Text

namespace Session

open Text (words encode)

/-! ## Lines of bytes -/

/-- The lines of an input, each without its line feed and the carriage return before it. -/
def lines (input : List UInt8) : List (List UInt8) :=
  let pieces := input.splitOn lineFeed
  pieces.dropLast.map chomp ++ (pieces.getLast?.toList.filter (!·.isEmpty))

/-- The text of each line of an input, for those that are UTF-8. -/
def lineTexts (input : List UInt8) : List (Option String) := (lines input).map text?

theorem lines_of_not_mem {piece : List UInt8} (h : lineFeed ∉ piece) :
    lines piece = if piece = [] then [] else [piece] := by
  rw [lines, List.splitOn_eq_singleton h]
  by_cases hp : piece = []
  · subst hp
    rfl
  · simp [hp]

theorem lines_append {piece : List UInt8} (h : lineFeed ∉ piece) (rest : List UInt8) :
    lines (piece ++ lineFeed :: rest) = chomp piece :: lines rest := by
  have ne_nil := List.splitOn_ne_nil lineFeed rest
  rw [lines, lines, List.splitOn_append_cons_self_of_not_mem h]
  rw [List.dropLast_cons_of_ne_nil ne_nil, List.getLast?_cons_of_ne_nil ne_nil]
  rfl

theorem lineTexts_of_not_mem {piece : List UInt8} (h : lineFeed ∉ piece) :
    lineTexts piece = if piece = [] then [] else [text? piece] := by
  rw [lineTexts, lines_of_not_mem h]
  split <;> rfl

theorem lineTexts_append {piece : List UInt8} (h : lineFeed ∉ piece) (rest : List UInt8) :
    lineTexts (piece ++ lineFeed :: rest) = text? (chomp piece) :: lineTexts rest := by
  rw [lineTexts, lines_append h, List.map_cons]
  rfl

theorem chomp_cases (piece : List UInt8) : piece = chomp piece ∨ piece = chomp piece ++ [carriageReturn] := by
  rw [chomp]
  split
  · rename_i h
    obtain ⟨front, rfl⟩ := List.getLast?_eq_some_iff.mp h
    exact Or.inr (by rw [List.dropLast_concat])
  · exact Or.inl rfl

/-! ## Lines of a text -/

theorem encode_lineFeed (cs ds : List Char) : encode (cs ++ '\n' :: ds) = encode cs ++ lineFeed :: encode ds := by
  rw [Text.encode_append]
  rfl

theorem lineFeed_mem_encode_iff {cs : List Char} : lineFeed ∈ encode cs ↔ '\n' ∈ cs :=
  Text.mem_encode_iff (d := '\n') (show '\n'.val ≤ 127 by decide)

theorem ends_in_carriageReturn_iff {cs : List Char} :
    (encode cs).getLast? = some carriageReturn ↔ cs.getLast? = some '\r' :=
  Text.getLast?_encode_iff (d := '\r') (show '\r'.val ≤ 127 by decide)

theorem text?_encode (cs : List Char) : text? (encode cs) = some (String.ofList cs) := by
  rw [text?_eq_some_iff, String.toList_ofList]

/-- The carriage return that is dropped ends no word. -/
theorem chomp_encode (cs : List Char) :
    ∃ line, text? (chomp (encode cs)) = some line ∧ words line = words (String.ofList cs) := by
  by_cases h : cs.getLast? = some '\r'
  · obtain ⟨front, rfl⟩ := List.getLast?_eq_some_iff.mp h
    have dropped : (encode (front ++ ['\r'])).dropLast = encode front := by
      rw [Text.encode_append]
      exact List.dropLast_concat
    rw [chomp, if_pos (ends_in_carriageReturn_iff.mpr h), dropped]
    exact ⟨_, text?_encode front, (Text.words_concat_blank (by decide) front).symm⟩
  · rw [chomp, if_neg fun last => h (ends_in_carriageReturn_iff.mp last)]
    exact ⟨_, text?_encode cs, rfl⟩

theorem lines_encode (cs : List Char) :
    ∃ texts : List String, lineTexts (encode cs) = texts.map some ∧
      texts.flatMap words = words (String.ofList cs) := by
  induction cs using pieces_induction '\n' with
  | last cs h =>
    rw [lineTexts_of_not_mem (mt lineFeed_mem_encode_iff.mp h)]
    by_cases hc : cs = []
    · subst hc
      exact ⟨[], rfl, Text.words_nil.symm⟩
    · rw [if_neg fun none => hc (Text.encode_eq_nil_iff.mp none)]
      exact ⟨[String.ofList cs], congrArg (· :: []) (text?_encode cs), List.flatMap_singleton ..⟩
  | more cs ds h ih =>
    obtain ⟨line, first, own⟩ := chomp_encode cs
    obtain ⟨texts, later, rest⟩ := ih
    rw [encode_lineFeed, lineTexts_append (mt lineFeed_mem_encode_iff.mp h), first, later]
    refine ⟨line :: texts, rfl, ?_⟩
    rw [List.flatMap_cons, own, rest, Text.words_append_blank (by decide)]

/-! ## Inputs of lines that are texts -/

theorem text_of_lines {input : List UInt8} (h : ∀ line ∈ lines input, ∃ text, text? line = some text) :
    ∃ text, text? input = some text := by
  induction input using pieces_induction lineFeed with
  | last piece hp =>
    by_cases hne : piece = []
    · subst hne
      exact ⟨_, text?_encode []⟩
    · rw [lines_of_not_mem hp, if_neg hne] at h
      exact h piece (List.mem_singleton_self _)
  | more piece rest hp ih =>
    rw [lines_append hp] at h
    obtain ⟨line, first⟩ := h _ List.mem_cons_self
    obtain ⟨later, behind⟩ := ih fun l hl => h l (List.mem_cons_of_mem _ hl)
    rw [text?_eq_some_iff] at first behind
    have whole : ∃ cs, piece = encode cs := by
      rcases chomp_cases piece with same | returned
      · exact ⟨_, same.trans first⟩
      · exact ⟨line.toList ++ ['\r'], by rw [Text.encode_append, ← first]; exact returned⟩
    obtain ⟨cs, rfl⟩ := whole
    exact ⟨_, by rw [behind, ← encode_lineFeed, text?_encode]⟩

theorem lineTexts_all_iff (input : List UInt8) :
    (lineTexts input).all Option.isSome = true ↔ ∃ text, text? input = some text := by
  constructor
  · intro h
    refine text_of_lines fun line hl => Option.isSome_iff_exists.mp ?_
    exact List.all_eq_true.mp h _ (List.mem_map_of_mem hl)
  · rintro ⟨text, h⟩
    obtain ⟨texts, each, -⟩ := lines_encode text.toList
    rw [← text?_eq_some_iff.mp h] at each
    rw [each]
    simp

end Session

end DeskCalc
