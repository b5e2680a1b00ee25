/-
  DeskCalc.Proofs.Session.Replay — a session line by line, and its words in one go.

  A session reads byte by byte, and holds a line back until it has ended, so it answers
  the lines into which the input is cut. It answers each from the editor that the lines
  before it have left. A label acts on the editor and on nothing else, so what is shown
  behind a line is what the words of all lines so far show when they are replayed in one
  go. A line that is no text ends the session, and nothing is shown for it. How the words
  are cut into lines and spaced does not show in the end.

  Proved:
  - `readAll_reading`: what is answered byte by byte are the lines of the input.
  - `run_displays` / `getLast?_run`: what is shown behind each line, and behind all words.
  - `run_session` / `run_touches`: what is printed for an input, and for the labels of one command.
  - `replay_known`: labels that no key has are passed over.
  - `session_replays`: the whole session, and the same words in another form or in one go.
-/

import DeskCalc.CommandLine
import DeskCalc.Proofs.Session.Lines

namespace DeskCalc.Session

open Keypad (Editor Key)
open Text (words encode)

/-! ## Lines in front of the first that is no text -/

/-- The texts in front of the first line that is none. -/
def readable : List (Option String) → List String
  | some text :: rest => text :: readable rest
  | _ => []

theorem readable_map_some (texts : List String) : readable (texts.map some) = texts := by
  induction texts with
  | nil => rfl
  | cons text texts ih => exact congrArg (text :: ·) ih

/-- The display behind the words of the first `k` of some lines. -/
def displayAfter (e : Editor) (texts : List String) (k : Nat) : String :=
  (e.replay ((texts.take k).flatMap words)).display

theorem displayAfter_succ (e : Editor) (text : String) (texts : List String) (k : Nat) :
    displayAfter e (text :: texts) (k + 1) = displayAfter (e.replay (words text)) texts k := by
  rw [displayAfter, List.take_succ_cons, List.flatMap_cons, Editor.replay_append]
  rfl

/-! ## Byte by byte and line by line -/

/-- What is shown behind each line, up to the first that is no text, and the state behind the last. -/
def answers (e : Editor) : List (Option String) → List String × State
  | [] => ([], .reading e #[])
  | none :: _ => ([], .broken)
  | some text :: rest =>
    let e := e.replay (words text)
    let (shown, last) := answers e rest
    (e.display :: shown, last)

/-- What is held back of a line goes in front of the rest of the input. The invariant is that it holds no line
    feed, so that the line that is answered is the first one of the two together. -/
theorem readAll_reading (e : Editor) (line : Array UInt8) (h : lineFeed ∉ line.toList) (input : List UInt8) :
    (State.reading e line).readAll input = answers e (lineTexts (line.toList ++ input)) := by
  induction input generalizing e line with
  | nil =>
    rw [List.append_nil, lineTexts_of_not_mem h, State.readAll, State.read]
    by_cases hl : line = #[]
    · subst hl
      rfl
    · rw [if_neg (by simpa using hl), if_neg (by simpa using hl)]
      cases text? line.toList <;> rfl
  | cons byte rest ih =>
    rw [State.readAll_cons, State.read]
    by_cases hb : byte = lineFeed
    · subst hb
      rw [if_pos rfl, lineTexts_append h]
      cases text? (chomp line.toList) with
      | none =>
        rw [State.answer, State.readAll_broken]
        rfl
      | some text =>
        rw [State.answer, ih _ #[] List.not_mem_nil]
        rfl
    · have held : lineFeed ∉ (line.push byte).toList := by
        rw [Array.toList_push, List.mem_append, List.mem_singleton]
        exact not_or_intro h fun eq => hb eq.symm
      rw [if_neg hb, ih e (line.push byte) held, Array.toList_push, List.append_assoc]
      rfl

/-- The display first, and then behind each line in front of the first that is no text. -/
theorem answers_displays (e : Editor) (ls : List (Option String)) :
    e.display :: (answers e ls).1 = (List.range ((readable ls).length + 1)).map (displayAfter e (readable ls)) := by
  induction ls generalizing e with
  | nil => rfl
  | cons line ls ih =>
    cases line with
    | none => rfl
    | some text =>
      rw [readable, List.length_cons, List.range_succ_eq_map, List.map_cons, List.map_map]
      have behind : displayAfter e (text :: readable ls) ∘ Nat.succ = displayAfter (e.replay (words text)) (readable ls) :=
        funext fun k => displayAfter_succ e text (readable ls) k
      rw [behind, ← ih]
      rfl

theorem exitCode_answers (e : Editor) (ls : List (Option String)) :
    (answers e ls).2.exitCode = if ls.all Option.isSome then 0 else 1 := by
  induction ls generalizing e with
  | nil => rfl
  | cons line ls ih =>
    cases line with
    | none => rfl
    | some text => exact ih (e.replay (words text))

theorem run_eq (input : List UInt8) :
    run input =
      ⟨Editor.start.display :: (answers .start (lineTexts input)).1, (answers .start (lineTexts input)).2⟩ := by
  have whole := readAll_reading .start #[] List.not_mem_nil input
  rw [run, State.start, whole]
  rfl

theorem run_displays (input : List UInt8) :
    (run input).displays = (List.range ((readable (lineTexts input)).length + 1)).map
      (displayAfter .start (readable (lineTexts input))) := by
  rw [run_eq, answers_displays]

/-- Without arguments the program prints each display of the session with a line feed behind it. -/
theorem run_session (input : List UInt8) :
    CommandLine.run [] input =
      ⟨if (lineTexts input).all Option.isSome then 0 else 1, String.join ((run input).displays.map (· ++ "\n"))⟩ := by
  have code : (run input).last.exitCode = if (lineTexts input).all Option.isSome then 0 else 1 := by
    rw [run_eq, exitCode_answers]
  rw [CommandLine.run, CommandLine.ofArgs_nil, ← code]
  rfl

/-! ## The last display -/

theorem getLast?_displays (input : List UInt8) :
    (run input).displays.getLast? = some (Editor.start.replay ((readable (lineTexts input)).flatMap words)).display := by
  rw [run_displays, List.getLast?_map, List.getLast?_range, if_neg (Nat.succ_ne_zero _), Option.map_some,
    Nat.add_sub_cancel, displayAfter, List.take_length]

/-- The words of a text end in the same display, whatever lines they stand in. -/
theorem getLast?_run {input : List UInt8} {text : String} (h : text? input = some text) :
    (run input).displays.getLast? = some (Editor.start.replay (words text)).display := by
  obtain ⟨texts, each, own⟩ := lines_encode text.toList
  rw [← text?_eq_some_iff.mp h] at each
  rw [getLast?_displays, each, readable_map_some, own, String.ofList_toList]

/-! ## Labels -/

/-- Labels that no key has are passed over. -/
theorem replay_known (e : Editor) (labels : List String) :
    e.replay (labels.filter fun label => (Key.ofLabel? label).isSome) = e.replay labels := by
  induction labels generalizing e with
  | nil => rfl
  | cons label labels ih =>
    rw [List.filter_cons]
    cases known : Key.ofLabel? label with
    | some key => exact ih (e.pressLabel label)
    | none =>
      have passed : e.pressLabel label = e := by rw [Editor.pressLabel, known]
      show e.replay (labels.filter _) = (e.pressLabel label).replay labels
      rw [ih, passed]

/-- Labels behind the end of the options are replayed, if there are any. -/
theorem run_touches {labels : List String} (h : labels ≠ []) (input : List UInt8) :
    CommandLine.run ("touches" :: "--" :: labels) input = ⟨0, (Editor.start.replay labels).display ++ "\n"⟩ := by
  obtain ⟨label, rest, rfl⟩ := List.exists_cons_of_ne_nil h
  have command : CommandLine.ofArgs ("touches" :: "--" :: label :: rest) = .ok (.replay (label :: rest)) := by
    simp [CommandLine.ofArgs, CommandLine.programArgs, CommandLine.replayArgs, CommandLine.labels]
  rw [CommandLine.run, command]
  exact congrArg (CommandLine.Outcome.mk 0) (CommandLine.joinLines_singleton _)

/-! ## The whole program -/

/-- Without arguments the program prints the display of a fresh editor, and then for each line up to the first
    that is no text what all words up to there show in one go, those that are no labels being passed over, with
    a line feed behind each. Its code tells whether there was such a line, and there is none exactly if the
    input is a text. Two texts with the same words end in the same display, which is also all that is printed
    for the words as labels of one command. -/
theorem session_replays (input : List UInt8) :
    CommandLine.run [] input =
        ⟨if (lineTexts input).all Option.isSome then 0 else 1, String.join ((run input).displays.map (· ++ "\n"))⟩ ∧
      (run input).displays = (List.range ((readable (lineTexts input)).length + 1)).map
        (fun k => (Editor.start.replay (((readable (lineTexts input)).take k).flatMap words)).display) ∧
      (∀ (e : Editor) (labels : List String),
        e.replay (labels.filter fun label => (Key.ofLabel? label).isSome) = e.replay labels) ∧
      ((lineTexts input).all Option.isSome = true ↔ ∃ text, text? input = some text) ∧
      ∀ text, text? input = some text →
        (∀ other text', text? other = some text' → words text' = words text →
          (run other).displays.getLast? = (run input).displays.getLast?) ∧
        (run input).displays.getLast? = some (Editor.start.replay (words text)).display ∧
        (words text ≠ [] →
          CommandLine.run ("touches" :: "--" :: words text) [] =
            ⟨0, (Editor.start.replay (words text)).display ++ "\n"⟩) := by
  refine ⟨run_session input, run_displays input, replay_known, lineTexts_all_iff input, fun text h => ?_⟩
  have last : (run input).displays.getLast? = some (Editor.start.replay (words text)).display := getLast?_run h
  refine ⟨fun other text' h' same => ?_, last, fun given => run_touches given []⟩
  rw [getLast?_run h', same, last]

/-- Three lines with a carriage return, a blank beyond ASCII and no end, and the same words in one line. -/
theorem session_replays_cut :
    let text := "5 +\r\n　3\n ="
    let text' := "5 + 3 =\n"
    let input := encode text.toList
    let other := encode text'.toList
    text? input = some text ∧ text? other = some text' ∧ words text' = words text ∧ words text ≠ [] ∧
      (run input).displays = ["0", "5+", "5+3", "8"] ∧ (run other).displays = ["0", "8"] ∧
      CommandLine.run [] input = ⟨0, "0\n5+\n5+3\n8\n"⟩ ∧ CommandLine.run [] other = ⟨0, "0\n8\n"⟩ ∧
      (run other).displays.getLast? = (run input).displays.getLast? ∧
      CommandLine.run ("touches" :: "--" :: words text) [] = ⟨0, "8\n"⟩ := by
  intro text text' input other
  have own : text? input = some text := text?_eq_some_iff.mpr rfl
  have others : text? other = some text' := text?_eq_some_iff.mpr rfl
  have same : words text' = words text := by decide +kernel
  have given : words text ≠ [] := by decide +kernel
  have shown : (run input).displays = ["0", "5+", "5+3", "8"] := by decide +kernel
  have shown' : (run other).displays = ["0", "8"] := by decide +kernel
  have final : (Editor.start.replay (words text)).display = "8" := by decide +kernel
  obtain ⟨printed, -, -, isText, behind⟩ := session_replays input
  obtain ⟨printed', -, -, isText', -⟩ := session_replays other
  obtain ⟨anyForm, -, oneGo⟩ := behind text own
  rw [shown, if_pos (isText.mpr ⟨text, own⟩)] at printed
  rw [shown', if_pos (isText'.mpr ⟨text', others⟩)] at printed'
  have touched := oneGo given
  rw [final] at touched
  exact ⟨own, others, same, given, shown, shown', printed.trans (by decide +kernel), printed'.trans (by decide +kernel),
    anyForm other text' others same, touched⟩

/-- A line in the middle that is no text: nothing is printed for it, nor for the line behind it. -/
example : CommandLine.run [] (encode ['5', '\n'] ++ [255] ++ encode ['\n', '6', '\n']) = ⟨1, "0\n5\n"⟩ := by
  decide +kernel

end DeskCalc.Session
