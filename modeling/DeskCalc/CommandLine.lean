/-
  DeskCalc.CommandLine — what the program does for its arguments.

  Without a command the program holds a session. `eval` shows the value of one
  expression, and its steps when asked for them; `touches` replays labels and shows
  the display. An option is a word that begins with a minus sign and has more to
  it; a `--` ends the options. Labels may look like options, so behind `touches`
  the first label makes labels of all that follows. Options that answer by
  themselves, for the version and for help, do so as soon as they are reached, and
  so does the first mistake.

  Proved:
  - `toList_joinLines`: what is printed are the lines, each with a line feed behind it.
  - `joinLines_readAll`: a session may be printed as it goes on.
  - `mem_of_unexpected`: a word that is refused stands among the arguments.
  - `ofArgs_nil` / `run_usage`: no arguments ask for a session, and a mistake in them prints nothing.
  - `run_eq_of_ne_session`: only a session reads the input.
-/

import DeskCalc.CommandLine.Help
import DeskCalc.Session

namespace DeskCalc.CommandLine

/-! ## Commands -/

inductive Command where
  | session
  | evaluate (expression : String) (steps : Bool)
  | replay (labels : List String)
  | version
  | help (topic : Topic)
  deriving DecidableEq, Repr

inductive UsageError where
  | unexpected (word : String)
  | repeated (option : String)
  | missingValue (option : String)
  | missingArgument (name : String)
  deriving DecidableEq, Repr

/-! ## Reading the arguments -/

def isOption (word : String) : Bool := word.toList.head? == some '-' && word != "-"

def startsWith (start word : String) : Bool := start.toList.isPrefixOf word.toList

/-- Whether a word asks for help: `--help`, or `-h` whatever other letters follow. -/
def asksHelp (word : String) : Bool := word == "--help" || startsWith "-h" word

/-- Whether a word asks for the version: `--version`, or `-V` whatever other letters follow. -/
def asksVersion (word : String) : Bool := word == "--version" || startsWith "-V" word

/-- What stands behind the end of the options of `eval`: its expression, unless there is one already. -/
def evaluateRest (expression : Option String) (steps : Bool) : List String → Except UsageError Command
  | [] =>
    match expression with
    | some text => .ok (.evaluate text steps)
    | none => .error (.missingArgument "EXPRESSION")
  | word :: rest =>
    match expression, rest with
    | none, [] => .ok (.evaluate word steps)
    | none, next :: _ => .error (.unexpected next)
    | some _, _ => .error (.unexpected word)

/-- The arguments of `eval`: an expression, and on either side of it the option for the steps. -/
def evaluateArgs (expression : Option String) (steps : Bool) : List String → Except UsageError Command
  | [] => evaluateRest expression steps []
  | word :: rest =>
    if word = "--" then evaluateRest expression steps rest
    else if word = "--demarche" then
      if steps then .error (.repeated word) else evaluateArgs expression true rest
    else if asksHelp word then .ok (.help .evaluate)
    else if isOption word || expression.isSome then .error (.unexpected word)
    else evaluateArgs (some word) steps rest

/-- The labels of `touches`, of which there has to be one. -/
def labels : List String → Except UsageError Command
  | [] => .error (.missingArgument "LIBELLES")
  | word :: rest => .ok (.replay (word :: rest))

/-- The arguments of `touches`. Only in the first place a `--` is dropped and help can be asked for. -/
def replayArgs : List String → Except UsageError Command
  | [] => labels []
  | word :: rest =>
    if word = "--" then labels rest
    else if word = "--help" || (startsWith "-h" word && (word.toList.drop 1).all (· == 'h')) then .ok (.help .replay)
    else if startsWith "--help=" word then .error (.unexpected word)
    else labels (word :: rest)

/-- The arguments of `help`: at most the name of a command. -/
def helpArgs : List String → Except UsageError Command
  | [] => .ok (.help .program)
  | word :: rest =>
    match Topic.ofName? word, rest with
    | none, _ => .error (.unexpected word)
    | some topic, [] => .ok (.help topic)
    | some _, next :: _ => .error (.unexpected next)

/-- The arguments of the program. The option for the log may stand once in front of the command, its
    value in the same word or the next. -/
def programArgs (logged : Bool) : List String → Except UsageError Command
  | [] => .ok .session
  | "--" :: [] => .ok .session
  | "--" :: word :: _ => .error (.unexpected word)
  | "--log" :: [] => .error (.missingValue "--log")
  | "--log" :: value :: rest =>
    if isOption value then .error (.missingValue "--log")
    else if logged then .error (.repeated "--log")
    else programArgs true rest
  | "eval" :: rest => evaluateArgs none false rest
  | "touches" :: rest => replayArgs rest
  | "help" :: rest => helpArgs rest
  | word :: rest =>
    if asksHelp word then .ok (.help .program)
    else if asksVersion word then .ok .version
    else if startsWith "--log=" word then
      if logged then .error (.repeated "--log") else programArgs true rest
    else .error (.unexpected word)

def ofArgs (args : List String) : Except UsageError Command := programArgs false args

/-! ## Mistakes -/

section
variable {args : List String} {word : String}

theorem mem_of_evaluateRest {expression : Option String} {steps : Bool}
    (h : evaluateRest expression steps args = .error (.unexpected word)) : word ∈ args := by
  fun_cases evaluateRest expression steps args <;> simp_all [evaluateRest]

theorem mem_of_evaluateArgs {expression : Option String} {steps : Bool}
    (h : evaluateArgs expression steps args = .error (.unexpected word)) : word ∈ args := by
  fun_induction evaluateArgs expression steps args with
  | case1 => exact mem_of_evaluateRest h
  | case2 => exact List.mem_cons_of_mem _ (mem_of_evaluateRest h)
  | case3 | case5 => cases h
  | case4 _ _ _ _ _ ih => exact List.mem_cons_of_mem _ (ih h)
  | case6 => cases h; exact List.mem_cons_self
  | case7 _ _ _ _ _ _ _ _ ih => exact List.mem_cons_of_mem _ (ih h)

theorem labels_ne_unexpected : labels args ≠ .error (.unexpected word) := by
  cases args <;> simp [labels]

theorem mem_of_replayArgs (h : replayArgs args = .error (.unexpected word)) : word ∈ args := by
  cases args with
  | nil => cases h
  | cons first rest =>
    rw [replayArgs] at h
    split at h
    · exact absurd h labels_ne_unexpected
    · split at h
      · cases h
      · split at h
        · cases h; exact List.mem_cons_self
        · exact absurd h labels_ne_unexpected

theorem mem_of_helpArgs (h : helpArgs args = .error (.unexpected word)) : word ∈ args := by
  fun_cases helpArgs args <;> simp_all [helpArgs]

theorem mem_of_programArgs {logged : Bool} (h : programArgs logged args = .error (.unexpected word)) :
    word ∈ args := by
  fun_induction programArgs logged args with
  | case1 | case2 | case4 | case5 | case6 | case11 | case12 | case13 => cases h
  | case3 => cases h; exact List.mem_cons_of_mem _ List.mem_cons_self
  | case7 _ _ _ _ _ ih => exact List.mem_cons_of_mem _ (List.mem_cons_of_mem _ (ih h))
  | case8 => exact List.mem_cons_of_mem _ (mem_of_evaluateArgs h)
  | case9 => exact List.mem_cons_of_mem _ (mem_of_replayArgs h)
  | case10 => exact List.mem_cons_of_mem _ (mem_of_helpArgs h)
  | case14 =>
    rename_i ih
    exact List.mem_cons_of_mem _ (ih h)
  | case15 => cases h; exact List.mem_cons_self

/-- A word that is refused stands among the arguments. -/
theorem mem_of_unexpected (h : ofArgs args = .error (.unexpected word)) : word ∈ args := mem_of_programArgs h

end

/-! ## Running a command -/

structure Outcome where
  exitCode : Nat
  stdout : String
  deriving DecidableEq, Repr

def versionText : String := "calculatrice_sci 0.1.0"

/-- What `eval` shows: the steps, if they are asked for and there is a value, and the result. -/
def evaluationLines (expression : String) (steps : Bool) : List String :=
  match DeskCalc.evaluate expression with
  | .ok e =>
    let shown := if steps then ["jetons : " ++ Token.trace e.tokens, "rpn    : " ++ Token.trace e.ordered] else []
    shown ++ [Number.resultText e.value]
  | .error _ => [String.ofList Number.errorChars]

/-- Lines as they are printed. -/
def joinLines (ls : List String) : String := String.join (ls.map (· ++ "\n"))

theorem joinLines_singleton (line : String) : joinLines [line] = line ++ "\n" := by
  rw [joinLines, List.map_singleton, String.join_cons, String.join_nil, String.append_empty]

theorem joinLines_append (ls ms : List String) : joinLines (ls ++ ms) = joinLines ls ++ joinLines ms := by
  rw [joinLines, List.map_append, String.join_append]
  rfl

theorem toList_joinLines (ls : List String) : (joinLines ls).toList = ls.flatMap fun line => line.toList ++ ['\n'] := by
  simp only [joinLines, String.toList_join, List.flatMap_map, String.toList_append]
  rfl

/-- The lines of a session may be printed as they come. -/
theorem joinLines_readAll (s : Session.State) (byte : UInt8) (rest : List UInt8) :
    joinLines (s.readAll (byte :: rest)).1 =
      joinLines (s.read (some byte)).1 ++ joinLines ((s.read (some byte)).2.readAll rest).1 := by
  rw [Session.State.readAll_cons, joinLines_append]

def Command.run (input : List UInt8) : Command → Outcome
  | session =>
    let t := Session.run input
    ⟨t.last.exitCode, joinLines t.displays⟩
  | evaluate expression steps => ⟨0, joinLines (evaluationLines expression steps)⟩
  | replay labels => ⟨0, joinLines [(Keypad.Editor.start.replay labels).display]⟩
  | version => ⟨0, joinLines [versionText]⟩
  | help topic => ⟨0, joinLines topic.page.lines⟩

/-- The whole program: its arguments and its input to what it prints and how it ends. -/
def run (args : List String) (input : List UInt8) : Outcome :=
  match ofArgs args with
  | .ok command => command.run input
  | .error _ => ⟨2, ""⟩

theorem ofArgs_nil : ofArgs [] = .ok .session := by simp [ofArgs, programArgs]

theorem run_eq_of_ne_session {args : List String} (h : ofArgs args ≠ .ok .session) (input : List UInt8) :
    run args input = run args [] := by
  rw [run, run]
  cases parsed : ofArgs args with
  | error e => rfl
  | ok command =>
    cases command with
    | session => exact absurd parsed h
    | evaluate | replay | version | help => rfl

theorem run_usage {args : List String} {e : UsageError} (h : ofArgs args = .error e) (input : List UInt8) :
    run args input = ⟨2, ""⟩ := by
  simp [run, h]

end DeskCalc.CommandLine
