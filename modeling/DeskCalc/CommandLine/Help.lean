/-
  DeskCalc.CommandLine.Help — the pages of the help.

  There is a page for the program and one for each of its commands, and all have one
  layout: what it is about, how it is called, and sections of names with what they mean.
  The meanings in a section stand below each other, and a name without one is filled up
  in the same way.

  Proved:
  - `Section.length_label`: the meanings in a section start in one column.
-/

namespace DeskCalc.CommandLine

/-! ## Layout -/

structure Row where
  name : String
  meaning : String
  deriving DecidableEq, Repr

structure Section where
  heading : String
  rows : List Row
  deriving DecidableEq, Repr

structure Page where
  about : String
  usage : String
  sections : List Section
  deriving DecidableEq, Repr

/-- The length of the longest name. -/
def Section.width (s : Section) : Nat := (s.rows.map (·.name.length)).max?.getD 0

/-- The part of a row in front of its meaning. -/
def Section.label (s : Section) (row : Row) : String :=
  "  " ++ String.ofList (row.name.toList.rightpad s.width ' ') ++ "  "

def Section.lines (s : Section) : List String :=
  "" :: (s.heading ++ ":") :: s.rows.map fun row => s.label row ++ row.meaning

def Page.lines (page : Page) : List String :=
  page.about :: "" :: ("Usage: " ++ page.usage) :: page.sections.flatMap Section.lines

theorem Section.length_name_le {s : Section} {row : Row} (h : row ∈ s.rows) : row.name.length ≤ s.width :=
  List.le_max?_getD_of_mem (List.mem_map_of_mem h)

theorem Section.length_label {s : Section} {row : Row} (h : row ∈ s.rows) : (s.label row).length = s.width + 4 := by
  have filled : (String.ofList (row.name.toList.rightpad s.width ' ')).length = s.width := by
    rw [String.length_ofList, List.length_rightpad, String.length_toList]
    exact Nat.max_eq_left (length_name_le h)
  rw [label, String.length_append, String.length_append, filled]
  show 2 + s.width + 2 = s.width + 4
  omega

/-! ## Pages -/

inductive Topic where
  | program
  | evaluate
  | replay
  | help
  deriving DecidableEq, Repr

/-- The command that a word names. -/
def Topic.ofName? : String → Option Topic
  | "eval" => some evaluate
  | "touches" => some replay
  | "help" => some help
  | _ => none

def aboutProgram : String := "Calculatrice scientifique (shunting-yard + RPN)"

def aboutEvaluate : String := "Évalue une expression, ex: \"2+3x4\", \"sqrt(16)\", \"sin(90)\""

def aboutReplay : String := "Rejoue des libellés de boutons, ex: 5 + 3 ="

def aboutHelp : String := "Print this message or the help of the given subcommand(s)"

def helpOption : Row := ⟨"-h, --help", "Print help"⟩

/-- An option without a short form is written as far in as those that have one. -/
def Topic.page : Topic → Page
  | program =>
    ⟨aboutProgram, "calculatrice_sci [OPTIONS] [COMMAND]",
      [⟨"Commands", [⟨"eval", aboutEvaluate⟩, ⟨"touches", aboutReplay⟩, ⟨"help", aboutHelp⟩]⟩,
        ⟨"Options",
          [⟨"    --log <LOG>", "Directive de journal par défaut (ignorée si RUST_LOG est défini) [default: warn]"⟩,
            helpOption, ⟨"-V, --version", "Print version"⟩]⟩]⟩
  | evaluate =>
    ⟨aboutEvaluate, "calculatrice_sci eval [OPTIONS] <EXPRESSION>",
      [⟨"Arguments", [⟨"<EXPRESSION>", ""⟩]⟩,
        ⟨"Options", [⟨"    --demarche", "Affiche aussi les jetons et la RPN"⟩, helpOption]⟩]⟩
  | replay =>
    ⟨aboutReplay, "calculatrice_sci touches <LIBELLES>...",
      [⟨"Arguments", [⟨"<LIBELLES>...", ""⟩]⟩, ⟨"Options", [helpOption]⟩]⟩
  | help =>
    ⟨aboutHelp, "calculatrice_sci help [COMMAND]...",
      [⟨"Arguments", [⟨"[COMMAND]...", "Print help for the subcommand(s)"⟩]⟩]⟩

end DeskCalc.CommandLine
