/-
  DeskCalc.Session — a session: bytes in, displays out.

  The display is shown before anything is read. A line feed ends a line, with the
  carriage return before it; what follows the last line feed is a line too unless it is
  empty. A line is answered as soon as it has ended: it is replayed word by word on the
  editor that the lines before it have left, and the display is shown. A line that is not
  UTF-8 breaks the session off, and nothing is shown from there on.

  Proved:
  - `read_broken` / `readAll_broken`: a session that broke off shows nothing more.
  - `displays_ne_nil`: something is shown in any case.
-/

import DeskCalc.Keypad.Editor
import DeskCalc.Text.Blank

namespace DeskCalc.Session

open Keypad (Editor)

def lineFeed : UInt8 := 10

def carriageReturn : UInt8 := 13

/-- A line without the carriage return at its end. -/
def chomp (line : List UInt8) : List UInt8 :=
  if line.getLast? = some carriageReturn then line.dropLast else line

/-- The text of a line, if it is UTF-8. -/
def text? (line : List UInt8) : Option String := String.fromUTF8? ⟨line.toArray⟩

/-! ## Byte by byte -/

inductive State where
  /-- The editor behind the lines so far, and what is read of the next one. -/
  | reading (e : Editor) (line : Array UInt8)
  | broken
  deriving DecidableEq, Repr

namespace State

def start : State := reading .start #[]

def exitCode : State → Nat
  | reading _ _ => 0
  | broken => 1

/-- What is shown for a line that has ended, if it is a text, and the state behind it. -/
def answer (e : Editor) : Option String → List String × State
  | none => ([], broken)
  | some text =>
    let e := e.replay (Text.words text)
    ([e.display], reading e #[])

/-- What is shown for one byte of the input, or for its end, and the state behind it. -/
def read : State → Option UInt8 → List String × State
  | broken, _ => ([], broken)
  | reading e line, none => if line.isEmpty then ([], reading e line) else answer e (text? line.toList)
  | reading e line, some byte =>
    if byte = lineFeed then answer e (text? (chomp line.toList)) else ([], reading e (line.push byte))

/-- The rest of the input, up to its end. -/
def readAll (s : State) : List UInt8 → List String × State
  | [] => s.read none
  | byte :: rest =>
    let (shown, next) := s.read (some byte)
    let (later, last) := next.readAll rest
    (shown ++ later, last)

theorem readAll_cons (s : State) (byte : UInt8) (rest : List UInt8) :
    s.readAll (byte :: rest) =
      ((s.read (some byte)).1 ++ ((s.read (some byte)).2.readAll rest).1, ((s.read (some byte)).2.readAll rest).2) :=
  rfl

@[simp] theorem read_broken (byte : Option UInt8) : broken.read byte = ([], broken) := rfl

theorem readAll_broken (input : List UInt8) : broken.readAll input = ([], broken) := by
  induction input with
  | nil => rfl
  | cons byte rest ih => rw [readAll_cons, read_broken, ih, List.nil_append]

end State

/-! ## A whole session -/

structure Transcript where
  displays : List String
  last : State
  deriving DecidableEq, Repr

/-- What is shown before anything is read. -/
def greeting : List String := [Editor.start.display]

/-- The session on a fresh editor. -/
def run (input : List UInt8) : Transcript :=
  let (shown, last) := State.start.readAll input
  ⟨greeting ++ shown, last⟩

theorem displays_ne_nil (input : List UInt8) : (run input).displays ≠ [] := List.cons_ne_nil _ _

end DeskCalc.Session
