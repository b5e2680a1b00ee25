/-
  DeskCalc.Main — the program.

  A session is answered byte by byte, so each line is answered before the next one is
  read; every other command reads no input and is run as a whole.
-/

import DeskCalc.CommandLine

namespace DeskCalc.Main

def print (output : IO.FS.Stream) (shown : String) : IO Unit := do
  output.putStr shown
  output.flush

/-- Answer the bytes of the input, up to its end or to where the session breaks off: nothing is shown for
    the rest then. -/
partial def converse (input output : IO.FS.Stream) (s : Session.State) : IO UInt32 := do
  let byte := (← input.read 1).data[0]?
  let (shown, next) := s.read byte
  print output (CommandLine.joinLines shown)
  if byte.isNone || next == .broken then return next.exitCode.toUInt32 else converse input output next

end DeskCalc.Main

def main (args : List String) : IO UInt32 := do
  let output ← IO.getStdout
  match DeskCalc.CommandLine.ofArgs args with
  | .ok .session =>
    DeskCalc.Main.print output (DeskCalc.CommandLine.joinLines DeskCalc.Session.greeting)
    DeskCalc.Main.converse (← IO.getStdin) output .start
  | _ =>
    let outcome := DeskCalc.CommandLine.run args []
    DeskCalc.Main.print output outcome.stdout
    return outcome.exitCode.toUInt32
