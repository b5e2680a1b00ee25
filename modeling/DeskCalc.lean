import DeskCalc.Main
import DeskCalc.Proofs.Evaluation.Malformed
import DeskCalc.Proofs.Evaluation.Substitution
import DeskCalc.Proofs.Evaluation.Verdict
import DeskCalc.Proofs.Keypad.Chain
import DeskCalc.Proofs.Keypad.Equals
import DeskCalc.Proofs.Keypad.Reading
import DeskCalc.Proofs.Keypad.Recovery
import DeskCalc.Proofs.Keypad.Safety
import DeskCalc.Proofs.Keypad.Undo
import DeskCalc.Proofs.Postfix.Places
import DeskCalc.Proofs.Postfix.Segments
import DeskCalc.Proofs.Postfix.Stop
import DeskCalc.Proofs.Session.Replay
import DeskCalc.Proofs.Token.Lexeme
import DeskCalc.Proofs.Token.Trace
