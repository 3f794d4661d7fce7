import PicoLoader.CommandLine.Grammar
import PicoLoader.Log

/-!
# How a command ends

A command leaves an exit code and two texts behind. A failure is told on standard error, behind the
log. Arguments that cannot be used end a command before it does anything, with a code of their own.
-/

namespace PicoLoader.CommandLine

/-- The exit code and the two texts of a command. -/
structure Exit where
  code : UInt32
  stdout : String
  stderr : String
deriving DecidableEq, Repr

/-- Which messages of the log are shown: a word from the environment decides, or else the switch
that asks for more. -/
def threshold (word : Option String) (verbose : Bool) : Log.Threshold :=
  match word with
  | some word => .ofWord word
  | none => if verbose then .debug else .warn

namespace Exit

/-- The command did what it was told. -/
def success (stdout log : String) : Exit := ⟨0, stdout, log⟩

/-- The command failed. -/
def failure (stdout log reason : String) : Exit := ⟨1, stdout, log ++ reason ++ "\n"⟩

/-- The arguments decided what happens. -/
def ofStop {α : Type} (grammar : Grammar α) : Stop → Exit
  | .help => success grammar.help ""
  | .version => success grammar.version ""
  | .misuse => ⟨2, "", grammar.usage ++ "\n"⟩

end Exit

end PicoLoader.CommandLine
