import Reckoner.CommandLine.Grammar
import Reckoner.Text.Quoted
/-!
What can be wrong with a command line, and how a program says so: its usage and one line with the
reason.
-/

namespace Reckoner.CommandLine

inductive Problem where
  | ambiguous (argument : String) (names : List String)
  | ignoredValue (flag : Flag) (value : String)
  | missingValue (flag : Flag)
  | notAnInteger (flag : Flag) (value : String)
  | noSuchCommand (argument : String) (commands : List String)
  | unrecognized (arguments : List String)
  deriving DecidableEq, Repr

namespace Problem

def message : Problem → String
  | .ambiguous argument names =>
    "ambiguous option: " ++ argument ++ " could match " ++ ", ".intercalate names
  | .ignoredValue flag value =>
    "argument " ++ flag.title ++ ": ignored explicit argument " ++ Text.quoted value
  | .missingValue flag => "argument " ++ flag.title ++ ": expected one argument"
  | .notAnInteger flag value =>
    "argument " ++ flag.title ++ ": invalid int value: " ++ Text.quoted value
  | .noSuchCommand argument commands =>
    "argument command: invalid choice: " ++ Text.quoted argument ++ " (choose from " ++
      ", ".intercalate (commands.map Text.quoted) ++ ")"
  | .unrecognized arguments => "unrecognized arguments: " ++ " ".intercalate arguments

end Problem

/-- A problem as a program tells it. -/
def Grammar.complaint (g : Grammar) (p : Problem) : String :=
  g.usage ++ "\n" ++ g.program ++ ": error: " ++ p.message ++ "\n"

end Reckoner.CommandLine
