import Reckoner.Text.UpperCase
/-!
Severities of log messages. A severity is named in any case; a name that is none counts as the usual
one.
-/

namespace Reckoner.Severity

/-- The severities that have a name. -/
def named : List (String × Nat) :=
  [("NOTSET", 0), ("DEBUG", 10), ("INFO", 20), ("WARN", 30), ("WARNING", 30), ("ERROR", 40),
   ("CRITICAL", 50), ("FATAL", 50)]

/-- The severity that counts when a name is none. -/
def usual : Nat := 20

def ofName (s : String) : Nat :=
  match named.find? (·.1 = Text.upper s) with
  | some e => e.2
  | none => usual

end Reckoner.Severity
