import Reckoner.CommandLine.Program
/-!
The executable: it gathers arguments, environment, settings document and input, runs the program on
them, and prints what the program prints.
-/

namespace Reckoner

/-- The document that is read when the environment names none. -/
def usualDocument : String := "settings.yaml"

/-- The variables of the environment that settings look at. -/
def gatherVariables : IO (List (String × String)) := do
  let names := Settings.documentVariable :: Settings.Key.all.map Settings.Key.variableName
  let found ← names.mapM fun name => do
    return (← IO.getEnv name).map fun value => (name, value)
  return found.filterMap id

/-- The text of a document, if it exists. -/
def readDocument (path : String) : IO (Option String) := do
  try
    return some (← IO.FS.readFile path)
  catch _ =>
    return none

/-- All of the input. -/
def readInput : IO String := do
  let stdin ← IO.getStdin
  let mut text := ""
  repeat
    let line ← stdin.getLine
    if line.isEmpty then break
    text := text ++ line
  return text

/-- Prints an outcome and hands back its code. -/
def printOutcome (document : String) (o : Outcome) : IO UInt32 := do
  IO.print o.out
  IO.eprint o.err
  for a in o.served do
    IO.println ("Serving " ++ Address.target ++ " on " ++ a.host ++ ", port " ++ a.port.text)
  match o.ending with
  | .returned code | .left code => return code.toUInt32
  | .finished => return 0
  | .badSettings e =>
    IO.eprintln (e.message document)
    return 1
  | .failed e =>
    IO.eprintln e.message
    return 1

end Reckoner

open Reckoner in
/-- Runs the program on the arguments of the process. -/
def main (arguments : List String) : IO UInt32 := do
  let found ← gatherVariables
  let env : Settings.Environment := fun name => (found.find? (·.1 = name)).map (·.2)
  let path := ((env Settings.documentVariable).filter (· ≠ "")).getD usualDocument
  let document ← readDocument path
  let needsInput := match CommandLine.commandOf arguments with
    | .ok command => command.readsInput
    | .error _ => false
  let input ← if needsInput then readInput else pure ""
  printOutcome path (CommandLine.run ⟨Settings.load document env, input⟩ arguments)
