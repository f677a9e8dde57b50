import Reckoner.Batch
import Reckoner.CommandLine.Arguments
import Reckoner.CommandLine.Usage
import Reckoner.Outcome
import Reckoner.Text.Line
/-!
The calculator as a program.

Its command line asks either for the evaluation of expressions, given as arguments or as lines of the
input, or for the server. The command line is read first, then the settings, and then the command is
carried out.

What is shown here: `dropSeparator_of_not_mem`, arguments without a double dash are expressions as they stand.
-/

namespace Reckoner

namespace CommandLine

/-- What a command line asks for. The address of the server may be given in part. -/
inductive Command where
  | nothing
  | evaluate (asJson : Bool) (expressions : List String)
  | serve (host : Option String) (port : Option Int)
  deriving DecidableEq, Repr

/-- A command line that is not carried out, and whose grammar says why. -/
structure Refusal where
  grammar : Grammar
  stop : Stop

/-- Arguments read by a grammar, or its refusal. -/
def Grammar.read (g : Grammar) (arguments : List String) : Except Refusal Arguments :=
  match g.parse arguments with
  | .ok a => .ok a
  | .error stop => .error ⟨g, stop⟩

/-- Arguments without the first double dash. -/
def dropSeparator (arguments : List String) : List String := arguments.erase "--"

/-- What the arguments ask for. -/
def commandOf (arguments : List String) : Except Refusal Command := do
  let a ← Grammar.calculator.read arguments
  match a.command with
  | none => return .nothing
  | some (name, rest) =>
    if name = evalCommand then
      let b ← Grammar.evaluation.read rest
      return .evaluate (b.has "--json") (dropSeparator (a.extras ++ b.extras))
    else
      let b ← Grammar.serving.read rest
      if (a.extras ++ b.extras).isEmpty then return .serve (b.value? "--host") (b.number? "--port")
      else .error ⟨.calculator, .problem (.unrecognized (a.extras ++ b.extras))⟩

/-- How a program ends over its command line: with help, or with a complaint. -/
def Refusal.outcome (r : Refusal) : Outcome :=
  match r.stop with
  | .help => ⟨r.grammar.help, "", .left 0, []⟩
  | .problem p => ⟨"", r.grammar.complaint p, .left 2, []⟩

theorem dropSeparator_of_not_mem {arguments : List String} (h : "--" ∉ arguments) :
    dropSeparator arguments = arguments := List.erase_of_not_mem h

end CommandLine

/-- What a program is run with: its settings, or why there are none, and its input. -/
structure Surroundings where
  settings : Except Settings.Failure Settings
  /-- The characters that the stream of the input hands out. A stream that writes other line ends as line
  feeds has done so here; most streams hand out a carriage return like any other character. -/
  input : String

namespace Address

/-- The address to serve at: the one given, where it is not empty or zero, else that of the settings. -/
def choose (settings : Settings) (host : Option String) (port : Option Int) : Address where
  host := match host with
    | some h => if h = "" then settings.host else h
    | none => settings.host
  port := match port with
    | some n => if n = 0 then settings.port else .whole n
    | none => settings.port

end Address

namespace CommandLine

/-- The expressions to evaluate: those given, or the lines of the input when there are none or only a
dash. -/
def expressionsOf (given : List String) (input : String) : List String :=
  if given = [] ∨ given = ["-"] then Text.filledLines input else given

/-- Whether the lines of the input are asked for. -/
def Command.readsInput : Command → Bool
  | .evaluate _ given => given == [] || given == ["-"]
  | _ => false

/-- A command carried out. The log is not modelled. Its level is not set, so that a `--log-level` such as
`BASIC_FORMAT`, which the log has for something else than a level and over which a program ends before it
evaluates or serves anything, counts as any other; and what is logged, at the level `DEBUG` the number of
expressions, does not stand in the error output. -/
def Command.run (around : Surroundings) : Command → Outcome
  | .nothing => ⟨Grammar.calculator.help, "", .returned 2, []⟩
  | .evaluate asJson given =>
    match around.settings with
    | .error e => .quiet (.badSettings e)
    | .ok _ =>
      let p := Batch.run asJson (expressionsOf given around.input)
      ⟨p.out, p.err, .returned p.code, []⟩
  | .serve host port =>
    match around.settings with
    | .error e => .quiet (.badSettings e)
    | .ok settings => ⟨"", "", .returned 0, [.choose settings host port]⟩

/-- The program run with arguments. -/
def run (around : Surroundings) (arguments : List String) : Outcome :=
  match commandOf arguments with
  | .error r => r.outcome
  | .ok command => command.run around

end CommandLine

/-- The server started as a program of its own, at the address of the settings. -/
def serveDirectly (around : Surroundings) : Outcome :=
  match around.settings with
  | .error e => .quiet (.badSettings e)
  | .ok settings => ⟨"", "", .finished, [.choose settings none none]⟩

end Reckoner
