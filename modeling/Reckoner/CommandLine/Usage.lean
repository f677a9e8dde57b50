import Reckoner.CommandLine.Grammar
/-!
The command lines of the calculator: the program itself and its two commands.
-/

namespace Reckoner.CommandLine

def logLevelFlag : Flag := ⟨["--log-level"], .text⟩

def jsonFlag : Flag := ⟨["--json"], .mark⟩

def hostFlag : Flag := ⟨["--host"], .text⟩

def portFlag : Flag := ⟨["--port"], .number⟩

def evalCommand : String := "eval"

def serveCommand : String := "serve"

/-- The program itself. -/
def Grammar.calculator : Grammar where
  program := "calcserve"
  usage := "usage: calcserve [-h] [--log-level LOG_LEVEL] \x7beval,serve\x7d ..."
  description := "
Arithmetic expression evaluator

positional arguments:
  \x7beval,serve\x7d
    eval                evaluate expressions (from arguments, or stdin lines)
    serve               run the HTTP API

options:
  -h, --help            show this help message and exit
  --log-level LOG_LEVEL
                        override the configured log level
"
  flags := [.askHelp, logLevelFlag]
  commands := [evalCommand, serveCommand]

/-- The command that evaluates expressions. What is left over are the expressions. -/
def Grammar.evaluation : Grammar where
  program := "calcserve eval"
  usage := "usage: calcserve eval [-h] [--json] [EXPR ...]"
  description := "
Evaluate expressions; '-' or none reads stdin lines.

options:
  -h, --help  show this help message and exit
  --json      print one JSON result object per line
"
  flags := [.askHelp, jsonFlag]
  commands := []

/-- The command that starts the server. -/
def Grammar.serving : Grammar where
  program := "calcserve serve"
  usage := "usage: calcserve serve [-h] [--host HOST] [--port PORT]"
  description := "
options:
  -h, --help   show this help message and exit
  --host HOST
  --port PORT
"
  flags := [.askHelp, hostFlag, portFlag]
  commands := []

end Reckoner.CommandLine
