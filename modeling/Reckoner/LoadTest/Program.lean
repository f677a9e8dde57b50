import Reckoner.CommandLine.Arguments
import Reckoner.LoadTest.Basic
/-!
The load test as a program.

Its command line says how many requests are made at once, how many there are, and which file takes the
report. The file is written last, so a report that cannot be written has been printed all the same.
-/

namespace Reckoner.LoadTest

/-- How a load test is made. -/
structure Plan where
  concurrency : Int
  total : Int
  path : String
  deriving DecidableEq, Repr

def grammar : CommandLine.Grammar where
  program := "bench.py"
  usage := "usage: bench.py [-h] [--concurrency CONCURRENCY] [--total TOTAL] [--out OUT]"
  description := "
options:
  -h, --help            show this help message and exit
  --concurrency CONCURRENCY
  --total TOTAL
  --out OUT
"
  flags := [.askHelp, ⟨["--concurrency"], .number⟩, ⟨["--total"], .number⟩, ⟨["--out"], .text⟩]
  commands := []

/-- The plan that arguments give. -/
def Plan.ofArguments (a : CommandLine.Arguments) : Plan where
  concurrency := (a.number? "--concurrency").getD 32
  total := (a.number? "--total").getD 100
  path := (a.value? "--out").getD "bench.json"

inductive Ending where
  | finished
  | left (code : Nat)
  | failed (failure : Failure)
  deriving DecidableEq, Repr

/-- What a load test leaves behind: the report, the texts printed beside it, how it ends, the files
written, and the session. -/
structure Outcome where
  report : Option Report
  out : String
  err : String
  ending : Ending
  written : List String
  session : Session

/-- The file of a path in the working directory, in which there are no directories. A path that ends
in a slash is that of a directory, whether there is one or not. -/
def fileOf (path : String) : Except Failure String :=
  let parts := Text.split (· == '/') path.toList
  let named := (parts.reverse.dropWhile (·.isEmpty)).reverse
  let name := named.getLastD []
  if path = "" ∨ ¬ named.dropLast.all (· == ['.']) then .error (.noDirectory path)
  else if parts.getLast? = some [] ∨ name = ['.'] ∨ name = ['.', '.'] then .error (.isDirectory path)
  else .ok (String.ofList name)

/-- A load test made by a plan. -/
def Plan.run (plan : Plan) (server : Server) (cases : List Case) (s : Session) : Outcome :=
  match observeTotal server plan.concurrency plan.total cases s with
  | .error e => ⟨none, "", "", .failed e, [], s⟩
  | .ok (report, lines, s) =>
    let out := String.join (lines.map (· ++ "\n"))
    match fileOf plan.path with
    | .ok name => ⟨some report, out, "", .finished, [name], s⟩
    | .error e => ⟨some report, out, "", .failed e, [], s⟩

/-- The program run with arguments. -/
def run (server : Server) (cases : List Case) (s : Session) (arguments : List String) : Outcome :=
  match grammar.parseAll arguments with
  | .ok a => (Plan.ofArguments a).run server cases s
  | .error .help => ⟨none, grammar.help, "", .left 0, [], s⟩
  | .error (.problem p) => ⟨none, "", grammar.complaint p, .left 2, [], s⟩

end Reckoner.LoadTest
