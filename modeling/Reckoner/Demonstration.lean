import Reckoner.Json.Printer
import Reckoner.Outcome
import Reckoner.Service.Answer
/-!
The demonstration of the service: some expressions calculated for one user, then the history of that
user and what the service tells of itself, as JSON.
-/

namespace Reckoner.Demonstration

/-- A request, what is printed before it, and what is printed of its answer. -/
structure Step where
  heading : String
  request : Request
  text : Answer → String

/-- An answer as indented JSON. -/
def asJson (a : Answer) : String := Json.render .indented a.toJson ++ "\n"

/-- The result of a calculation. -/
def resultOf : Answer → String
  | .calculated r => r.result
  | _ => ""

def calculation (expression : String) : Step :=
  ⟨"", .calculate (some 1) (some expression), fun a => expression ++ " = " ++ resultOf a ++ "\n"⟩

def steps : List Step :=
  ["2+3*5", "(2+3)*5", "10/4", "-5+3", "π×2"].map calculation ++
    [⟨"\n=== History ===\n", .history (some 1), asJson⟩,
      ⟨"\n=== System Status ===\n", .status, asJson⟩]

/-- The steps carried out; the first refusal ends them. -/
def runSteps (service : Service) (out : String) (s : Session) : List Step → Outcome
  | [] => ⟨out, "", .finished, []⟩
  | step :: rest =>
    match service.handle s step.request with
    | (.ok a, s) => runSteps service (out ++ step.heading ++ step.text a) s rest
    | (.error e, _) => ⟨out ++ step.heading, "", .failed e, []⟩

/-- The demonstration on a service, if there are settings for one. -/
def run (service : Except Settings.Failure Service) (s : Session) : Outcome :=
  match service with
  | .error e => .quiet (.badSettings e)
  | .ok service => runSteps service "" s steps

end Reckoner.Demonstration
