import Reckoner.Http.Site
import Reckoner.Json.Printer
import Reckoner.Json.Shown
import Reckoner.Outcome
/-!
The smoke test of the site.

It makes one request of every kind, most of them as the same user, and prints the label, the status and
the body of each. What is archived on the way is deleted by its number, as another user first.
-/

namespace Reckoner.Http.SmokeTest

/-- Requests as a user, with a JSON value as the body. -/
def get (user : Option String) (path : String) : Request := ⟨"GET", path, user, none⟩

def delete (user path : String) : Request := ⟨"DELETE", path, some user, none⟩

def post (user path : String) (fields : List (String × String)) : Request :=
  ⟨"POST", path, some user, some (Json.render .compact (.obj (fields.map fun f => (f.1, .str f.2))))⟩

def evaluate (expression : String) : Request :=
  post "1" "/api/calculator/evaluate" [("expression", expression)]

/-- The number in the body of a response, as text. -/
def numberText (r : Response) : String :=
  match r.body with
  | .json v => ((v.field? "id").getD .null).asText
  | .text _ => Json.null.asText

/-- The requests up to the one that archives. -/
def firstPart : List (String × Request) :=
  [("STATUS", get none "/v1/status"), ("EVAL", evaluate "2 + 3 × 5"), ("DIV0", evaluate "3/0"),
    ("BAD CHAR", evaluate "2$3")]

def archiving : String × Request :=
  ("ARCHIVE", post "1" "/api/calculator/archive" [("expression", "(2+3)*5"), ("result", "25")])

/-- The requests after something has been archived with a number. -/
def secondPart (number : String) : List (String × Request) :=
  let place := "/api/calculator/archive/" ++ number
  [("HISTORY", get (some "1") "/api/calculator/history"), ("DELETE other user", delete "2" place),
    ("DELETE", delete "1" place), ("CLEAR", delete "1" "/api/calculator/history"),
    ("NO USER", get none "/api/calculator/history")]

/-- What is printed of a response. -/
def line (label : String) (r : Response) : String :=
  let body := match r.body with
    | .json v => v.shown
    | .text s => Text.quoted s
  label ++ ": " ++ toString r.status ++ " " ++ body ++ "\n"

/-- What labelled requests print, the last response, and the session after them; a failure of the
store ends them. -/
def runPart (service : Service) (out : String) (last : Option Response) (s : Session) :
    List (String × Request) → String × Except StoreError (Option Response) × Session
  | [] => (out, .ok last, s)
  | (label, r) :: rest =>
    match attempt (.ok service) s r with
    | (.ok response, s) => runPart service (out ++ line label response) (some response) s rest
    | (.error e, s) => (out, .error e, s)

/-- The smoke test on a service, if there are settings for one. -/
def run (service : Except Settings.Failure Service) (s : Session) : Outcome :=
  match service with
  | .error e => .quiet (.badSettings e)
  | .ok service =>
    match runPart service "" none s (firstPart ++ [archiving]) with
    | (out, .error e, _) => ⟨out, "", .failed (.store e), []⟩
    | (out, .ok last, s) =>
      match runPart service out none s (secondPart ((last.map numberText).getD "")) with
      | (out, .error e, _) => ⟨out, "", .failed (.store e), []⟩
      | (out, .ok _, _) => ⟨out, "", .finished, []⟩

end Reckoner.Http.SmokeTest
