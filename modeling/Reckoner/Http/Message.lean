import Reckoner.Json.Parser
import Reckoner.Service.Answer
/-!
Requests and responses.

A request carries a method, a path, the text of the header that names its user, and a body. A response
has a status and a body, which is a JSON value or plain text.
-/

namespace Reckoner.Http

structure Request where
  method : String
  path : String
  user : Option String
  body : Option String
  deriving DecidableEq, Repr

inductive Body where
  | json (value : Json)
  | text (s : String)

structure Response where
  status : Nat
  body : Body

namespace Response

def ofJson (status : Nat) (value : Json) : Response := ⟨status, .json value⟩

/-- A response that says in words what is wrong. -/
def detail (status : Nat) (text : String) : Response := ofJson status (.obj [("detail", .str text)])

def notFound : Response := detail 404 "Not Found"

def methodNotAllowed : Response := detail 405 "Method Not Allowed"

def userMissing : Response := detail 401 "X-User-Id header required"

def userNotAnInteger : Response := detail 401 "X-User-Id must be an integer"

def unreadableBody : Response := detail 400 "There was an error parsing the body"

def resultMissing : Response := detail 400 "result is required when archiving"

/-- Something went wrong that no rule provides for. -/
def internalError : Response := ⟨500, .text "Internal Server Error"⟩

def message (text : String) : Response := ofJson 200 (.obj [("message", .str text)])

end Response

end Reckoner.Http
