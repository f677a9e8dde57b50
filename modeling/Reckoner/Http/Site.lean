import Reckoner.Http.Field
import Reckoner.Http.Route
import Reckoner.Settings.Basic
/-!
The site: a service behind HTTP.

A request is taken in steps, and the first that fails answers it: the place and the method, the text of
the body, the user, the service itself, what the path and the body say, and last the request to the
service. Every failure of the service has its response.

What is shown here: `respond_status_of_no_place`, a path that leads nowhere is answered by 404 and
changes nothing.
-/

namespace Reckoner.Http

/-- The user a header names, by a whole number between blanks. -/
def userOf (header : Option String) : Except Response Int :=
  match header with
  | none => .error .userMissing
  | some text =>
    if Text.isBlankText text then .error .userMissing
    else
      match Text.wholeNumber? (Text.trim text.toList) with
      | some n => .ok n
      | none => .error .userNotAnInteger

/-- A step whose faults are answered. -/
def orFaults {α : Type} : Except (List Fault) α → Except Response α
  | .ok a => .ok a
  | .error faults => .error (Faults.response faults)

/-- Whether the body of a request is read. -/
def Action.readsBody : Action → Bool
  | .evaluate | .save => true
  | _ => false

/-- The request to the service, of a user and with a body, that an action makes. -/
def Action.request (user : Int) (body : Option Json) : Action → Except Response Reckoner.Request
  | .evaluate => do
    let s ← orFaults (submission body)
    return .calculate user s.expression
  | .save => do
    let s ← orFaults (submission body)
    match s.result with
    | some result => return .archiveCalculation user s.expression result
    | none => .error .resultMissing
  | .delete number => do
    let id ← orFaults (calculationNumber number)
    return .deleteArchived user id
  | .history => .ok (.history user)
  | .clearHistory => .ok (.clearHistory user)
  | .archive => .ok (.archive user)
  | .status => .ok .status

/-- The response to a request that is granted. -/
def Response.ofAnswer : Answer → Response
  | .calculated r => ofJson 200 r.toBriefJson
  | .records rs => ofJson 200 (.arr (rs.map Record.toSentJson))
  | .archived r => ofJson 200 r.toSentJson
  | .deleted => message "Deleted successfully"
  | .cleared _ => message "History cleared"
  | .status s => ofJson 200 s.toJson

/-- A failure of the service by its kind and its message. -/
def Response.refusal (status : Nat) (kind message : String) : Response :=
  ofJson status (.obj [("error", .str kind), ("message", .str message)])

/-- The response to a request that is refused; a failure of the store has none. -/
def Response.ofError : ServiceError → Except StoreError Response
  | .evaluation cause =>
    .ok (ofJson 400 (.obj [("error", .str cause.kind), ("detail", .obj cause.detail),
      ("message", .str ("Invalid expression: " ++ cause.explanation))]))
  | .tooLong length limit =>
    .ok (refusal 400 "expression_too_long" (ServiceError.tooLong length limit).message)
  | .notArchived => .ok (refusal 400 "not_archived" ServiceError.notArchived.message)
  | .notFound => .ok (refusal 404 "not_found" ServiceError.notFound.message)
  | .store cause => .error cause

/-- What a request asks of the service, and the service it asks. -/
def requestOf (service : Except Settings.Failure Service) (r : Request) :
    Except Response (Service × Reckoner.Request) := do
  let some place := Place.ofPath? r.path | .error .notFound
  let some action := Action.of? place r.method | .error .methodNotAllowed
  let body ← if action.readsBody then readBody r.body else .ok none
  let user ← if action = .status then .ok 0 else userOf r.user
  let service ← match service with
    | .ok service => .ok service
    | .error _ => .error .internalError
  return (service, ← action.request user body)

/-- A response without what the method does not ask for. -/
def Response.forMethod (method : String) (r : Response) : Response :=
  if Text.upper method = "HEAD" then ⟨r.status, .text ""⟩ else r

/-- The response to a request and the session after it; there is no response when the store fails. -/
def attempt (service : Except Settings.Failure Service) (s : Session) (r : Request) :
    Except StoreError Response × Session :=
  match requestOf service r with
  | .error response => (.ok (response.forMethod r.method), s)
  | .ok (service, request) =>
    match service.handle s request with
    | (.ok answer, s) => (.ok (.ofAnswer answer), s)
    | (.error e, s) => (Response.ofError e, s)

/-- The response to a request, a failure of the store being an internal error, and the session after
it. -/
def respond (service : Except Settings.Failure Service) (s : Session) (r : Request) :
    Response × Session :=
  match attempt service s r with
  | (.ok response, s) => (response, s)
  | (.error _, s) => (.internalError, s)

theorem respond_status_of_no_place {service : Except Settings.Failure Service} {s : Session}
    {r : Request} (h : Place.ofPath? r.path = none) :
    (respond service s r).1.status = 404 ∧ (respond service s r).2 = s := by
  have hr : requestOf service r = .error .notFound := by simp only [requestOf, h]
  simp only [respond, attempt, hr, Response.forMethod, and_true]
  split <;> rfl

/-- The responses to requests one after the other, and the session after them. -/
def respondAll (service : Except Settings.Failure Service) (s : Session) :
    List Request → List Response × Session
  | [] => ([], s)
  | r :: rs =>
    let (response, s) := respond service s r
    let (responses, s) := respondAll service s rs
    (response :: responses, s)

end Reckoner.Http
