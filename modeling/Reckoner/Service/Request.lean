import Reckoner.Expression.Evaluation
import Reckoner.Quantity
import Reckoner.Store.Task
/-!
Requests of users.

A user may have an expression calculated, which goes into the history; may list, fill and thin out the
archive; and may list and clear the history. Every request is a task on the store: it says which calls
are made, in which order, and what is answered.
-/

namespace Reckoner

/-- Why a request is refused. -/
inductive ServiceError where
  | evaluation (cause : EvalError)
  | tooLong (length : Nat) (limit : Quantity)
  | notFound
  | notArchived
  | store (cause : StoreError)
  deriving DecidableEq

namespace ServiceError

def message : ServiceError → String
  | .evaluation cause => cause.message
  | .tooLong length limit =>
    "Expression is " ++ toString length ++ " characters long, limit is " ++ limit.text
  | .notFound => "Calculation not found or access denied"
  | .notArchived => "Can only delete from archive"
  | .store cause => cause.message

end ServiceError

/-- What a service is set up with: the longest expression it calculates, and where its store is. -/
structure Service where
  limit : Quantity
  location : String

/-- What the service tells about itself. -/
structure Status where
  timestamp : Timestamp
  location : String
  stored : Nat
  limit : Quantity

/-- What a user can ask for. -/
inductive Request where
  | calculate (user : Option Int) (expression : Option String)
  | history (user : Option Int)
  | archive (user : Option Int)
  | archiveCalculation (user : Option Int) (expression result : Option String)
  | deleteArchived (user id : Option Int)
  | clearHistory (user : Option Int)
  | status
  deriving DecidableEq

/-- What is answered to a request that is granted. -/
inductive Answer where
  | calculated (record : Record)
  | records (records : List Record)
  | archived (record : Record)
  | deleted
  | cleared (count : Nat)
  | status (status : Status)

/-- A task that may be refused. -/
abbrev Errand (ρ : Type) := Task (Except ServiceError ρ)

namespace Errand

/-- A call whose failure ends the errand. -/
def ask {ρ : Type} (c : Call) (next : c.Answer → Errand ρ) : Errand ρ :=
  Task.call c fun
    | .ok answer => next answer
    | .error e => .done (.error (.store e))

def grant {ρ : Type} (r : ρ) : Errand ρ := .done (.ok r)

def refuse {ρ : Type} (e : ServiceError) : Errand ρ := .done (.error e)

end Errand

namespace Service

/-- The value of an expression that is not too long. No expression is the empty one. -/
def evaluate (service : Service) (expression : Option String) : Except ServiceError String :=
  let text := expression.getD ""
  if service.limit.isBelow text.length then .error (.tooLong text.length service.limit)
  else
    match Reckoner.evaluate text with
    | .ok result => .ok result
    | .error e => .error (.evaluation e)

def calculate (service : Service) (user : Option Int) (expression : Option String) :
    Errand Record :=
  match service.evaluate expression with
  | .error e => .refuse e
  | .ok result => .ask (.save ⟨user, expression, some result, .history⟩ none) .grant

/-- Deletes an archived calculation of a user: it is looked up first and deleted by its number. -/
def deleteArchived (user id : Option Int) : Errand Unit :=
  .ask (.find id user) fun
    | none => .refuse .notFound
    | some record =>
      match record.shelf with
      | .history => .refuse .notArchived
      | .archive => .ask (.delete id) .grant

/-- What the service tells about itself; the clock is read before the rows are counted. -/
def report (service : Service) : Errand Status :=
  .ask .now fun t =>
    .ask .count fun n => .grant ⟨t, service.location, n, service.limit⟩

end Service

namespace Task

/-- A task with its result changed. -/
def map {ρ σ : Type} (f : ρ → σ) : Task ρ → Task σ
  | .done r => .done (f r)
  | .call c next => .call c fun a => (next a).map f

theorem run_map {ρ σ : Type} (f : ρ → σ) (t : Task ρ) (s : Session) :
    (t.map f).run s = (f (t.run s).1, (t.run s).2) := by
  induction t generalizing s with
  | done r => rfl
  | call c next ih => exact ih _ _

end Task

/-- The task of a request. -/
def Request.task (service : Service) : Request → Errand Answer
  | .calculate user expression => (service.calculate user expression).map (·.map .calculated)
  | .history user => .ask (.list user .history) fun rs => .grant (.records rs)
  | .archive user => .ask (.list user .archive) fun rs => .grant (.records rs)
  | .archiveCalculation user expression result =>
    .ask (.save ⟨user, expression, result, .archive⟩ none) fun r => .grant (.archived r)
  | .deleteArchived user id => (Service.deleteArchived user id).map (·.map fun _ => .deleted)
  | .clearHistory user => .ask (.deleteAll user .history) fun n => .grant (.cleared n)
  | .status => service.report.map (·.map .status)

/-- A request carried out in a session. -/
def Service.handle (service : Service) (s : Session) (r : Request) :
    Except ServiceError Answer × Session :=
  (r.task service).run s

end Reckoner
