import Reckoner.Http.Site
import Reckoner.Json.Printer
/-!
Load tests.

A load test posts the expressions of its cases, one case after the other over and over, and counts the
requests that are answered with the status the case expects. Others are failures, each with a reason.

What is shown here: `Report.total_of_observations`, every request is counted once.
-/

namespace Reckoner.LoadTest

/-- An expression, the label it is reported under, and the status that is expected. -/
structure Case where
  label : String
  expression : String
  expected : Int
  deriving DecidableEq, Repr

namespace Case

/-- The cases of a load test where none are given. -/
def standard : List Case :=
  [⟨"precedence", "2+3*5-8/4", 200⟩, ⟨"nested", "((1+2)*(3+4))/(5-(6-7))", 200⟩,
    ⟨"constants", "π × 2 ÷ e", 200⟩,
    ⟨"long_chain", "+".intercalate ((List.range 100).map toString), 200⟩,
    ⟨"div_zero", "1/(2-2)", 400⟩]

/-- A case put among others: one with the same label keeps its place and is replaced. -/
def put (c : Case) : List Case → List Case
  | [] => [c]
  | d :: ds => if d.label = c.label then c :: ds else d :: put c ds

/-- Cases with one of each label. -/
def distinct (cases : List Case) : List Case := cases.foldl (fun cs c => put c cs) []

end Case

/-- What answers the requests: a service, or nothing, for a reason. -/
inductive Server where
  | reachable (service : Service)
  | unreachable (reason : String)

/-- What came of a request: nothing to complain of, or the reason why not. -/
structure Observation where
  label : String
  failure : Option String
  deriving DecidableEq, Repr

/-- The request that posts the expression of a case. -/
def Case.request (c : Case) : Http.Request :=
  ⟨"POST", "/api/calculator/evaluate", some "1",
    some (Json.render .compact (.obj [("expression", .str c.expression)]))⟩

/-- A request made and observed. -/
def Server.observe (server : Server) (s : Session) (c : Case) : Observation × Session :=
  match server with
  | .unreachable reason => (⟨c.label, some reason⟩, s)
  | .reachable service =>
    let (response, s) := Http.respond (.ok service) s c.request
    if (response.status : Int) = c.expected then (⟨c.label, none⟩, s)
    else (⟨c.label, some ("status " ++ toString response.status)⟩, s)

/-- The observations of requests made one after the other. -/
def Server.observeAll (server : Server) (s : Session) : List Case → List Observation × Session
  | [] => ([], s)
  | c :: cs =>
    let (o, s) := server.observe s c
    let (os, s) := server.observeAll s cs
    (o :: os, s)

/-- What is counted. -/
structure Report where
  total : Int
  fine : Nat
  failed : Nat
  /-- The labels under which a request was fine, each once, in ascending order. -/
  labels : List String
  deriving DecidableEq, Repr

namespace Report

/-- Texts each once, in ascending order. -/
def sorted (labels : List String) : List String :=
  (labels.foldr (fun l ls => if ls.contains l then ls else l :: ls) []).mergeSort
    fun a b => !decide (b < a)

def ofObservations (total : Int) (os : List Observation) : Report where
  total := total
  fine := (os.filter (·.failure.isNone)).length
  failed := (os.filter (·.failure.isSome)).length
  labels := sorted ((os.filter (·.failure.isNone)).map (·.label))

theorem total_of_observations (total : Int) (os : List Observation) :
    (ofObservations total os).fine + (ofObservations total os).failed = os.length := by
  induction os with
  | nil => rfl
  | cons o os ih =>
    simp only [ofObservations] at ih ⊢
    cases h : o.failure <;> simp [h] <;> omega

end Report

/-- The first failures, a line each. -/
def failureLines (os : List Observation) : List String :=
  (os.filterMap fun o => o.failure.map fun why => "- " ++ o.label ++ ": " ++ why).take 5

/-- Why a load test is not made or not finished. -/
inductive Failure where
  | negativeConcurrency
  | noCases
  | noDirectory (path : String)
  | isDirectory (path : String)
  deriving DecidableEq, Repr

def Failure.message : Failure → String
  | .negativeConcurrency => "Semaphore initial value must be >= 0"
  | .noCases => "integer modulo by zero"
  | .noDirectory path => "[Errno 2] No such file or directory: " ++ Text.quoted path
  | .isDirectory path => "[Errno 21] Is a directory: " ++ Text.quoted path

/-- The cases of a number of requests, the given ones over and over. -/
def schedule (cases : List Case) (total : Nat) : Except Failure (List Case) :=
  if cases = [] ∧ total ≠ 0 then .error .noCases
  else .ok ((List.range total).filterMap fun i => cases[i % cases.length]?)

/-- The report of a load test, the first failures as lines, and the session after it. How many
requests are made at once makes no difference to what is counted. -/
def observeTotal (server : Server) (concurrency total : Int) (cases : List Case) (s : Session) :
    Except Failure (Report × List String × Session) := do
  if concurrency < 0 then .error .negativeConcurrency
  let planned ← schedule (Case.distinct cases) total.toNat
  let (os, s) := server.observeAll s planned
  return (.ofObservations total os, failureLines os, s)

end Reckoner.LoadTest
