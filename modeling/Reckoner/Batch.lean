import Reckoner.Verdict
/-!
Batches of expressions.

A batch is evaluated one expression at a time. In the plain form results go to the output and failures
to the error output; in the JSON form every expression has its verdict on a line of the output. The
code tells whether all of them have a value.
-/

namespace Reckoner

/-- What a program leaves behind: its two outputs and its code. -/
structure Printed where
  code : Nat
  out : String
  err : String
  deriving DecidableEq

namespace Batch

/-- Lines put together, each with its end. -/
def lines (ls : List String) : String := String.join (ls.map (· ++ "\n"))

/-- The result of an expression as a line, if it has one. -/
def resultLine? (expression : String) : Option String :=
  match evaluate expression with
  | .ok result => some result
  | .error _ => none

/-- The failure of an expression as a line, if it fails. -/
def failureLine? (expression : String) : Option String :=
  match evaluate expression with
  | .ok _ => none
  | .error cause => some ("error: " ++ cause.message)

/-- The verdict on an expression as a line. -/
def verdictLine (expression : String) : String :=
  Json.render .line (Verdict.ofExpression expression).toJson

/-- Zero when nothing has failed, and one otherwise. -/
def code (failures : Nat) : Nat := if failures = 0 then 0 else 1

/-- A batch in one of its forms. In the JSON form what counts as a failure is told by the verdicts, and in
the plain form each failure has its line. -/
def run (asJson : Bool) (expressions : List String) : Printed :=
  if asJson then
    let failures := expressions.countP fun x => !(Verdict.ofExpression x).success
    ⟨code failures, lines (expressions.map verdictLine), ""⟩
  else
    let failures := expressions.filterMap failureLine?
    ⟨code failures.length, lines (expressions.filterMap resultLine?), lines failures⟩

end Batch

end Reckoner
