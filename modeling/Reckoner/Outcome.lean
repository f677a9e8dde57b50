import Reckoner.Service.Request
import Reckoner.Settings.Basic
/-!
Outcomes of programs.

A program prints to its output and its error output, may start the server, and ends: with a code it
hands back, by leaving with a code, at its last line, or over a failure that nothing catches.
-/

namespace Reckoner

/-- The address at which the server is started. -/
structure Address where
  host : String
  port : Quantity
  deriving DecidableEq

/-- What the server serves. -/
def Address.target : String := "calcserve.api:app"

inductive Ending where
  | returned (code : Nat)
  | left (code : Nat)
  | finished
  | badSettings (failure : Settings.Failure)
  | failed (cause : ServiceError)
  deriving DecidableEq

structure Outcome where
  out : String
  err : String
  ending : Ending
  served : List Address
  deriving DecidableEq

namespace Outcome

/-- Nothing printed and nothing started. -/
def quiet (ending : Ending) : Outcome := ⟨"", "", ending, []⟩

/-- The outcome of a program that leaves with the code that another one hands back. -/
def leaving (o : Outcome) : Outcome :=
  match o.ending with
  | .returned code => { o with ending := .left code }
  | _ => o

end Outcome

end Reckoner
