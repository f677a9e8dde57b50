import Reckoner.Binary64.Layout
import Reckoner.Json.Basic
/-!
Numbers as settings give them: whole, or with a point. A quantity keeps the form in which it was given,
and is compared by its exact value.
-/

namespace Reckoner

inductive Quantity where
  | whole (n : Int)
  | pointed (x : Binary64)
  deriving DecidableEq

namespace Quantity

def text : Quantity → String
  | .whole n => Text.integerText n
  | .pointed x => x.text

def toJson : Quantity → Json
  | .whole n => .int n
  | .pointed x => .float x

/-- Whether a quantity is less than a whole number. -/
def isBelow (q : Quantity) (n : Int) : Bool :=
  match q with
  | .whole m => decide (m < n)
  | .pointed x => x.ltInt n

/-- Whether a quantity is greater than a whole number. -/
def isAbove (q : Quantity) (n : Int) : Bool :=
  match q with
  | .whole m => decide (n < m)
  | .pointed x => Binary64.intLt n x

/-- Whether a quantity is a whole number, in whatever form. -/
def isIntegral : Quantity → Bool
  | .whole _ => true
  | .pointed x => x.isIntegral

def isZero : Quantity → Bool
  | .whole n => n == 0
  | .pointed x => x.isZero

end Quantity

end Reckoner
