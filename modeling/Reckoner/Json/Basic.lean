import Reckoner.Binary64.Basic
/-!
JSON values.

Whole numbers and numbers with a fraction or a power of ten are kept apart, and the fields of an object
keep their order. A string literal may spell half of a surrogate pair, which is not Unicode text; such a
string is one value of its own, since nothing but its presence is ever looked at.
-/

namespace Reckoner

inductive Json where
  | null
  | bool (b : Bool)
  | int (n : Int)
  | float (x : Binary64)
  | str (s : String)
  | illFormed
  | arr (items : List Json)
  | obj (fields : List (String × Json))
  deriving Inhabited

namespace Json

/-- Fields with one more: an earlier field of that name keeps its place and takes the new value. -/
def insertField (name : String) (value : Json) : List (String × Json) → List (String × Json)
  | [] => [(name, value)]
  | f :: fs => if f.1 = name then (name, value) :: fs else f :: insertField name value fs

/-- An object of fields given in order, the last of several with one name counting. -/
def ofFields (fields : List (String × Json)) : Json :=
  .obj (fields.foldl (fun fs f => insertField f.1 f.2 fs) [])

def field? (name : String) : Json → Option Json
  | .obj fields => (fields.find? (·.1 = name)).map (·.2)
  | _ => none

def str? : Json → Option String
  | .str s => some s
  | _ => none

def int? : Json → Option Int
  | .int n => some n
  | _ => none

mutual

/-- Whether a value can be sent as JSON text: all its numbers are finite and all its strings are
Unicode text. -/
def sendable : Json → Bool
  | .float (.finite _ _) => true
  | .float _ => false
  | .illFormed => false
  | .arr items => sendableItems items
  | .obj fields => sendableFields fields
  | _ => true

def sendableItems : List Json → Bool
  | [] => true
  | v :: vs => sendable v && sendableItems vs

def sendableFields : List (String × Json) → Bool
  | [] => true
  | f :: fs => sendable f.2 && sendableFields fs

end

end Json

end Reckoner
