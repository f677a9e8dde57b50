import Reckoner.Http.Message
import Reckoner.Text.WholeNumber
/-!
What is read from the parts of a request.

A body is a JSON object with an expression and possibly a result, both texts; a number in a path is a
whole number. Whatever is wrong is told with its place, all faults of a body together; a fault repeats
the value that is wrong, so the response fails if that value cannot be sent.

What is shown here: `Faults.response_status`, a response to faults has status 422 or 500.
-/

namespace Reckoner.Http

/-- What is wrong with a value. -/
inductive FaultKind where
  | notJson
  | missing
  | notAnObject
  | notAText
  | notAnInteger
  deriving DecidableEq, Repr

namespace FaultKind

def name : FaultKind → String
  | .notJson => "json_invalid"
  | .missing => "missing"
  | .notAnObject => "model_attributes_type"
  | .notAText => "string_type"
  | .notAnInteger => "int_parsing"

def message : FaultKind → String
  | .notJson => "JSON decode error"
  | .missing => "Field required"
  | .notAnObject => "Input should be a valid dictionary or object to extract fields from"
  | .notAText => "Input should be a valid string"
  | .notAnInteger => "Input should be a valid integer, unable to parse string as an integer"

end FaultKind

/-- A fault, the place of the value that is wrong, and that value. -/
structure Fault where
  kind : FaultKind
  place : List String
  value : Json

namespace Fault

def toJson (f : Fault) : Json :=
  .obj [("type", .str f.kind.name), ("loc", .arr (f.place.map .str)), ("msg", .str f.kind.message)]

end Fault

/-- The response to faults. -/
def Faults.response (faults : List Fault) : Response :=
  if faults.all fun f => f.value.sendable then
    .ofJson 422 (.obj [("detail", .arr (faults.map Fault.toJson))])
  else .internalError

theorem Faults.response_status (faults : List Fault) :
    (Faults.response faults).status = 422 ∨ (Faults.response faults).status = 500 := by
  unfold Faults.response
  split
  · exact .inl rfl
  · exact .inr rfl

/-! ## Bodies -/

/-- The value of a body; an empty one counts as none. -/
def readBody (body : Option String) : Except Response (Option Json) :=
  match body with
  | none => .ok none
  | some text =>
    if text = "" then .ok none
    else
      match Json.parseMarked text with
      | .ok v => .ok (some v)
      | .error .malformed => .error (Faults.response [⟨.notJson, ["body"], .null⟩])
      | .error .tooManyDigits => .error .unreadableBody

/-- What is to be calculated or saved. -/
structure Submission where
  expression : String
  result : Option String
  deriving DecidableEq, Repr

/-- The expression in a body: it has to be there, and a text. -/
def expressionField (body : Json) : Except (List Fault) String :=
  match body.field? "expression" with
  | none => .error [⟨.missing, ["body", "expression"], body⟩]
  | some (.str s) => .ok s
  | some v => .error [⟨.notAText, ["body", "expression"], v⟩]

/-- The result in a body: it may be missing or null, and is else a text. -/
def resultField (body : Json) : Except (List Fault) (Option String) :=
  match body.field? "result" with
  | none | some .null => .ok none
  | some (.str s) => .ok (some s)
  | some v => .error [⟨.notAText, ["body", "result"], v⟩]

/-- What a body submits. -/
def submission (body : Option Json) : Except (List Fault) Submission :=
  match body with
  | none => .error [⟨.missing, ["body"], .null⟩]
  | some (.obj fields) =>
    match expressionField (.obj fields), resultField (.obj fields) with
    | .ok expression, .ok result => .ok ⟨expression, result⟩
    | .error e, .ok _ => .error e
    | .ok _, .error e => .error e
    | .error e, .error f => .error (e ++ f)
  | some v => .error [⟨.notAnObject, ["body"], v⟩]

/-! ## Numbers in paths -/

def asciiDigit? (c : Char) : Option Nat := if c.isDigit then some (c.toNat - 48) else none

/-- Whether nothing follows the digits of a whole number but a point and zeros. -/
def isWholeEnd : List Char → Bool
  | [] => true
  | '.' :: zeros => !zeros.isEmpty && zeros.all (· == '0')
  | _ => false

/-- A whole number in ASCII digits, white space around it ignored, which a point and zeros may follow. There
is no bound on how many digits are read; a number of thousands of digits is one here. -/
def pathNumber? (cs : List Char) : Option Int :=
  let (negative, rest) := Text.splitSign (Text.trimBy Text.isWhiteSpace cs)
  if isWholeEnd (rest.dropWhile (· ≠ '.')) then
    (Text.groupedDigits? asciiDigit? (rest.takeWhile (· ≠ '.'))).map fun ds =>
      if negative then -(Text.valueOfDigits ds : Int) else Text.valueOfDigits ds
  else none

/-- The number of a calculation in a path. -/
def calculationNumber (cs : List Char) : Except (List Fault) Int :=
  match pathNumber? cs with
  | some n => .ok n
  | none => .error [⟨.notAnInteger, ["path", "calc_id"], .str (String.ofList cs)⟩]

end Reckoner.Http
