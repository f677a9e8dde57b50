import Reckoner.Expression.Evaluation
import Reckoner.Json.Printer
/-!
Verdicts: what is said of one expression.

A verdict is made for any JSON value. An object with a text for an expression is evaluated, and the
verdict says what came of it; anything else is refused as a request. No verdict is ever missing.
-/

namespace Reckoner

inductive Verdict where
  | notAnObject
  | notAText
  | failed (expression : String) (cause : EvalError)
  | succeeded (expression result : String)
  deriving DecidableEq

namespace Verdict

def ofExpression (expression : String) : Verdict :=
  match evaluate expression with
  | .ok result => .succeeded expression result
  | .error cause => .failed expression cause

/-- The verdict on a request; a request without an expression asks for the empty one. -/
def ofRequest : Json → Verdict
  | .obj fields =>
    match Json.field? "expr" (.obj fields) with
    | none => ofExpression ""
    | some (.str s) => ofExpression s
    | some _ => .notAText
  | _ => .notAnObject

def success : Verdict → Bool
  | .succeeded _ _ => true
  | _ => false

/-- One sentence for a reader. -/
def finalAnswer : Verdict → String
  | .notAnObject => "Error: inputs must be a dict"
  | .notAText => "Error: Expression must be a string"
  | .failed _ cause => "Error: " ++ cause.message
  | .succeeded _ result => result

def toJson (v : Verdict) : Json :=
  .obj (match v with
    | .notAnObject =>
      [("final_answer", .str v.finalAnswer), ("error", .str "invalid_inputs"),
        ("success", .bool false)]
    | .notAText =>
      [("final_answer", .str v.finalAnswer), ("error", .str "invalid_args"),
        ("success", .bool false)]
    | .failed expression cause =>
      [("expr", .str expression), ("error", .str cause.kind), ("detail", .obj cause.detail),
        ("final_answer", .str v.finalAnswer), ("success", .bool false)]
    | .succeeded expression result =>
      [("expr", .str expression), ("result", .str result), ("final_answer", .str v.finalAnswer),
        ("success", .bool true)])

theorem success_ofExpression (expression : String) :
    (ofExpression expression).success = (evaluate expression).toBool := by
  unfold ofExpression
  cases evaluate expression <;> rfl

end Verdict

end Reckoner
