import Reckoner.Json.Basic
/-!
Operators, and the causes for which an expression has no value.

Each cause has a stable kind, one message, and the details that a caller may show.
-/

namespace Reckoner

inductive Operator where
  | add
  | sub
  | mul
  | div
  deriving DecidableEq, Repr

namespace Operator

def symbol : Operator → Char
  | .add => '+'
  | .sub => '-'
  | .mul => '*'
  | .div => '/'

def ofChar? : Char → Option Operator
  | '+' => some .add
  | '-' => some .sub
  | '*' => some .mul
  | '/' => some .div
  | _ => none

/-- How tightly an operator binds. -/
def precedence : Operator → Nat
  | .add => 1
  | .sub => 1
  | .mul => 2
  | .div => 2

theorem ofChar?_symbol (op : Operator) : ofChar? op.symbol = some op := by cases op <;> rfl

theorem ofChar?_eq_some_iff {c : Char} {op : Operator} : ofChar? c = some op ↔ c = op.symbol := by
  constructor
  · intro h
    unfold ofChar? at h
    split at h <;> cases h <;> rfl
  · rintro rfl
    exact ofChar?_symbol op

end Operator

/-- Why an arrangement of numbers, operators and parentheses has no value. -/
inductive Malformation where
  | unmatchedParenthesis
  | missingOperand (op : Operator)
  | noValue
  | valuesLeft (count : Nat)
  deriving DecidableEq, Repr

def Malformation.reason : Malformation → String
  | .unmatchedParenthesis => "unmatched '('"
  | .missingOperand op => "missing operand for '" ++ op.symbol.toString ++ "'"
  | .noValue => "no value"
  | .valuesLeft n => toString n ++ " values left without operators"

/-- Why an expression has no value. -/
inductive EvalError where
  | emptyExpression
  | invalidCharacter (char : Char) (position : Nat)
  | numberFormat (literal : List Char)
  | divisionByZero
  | malformed (reason : Malformation)
  | unknownOperator (symbol : String)
  deriving DecidableEq, Repr

namespace EvalError

/-- The stable name of a cause. -/
def kind : EvalError → String
  | .emptyExpression => "empty_expression"
  | .invalidCharacter _ _ => "invalid_character"
  | .numberFormat _ => "number_format"
  | .divisionByZero => "division_by_zero"
  | .malformed _ => "malformed_expression"
  | .unknownOperator _ => "unknown_operator"

def message : EvalError → String
  | .emptyExpression => "Empty expression"
  | .invalidCharacter c _ => "Invalid character: " ++ c.toString
  | .numberFormat literal => "Invalid number: " ++ String.ofList literal
  | .divisionByZero => "Cannot divide by zero"
  | .malformed _ => "Invalid expression"
  | .unknownOperator symbol => "Invalid operator: " ++ symbol

/-- The details of a cause, by name. -/
def detail : EvalError → List (String × Json)
  | .invalidCharacter c position => [("char", .str c.toString), ("position", .int position)]
  | .numberFormat literal => [("literal", .str (String.ofList literal))]
  | .malformed reason => [("reason", .str reason.reason)]
  | .unknownOperator symbol => [("operator", .str symbol)]
  | _ => []

/-- The part of a cause that tells most: the reason of a malformation, else the message. -/
def explanation : EvalError → String
  | .malformed reason => reason.reason
  | e => e.message

end EvalError

end Reckoner
