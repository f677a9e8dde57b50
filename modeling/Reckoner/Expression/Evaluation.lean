import Reckoner.Binary64.Layout
import Reckoner.Expression.Machine
import Reckoner.Expression.Normal
import Reckoner.Expression.Token
/-!
Evaluation of expressions.

A text is scanned and fed to the machine one token at a time, so the first fault met in that order is
the one reported, whether it lies in the text or in the arrangement of the tokens read so far.
-/

namespace Reckoner

namespace Arithmetic

variable {α : Type} (A : Arithmetic α)

/-- A lexeme as the machine reads it. -/
def symbolOf : Lexeme → Symbol α
  | .number text => .number (A.literal text)
  | .operator op => .operator op
  | .opening => .opening
  | .closing => .closing

/-- The moves of the machine on the rest of a text, each token being scanned when it is needed. -/
def feedText (s : Stacks α) (previous : Option Char) (position : Nat) :
    List Char → Except EvalError (Stacks α)
  | [] => .ok s
  | c :: cs =>
    match _h : scan previous position c cs with
    | .error e => .error e
    | .ok (lexeme, rest) =>
      match s.step A (A.symbolOf lexeme) with
      | .error e => .error e
      | .ok t => feedText t lexeme.text.getLast? (position + lexeme.text.length) rest
termination_by cs => cs.length
decreasing_by exact scan_length_lt _h

/-- The value of a text in normal form. -/
def evaluateText (cs : List Char) : Except EvalError α :=
  match A.feedText .empty none 0 cs with
  | .error e => .error e
  | .ok s => s.finish A

theorem feedText_error {s : Stacks α} {previous : Option Char} {position : Nat} {c : Char}
    {cs : List Char} {e : EvalError} (h : scan previous position c cs = .error e) :
    A.feedText s previous position (c :: cs) = .error e := by
  rw [feedText]
  split <;> simp_all

theorem feedText_ok {s : Stacks α} {previous : Option Char} {position : Nat} {c : Char}
    {cs rest : List Char} {lexeme : Lexeme}
    (h : scan previous position c cs = .ok (lexeme, rest)) :
    A.feedText s previous position (c :: cs) =
      match s.step A (A.symbolOf lexeme) with
      | .error e => .error e
      | .ok t => A.feedText t lexeme.text.getLast? (position + lexeme.text.length) rest := by
  rw [feedText]
  split <;> simp_all

end Arithmetic

namespace Binary64

/-- The arithmetic of binary64 numbers. -/
def arithmetic : Arithmetic Binary64 := ⟨add, sub, mul, div, isZero, ofLiteral⟩

end Binary64

/-- An operator given by its symbol, applied to two numbers. -/
def applySymbol (symbol : String) (left right : Binary64) : Except EvalError Binary64 :=
  match symbol.toList with
  | [c] =>
    match Operator.ofChar? c with
    | some op => Binary64.arithmetic.apply op left right
    | none => .error (.unknownOperator symbol)
  | _ => .error (.unknownOperator symbol)

/-- The display of the value of an expression as typed. -/
def evaluate (expression : String) : Except EvalError String :=
  match Normal.form? expression with
  | .error e => .error e
  | .ok cs =>
    match Binary64.arithmetic.evaluateText cs with
    | .error e => .error e
    | .ok x => .ok x.display

end Reckoner
