import Reckoner.Proofs.Expression.Settling
import Reckoner.Expression.Evaluation
/-!
Evaluation with accesses that can fail.

The types of the machine leave no room for some mishaps: a stack is taken apart by its shape, and an
operator has its precedence. Here the same evaluation is written without that help. Both stacks are
lists from which an element is taken whether there is one or not, operators and parentheses lie on one
stack as the texts of their tokens, a table is asked for their precedence, the scanner is started at any
position, division divides by whatever it is given, and a whole number is taken of any number. Each of
these accesses can end in a mishap.

That none of them ever does is shown in `Reckoner.Proofs.Expression.Totality`.
-/

namespace Reckoner.Bare

/-- An access that fails. -/
inductive Mishap where
  | emptyList
  | pastEnd
  | unknownSymbol (symbol : List Char)
  | zeroDivisor
  | notFinite
  | tooManyDigits
  deriving DecidableEq

/-- How the bare evaluation fails: for a cause that is told, or by a mishap. -/
inductive Failure where
  | cause (e : EvalError)
  | mishap (m : Mishap)
  deriving DecidableEq

/-! ## Accesses -/

/-- The last element of a list that grows at its end, here its head, and the rest. -/
def pop {β : Type} : List β → Except Failure (β × List β)
  | [] => .error (.mishap .emptyList)
  | x :: xs => .ok (x, xs)

def top {β : Type} : List β → Except Failure β
  | [] => .error (.mishap .emptyList)
  | x :: _ => .ok x

/-- The table of precedences. -/
def precedence (symbol : List Char) : Except Failure Nat :=
  match symbol with
  | ['+'] => .ok 1
  | ['-'] => .ok 1
  | ['*'] => .ok 2
  | ['/'] => .ok 2
  | _ => .error (.mishap (.unknownSymbol symbol))

/-- The whole number below a number. -/
def floor : Binary64 → Except Failure Int
  | .finite s x => .ok ((Binary64.signed s x).fdiv Magnitude.one)
  | _ => .error (.mishap .notFinite)

/-- The whole part of a number. -/
def whole (x : Binary64) : Except Failure Int :=
  match x.whole? with
  | some n => .ok n
  | none => .error (.mishap .notFinite)

/-- A whole number as a text; a number with too many digits has none. -/
def digits (n : Int) : Except Failure String :=
  if (Text.decimalDigits n.natAbs).length ≤ Text.digitLimit then .ok (Text.integerText n)
  else .error (.mishap .tooManyDigits)

/-! ## The evaluation -/

section Machine
variable {α : Type} (A : Arithmetic α)

/-- Division by whatever it is given. -/
def divide (x y : α) : Except Failure α :=
  if A.isZero y then .error (.mishap .zeroDivisor) else .ok (A.div x y)

/-- An operator given by its symbol, applied to two values. -/
def apply (symbol : List Char) (x y : α) : Except Failure α :=
  match symbol with
  | ['+'] => .ok (A.add x y)
  | ['-'] => .ok (A.sub x y)
  | ['*'] => .ok (A.mul x y)
  | ['/'] => if A.isZero y then .error (.cause .divisionByZero) else divide A x y
  | _ => .error (.cause (.unknownOperator (String.ofList symbol)))

/-- Values, and the texts of operators and opening parentheses. -/
structure Lists (α : Type) where
  operands : List α
  operators : List (List Char)

/-- The cause told when an operator has fewer than two values. -/
def missingOperand (symbol : List Char) : Failure :=
  match symbol with
  | [c] =>
    match Operator.ofChar? c with
    | some op => .cause (.malformed (.missingOperand op))
    | none => .mishap (.unknownSymbol symbol)
  | _ => .mishap (.unknownSymbol symbol)

/-- The topmost operator applied to the two topmost values. -/
def reduce (s : Lists α) : Except Failure (Lists α) := do
  let (symbol, operators) ← pop s.operators
  if symbol = ['('] then .error (.cause (.malformed .unmatchedParenthesis))
  else if s.operands.length < 2 then .error (missingOperand symbol)
  else
    let (right, operands) ← pop s.operands
    let (left, operands) ← pop operands
    let value ← apply A symbol left right
    .ok ⟨value :: operands, operators⟩

theorem reduce_shorter {s t : Lists α} (h : reduce A s = .ok t) :
    t.operators.length < s.operators.length := by
  obtain ⟨operands, operators⟩ := s
  cases operators with
  | nil => cases h
  | cons symbol operators =>
    change (if symbol = ['('] then _ else _) = _ at h
    split at h
    · cases h
    split at h
    · cases h
    obtain ⟨⟨right, rest⟩, -, h⟩ := bind_eq_ok.1 h
    obtain ⟨⟨left, rest⟩, -, h⟩ := bind_eq_ok.1 h
    obtain ⟨value, -, h⟩ := bind_eq_ok.1 h
    cases h
    exact Nat.lt_succ_self _

/-- Reduces as long as a test of the operators says so. -/
def loop (test : List (List Char) → Except Failure Bool) (s : Lists α) : Except Failure (Lists α) :=
  match test s.operators with
  | .error e => .error e
  | .ok false => .ok s
  | .ok true =>
    match _h : reduce A s with
    | .error e => .error e
    | .ok t => loop test t
termination_by s.operators.length
decreasing_by exact reduce_shorter A _h

/-- There is an operator on top. -/
def operatorOnTop (operators : List (List Char)) : Except Failure Bool :=
  if operators = [] then .ok false
  else do
    let symbol ← top operators
    .ok (decide (symbol ≠ ['(']))

/-- There is an operator on top that binds at least as tightly as an incoming one. -/
def bindsOnTop (incoming : Nat) (operators : List (List Char)) : Except Failure Bool :=
  if operators = [] then .ok false
  else do
    let symbol ← top operators
    if symbol = ['('] then .ok false
    else
      let p ← precedence symbol
      .ok (decide (incoming ≤ p))

/-- There is anything at all. -/
def anyOnTop (operators : List (List Char)) : Except Failure Bool := .ok (decide (operators ≠ []))

/-- What is done at a token. -/
def step (s : Lists α) (token : Lexeme) : Except Failure (Lists α) :=
  match token with
  | .number text => .ok ⟨A.literal text :: s.operands, s.operators⟩
  | .opening => .ok ⟨s.operands, ['('] :: s.operators⟩
  | .closing => do
    let t ← loop A operatorOnTop s
    if t.operators = [] then .ok t
    else
      let (_, operators) ← pop t.operators
      .ok ⟨t.operands, operators⟩
  | .operator op => do
    let incoming ← precedence (Lexeme.operator op).text
    let t ← loop A (bindsOnTop incoming) s
    .ok ⟨t.operands, (Lexeme.operator op).text :: t.operators⟩

theorem at?_advances {cs : List Char} {position next : Nat} {token : Token}
    (h : Token.at? cs position = some (.ok (token, next))) : position < next := by
  unfold Token.at? at h
  split at h
  · cases h
  · split at h
    · cases h
    · rename_i lexeme rest hscan
      cases h
      exact Nat.lt_add_of_pos_right (List.length_pos_iff.2 (scan_nonempty hscan))

/-- Scans and does what is done at each token, from a position to the end. -/
def scanAll (cs : List Char) (position : Nat) (s : Lists α) : Except Failure (Lists α) :=
  if position < cs.length then
    match _h : Token.at? cs position with
    | none => .error (.mishap .pastEnd)
    | some (.error e) => .error (.cause e)
    | some (.ok (token, next)) =>
      match step A s token.lexeme with
      | .error e => .error e
      | .ok t => scanAll cs next t
  else .ok s
termination_by cs.length - position
decreasing_by
  have := at?_advances _h
  omega

/-- Reduces all that is left, and takes the only value. -/
def finish (s : Lists α) : Except Failure α := do
  let t ← loop A anyOnTop s
  if t.operands.length = 1 then top t.operands
  else if t.operands = [] then .error (.cause (.malformed .noValue))
  else .error (.cause (.malformed (.valuesLeft t.operands.length)))

def evaluateText (cs : List Char) : Except Failure α := do
  let s ← scanAll A cs 0 ⟨[], []⟩
  finish A s

end Machine

/-- A finite number that equals the whole number below it is shown as its whole part. -/
def display (x : Binary64) : Except Failure String :=
  match x with
  | .finite s m => do
    let n ← floor x
    if Binary64.signed s m = n * (Magnitude.one : Int) then
      let k ← whole x
      digits k
    else .ok x.text
  | _ => .ok x.text

def evaluate (expression : String) : Except Failure String :=
  match Normal.form? expression with
  | .error e => .error (.cause e)
  | .ok cs => do
    let x ← evaluateText Binary64.arithmetic cs
    display x

end Reckoner.Bare
