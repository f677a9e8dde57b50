import Reckoner.Expression.Error
/-!
The two-stack machine.

Values wait on one stack and operators and opening parentheses on another. An operator that arrives
first applies those above it that bind at least as tightly; a closing parenthesis applies all down to
its opening one, or all there are; the end of the expression applies the rest. The machine works over
any arithmetic: four operations, a test for zero and a reading of literals.

What is shown here:
1. `Stacks.feed_append`: the moves on two lists of symbols in a row are those on the first, then on the
   second;
2. `Stacks.drain_all_pending`: applying all operators stops at a parenthesis or at the bottom.
-/

namespace Reckoner

/-- What the machine computes with. -/
structure Arithmetic (α : Type) where
  add : α → α → α
  sub : α → α → α
  mul : α → α → α
  div : α → α → α
  isZero : α → Bool
  literal : List Char → α

namespace Arithmetic

variable {α : Type} (A : Arithmetic α)

/-- The operation of an operator, whatever the operands are. -/
def operation : Operator → α → α → α
  | .add => A.add
  | .sub => A.sub
  | .mul => A.mul
  | .div => A.div

/-- An operator applied to a left and a right value; a division by zero is refused. -/
def apply (op : Operator) (left right : α) : Except EvalError α :=
  if op = .div ∧ A.isZero right = true then .error .divisionByZero
  else .ok (A.operation op left right)

end Arithmetic

/-- What the machine reads: a token whose literal has been read as a value. -/
inductive Symbol (α : Type) where
  | number (value : α)
  | operator (op : Operator)
  | opening
  | closing

/-- What waits on the second stack. -/
inductive Pending where
  | parenthesis
  | operator (op : Operator)
  deriving DecidableEq, Repr

/-- The two stacks, the top of each first. -/
structure Stacks (α : Type) where
  values : List α
  pending : List Pending

namespace Stacks

variable {α : Type} (A : Arithmetic α)

def empty : Stacks α := ⟨[], []⟩

/-- An operator applied to the two topmost values. -/
def reduce (op : Operator) : List α → Except EvalError (List α)
  | right :: left :: values =>
    match A.apply op left right with
    | .ok v => .ok (v :: values)
    | .error e => .error e
  | _ => .error (.malformed (.missingOperand op))

/-- Applies the topmost operators as long as they satisfy the test, down to a parenthesis at most. -/
def drain (test : Operator → Bool) : List α → List Pending → Except EvalError (Stacks α)
  | values, .operator op :: pending =>
    if test op then
      match reduce A op values with
      | .ok values => drain test values pending
      | .error e => .error e
    else .ok ⟨values, .operator op :: pending⟩
  | values, pending => .ok ⟨values, pending⟩

/-- The machine's move on one symbol. A closing parenthesis without an opening one only applies the
operators. -/
def step (s : Stacks α) : Symbol α → Except EvalError (Stacks α)
  | .number v => .ok ⟨v :: s.values, s.pending⟩
  | .opening => .ok ⟨s.values, .parenthesis :: s.pending⟩
  | .closing =>
    match drain A (fun _ => true) s.values s.pending with
    | .ok t => .ok ⟨t.values, t.pending.tail⟩
    | .error e => .error e
  | .operator op =>
    match drain A (fun top => op.precedence ≤ top.precedence) s.values s.pending with
    | .ok t => .ok ⟨t.values, .operator op :: t.pending⟩
    | .error e => .error e

/-- The verdict at the end: no parenthesis may be open and exactly one value may be left. -/
def finish (s : Stacks α) : Except EvalError α :=
  match drain A (fun _ => true) s.values s.pending with
  | .error e => .error e
  | .ok ⟨_, _ :: _⟩ => .error (.malformed .unmatchedParenthesis)
  | .ok ⟨[v], []⟩ => .ok v
  | .ok ⟨[], []⟩ => .error (.malformed .noValue)
  | .ok ⟨values, []⟩ => .error (.malformed (.valuesLeft values.length))

/-- The moves on a list of symbols. -/
def feed (s : Stacks α) : List (Symbol α) → Except EvalError (Stacks α)
  | [] => .ok s
  | x :: xs =>
    match s.step A x with
    | .ok t => feed t xs
    | .error e => .error e

/-- The outcome of a list of symbols. -/
def run (s : Stacks α) (xs : List (Symbol α)) : Except EvalError α :=
  match s.feed A xs with
  | .ok t => t.finish A
  | .error e => .error e

theorem feed_append (s : Stacks α) (xs ys : List (Symbol α)) :
    s.feed A (xs ++ ys) =
      match s.feed A xs with
      | .ok t => t.feed A ys
      | .error e => .error e := by
  induction xs generalizing s with
  | nil => rfl
  | cons x xs ih =>
    simp only [List.cons_append, feed]
    cases s.step A x with
    | error e => rfl
    | ok t => exact ih t

/-- The operators drained by any test lie above the first parenthesis, so a drain that applies all
operators leaves a parenthesis on top or nothing. -/
theorem drain_all_pending {values : List α} {pending : List Pending} {t : Stacks α}
    (h : drain A (fun _ => true) values pending = .ok t) :
    t.pending = [] ∨ ∃ rest, t.pending = .parenthesis :: rest := by
  induction pending generalizing values with
  | nil =>
    cases h
    exact .inl rfl
  | cons p pending ih =>
    cases p with
    | parenthesis =>
      cases h
      exact .inr ⟨pending, rfl⟩
    | operator op =>
      simp only [drain, if_true] at h
      split at h
      · exact ih h
      · cases h

end Stacks

end Reckoner
