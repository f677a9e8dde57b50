import Reckoner.Expression.Evaluation
import Reckoner.Proofs.Expression.Scanning
/-!
The causes an evaluation ends with.

Scanning tells of characters and literals, the machine of divisions by zero and of arrangements, and an
empty normal form is told of before either begins. An operator that is not known is none of these: the
scanner lets no other operator than the four through.

What is shown here:
1. `Stacks.ofOperator_of_feed`: a move fails only at an operator that cannot be applied;
2. `Stacks.ofMachine_of_feed` and `Stacks.ofMachine_of_finish`: the machine tells of nothing else;
3. `Arithmetic.beforeEnd_of_feedText`: what is met before the end of a text;
4. `kind_of_evaluate`: the kinds of the causes, from one lemma for each part of the evaluation.
-/

namespace Reckoner

/-- The kinds of the causes an evaluation ends with. -/
def evaluationKinds : List String :=
  ["empty_expression", "invalid_character", "number_format", "division_by_zero",
    "malformed_expression"]

/-- The causes that the machine meets: divisions by zero, and arrangements without a value. -/
inductive EvalError.OfMachine : EvalError → Prop where
  | divisionByZero : OfMachine .divisionByZero
  | malformed (reason : Malformation) : OfMachine (.malformed reason)

/-- The causes for which an operator cannot be applied: a division by zero, or an operand that is missing. -/
inductive EvalError.OfOperator : EvalError → Prop where
  | divisionByZero : OfOperator .divisionByZero
  | missingOperand (op : Operator) : OfOperator (.malformed (.missingOperand op))

theorem EvalError.OfOperator.ofMachine {e : EvalError} (h : e.OfOperator) : e.OfMachine := by
  cases h with
  | divisionByZero => exact .divisionByZero
  | missingOperand op => exact .malformed _

theorem EvalError.OfMachine.kind {e : EvalError} (h : e.OfMachine) : e.kind ∈ evaluationKinds := by
  cases h with
  | divisionByZero =>
    rw [EvalError.kind]
    decide
  | malformed reason =>
    rw [EvalError.kind]
    decide

/-- The causes that are met before the end of a text: those of the scanner, and those of an operator that
cannot be applied. -/
inductive EvalError.BeforeEnd : EvalError → Prop where
  | character (c : Char) (position : Nat) : BeforeEnd (.invalidCharacter c position)
  | literal (ds : List Char) : BeforeEnd (.numberFormat ds)
  | ofOperator {e : EvalError} (h : e.OfOperator) : BeforeEnd e

theorem EvalError.BeforeEnd.kind {e : EvalError} (h : e.BeforeEnd) : e.kind ∈ evaluationKinds := by
  cases h with
  | character c position =>
    rw [EvalError.kind]
    decide
  | literal ds =>
    rw [EvalError.kind]
    decide
  | ofOperator h => exact h.ofMachine.kind

theorem beforeEnd_of_scan {previous : Option Char} {position : Nat} {c : Char} {cs : List Char}
    {e : EvalError} (h : scan previous position c cs = .error e) : e.BeforeEnd := by
  cases fails_of_scan h with
  | literal => exact .literal _
  | character => exact .character c position

section Machine
variable {α : Type} {A : Arithmetic α}

theorem Arithmetic.ofOperator_of_apply {op : Operator} {x y : α} {e : EvalError}
    (h : A.apply op x y = .error e) : e.OfOperator := by
  rw [Arithmetic.apply] at h
  split at h
  · cases h
    exact .divisionByZero
  · cases h

namespace Stacks

theorem ofOperator_of_reduce {op : Operator} {values : List α} {e : EvalError}
    (h : reduce A op values = .error e) : e.OfOperator := by
  unfold reduce at h
  split at h
  · split at h
    · cases h
    · rename_i happly
      cases h
      exact Arithmetic.ofOperator_of_apply happly
  · cases h
    exact .missingOperand op

theorem ofOperator_of_drain {test : Operator → Bool} {values : List α} {pending : List Pending}
    {e : EvalError} (h : drain A test values pending = .error e) : e.OfOperator := by
  induction pending generalizing values with
  | nil => cases h
  | cons top pending ih =>
    cases top with
    | parenthesis => cases h
    | operator op =>
      rw [drain] at h
      split at h
      · split at h
        · exact ih h
        · rename_i hreduce
          cases h
          exact ofOperator_of_reduce hreduce
      · cases h

theorem ofOperator_of_step {s : Stacks α} {x : Symbol α} {e : EvalError}
    (h : s.step A x = .error e) : e.OfOperator := by
  cases x with
  | number v => cases h
  | opening => cases h
  | closing =>
    rw [step] at h
    split at h
    · cases h
    · rename_i hdrain
      cases h
      exact ofOperator_of_drain hdrain
  | operator op =>
    rw [step] at h
    split at h
    · cases h
    · rename_i hdrain
      cases h
      exact ofOperator_of_drain hdrain

theorem ofOperator_of_feed {s : Stacks α} {xs : List (Symbol α)} {e : EvalError}
    (h : s.feed A xs = .error e) : e.OfOperator := by
  induction xs generalizing s with
  | nil => cases h
  | cons x xs ih =>
    rw [feed] at h
    split at h
    · exact ih h
    · rename_i hstep
      cases h
      exact ofOperator_of_step hstep

theorem ofMachine_of_feed {s : Stacks α} {xs : List (Symbol α)} {e : EvalError}
    (h : s.feed A xs = .error e) : e.OfMachine := (ofOperator_of_feed h).ofMachine

theorem ofMachine_of_finish {s : Stacks α} {e : EvalError}
    (h : s.finish A = .error e) : e.OfMachine := by
  unfold finish at h
  split at h
  · rename_i hdrain
    cases h
    exact (ofOperator_of_drain hdrain).ofMachine
  · cases h
    exact .malformed _
  · cases h
  · cases h
    exact .malformed _
  · cases h
    exact .malformed _

end Stacks

theorem Arithmetic.beforeEnd_of_feedText {s : Stacks α} {previous : Option Char} {position : Nat}
    {cs : List Char} {e : EvalError} (h : A.feedText s previous position cs = .error e) :
    e.BeforeEnd := by
  induction hn : cs.length using Nat.strongRecOn generalizing s previous position cs with
  | ind n ih =>
    subst hn
    cases cs with
    | nil =>
      rw [feedText] at h
      cases h
    | cons c cs =>
      cases hscan : scan previous position c cs with
      | error d =>
        rw [A.feedText_error hscan] at h
        cases h
        exact beforeEnd_of_scan hscan
      | ok p =>
        obtain ⟨l, rest⟩ := p
        rw [A.feedText_ok hscan] at h
        cases hstep : s.step A (A.symbolOf l) with
        | error d =>
          rw [hstep] at h
          cases h
          exact .ofOperator (Stacks.ofOperator_of_step hstep)
        | ok t =>
          rw [hstep] at h
          exact ih rest.length (scan_length_lt hscan) h rfl

theorem Arithmetic.kind_of_evaluateText {cs : List Char} {e : EvalError}
    (h : A.evaluateText cs = .error e) : e.kind ∈ evaluationKinds := by
  rw [evaluateText] at h
  split at h
  · rename_i hfeed
    cases h
    exact (beforeEnd_of_feedText hfeed).kind
  · exact (Stacks.ofMachine_of_finish h).kind

end Machine

theorem kind_of_evaluate {s : String} {e : EvalError} (h : evaluate s = .error e) :
    e.kind ∈ evaluationKinds := by
  rw [evaluate] at h
  split at h
  · rename_i hform
    cases h
    unfold Normal.form? at hform
    split at hform
    · cases hform
      rw [EvalError.kind]
      decide
    · cases hform
  · split at h
    · rename_i htext
      cases h
      exact Arithmetic.kind_of_evaluateText htext
    · cases h

end Reckoner
