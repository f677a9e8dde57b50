import Reckoner.Expression.Machine
/-!
The moves of the machine, put together.

All that the machine does is to settle: it applies the topmost operators that bind at least as tightly
as some level. An operator that arrives settles to its own level, a closing parenthesis and the end
settle everything down to the last opening parenthesis. The moves are written here as steps in a row,
each of which may fail.

What is shown here: `step_operator`, `step_closing` and `finish_eq`, the three places where the machine
settles, and `settle_operator`, what one operator that is applied does.
-/

namespace Reckoner

theorem bind_eq_ok {ε α β : Type} {x : Except ε α} {f : α → Except ε β} {b : β} :
    x >>= f = .ok b ↔ ∃ a, x = .ok a ∧ f a = .ok b := by
  constructor
  · intro h
    cases x with
    | error e => cases h
    | ok a => exact ⟨a, rfl, h⟩
  · rintro ⟨a, rfl, h⟩
    exact h

theorem bind_eq_error {ε α β : Type} {x : Except ε α} {f : α → Except ε β} {e : ε} :
    x >>= f = .error e ↔ x = .error e ∨ ∃ a, x = .ok a ∧ f a = .error e := by
  constructor
  · intro h
    cases x with
    | error d =>
      cases h
      exact .inl rfl
    | ok a => exact .inr ⟨a, rfl, h⟩
  · rintro (rfl | ⟨a, rfl, h⟩)
    · rfl
    · exact h

theorem eq_ok_of_toOption {ε α : Type} {x : Except ε α} {a : α} (h : x.toOption = some a) :
    x = .ok a := by
  cases x with
  | error e => cases h
  | ok b => exact congrArg Except.ok (Option.some.inj h)

namespace Stacks

variable {α : Type} (A : Arithmetic α)

/-- The stacks once the topmost operators of at least a precedence are applied. -/
def settle (p : Nat) (s : Stacks α) : Except EvalError (Stacks α) :=
  drain A (fun top => p ≤ top.precedence) s.values s.pending

theorem drain_all_eq_settle (s : Stacks α) :
    drain A (fun _ => true) s.values s.pending = settle A 0 s := by
  have : (fun _ : Operator => true) = fun top => decide (0 ≤ top.precedence) := by
    funext top
    simp
  rw [settle, this]

/-- An operator that is applied takes its right value from the top and its left one from below it. -/
theorem settle_operator {q : Nat} {op : Operator} (h : q ≤ op.precedence) (x y : α)
    (values : List α) (pending : List Pending) :
    settle A q ⟨y :: x :: values, .operator op :: pending⟩ =
      A.apply op x y >>= fun v => settle A q ⟨v :: values, pending⟩ := by
  simp only [settle, drain, h, decide_true, if_true, reduce]
  cases A.apply op x y with
  | error e => rfl
  | ok v => rfl

theorem step_operator (s : Stacks α) (op : Operator) :
    s.step A (.operator op) =
      settle A op.precedence s >>= fun t => .ok ⟨t.values, .operator op :: t.pending⟩ := by
  rw [step, ← settle]
  cases settle A op.precedence s with
  | error e => rfl
  | ok t => rfl

theorem step_closing (s : Stacks α) :
    s.step A .closing = settle A 0 s >>= fun t => .ok ⟨t.values, t.pending.tail⟩ := by
  rw [step, drain_all_eq_settle]
  cases settle A 0 s with
  | error e => rfl
  | ok t => rfl

theorem feed_cons (s : Stacks α) (x : Symbol α) (xs : List (Symbol α)) :
    s.feed A (x :: xs) = s.step A x >>= fun t => t.feed A xs := by
  rw [feed]
  cases s.step A x with
  | error e => rfl
  | ok t => rfl

theorem feed_append_bind (s : Stacks α) (xs ys : List (Symbol α)) :
    s.feed A (xs ++ ys) = s.feed A xs >>= fun t => t.feed A ys := by
  rw [feed_append]
  cases s.feed A xs with
  | error e => rfl
  | ok t => rfl

theorem feed_singleton (s : Stacks α) (x : Symbol α) : s.feed A [x] = s.step A x := by
  rw [feed]
  cases s.step A x with
  | error e => rfl
  | ok t => rfl

/-- What is said of the stacks when nothing is left to apply. -/
def verdict : Stacks α → Except EvalError α
  | ⟨_, _ :: _⟩ => .error (.malformed .unmatchedParenthesis)
  | ⟨[v], []⟩ => .ok v
  | ⟨[], []⟩ => .error (.malformed .noValue)
  | ⟨values, []⟩ => .error (.malformed (.valuesLeft values.length))

theorem verdict_eq_ok {s : Stacks α} {v : α} (h : s.verdict = .ok v) : s = ⟨[v], []⟩ := by
  unfold verdict at h
  split at h <;> cases h
  rfl

theorem finish_eq (s : Stacks α) : s.finish A = settle A 0 s >>= verdict := by
  rw [finish, drain_all_eq_settle]
  cases settle A 0 s with
  | error e => rfl
  | ok t =>
    obtain ⟨values, pending⟩ := t
    cases pending with
    | cons top pending => rfl
    | nil =>
      match values with
      | [] => rfl
      | [v] => rfl
      | _ :: _ :: _ => rfl

end Stacks

end Reckoner
