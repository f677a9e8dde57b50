import Reckoner.Proofs.Expression.Grammar
import Reckoner.Proofs.Expression.Settling
/-!
The machine computes the value of an expression.

The machine keeps no tree. What it keeps of a phrase of level `p` that it has read is a value and the
operators that bind at least as tightly as `p` and still wait; once these are applied, the phrase has
become its value on top of what was there before. That is the invariant of the reading, kept by each
phrase of the grammar, whatever lies on the stacks below it.

What is shown here:
1. `Stacks.feed_phrase`: the invariant;
2. `Arithmetic.evaluateText_expression`: the text of an expression evaluates to the value of the
   expression, or to a division by zero exactly if it divides by zero.
-/

namespace Reckoner

namespace Stacks

variable {α : Type} (A : Arithmetic α)

/-- The operator that would be applied next, if no parenthesis is above it. -/
def topOperator? : List Pending → Option Operator
  | .operator op :: _ => some op
  | _ => none

/-- No operator of at least a precedence waits on top. -/
def Below (p : Nat) (pending : List Pending) : Prop :=
  ∀ op ∈ topOperator? pending, op.precedence < p

theorem Below.mono {p q : Nat} {pending : List Pending} (h : Below p pending) (hpq : p ≤ q) :
    Below q pending := fun op hop => Nat.lt_of_lt_of_le (h op hop) hpq

theorem settle_of_below {p : Nat} {s : Stacks α} (h : Below p s.pending) : settle A p s = .ok s := by
  obtain ⟨values, pending⟩ := s
  cases pending with
  | nil => rfl
  | cons top pending =>
    cases top with
    | parenthesis => rfl
    | operator op =>
      have hlt : op.precedence < p := h op rfl
      have hfalse : decide (p ≤ op.precedence) = false := by simp [hlt]
      simp [settle, drain, hfalse]

/-- The symbols of a phrase. -/
def symbolsOf {p : Nat} (e : Phrase p) : List (Symbol α) := e.lexemes.map A.symbolOf

theorem feed_group (e : Phrase 1) (s : Stacks α) :
    s.feed A (symbolsOf A (.group e)) =
      (feed A ⟨s.values, .parenthesis :: s.pending⟩ (symbolsOf A e) >>= settle A 0) >>= fun t =>
        .ok ⟨t.values, t.pending.tail⟩ := by
  have hopen : s.step A .opening = .ok ⟨s.values, .parenthesis :: s.pending⟩ := rfl
  simp only [symbolsOf, Phrase.lexemes, List.map_cons, List.map_append, List.map_nil,
    Arithmetic.symbolOf, feed_cons A s, feed_append_bind, feed_singleton, hopen, step_closing,
    bind_assoc]
  rfl

theorem feed_binary {p : Nat} (op : Operator) (h : op.precedence = p) (left : Phrase p)
    (right : Phrase (p + 1)) (s : Stacks α) :
    s.feed A (symbolsOf A (.binary op h left right)) =
      (s.feed A (symbolsOf A left) >>= settle A p) >>= fun t =>
        feed A ⟨t.values, .operator op :: t.pending⟩ (symbolsOf A right) := by
  simp only [symbolsOf, Phrase.lexemes, List.map_cons, List.map_append, Arithmetic.symbolOf,
    feed_append_bind, feed_cons, step_operator, h, bind_assoc]
  rfl

/-- The stacks behind a phrase, once settled, are the stacks before it with the value of the phrase on
top, settled. -/
theorem feed_phrase {p q : Nat} (e : Phrase p) {s : Stacks α} (hq : q ≤ p)
    (hs : Below p s.pending) :
    s.feed A (symbolsOf A e) >>= settle A q =
      match e.value? A with
      | some v => settle A q ⟨v :: s.values, s.pending⟩
      | none => .error .divisionByZero := by
  induction e generalizing q s with
  | number text literal => rfl
  | group e ih =>
    -- Above a parenthesis the stacks below it play no part.
    have hinner := @ih 0 ⟨s.values, .parenthesis :: s.pending⟩ (Nat.zero_le _)
      (by simp [Below, topOperator?])
    rw [feed_group, hinner, Phrase.value?]
    cases e.value? A with
    | none => rfl
    | some v => rfl
  | single e ih => exact ih (Nat.le_succ_of_le hq) (hs.mono (Nat.le_succ _))
  | @binary p op hop left right ihl ihr =>
    rw [feed_binary, ihl (Nat.le_refl p) hs]
    cases hl : left.value? A with
    | none => simp only [Phrase.value?, hl]; rfl
    | some x =>
      have hx : settle A p ⟨x :: s.values, s.pending⟩ = .ok ⟨x :: s.values, s.pending⟩ :=
        settle_of_below A hs
      have hbelow : Below (p + 1) (.operator op :: s.pending) := by
        rintro o ho
        obtain rfl : op = o := Option.some.inj ho
        omega
      have hright := @ihr q ⟨x :: s.values, .operator op :: s.pending⟩ (Nat.le_succ_of_le hq) hbelow
      simp only [hx]
      show feed A ⟨x :: s.values, .operator op :: s.pending⟩ (symbolsOf A right) >>= settle A q = _
      rw [hright]
      cases hr : right.value? A with
      | none => simp only [Phrase.value?, hl, hr]
      | some y =>
        rw [Phrase.value?_binary A hl hr]
        simp only [settle_operator A (hop ▸ hq), Arithmetic.apply]
        by_cases hzero : op = .div ∧ A.isZero y = true
        · rw [if_pos hzero, if_pos hzero]
          rfl
        · rw [if_neg hzero, if_neg hzero]
          rfl

end Stacks

namespace Arithmetic

variable {α : Type} (A : Arithmetic α)

/-- The text of an expression evaluates to the value of the expression; a division by zero is the only
other outcome, and it is met exactly if the expression divides by zero. -/
theorem evaluateText_expression (e : Expression) :
    A.evaluateText e.text =
        (match e.value? A with
          | some v => .ok v
          | none => .error .divisionByZero) ∧
      (A.evaluateText e.text = .error .divisionByZero ↔ e.DividesByZero A) := by
  have hrun : A.evaluateText e.text =
      match e.value? A with
      | some v => .ok v
      | none => .error .divisionByZero := by
    have hfeed := Stacks.feed_phrase A e (q := 0) (s := .empty) (Nat.zero_le _)
      (by simp [Stacks.Below, Stacks.topOperator?, Stacks.empty])
    calc A.evaluateText e.text
        = Stacks.empty.feed A (Stacks.symbolsOf A e) >>= fun t => t.finish A := by
          rw [evaluateText_eq, Phrase.read_text, Reading.symbols_place, ← Stacks.symbolsOf]
          cases Stacks.empty.feed A (Stacks.symbolsOf A e) with
          | error c => rfl
          | ok t => rfl
      _ = (Stacks.empty.feed A (Stacks.symbolsOf A e) >>= Stacks.settle A 0) >>= Stacks.verdict := by
          simp only [Stacks.finish_eq, bind_assoc]
      _ = _ := by
          rw [hfeed]
          cases e.value? A with
          | none => rfl
          | some v => rfl
  refine ⟨hrun, ?_⟩
  rw [hrun, ← Phrase.value?_eq_none_iff]
  cases e.value? A with
  | none => simp
  | some v => simp

end Arithmetic

end Reckoner
