import Reckoner.Proofs.Expression.Brackets
import Reckoner.Proofs.Expression.Settling
/-!
Accounts of the machine.

Every number puts a value on the stacks and every operator that is applied takes one away, so the values
and the operators that still wait tell how many numbers and operators have been read. The parentheses
that wait are those that are unclosed in the ordinary matching: a closing one takes the last of them,
and a stray one takes none.

What is shown here:
1. `Stacks.drain_split`: settling takes operators off the top and one value for each of them;
2. `Stacks.feed_account` and `Stacks.feed_unclosed`: the two accounts, kept by every move and so by
   every run of moves;
3. `account_of_value`: when a text has a value, there is one number more than operators in it, and
   every opening parenthesis is closed.
-/

namespace Reckoner

def Lexeme.isNumber : Lexeme → Bool
  | .number _ => true
  | _ => false

def Lexeme.isOperator : Lexeme → Bool
  | .operator _ => true
  | _ => false

def Symbol.isNumber {α : Type} : Symbol α → Bool
  | .number _ => true
  | _ => false

def Symbol.isOperator {α : Type} : Symbol α → Bool
  | .operator _ => true
  | _ => false

def Pending.isOperator : Pending → Bool
  | .operator _ => true
  | .parenthesis => false

namespace Stacks

variable {α : Type} {A : Arithmetic α}

theorem reduce_length {op : Operator} {values rest : List α} (h : reduce A op values = .ok rest) :
    values.length = rest.length + 1 := by
  unfold reduce at h
  split at h
  · split at h
    · cases h
      rfl
    · cases h
  · cases h

/-- What is drained are operators from the top, and each of them takes one value away. -/
theorem drain_split {test : Operator → Bool} {values : List α} {pending : List Pending}
    {t : Stacks α} (h : drain A test values pending = .ok t) :
    ∃ ops : List Operator, pending = ops.map .operator ++ t.pending ∧
      values.length = t.values.length + ops.length := by
  induction pending generalizing values with
  | nil =>
    cases h
    exact ⟨[], rfl, rfl⟩
  | cons top pending ih =>
    cases top with
    | parenthesis =>
      cases h
      exact ⟨[], rfl, rfl⟩
    | operator op =>
      simp only [drain] at h
      split at h
      · split at h
        · rename_i rest hreduce
          obtain ⟨ops, hpending, hlength⟩ := ih h
          refine ⟨op :: ops, by rw [hpending]; rfl, ?_⟩
          rw [reduce_length hreduce, hlength, List.length_cons]
          rfl
        · cases h
      · cases h
        exact ⟨[], rfl, rfl⟩

/-- The operators among what waits. -/
def waiting (pending : List Pending) : Nat := pending.countP Pending.isOperator

/-- The parentheses among what waits. -/
def unclosed (pending : List Pending) : Nat := pending.count .parenthesis

@[simp] theorem waiting_operator (op : Operator) (pending : List Pending) :
    waiting (.operator op :: pending) = waiting pending + 1 := List.countP_cons_of_pos rfl

@[simp] theorem waiting_parenthesis (pending : List Pending) :
    waiting (.parenthesis :: pending) = waiting pending :=
  List.countP_cons_of_neg Bool.false_ne_true

@[simp] theorem unclosed_operator (op : Operator) (pending : List Pending) :
    unclosed (.operator op :: pending) = unclosed pending :=
  List.count_cons_of_ne (by simp)

@[simp] theorem unclosed_parenthesis (pending : List Pending) :
    unclosed (.parenthesis :: pending) = unclosed pending + 1 := List.count_cons_self

theorem waiting_operators_append (ops : List Operator) (pending : List Pending) :
    waiting (ops.map .operator ++ pending) = ops.length + waiting pending := by
  induction ops with
  | nil => simp
  | cons op ops ih =>
    rw [List.map_cons, List.cons_append, waiting_operator, ih, List.length_cons]
    omega

theorem unclosed_operators_append (ops : List Operator) (pending : List Pending) :
    unclosed (ops.map .operator ++ pending) = unclosed pending := by
  induction ops with
  | nil => rfl
  | cons op ops ih => rw [List.map_cons, List.cons_append, unclosed_operator, ih]

theorem settle_account {p : Nat} {s t : Stacks α} (h : settle A p s = .ok t) :
    t.values.length + waiting s.pending = s.values.length + waiting t.pending ∧
      unclosed t.pending = unclosed s.pending := by
  obtain ⟨ops, hpending, hlength⟩ := drain_split h
  rw [hpending, hlength, waiting_operators_append, unclosed_operators_append]
  exact ⟨by omega, rfl⟩

theorem settle_zero_pending {s t : Stacks α} (h : settle A 0 s = .ok t) :
    t.pending = [] ∨ ∃ rest, t.pending = .parenthesis :: rest := by
  rw [← drain_all_eq_settle] at h
  exact drain_all_pending A h

theorem step_account {s t : Stacks α} {x : Symbol α} (h : s.step A x = .ok t) :
    t.values.length + (if x.isOperator then 1 else 0) + waiting s.pending =
      s.values.length + (if x.isNumber then 1 else 0) + waiting t.pending := by
  cases x with
  | number v =>
    cases h
    simp [Symbol.isOperator, Symbol.isNumber]
  | opening =>
    cases h
    simp [Symbol.isOperator, Symbol.isNumber]
  | operator op =>
    rw [step_operator] at h
    obtain ⟨u, hu, h⟩ := bind_eq_ok.1 h
    cases h
    have := (settle_account hu).1
    simp [Symbol.isOperator, Symbol.isNumber]
    omega
  | closing =>
    rw [step_closing] at h
    obtain ⟨u, hu, h⟩ := bind_eq_ok.1 h
    cases h
    have hvalues := (settle_account hu).1
    -- what is discarded is a parenthesis or nothing, so no operator is lost
    have htail : waiting u.pending.tail = waiting u.pending := by
      rcases settle_zero_pending hu with hp | ⟨rest, hp⟩ <;> simp [hp]
    simp [Symbol.isOperator, Symbol.isNumber, htail]
    omega

theorem step_unclosed {s t : Stacks α} {x : Symbol α} {m : Matching} (h : s.step A x = .ok t)
    (hm : m.unclosed = unclosed s.pending) :
    (m.after (Bracket.ofSymbol? x).toList).unclosed = unclosed t.pending := by
  cases x with
  | number v =>
    cases h
    exact hm
  | opening =>
    cases h
    rw [unclosed_parenthesis, ← hm]
    rfl
  | operator op =>
    rw [step_operator] at h
    obtain ⟨u, hu, h⟩ := bind_eq_ok.1 h
    cases h
    rw [unclosed_operator, (settle_account hu).2, ← hm]
    rfl
  | closing =>
    rw [step_closing] at h
    obtain ⟨u, hu, h⟩ := bind_eq_ok.1 h
    cases h
    rw [← (settle_account hu).2] at hm
    show (m.meet .closing).unclosed = _
    rcases settle_zero_pending hu with hp | ⟨rest, hp⟩
    · rw [hp] at hm
      have hzero : m.unclosed = 0 := hm
      rw [Matching.meet, if_pos hzero, hp]
      exact hm
    · rw [hp, unclosed_parenthesis] at hm
      rw [Matching.meet, if_neg (by omega), hp]
      show m.unclosed - 1 = unclosed rest
      omega

/-- A run of moves keeps the account of values and waiting operators. -/
theorem feed_account {s t : Stacks α} {xs : List (Symbol α)} (h : s.feed A xs = .ok t) :
    t.values.length + xs.countP Symbol.isOperator + waiting s.pending =
      s.values.length + xs.countP Symbol.isNumber + waiting t.pending := by
  induction xs generalizing s with
  | nil =>
    cases h
    rfl
  | cons x xs ih =>
    rw [feed_cons] at h
    obtain ⟨u, hu, h⟩ := bind_eq_ok.1 h
    have hstep := step_account hu
    have hrest := ih h
    rw [List.countP_cons, List.countP_cons]
    omega

/-- A run of moves keeps the parentheses that wait those that are unclosed. -/
theorem feed_unclosed {s t : Stacks α} {xs : List (Symbol α)} {m : Matching}
    (h : s.feed A xs = .ok t) (hm : m.unclosed = unclosed s.pending) :
    (m.after (xs.filterMap Bracket.ofSymbol?)).unclosed = unclosed t.pending := by
  induction xs generalizing s m with
  | nil =>
    cases h
    exact hm
  | cons x xs ih =>
    rw [feed_cons] at h
    obtain ⟨u, hu, h⟩ := bind_eq_ok.1 h
    rw [Matching.after_filterMap_cons]
    exact ih h (step_unclosed hu hm)

end Stacks

/-! ## Accounts of texts -/

theorem countP_isNumber_symbols {α : Type} (A : Arithmetic α) (ls : List Lexeme) :
    (ls.map A.symbolOf).countP Symbol.isNumber = ls.countP Lexeme.isNumber := by
  rw [List.countP_map]
  congr 1
  funext l
  cases l <;> rfl

theorem countP_isOperator_symbols {α : Type} (A : Arithmetic α) (ls : List Lexeme) :
    (ls.map A.symbolOf).countP Symbol.isOperator = ls.countP Lexeme.isOperator := by
  rw [List.countP_map]
  congr 1
  funext l
  cases l <;> rfl

theorem complete_of_feedText {α : Type} {A : Arithmetic α} {cs : List Char} {t : Stacks α}
    (h : A.feedText .empty none 0 cs = .ok t) :
    (Reading.read cs).stoppedBy = none ∧
      Stacks.empty.feed A ((Reading.read cs).lexemes.map A.symbolOf) = .ok t := by
  rw [A.feedText_eq_feed, A.symbols_eq, ← Reading.read, ← Reading.lexemes] at h
  split at h
  · cases h
  · rename_i hfeed
    split at h
    · cases h
    · rename_i hstop
      cases h
      exact ⟨hstop, hfeed⟩

theorem complete_of_value {α : Type} {A : Arithmetic α} {cs : List Char} {v : α}
    (h : A.evaluateText cs = .ok v) :
    (Reading.read cs).stoppedBy = none ∧
      ∃ t, Stacks.empty.feed A ((Reading.read cs).lexemes.map A.symbolOf) = .ok t ∧
        t.finish A = .ok v := by
  rw [Arithmetic.evaluateText] at h
  split at h
  · cases h
  · rename_i t hfeed
    obtain ⟨hstop, hmoves⟩ := complete_of_feedText hfeed
    exact ⟨hstop, t, hmoves, h⟩

/-- When all is applied at the end and nothing waits, each operator has taken one value away, and every
opening parenthesis is closed. -/
theorem account_of_settled {α : Type} {A : Arithmetic α} {cs : List Char} {t u : Stacks α}
    (hcomplete : (Reading.read cs).stoppedBy = none)
    (hfeed : Stacks.empty.feed A ((Reading.read cs).lexemes.map A.symbolOf) = .ok t)
    (hsettle : t.settle A 0 = .ok u) (hpending : u.pending = []) :
    (Reading.read cs).lexemes.countP Lexeme.isNumber =
        (Reading.read cs).lexemes.countP Lexeme.isOperator + u.values.length ∧
      (Matching.ofText cs).unclosed = 0 := by
  obtain ⟨hvalues, hopen⟩ := Stacks.settle_account hsettle
  rw [hpending] at hvalues hopen
  constructor
  · have haccount := Stacks.feed_account hfeed
    rw [countP_isNumber_symbols, countP_isOperator_symbols] at haccount
    simp only [Stacks.empty, Stacks.waiting, List.countP_nil, List.length_nil] at haccount hvalues
    omega
  · have hmatch := Stacks.feed_unclosed (m := ⟨0, 0⟩) hfeed rfl
    rw [Bracket.symbols_brackets, ← Reading.brackets_of_complete hcomplete] at hmatch
    exact hmatch.trans hopen.symm

/-- When a text has a value, there is one number more than operators in it, and every opening
parenthesis is closed. -/
theorem account_of_value {α : Type} {A : Arithmetic α} {cs : List Char} {v : α}
    (h : A.evaluateText cs = .ok v) :
    (Reading.read cs).lexemes.countP Lexeme.isNumber =
        (Reading.read cs).lexemes.countP Lexeme.isOperator + 1 ∧
      (Matching.ofText cs).unclosed = 0 := by
  obtain ⟨hcomplete, t, hfeed, hfinish⟩ := complete_of_value h
  rw [Stacks.finish_eq] at hfinish
  obtain ⟨u, hsettle, hverdict⟩ := bind_eq_ok.1 hfinish
  obtain rfl := Stacks.verdict_eq_ok hverdict
  exact account_of_settled hcomplete hfeed hsettle rfl

end Reckoner
