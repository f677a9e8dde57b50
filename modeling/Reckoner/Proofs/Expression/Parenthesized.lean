import Reckoner.Proofs.Expression.Accounting
/-!
A part in parentheses acts as its value.

While a part is read whose parentheses match each other, nothing that lay on the stacks before it is
touched. Its operators find their values among its own, for alone the part has a value, and no operator is
applied across the opening parenthesis before it. The closing one behind it then applies just the operators
that the end applies when the part stands alone. So the part leaves what a number leaves, its value on top
of what was there, however its numbers and operators are arranged and whatever lies below.

What is shown here:
1. `Stacks.drain_atop`: a drain that succeeds alone does the same above a parenthesis and all below it;
2. `Stacks.step_atop` and `Stacks.feed_atop`: so does a move that closes no parenthesis of others, and so
   does a run of such moves;
3. `Stacks.run_parenthesized`: a part in parentheses can be replaced by its value.
-/

namespace Reckoner

/-- The parentheses of symbols match each other. -/
def Matched {α : Type} (xs : List (Symbol α)) : Prop :=
  Matching.after ⟨0, 0⟩ (xs.filterMap Bracket.ofSymbol?) = ⟨0, 0⟩

namespace Stacks

variable {α : Type} {A : Arithmetic α}

/-- Stacks on top of others, with an opening parenthesis between them. -/
def atop (s below : Stacks α) : Stacks α :=
  ⟨s.values ++ below.values, s.pending ++ .parenthesis :: below.pending⟩

theorem reduce_append {op : Operator} {values rest : List α} (h : reduce A op values = .ok rest)
    (more : List α) : reduce A op (values ++ more) = .ok (rest ++ more) := by
  unfold reduce at h
  split at h
  · split at h
    · rename_i v happly
      cases h
      simp only [List.cons_append, reduce, happly]
    · cases h
  · cases h

/-- A drain that succeeds alone does the same above a parenthesis, whatever lies below that. -/
theorem drain_atop {test : Operator → Bool} {values : List α} {pending : List Pending} {t : Stacks α}
    (h : drain A test values pending = .ok t) (below : Stacks α) :
    drain A test (values ++ below.values) (pending ++ .parenthesis :: below.pending) =
      .ok (t.atop below) := by
  induction pending generalizing values with
  | nil =>
    cases h
    rfl
  | cons top pending ih =>
    cases top with
    | parenthesis =>
      cases h
      rfl
    | operator op =>
      rw [drain] at h
      rw [List.cons_append, drain]
      split at h
      · rename_i htest
        rw [if_pos htest]
        cases hreduce : reduce A op values with
        | error e =>
          rw [hreduce] at h
          cases h
        | ok rest =>
          rw [hreduce] at h
          rw [reduce_append hreduce]
          exact ih h
      · rename_i htest
        rw [if_neg htest]
        cases h
        rfl

theorem settle_atop {p : Nat} {s t : Stacks α} (h : settle A p s = .ok t) (below : Stacks α) :
    settle A p (s.atop below) = .ok (t.atop below) := drain_atop h below

/-- A move that succeeds alone and closes no parenthesis of others does the same above them. -/
theorem step_atop {s t : Stacks α} {x : Symbol α} {m : Matching} (h : s.step A x = .ok t)
    (hm : m.unclosed = unclosed s.pending)
    (hstray : (m.after (Bracket.ofSymbol? x).toList).stray = m.stray) (below : Stacks α) :
    (s.atop below).step A x = .ok (t.atop below) := by
  cases x with
  | number v =>
    cases h
    rfl
  | opening =>
    cases h
    rfl
  | operator op =>
    rw [step_operator] at h ⊢
    obtain ⟨u, hu, h⟩ := bind_eq_ok.1 h
    cases h
    rw [settle_atop hu below]
    rfl
  | closing =>
    rw [step_closing] at h ⊢
    obtain ⟨u, hu, h⟩ := bind_eq_ok.1 h
    cases h
    rw [settle_atop hu below]
    -- it closes a parenthesis of its own, so there is one left once everything is settled
    rcases settle_zero_pending hu with hp | ⟨rest, hp⟩
    · have hzero : m.unclosed = 0 := by rw [hm, ← (settle_account hu).2, hp]; rfl
      change (m.meet .closing).stray = m.stray at hstray
      rw [Matching.meet, if_pos hzero] at hstray
      exact absurd hstray (Nat.succ_ne_self _)
    · obtain ⟨values, pending⟩ := u
      obtain rfl : pending = .parenthesis :: rest := hp
      rfl

/-- So does a run of such moves. -/
theorem feed_atop {s t : Stacks α} {xs : List (Symbol α)} {m : Matching} (h : s.feed A xs = .ok t)
    (hm : m.unclosed = unclosed s.pending)
    (hstray : (m.after (xs.filterMap Bracket.ofSymbol?)).stray = m.stray) (below : Stacks α) :
    (s.atop below).feed A xs = .ok (t.atop below) := by
  induction xs generalizing s m with
  | nil =>
    cases h
    rfl
  | cons x xs ih =>
    rw [Matching.after_filterMap_cons] at hstray
    rw [feed_cons] at h ⊢
    obtain ⟨u, hu, h⟩ := bind_eq_ok.1 h
    -- the stray parentheses never become fewer, so there is no new one at the first move
    have hfirst := Matching.stray_le_after m (Bracket.ofSymbol? x).toList
    have hrest := Matching.stray_le_after (m.after (Bracket.ofSymbol? x).toList)
      (xs.filterMap Bracket.ofSymbol?)
    rw [step_atop hu hm (by omega) below]
    exact ih h (step_unclosed hu hm) (by omega)

/-- A part in parentheses leaves its value on top of what was there. -/
theorem feed_parenthesized {xs : List (Symbol α)} {v : α} (hmatched : Matched xs)
    (hvalue : empty.run A xs = .ok v) (s : Stacks α) :
    s.feed A (.opening :: (xs ++ [.closing])) = s.step A (.number v) := by
  rw [run] at hvalue
  split at hvalue
  · rename_i t hfeed
    have hopen : s.step A .opening = .ok (empty.atop s) := rfl
    have hstray : (Matching.after ⟨0, 0⟩ (xs.filterMap Bracket.ofSymbol?)).stray = 0 :=
      congrArg Matching.stray hmatched
    have hinner := feed_atop (m := ⟨0, 0⟩) hfeed rfl hstray s
    rw [finish_eq] at hvalue
    obtain ⟨u, hu, hverdict⟩ := bind_eq_ok.1 hvalue
    obtain rfl := verdict_eq_ok hverdict
    calc s.feed A (.opening :: (xs ++ [.closing]))
        = (empty.atop s).feed A xs >>= fun r => r.step A .closing := by
          simp only [feed_cons A s, hopen, feed_append_bind, feed_singleton]
          rfl
      _ = settle A 0 (t.atop s) >>= fun r => .ok ⟨r.values, r.pending.tail⟩ := by
          rw [hinner, ← step_closing]
          rfl
      _ = s.step A (.number v) := by
          rw [settle_atop hu s]
          rfl
  · cases hvalue

/-- In parentheses such a part can be replaced by its value, whatever stands before and behind it. -/
theorem run_replaced {xs : List (Symbol α)} {v : α} (hmatched : Matched xs)
    (hvalue : empty.run A xs = .ok v) (before after : List (Symbol α)) :
    empty.run A (before ++ [.opening] ++ xs ++ [.closing] ++ after) =
      empty.run A (before ++ [.number v] ++ after) := by
  have hpart : before ++ [.opening] ++ xs ++ [.closing] ++ after =
      before ++ (.opening :: (xs ++ [.closing])) ++ after := by simp
  have hfeed : empty.feed A (before ++ [.opening] ++ xs ++ [.closing] ++ after) =
      empty.feed A (before ++ [.number v] ++ after) := by
    simp only [hpart, feed_append_bind, feed_parenthesized hmatched hvalue, feed_singleton]
  rw [run, run, hfeed]

theorem wrapped_succ (n : Nat) (xs : List (Symbol α)) :
    List.replicate (n + 1) .opening ++ xs ++ List.replicate (n + 1) .closing =
      List.replicate n .opening ++ [.opening] ++ xs ++ [.closing] ++ List.replicate n .closing := by
  rw [List.replicate_succ', List.replicate_succ, List.append_cons]

theorem run_wrapped_number (v : α) (n : Nat) :
    empty.run A (List.replicate n .opening ++ [.number v] ++ List.replicate n .closing) = .ok v := by
  have hmatched : Matched [Symbol.number v] := rfl
  have hvalue : empty.run A [.number v] = .ok v := rfl
  induction n with
  | zero => exact hvalue
  | succ n ih => rw [wrapped_succ, run_replaced hmatched hvalue, ih]

/-- A part whose parentheses match each other and that has a value alone acts, in parentheses, as a number
of that value: whatever stands before and behind it, the outcome is the same. So no parentheses around it
change its value. -/
theorem run_parenthesized {xs : List (Symbol α)} {v : α} (hmatched : Matched xs)
    (hvalue : empty.run A xs = .ok v) :
    (∀ before after : List (Symbol α),
      empty.run A (before ++ [.opening] ++ xs ++ [.closing] ++ after) =
        empty.run A (before ++ [.number v] ++ after)) ∧
    ∀ n, empty.run A (List.replicate n .opening ++ xs ++ List.replicate n .closing) = .ok v := by
  refine ⟨run_replaced hmatched hvalue, fun n => ?_⟩
  cases n with
  | zero =>
    rw [List.replicate_zero, List.replicate_zero, List.nil_append, List.append_nil]
    exact hvalue
  | succ n => rw [wrapped_succ, run_replaced hmatched hvalue, run_wrapped_number]

/-- Two numbers with their product sign behind them have a value alone. In parentheses behind a plus they
are one number, so the plus does not find its left value among them. -/
theorem run_parenthesized_of_trailing_operator :
    let two : Symbol Binary64 := .number (.ofNat 2)
    let three : Symbol Binary64 := .number (.ofNat 3)
    let xs := [two, three, .operator .mul]
    Matched xs ∧ empty.run Binary64.arithmetic xs = .ok (.ofNat 6) ∧
      empty.run Binary64.arithmetic ([.operator .add] ++ [.opening] ++ xs ++ [.closing] ++ []) =
        .error (.malformed (.missingOperand .add)) := by
  intro two three xs
  have hmatched : Matched xs := rfl
  have hvalue : empty.run Binary64.arithmetic xs = .ok (.ofNat 6) :=
    eq_ok_of_toOption (by decide +kernel)
  refine ⟨hmatched, hvalue, ?_⟩
  rw [(run_parenthesized hmatched hvalue).1]
  rfl

end Stacks

end Reckoner
