import Reckoner.Proofs.Expression.Accounting
import Reckoner.Proofs.Expression.Causes
import Reckoner.Proofs.Text.Digits
/-!
What the verdict at the end tells of a text.

At the end the machine looks at its stacks only: one value is the value of the text, several are told by
their number, and none is told as no value. The accounts say what that means for the text: as many values
are left as it has more numbers than operators, and all its opening parentheses are closed. And since an
operator takes two values and leaves one, the values never run out once there was one, so nothing is left
only of a text in which nothing but parentheses stands.

What is shown here:
1. `Malformation.eq_valuesLeft_of_reason`, `Malformation.eq_noValue_of_reason`: the reasons told at the end
   are told of nothing else;
2. `Stacks.feed_values_eq_nil_iff`: no value is there after the moves exactly if there was none before and no
   number among them;
3. `Stacks.feed_brackets`: what the machine does on parentheses alone;
4. `Arithmetic.evaluateText_balanced`: what a value, values left over and no value tell of a text.
-/

namespace Reckoner

/-! ## Reasons -/

theorem Malformation.toList_reason_valuesLeft (n : Nat) :
    (Malformation.valuesLeft n).reason.toList =
      Text.decimalDigits n ++ " values left without operators".toList := by
  have hdigits : (toString n).toList = Text.decimalDigits n := by
    rw [Nat.toString_eq_ofList_toDigits, String.toList_ofList]
    rfl
  rw [← hdigits]
  exact String.toList_append

theorem Malformation.valuesLeft_of_digit {r : Malformation} {c : Char}
    (h : r.reason.toList.head? = some c) (hc : c.isDigit = true) : ∃ n, r = .valuesLeft n := by
  cases r with
  | unmatchedParenthesis =>
    have hfirst : (unmatchedParenthesis).reason.toList.head? = some 'u' := by decide
    obtain rfl := Option.some_inj.1 (hfirst.symm.trans h)
    exact absurd hc (by decide)
  | missingOperand op =>
    have hfirst : (missingOperand op).reason.toList.head? = some 'm' := by cases op <;> decide
    obtain rfl := Option.some_inj.1 (hfirst.symm.trans h)
    exact absurd hc (by decide)
  | noValue =>
    have hfirst : noValue.reason.toList.head? = some 'n' := by decide
    obtain rfl := Option.some_inj.1 (hfirst.symm.trans h)
    exact absurd hc (by decide)
  | valuesLeft n => exact ⟨n, rfl⟩

theorem Malformation.eq_valuesLeft_of_reason {r : Malformation} {n : Nat}
    (h : r.reason = (valuesLeft n).reason) : r = .valuesLeft n := by
  have hlist := congrArg String.toList h
  rw [toList_reason_valuesLeft] at hlist
  obtain ⟨c, cs, hcs⟩ := List.exists_cons_of_ne_nil (Text.decimalDigits_ne_nil n)
  have hc : c.isDigit = true := Text.isDigit_decimalDigits (n := n) (by rw [hcs]; exact List.mem_cons_self)
  obtain ⟨m, rfl⟩ := valuesLeft_of_digit (by rw [hlist, hcs]; rfl) hc
  rw [toList_reason_valuesLeft] at hlist
  have hvalue := congrArg Text.digitsValue (List.append_cancel_right hlist)
  rw [Text.digitsValue_decimalDigits, Text.digitsValue_decimalDigits] at hvalue
  rw [hvalue]

theorem Malformation.eq_noValue_of_reason {r : Malformation} (h : r.reason = noValue.reason) :
    r = .noValue := by
  cases r with
  | unmatchedParenthesis => exact absurd h (by decide)
  | missingOperand op => cases op <;> exact absurd h (by decide)
  | noValue => rfl
  | valuesLeft n => exact (eq_valuesLeft_of_reason h.symm).symm

namespace Bracket

/-- A parenthesis as a lexeme. -/
def lexeme : Bracket → Lexeme
  | .opening => .opening
  | .closing => .closing

theorem texts_lexemes {cs : List Char} (h : ∀ c ∈ cs, c = '(' ∨ c = ')') :
    Lexeme.texts ((cs.filterMap ofChar?).map lexeme) = cs := by
  induction cs with
  | nil => rfl
  | cons c cs ih =>
    obtain ⟨hc, hcs⟩ := List.forall_mem_cons.1 h
    rcases hc with rfl | rfl
    · exact congrArg ('(' :: ·) (ih hcs)
    · exact congrArg (')' :: ·) (ih hcs)

theorem wellFormed_lexemes (previous : Option Lexeme) (bs : List Bracket) :
    Lexeme.WellFormed previous (bs.map lexeme) := by
  induction bs generalizing previous with
  | nil => trivial
  | cons b bs ih => cases b <;> exact ⟨trivial, ih _⟩

end Bracket

/-! ## Values do not run out -/

namespace Stacks

variable {α : Type} {A : Arithmetic α}

theorem ne_nil_of_reduce {op : Operator} {values rest : List α} (h : reduce A op values = .ok rest) :
    values ≠ [] ∧ rest ≠ [] := by
  unfold reduce at h
  split at h
  · split at h
    · cases h
      exact ⟨List.cons_ne_nil _ _, List.cons_ne_nil _ _⟩
    · cases h
  · cases h

theorem drain_values_eq_nil_iff {test : Operator → Bool} {values : List α} {pending : List Pending}
    {t : Stacks α} (h : drain A test values pending = .ok t) : t.values = [] ↔ values = [] := by
  induction pending generalizing values with
  | nil =>
    cases h
    rfl
  | cons top pending ih =>
    cases top with
    | parenthesis =>
      cases h
      rfl
    | operator op =>
      simp only [drain] at h
      split at h
      · split at h
        · rename_i rest hreduce
          obtain ⟨hvalues, hrest⟩ := ne_nil_of_reduce hreduce
          exact (ih h).trans (iff_of_false hrest hvalues)
        · cases h
      · cases h
        rfl

theorem settle_values_eq_nil_iff {p : Nat} {s t : Stacks α} (h : settle A p s = .ok t) :
    t.values = [] ↔ s.values = [] := drain_values_eq_nil_iff h

/-- A move leaves no value exactly if there was none and it is not on a number. -/
theorem step_values_eq_nil_iff {s t : Stacks α} {x : Symbol α} (h : s.step A x = .ok t) :
    t.values = [] ↔ s.values = [] ∧ x.isNumber = false := by
  cases x with
  | number v =>
    cases h
    simp [Symbol.isNumber]
  | opening =>
    cases h
    simp [Symbol.isNumber]
  | operator op =>
    rw [step_operator] at h
    obtain ⟨u, hu, h⟩ := bind_eq_ok.1 h
    cases h
    simp [Symbol.isNumber, settle_values_eq_nil_iff hu]
  | closing =>
    rw [step_closing] at h
    obtain ⟨u, hu, h⟩ := bind_eq_ok.1 h
    cases h
    simp [Symbol.isNumber, settle_values_eq_nil_iff hu]

/-- So does a run of moves: no value is there after it exactly if there was none before it and no number
is among its symbols. -/
theorem feed_values_eq_nil_iff {s t : Stacks α} {xs : List (Symbol α)} (h : s.feed A xs = .ok t) :
    t.values = [] ↔ s.values = [] ∧ xs.countP Symbol.isNumber = 0 := by
  induction xs generalizing s with
  | nil =>
    cases h
    simp
  | cons x xs ih =>
    rw [feed_cons] at h
    obtain ⟨u, hu, h⟩ := bind_eq_ok.1 h
    rw [ih h, step_values_eq_nil_iff hu, List.countP_cons]
    cases x.isNumber <;> simp

/-! ## The verdict -/

theorem eq_of_verdict_noValue {s : Stacks α} (h : s.verdict = .error (.malformed .noValue)) :
    s = ⟨[], []⟩ := by
  unfold verdict at h
  split at h <;> cases h
  rfl

theorem length_of_verdict_valuesLeft {s : Stacks α} {n : Nat}
    (h : s.verdict = .error (.malformed (.valuesLeft n))) :
    s.pending = [] ∧ s.values.length = n ∧ 2 ≤ n := by
  unfold verdict at h
  split at h
  · cases h
  · cases h
  · cases h
  · rename_i values hone hnone
    cases h
    refine ⟨rfl, rfl, ?_⟩
    match values with
    | [] => exact absurd rfl hnone
    | [v] => exact absurd rfl (hone v)
    | _ :: _ :: _ => exact Nat.le_add_left 2 _

theorem settled_of_finish {t : Stacks α} {r : Malformation}
    (h : t.finish A = .error (.malformed r)) (hr : ∀ op, r ≠ .missingOperand op) :
    ∃ u, settle A 0 t = .ok u ∧ u.verdict = .error (.malformed r) := by
  rw [finish_eq] at h
  rcases bind_eq_error.1 h with hsettle | hverdict
  · cases ofOperator_of_drain hsettle with
    | missingOperand op => exact absurd rfl (hr op)
  · exact hverdict

/-! ## Parentheses alone -/

/-- On parentheses alone the machine keeps those that are unclosed, and nothing else. -/
theorem feed_brackets (m : Matching) (bs : List Bracket) :
    feed A ⟨[], List.replicate m.unclosed .parenthesis⟩ (bs.map fun b => A.symbolOf b.lexeme) =
      .ok ⟨[], List.replicate (m.after bs).unclosed .parenthesis⟩ := by
  induction bs generalizing m with
  | nil => rfl
  | cons b bs ih =>
    have hstep : step A ⟨[], List.replicate m.unclosed .parenthesis⟩ (A.symbolOf b.lexeme) =
        .ok ⟨[], List.replicate (m.meet b).unclosed .parenthesis⟩ := by
      cases b with
      | opening => rfl
      | closing =>
        rw [Matching.meet]
        cases m.unclosed <;> rfl
    rw [List.map_cons, feed_cons, hstep]
    exact ih (m.meet b)

end Stacks

/-! ## Texts -/

theorem Lexeme.parentheses_of_counts {ls : List Lexeme} (hnumbers : ls.countP isNumber = 0)
    (hoperators : ls.countP isOperator = 0) : ∀ c ∈ texts ls, c = '(' ∨ c = ')' := by
  rw [List.countP_eq_zero] at hnumbers hoperators
  intro c hc
  obtain ⟨l, hl, hc⟩ := List.mem_flatMap.1 hc
  cases l with
  | number text => exact absurd rfl (hnumbers _ hl)
  | operator op => exact absurd rfl (hoperators _ hl)
  | opening => exact .inl (List.mem_singleton.1 hc)
  | closing => exact .inr (List.mem_singleton.1 hc)

namespace Arithmetic

variable {α : Type} (A : Arithmetic α)

/-- The text is malformed, for a reason. -/
def IsMalformed (cs : List Char) (reason : String) : Prop :=
  ∃ r, A.evaluateText cs = .error (.malformed r) ∧ r.reason = reason

variable {A} {cs : List Char}

theorem settled_of_malformed {r : Malformation} (h : A.evaluateText cs = .error (.malformed r))
    (hr : ∀ op, r ≠ .missingOperand op) :
    (Reading.read cs).stoppedBy = none ∧
      ∃ t u, Stacks.empty.feed A ((Reading.read cs).lexemes.map A.symbolOf) = .ok t ∧
        t.settle A 0 = .ok u ∧ u.verdict = .error (.malformed r) := by
  rw [evaluateText] at h
  split at h
  · rename_i e hfeed
    cases h
    cases beforeEnd_of_feedText hfeed with
    | ofOperator h =>
      cases h with
      | missingOperand op => exact absurd rfl (hr op)
  · rename_i t hfeed
    obtain ⟨hcomplete, hmoves⟩ := complete_of_feedText hfeed
    obtain ⟨u, hsettle, hverdict⟩ := Stacks.settled_of_finish h hr
    exact ⟨hcomplete, t, u, hmoves, hsettle, hverdict⟩

theorem account_of_valuesLeft {n : Nat} (h : A.evaluateText cs = .error (.malformed (.valuesLeft n))) :
    2 ≤ n ∧ (Matching.ofText cs).unclosed = 0 ∧
      (Reading.read cs).lexemes.countP Lexeme.isNumber =
        (Reading.read cs).lexemes.countP Lexeme.isOperator + n := by
  obtain ⟨hcomplete, t, u, hfeed, hsettle, hverdict⟩ := settled_of_malformed h (by simp)
  obtain ⟨hpending, rfl, htwo⟩ := Stacks.length_of_verdict_valuesLeft hverdict
  obtain ⟨hcount, hclosed⟩ := account_of_settled hcomplete hfeed hsettle hpending
  exact ⟨htwo, hclosed, hcount⟩

theorem parentheses_of_noValue (h : A.evaluateText cs = .error (.malformed .noValue)) :
    (∀ c ∈ cs, c = '(' ∨ c = ')') ∧ (Matching.ofText cs).unclosed = 0 := by
  obtain ⟨hcomplete, t, u, hfeed, hsettle, hverdict⟩ := settled_of_malformed h (by simp)
  obtain rfl := Stacks.eq_of_verdict_noValue hverdict
  obtain ⟨hcount, hclosed⟩ := account_of_settled hcomplete hfeed hsettle rfl
  have hempty : t.values = [] := (Stacks.settle_values_eq_nil_iff hsettle).1 rfl
  have hnumbers := ((Stacks.feed_values_eq_nil_iff hfeed).1 hempty).2
  rw [countP_isNumber_symbols] at hnumbers
  rw [hnumbers] at hcount
  refine ⟨?_, hclosed⟩
  rw [← Reading.texts_lexemes hcomplete]
  exact Lexeme.parentheses_of_counts hnumbers (by simpa using hcount.symm)

theorem noValue_of_parentheses (hcs : ∀ c ∈ cs, c = '(' ∨ c = ')')
    (hclosed : (Matching.ofText cs).unclosed = 0) :
    A.evaluateText cs = .error (.malformed .noValue) := by
  have hread := Reading.read_texts (Bracket.wellFormed_lexemes none (cs.filterMap Bracket.ofChar?))
  rw [Bracket.texts_lexemes hcs] at hread
  have hfeed := Stacks.feed_brackets (A := A) ⟨0, 0⟩ (cs.filterMap Bracket.ofChar?)
  rw [← Matching.ofText, hclosed] at hfeed
  rw [A.evaluateText_eq, hread, Reading.symbols_place, List.map_map]
  exact hfeed ▸ rfl

variable (A cs) in
/-- What the outcome of a text tells of its numbers, operators and parentheses. -/
structure Balanced : Prop where
  /-- A value: there is one number more than operators, and every opening parenthesis is closed. -/
  value : ∀ v, A.evaluateText cs = .ok v →
    (Matching.ofText cs).unclosed = 0 ∧
      (Reading.read cs).lexemes.countP Lexeme.isNumber =
        (Reading.read cs).lexemes.countP Lexeme.isOperator + 1
  /-- Values left over: there are two at least, and as many more numbers than operators. -/
  left : ∀ n : Nat, A.IsMalformed cs (toString n ++ " values left without operators") →
    2 ≤ n ∧ (Matching.ofText cs).unclosed = 0 ∧
      (Reading.read cs).lexemes.countP Lexeme.isNumber =
        (Reading.read cs).lexemes.countP Lexeme.isOperator + n
  /-- No value: there are only parentheses, and every opening one is closed. -/
  none : A.IsMalformed cs "no value" ↔
    (∀ c ∈ cs, c = '(' ∨ c = ')') ∧ (Matching.ofText cs).unclosed = 0
  /-- An opening parenthesis that is unclosed, or any other number of numbers: there is no value. -/
  refused : (Matching.ofText cs).unclosed ≠ 0 ∨
      (Reading.read cs).lexemes.countP Lexeme.isNumber ≠
        (Reading.read cs).lexemes.countP Lexeme.isOperator + 1 →
    ∃ e, A.evaluateText cs = .error e

/-- The verdict on a text tells how many more numbers than operators there are in it, and that its opening
parentheses are closed. -/
theorem evaluateText_balanced (A : Arithmetic α) (cs : List Char) : A.Balanced cs where
  value v h := (account_of_value h).symm
  left n h := by
    obtain ⟨r, hr, hreason⟩ := h
    obtain rfl := Malformation.eq_valuesLeft_of_reason hreason
    exact account_of_valuesLeft hr
  none := by
    constructor
    · rintro ⟨r, hr, hreason⟩
      obtain rfl := Malformation.eq_noValue_of_reason hreason
      exact parentheses_of_noValue hr
    · rintro ⟨hcs, hclosed⟩
      exact ⟨.noValue, noValue_of_parentheses hcs hclosed, rfl⟩
  refused h := by
    cases hvalue : A.evaluateText cs with
    | error e => exact ⟨e, rfl⟩
    | ok v =>
      obtain ⟨hcount, hclosed⟩ := account_of_value hvalue
      exact absurd h (by simp [hcount, hclosed])

end Arithmetic

end Reckoner
