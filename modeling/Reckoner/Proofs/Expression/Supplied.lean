import Reckoner.Proofs.Expression.Accounting
import Reckoner.Proofs.Expression.Causes
/-!
Stray parentheses mean opening ones at the beginning.

A closing parenthesis that closes none applies all operators and is otherwise passed over. The machine
does the same where an opening parenthesis at the bottom of its second stack takes the blame: so a text
is evaluated as if the opening parentheses that its stray ones miss stood before it. The two runs go in
step. Theirs are the same values and the same operators, and the second has at the bottom one
parenthesis for each stray one that is still to come.

What is shown here:
1. `Stacks.step_deepen` and `Stacks.feed_deepen`: parentheses at the bottom change no move but that on a
   stray parenthesis, which takes one of them, and so they change no run of moves;
2. `Reading.read_openings`: behind opening parentheses a text reads as it does alone, further on;
3. `Arithmetic.evaluateText_openings`: a text has the outcome that it has behind as many opening
   parentheses as it has stray ones.
-/

namespace Reckoner

/-- A cause that is met so many characters further on. -/
def EvalError.shift (k : Nat) : EvalError → EvalError
  | .invalidCharacter c position => .invalidCharacter c (position + k)
  | e => e

theorem EvalError.OfMachine.mapError_shift {β : Type} {x : Except EvalError β}
    (h : ∀ e, x = .error e → e.OfMachine) (k : Nat) : x.mapError (EvalError.shift k) = x := by
  cases x with
  | ok b => rfl
  | error e => cases h e rfl <;> rfl

/-! ## Parentheses at the bottom -/

namespace Stacks

variable {α : Type} {A : Arithmetic α}

/-- Stacks with opening parentheses below everything that waits. -/
def deepen (j : Nat) (s : Stacks α) : Stacks α :=
  ⟨s.values, s.pending ++ List.replicate j .parenthesis⟩

theorem deepen_zero (s : Stacks α) : deepen 0 s = s := by
  rw [deepen, List.replicate_zero, List.append_nil]

theorem deepen_succ_nil (j : Nat) (values : List α) :
    deepen (j + 1) ⟨values, []⟩ = ⟨values, .parenthesis :: (deepen j ⟨values, []⟩).pending⟩ := rfl

theorem drain_deepen (test : Operator → Bool) (values : List α) (pending : List Pending) (j : Nat) :
    drain A test values (pending ++ List.replicate j .parenthesis) =
      (drain A test values pending).map (deepen j) := by
  induction pending generalizing values with
  | nil => cases j <;> rfl
  | cons top pending ih =>
    cases top with
    | parenthesis => rfl
    | operator op =>
      rw [List.cons_append, drain, drain]
      by_cases htest : test op = true
      · rw [if_pos htest, if_pos htest]
        cases reduce A op values with
        | error e => rfl
        | ok rest => exact ih rest
      · rw [if_neg htest, if_neg htest]
        rfl

theorem settle_deepen (p : Nat) (s : Stacks α) (j : Nat) :
    settle A p (deepen j s) = (settle A p s).map (deepen j) := drain_deepen _ _ _ j

/-- A move is the same above parentheses at the bottom, of which there is one for each of `k` stray
parentheses that has not come yet: a stray one takes one of them. -/
theorem step_deepen {s : Stacks α} {m : Matching} {k : Nat} (x : Symbol α)
    (hm : m.unclosed = unclosed s.pending) (hk : (m.after (Bracket.ofSymbol? x).toList).stray ≤ k) :
    step A (deepen (k - m.stray) s) x =
      (s.step A x).map (deepen (k - (m.after (Bracket.ofSymbol? x).toList).stray)) := by
  cases x with
  | number v => rfl
  | opening => rfl
  | operator op =>
    rw [step_operator, step_operator, settle_deepen]
    cases settle A op.precedence s with
    | error e => rfl
    | ok t => rfl
  | closing =>
    rw [step_closing, step_closing, settle_deepen]
    cases hsettle : settle A 0 s with
    | error e => rfl
    | ok t =>
      obtain ⟨values, pending⟩ := t
      rw [← (settle_account hsettle).2] at hm
      change (m.meet .closing).stray ≤ k at hk
      show Except.ok _ = Except.ok (deepen (k - (m.meet .closing).stray) ⟨values, pending.tail⟩)
      rcases settle_zero_pending hsettle with hp | ⟨rest, hp⟩
      · -- nothing waits: the parenthesis is stray, and takes one from the bottom
        obtain rfl : pending = [] := hp
        have hzero : m.unclosed = 0 := hm
        rw [Matching.meet, if_pos hzero] at hk ⊢
        change m.stray + 1 ≤ k at hk
        obtain ⟨j, hj⟩ : ∃ j, k - m.stray = j + 1 := ⟨k - m.stray - 1, by omega⟩
        have hrest : k - (m.stray + 1) = j := by omega
        rw [hj, hrest, deepen_succ_nil]
        rfl
      · obtain rfl : pending = .parenthesis :: rest := hp
        have hopen : m.unclosed ≠ 0 := by
          rw [hm]
          simp
        rw [Matching.meet, if_neg hopen]
        rfl

/-- So is a run of moves. -/
theorem feed_deepen {s : Stacks α} {m : Matching} {k : Nat} (xs : List (Symbol α))
    (hm : m.unclosed = unclosed s.pending)
    (hk : (m.after (xs.filterMap Bracket.ofSymbol?)).stray ≤ k) :
    feed A (deepen (k - m.stray) s) xs =
      (s.feed A xs).map (deepen (k - (m.after (xs.filterMap Bracket.ofSymbol?)).stray)) := by
  induction xs generalizing s m with
  | nil => rfl
  | cons x xs ih =>
    rw [Matching.after_filterMap_cons] at hk ⊢
    have hx := Nat.le_trans (Matching.stray_le_after _ _) hk
    rw [feed_cons, feed_cons, step_deepen x hm hx]
    cases hstep : s.step A x with
    | error e => rfl
    | ok t => exact ih (step_unclosed hstep hm) hk

theorem feed_openings (j k : Nat) :
    feed A (deepen j .empty) (List.replicate k .opening) = .ok (deepen (j + k) .empty) := by
  induction k generalizing j with
  | zero => rfl
  | succ k ih =>
    have hstep : step A (deepen j .empty) .opening = .ok (deepen (j + 1) .empty) := rfl
    rw [List.replicate_succ, feed, hstep]
    exact (ih (j + 1)).trans (by rw [Nat.add_right_comm, Nat.add_assoc])

end Stacks

/-! ## Opening parentheses before a text -/

/-- A token does not depend on where it is, nor on what is before it but for whether a minus is a sign
there. -/
theorem scan_shift {p q : Option Char} (hpq : isSignPlace p = isSignPlace q) (position k : Nat)
    (c : Char) (cs : List Char) :
    scan q (position + k) c cs = (scan p position c cs).mapError (EvalError.shift k) := by
  have hfirst : BeginsLiteral q c ↔ BeginsLiteral p c := by rw [BeginsLiteral, BeginsLiteral, hpq]
  by_cases hp : BeginsLiteral p c
  · rw [scan_of_beginsLiteral hp, scan_of_beginsLiteral (hfirst.2 hp)]
    split <;> rfl
  · rw [scan_of_not_beginsLiteral hp, scan_of_not_beginsLiteral (mt hfirst.1 hp)]
    split
    · rfl
    split
    · rfl
    split <;> rfl

namespace Reading

/-- A text reads the same further on, behind a character that makes a sign of a minus if the other does. -/
theorem readFrom_shift {p q : Option Char} (hpq : isSignPlace p = isSignPlace q) (position k : Nat)
    (cs : List Char) :
    (readFrom q (position + k) cs).lexemes = (readFrom p position cs).lexemes ∧
      (readFrom q (position + k) cs).stoppedBy =
        (readFrom p position cs).stoppedBy.map (EvalError.shift k) := by
  induction hn : cs.length using Nat.strongRecOn generalizing p q position cs with
  | ind n ih =>
    subst hn
    cases cs with
    | nil => simp [readFrom, lexemes]
    | cons c cs =>
      have hshift := scan_shift hpq position k c cs
      cases hs : scan p position c cs with
      | error e =>
        rw [hs] at hshift
        rw [readFrom_error hs, readFrom_error hshift]
        exact ⟨rfl, rfl⟩
      | ok r =>
        obtain ⟨l, rest⟩ := r
        rw [hs] at hshift
        have hrest := ih rest.length (scan_length_lt hs) (p := l.text.getLast?) rfl
          (position + l.text.length) rest rfl
        rw [Nat.add_right_comm] at hrest
        rw [readFrom_ok hs, readFrom_ok hshift]
        exact ⟨congrArg (l :: ·) hrest.1, hrest.2⟩

/-- Behind opening parentheses a text reads as it does alone, further on. -/
theorem read_openings (k : Nat) (cs : List Char) :
    (read (List.replicate k '(' ++ cs)).lexemes = List.replicate k .opening ++ (read cs).lexemes ∧
      (read (List.replicate k '(' ++ cs)).stoppedBy =
        (read cs).stoppedBy.map (EvalError.shift k) := by
  -- on the parentheses, at any position behind the beginning or an opening parenthesis
  have hopenings : ∀ (q : Option Char) (position : Nat), isSignPlace q = true →
      (readFrom q position (List.replicate k '(' ++ cs)).lexemes =
          List.replicate k .opening ++ (read cs).lexemes ∧
        (readFrom q position (List.replicate k '(' ++ cs)).stoppedBy =
          (read cs).stoppedBy.map (EvalError.shift (position + k)) := by
    induction k with
    | zero =>
      intro q position hq
      have hpq : isSignPlace none = isSignPlace q := hq.symm
      have := readFrom_shift hpq 0 position cs
      rwa [Nat.zero_add] at this
    | succ k ih =>
      intro q position hq
      have hscan : scan q position '(' (List.replicate k '(' ++ cs) =
          .ok (.opening, List.replicate k '(' ++ cs) := rfl
      have hrest := ih (some '(') (position + 1) rfl
      rw [Nat.add_right_comm] at hrest
      rw [List.replicate_succ, List.cons_append, readFrom_ok hscan]
      exact ⟨congrArg (Lexeme.opening :: ·) hrest.1, hrest.2⟩
  have h := hopenings none 0 rfl
  rwa [Nat.zero_add] at h

theorem stray_lexemes_le (cs : List Char) :
    (Matching.after ⟨0, 0⟩ ((read cs).lexemes.filterMap Bracket.ofLexeme?)).stray ≤
      (Matching.ofText cs).stray := by
  obtain ⟨rest, hrest, -⟩ := concat_tokens_append none 0 cs
  have hliterals : ∀ text, .number text ∈ (read cs).lexemes → isLiteral text = true :=
    fun text => isLiteral_of_mem_lexemes
  have htexts : Lexeme.texts (read cs).lexemes ++ rest = cs := by
    rw [Lexeme.texts, lexemes, List.flatMap_map]
    exact hrest
  have hbrackets : cs.filterMap Bracket.ofChar? =
      (read cs).lexemes.filterMap Bracket.ofLexeme? ++ rest.filterMap Bracket.ofChar? := by
    rw [← Bracket.texts_brackets hliterals, ← List.filterMap_append, htexts]
  rw [Matching.ofText, hbrackets, Matching.after_append]
  exact Matching.stray_le_after _ _

end Reading

/-! ## The two evaluations -/

namespace Arithmetic

variable {α : Type} (A : Arithmetic α)

/-- Behind `k` opening parentheses the machine makes the moves that it makes on the text alone, above
those of them that no stray parenthesis has taken. -/
theorem feed_openings_read (cs : List Char) {k : Nat}
    (hk : (Matching.after ⟨0, 0⟩
      ((Reading.read cs).lexemes.filterMap Bracket.ofLexeme?)).stray ≤ k) :
    Stacks.empty.feed A (A.symbols (Reading.read (List.replicate k '(' ++ cs)).tokens) =
      (Stacks.empty.feed A (A.symbols (Reading.read cs).tokens)).map (Stacks.deepen (k -
        (Matching.after ⟨0, 0⟩
          ((Reading.read cs).lexemes.filterMap Bracket.ofLexeme?)).stray)) := by
  rw [symbols_eq, symbols_eq, ← Reading.lexemes, ← Reading.lexemes, (Reading.read_openings k cs).1,
    List.map_append, List.map_replicate, Stacks.feed_append]
  rw [← Bracket.symbols_brackets A] at hk ⊢
  -- the openings are at the bottom when the text itself begins
  have hopenings := Stacks.feed_openings (A := A) 0 k
  rw [Stacks.deepen_zero, Nat.zero_add] at hopenings
  rw [← Stacks.feed_deepen _ rfl hk, symbolOf, hopenings]
  rfl

/-- A text has the outcome that it has behind as many opening parentheses as it has stray closing ones:
the same value, or the same cause, met that many characters further on. -/
theorem evaluateText_openings (cs : List Char) :
    A.evaluateText (List.replicate (Matching.ofText cs).stray '(' ++ cs) =
      (A.evaluateText cs).mapError (EvalError.shift (Matching.ofText cs).stray) := by
  have hstop := (Reading.read_openings (Matching.ofText cs).stray cs).2
  have hfeed := A.feed_openings_read cs (Reading.stray_lexemes_le cs)
  have hcomplete : (Reading.read cs).stoppedBy = none →
      (Matching.after ⟨0, 0⟩ ((Reading.read cs).lexemes.filterMap Bracket.ofLexeme?)).stray =
        (Matching.ofText cs).stray := by
    intro hnone
    rw [Matching.ofText, Reading.brackets_of_complete hnone]
  generalize (Matching.ofText cs).stray = k at hstop hfeed hcomplete ⊢
  rw [evaluateText_eq, evaluateText_eq, hfeed, hstop]
  cases hmoves : Stacks.empty.feed A (A.symbols (Reading.read cs).tokens) with
  | error e =>
    have he : EvalError.OfMachine e := Stacks.ofMachine_of_feed hmoves
    exact congrArg Except.error (by cases he <;> rfl)
  | ok t =>
    cases hs : (Reading.read cs).stoppedBy with
    | some e => rfl
    | none =>
      rw [hcomplete hs, Nat.sub_self]
      show (Stacks.deepen 0 t).finish A = (t.finish A).mapError (EvalError.shift k)
      rw [Stacks.deepen_zero,
        EvalError.OfMachine.mapError_shift (fun e => Stacks.ofMachine_of_finish) k]

end Arithmetic

end Reckoner
