import Reckoner.Proofs.Expression.Accounting
import Reckoner.Proofs.Expression.Causes
/-!
Which fault is told of, and which faults are final.

A text is scanned while the machine runs, so the fault told of is the first in that order: a move that
fails, then what stopped the reading, then the verdict at the end. To collect the tokens before the machine
runs gives the same.

What stands behind a text can only lengthen its last number. A token with anything behind it, and an
operator or a parenthesis in any case, is scanned the same when the text goes on. So a fault that is met
before the end is met again, at the same place, unless it is a literal that the text may yet complete.

What is shown here:
1. `scan_append_of_ended`: a token that has ended stays what it is when the text goes on;
2. `Arithmetic.feedText_append_of_error`: a fault met before the end stays when the text goes on;
3. `Arithmetic.evaluateText_faults`: evaluating is reading and then running, and which faults are final.
-/

namespace Reckoner

/-- A token has ended if it is no number, or if something stands behind it. When the text goes on it is
scanned the same. -/
theorem scan_append_of_ended {previous : Option Char} {position : Nat} {c : Char} {cs rest : List Char}
    {l : Lexeme} (h : scan previous position c cs = .ok (l, rest))
    (hended : l.isNumber = true → rest ≠ []) (more : List Char) :
    scan previous position c (cs ++ more) = .ok (l, rest ++ more) := by
  cases scans_of_scan h with
  | literal hfirst hliteral =>
    -- the run of digits and points ends before what is appended
    obtain ⟨d, ds, hrest⟩ := List.exists_cons_of_ne_nil (hended rfl)
    have hbehind : ∀ x ∈ (cs.dropWhile isNumberChar ++ more).head?, isNumberChar x = false := by
      rw [hrest]
      rintro x ⟨⟩
      exact (Scans.literal hfirst hliteral).number.2 d (by rw [hrest]; rfl)
    have hrun : ∀ x ∈ cs.takeWhile isNumberChar, isNumberChar x = true :=
      List.all_eq_true.1 List.all_takeWhile
    obtain ⟨htake, hdrop⟩ := span_isNumberChar hrun hbehind
    rw [← List.append_assoc, List.takeWhile_append_dropWhile] at htake hdrop
    rw [scan_of_beginsLiteral hfirst, htake, hdrop, if_pos hliteral]
  | opening hc =>
    subst hc
    rfl
  | closing hc =>
    subst hc
    rfl
  | @operator op hc hplace =>
    have hfirst : ¬BeginsLiteral previous c := by
      rintro (hnumber | ⟨hminus, hsign⟩)
      · rw [hc, isNumberChar_symbol] at hnumber
        cases hnumber
      · rw [hplace hminus] at hsign
        cases hsign
    have hopening : c ≠ '(' := by rw [hc]; cases op <;> decide
    have hclosing : c ≠ ')' := by rw [hc]; cases op <;> decide
    rw [scan_of_not_beginsLiteral hfirst, if_neg hopening, if_neg hclosing, hc,
      Operator.ofChar?_symbol]

theorem scan_of_foreign {previous : Option Char} {position : Nat} {c : Char} (hc : c ∉ alphabet)
    (cs : List Char) : scan previous position c cs = .error (.invalidCharacter c position) := by
  rw [mem_alphabet_iff, not_or, not_or, not_or] at hc
  obtain ⟨hnumber, hopening, hclosing, hoperator⟩ := hc
  have hnone : Operator.ofChar? c = none := by
    cases hop : Operator.ofChar? c with
    | none => rfl
    | some op => exact absurd ⟨op, hop⟩ hoperator
  rw [scan, if_neg hnumber, if_neg hopening, if_neg hclosing, hnone]

namespace Arithmetic

variable {α : Type} (A : Arithmetic α)

theorem isNumber_of_step_error {s : Stacks α} {l : Lexeme} {e : EvalError}
    (h : s.step A (A.symbolOf l) = .error e) : l.isNumber = false := by
  cases l with
  | number text => cases h
  | operator op => rfl
  | opening => rfl
  | closing => rfl

/-- A fault that is met before the end of a text, other than in a literal, is met when the text goes on. -/
theorem feedText_append_of_error {s : Stacks α} {previous : Option Char} {position : Nat}
    {cs : List Char} {e : EvalError} (h : A.feedText s previous position cs = .error e)
    (hliteral : ∀ literal, e ≠ .numberFormat literal) (more : List Char) :
    A.feedText s previous position (cs ++ more) = .error e := by
  -- on the length of the text: behind each token that is moved on there is more, or nothing would fail
  induction hn : cs.length using Nat.strongRecOn generalizing s previous position cs with
  | ind n ih =>
    subst hn
    cases cs with
    | nil =>
      rw [feedText] at h
      cases h
    | cons c cs =>
      rw [List.cons_append]
      cases hscan : scan previous position c cs with
      | error d =>
        rw [A.feedText_error hscan] at h
        cases h
        cases fails_of_scan hscan with
        | literal => exact absurd rfl (hliteral _)
        | character hc => exact A.feedText_error (scan_of_foreign hc _)
      | ok found =>
        obtain ⟨l, rest⟩ := found
        rw [A.feedText_ok hscan] at h
        cases hstep : s.step A (A.symbolOf l) with
        | error d =>
          have hended : l.isNumber = true → rest ≠ [] := fun hnumber => by
            rw [A.isNumber_of_step_error hstep] at hnumber
            cases hnumber
          rw [hstep] at h
          cases h
          rw [A.feedText_ok (scan_append_of_ended hscan hended more), hstep]
        | ok t =>
          rw [hstep] at h
          change A.feedText t _ _ rest = .error e at h
          have hended : rest ≠ [] := by
            rintro rfl
            rw [feedText] at h
            cases h
          rw [A.feedText_ok (scan_append_of_ended hscan (fun _ => hended) more), hstep]
          exact ih rest.length (scan_length_lt hscan) h rfl

/-- The outcome of tokens that have been collected beforehand, with what stopped the reading: the fault of
a move comes first, then what stopped the reading, then the verdict at the end. -/
def outcome (r : Reading) : Except EvalError α := do
  let t ← Stacks.empty.feed A (A.symbols r.tokens)
  match r.stoppedBy with
  | some e => .error e
  | none => t.finish A

/-- The kinds of the faults that nothing which follows can mend. -/
def finalKinds : List String := ["invalid_character", "division_by_zero", "malformed_expression"]

theorem ne_numberFormat_of_final {e : EvalError} (h : e.kind ∈ finalKinds) (literal : List Char) :
    e ≠ .numberFormat literal := by
  rintro rfl
  rw [EvalError.kind] at h
  exact absurd h (by decide)

/-- To scan while the machine runs has the outcome of collecting all tokens first. And a fault of a final
kind that is met before the end of a text is what is told of, place and details included, whatever
follows the text. -/
theorem evaluateText_faults (cs : List Char) :
    A.evaluateText cs = A.outcome (Reading.read cs) ∧
      ∀ e, A.feedText .empty none 0 cs = .error e → e.kind ∈ finalKinds →
        ∀ more, A.evaluateText (cs ++ more) = .error e := by
  refine ⟨?_, fun e hfault hfinal more => ?_⟩
  · rw [A.evaluateText_eq, outcome]
    cases Stacks.empty.feed A (A.symbols (Reading.read cs).tokens) with
    | error e => rfl
    | ok t => rfl
  · rw [evaluateText, A.feedText_append_of_error hfault (ne_numberFormat_of_final hfinal)]

/-- The parenthesis closes before the second minus has its right value: that is told of, and not the
literal and the foreign character behind it. -/
theorem evaluateText_faults_of_closing :
    Binary64.arithmetic.feedText .empty none 0 "(-3-)".toList =
        .error (.malformed (.missingOperand .sub)) ∧
      (EvalError.malformed (.missingOperand .sub)).kind ∈ finalKinds ∧
      Binary64.arithmetic.evaluateText ("(-3-)".toList ++ "1.2.3$".toList) =
        .error (.malformed (.missingOperand .sub)) := by
  have hread : Reading.readFrom none 0 "(-3-)".toList =
      ⟨Reading.place 0 [.opening, .number ['-', '3'], .operator .sub, .closing], none⟩ := by
    decide +kernel
  have hfault : Binary64.arithmetic.feedText .empty none 0 "(-3-)".toList =
      .error (.malformed (.missingOperand .sub)) := by
    rw [Binary64.arithmetic.feedText_eq_feed, hread]
    rfl
  have hfinal : (EvalError.malformed (.missingOperand .sub)).kind ∈ finalKinds := by decide
  exact ⟨hfault, hfinal, (Binary64.arithmetic.evaluateText_faults _).2 _ hfault hfinal _⟩

end Arithmetic

end Reckoner
