import Mathlib.Data.Bool.AllAny
import Reckoner.Expression.Token
import Reckoner.Proofs.Binary64.Numeral
/-!
One step of the scanner.

At a digit or a point, and at a minus that is a sign, the scanner takes the whole run of digits and points
from there, and hands it out if it is a literal or else fails with it. At a parenthesis or another operator
it takes that one character, and at any other character it fails. All that is shown of scanning is shown
from these cases.

What is shown here:
1. `isLiteral_cases` and `getLast?_isNumberChar`: what literals are made of;
2. `mem_alphabet_iff`: the characters that stand in expressions;
3. `scans_of_scan` and `fails_of_scan`: what the scanner hands out and what it fails with, by the first
   character.
-/

namespace Reckoner

/-! ## Characters of literals -/

theorem isLiteral_cases {cs : List Char} (h : isLiteral cs = true) :
    isNumeral cs = true ∨ ∃ ds, cs = '-' :: ds ∧ isNumeral ds = true := by
  unfold isLiteral at h
  split at h
  · exact .inr ⟨_, rfl, h⟩
  · exact .inl h

theorem isLiteral_cons {c : Char} (hc : isNumberChar c = true) (cs : List Char) :
    isLiteral (c :: cs) = isNumeral (c :: cs) := by
  rw [isLiteral]
  rintro ds heq
  cases heq
  exact absurd hc (by decide)

theorem isLiteral_of_isNumeral {cs : List Char} (h : isNumeral cs = true) : isLiteral cs = true := by
  obtain ⟨c, rest, rfl, hc⟩ := exists_cons_of_isNumeral h
  rw [isLiteral_cons hc, h]

theorem isNumberChar_symbol (op : Operator) : isNumberChar op.symbol = false := by
  cases op <;> decide

theorem isSignPlace_of_isNumberChar {c : Char} (h : isNumberChar c = true) :
    isSignPlace (some c) = false := by
  cases hop : Operator.ofChar? c with
  | some op =>
    rw [Operator.ofChar?_eq_some_iff.1 hop, isNumberChar_symbol] at h
    cases h
  | none =>
    have hparen : (c == '(') = false := by
      rw [beq_eq_false_iff_ne]
      rintro rfl
      exact absurd h (by decide)
    simp [isSignPlace, hparen, hop]

theorem getLast?_isNumberChar {cs : List Char} (h : isLiteral cs = true) :
    ∃ c, cs.getLast? = some c ∧ isNumberChar c = true := by
  rcases isLiteral_cases h with hn | ⟨ds, rfl, hn⟩
  · refine ⟨cs.getLast (isNumeral_ne_nil hn), List.getLast?_eq_some_getLast _, ?_⟩
    exact isNumberChar_of_isNumeral hn _ (List.getLast_mem _)
  · have hne := isNumeral_ne_nil hn
    refine ⟨ds.getLast hne, ?_, isNumberChar_of_isNumeral hn _ (List.getLast_mem _)⟩
    rw [List.getLast?_cons, List.getLast?_eq_some_getLast hne]
    rfl

/-! ## The cases of a step -/

/-- The characters of which expressions in normal form are made. -/
def alphabet : List Char := "0123456789.+-*/()".toList

theorem mem_alphabet_iff {c : Char} :
    c ∈ alphabet ↔
      isNumberChar c = true ∨ c = '(' ∨ c = ')' ∨ ∃ op, Operator.ofChar? c = some op := by
  have hkinds : ∀ c ∈ alphabet, isNumberChar c = true ∨ c = '(' ∨ c = ')' ∨
      (Operator.ofChar? c).isSome = true := List.all_iff_forall_prop.1 (by decide)
  have hnumbers : ∀ c ∈ ".0123456789".toList, c ∈ alphabet := List.all_iff_forall_prop.1 (by decide)
  constructor
  · intro h
    exact (hkinds c h).imp_right (.imp_right (.imp_right Option.isSome_iff_exists.1))
  · rintro (hnumber | rfl | rfl | ⟨op, hop⟩)
    · exact hnumbers c (mem_of_isNumberChar hnumber)
    · decide
    · decide
    · rw [Operator.ofChar?_eq_some_iff.1 hop]
      cases op <;> decide

/-- A literal begins with a character: it is a digit or a point, or a minus that is a sign. -/
def BeginsLiteral (previous : Option Char) (c : Char) : Prop :=
  isNumberChar c = true ∨ c = '-' ∧ isSignPlace previous = true

/-- What the scanner hands out and what follows that, by the first character. -/
inductive Scans (previous : Option Char) (c : Char) (cs : List Char) : Lexeme → List Char → Prop
  | literal (hfirst : BeginsLiteral previous c)
    (hliteral : isLiteral (c :: cs.takeWhile isNumberChar) = true) :
    Scans previous c cs (.number (c :: cs.takeWhile isNumberChar)) (cs.dropWhile isNumberChar)
  | opening (hc : c = '(') : Scans previous c cs .opening cs
  | closing (hc : c = ')') : Scans previous c cs .closing cs
  | operator {op : Operator} (hc : c = op.symbol) (hplace : c = '-' → isSignPlace previous = false) :
    Scans previous c cs (.operator op) cs

/-- What the scanner fails with, by the first character. -/
inductive Fails (previous : Option Char) (position : Nat) (c : Char) (cs : List Char) : EvalError → Prop
  | literal (hfirst : BeginsLiteral previous c)
    (hliteral : isLiteral (c :: cs.takeWhile isNumberChar) = false) :
    Fails previous position c cs (.numberFormat (c :: cs.takeWhile isNumberChar))
  | character (hc : c ∉ alphabet) : Fails previous position c cs (.invalidCharacter c position)

section Cases
variable {previous : Option Char} {position : Nat} {c : Char} {cs : List Char}

theorem BeginsLiteral.mem_alphabet (h : BeginsLiteral previous c) : c ∈ alphabet := by
  rcases h with hnumber | ⟨rfl, -⟩
  · exact mem_alphabet_iff.2 (.inl hnumber)
  · decide

theorem scan_of_beginsLiteral (h : BeginsLiteral previous c) :
    scan previous position c cs =
      if isLiteral (c :: cs.takeWhile isNumberChar) then
        .ok (.number (c :: cs.takeWhile isNumberChar), cs.dropWhile isNumberChar)
      else .error (.numberFormat (c :: cs.takeWhile isNumberChar)) := by
  rcases h with hnumber | ⟨rfl, hplace⟩
  · rw [scan, if_pos hnumber, scanLiteral, List.takeWhile_cons_of_pos hnumber,
      List.dropWhile_cons_of_pos hnumber]
    rfl
  · have hop : Operator.ofChar? '-' = some .sub := rfl
    rw [scan, if_neg (by decide), if_neg (by decide), if_neg (by decide), hop]
    exact if_pos ⟨rfl, hplace⟩

theorem scan_of_not_beginsLiteral (h : ¬BeginsLiteral previous c) :
    scan previous position c cs =
      if c = '(' then .ok (.opening, cs)
      else if c = ')' then .ok (.closing, cs)
      else
        match Operator.ofChar? c with
        | none => .error (.invalidCharacter c position)
        | some op => .ok (.operator op, cs) := by
  rw [BeginsLiteral, not_or, not_and] at h
  rw [scan, if_neg h.1]
  cases hop : Operator.ofChar? c with
  | none => rfl
  | some op =>
    have hsign : ¬(op = .sub ∧ isSignPlace previous = true) := by
      rintro ⟨rfl, hplace⟩
      exact h.2 (Operator.ofChar?_eq_some_iff.1 hop) hplace
    simp only [if_neg hsign]

theorem scans_of_scan {l : Lexeme} {rest : List Char}
    (h : scan previous position c cs = .ok (l, rest)) : Scans previous c cs l rest := by
  by_cases hfirst : BeginsLiteral previous c
  · rw [scan_of_beginsLiteral hfirst] at h
    split at h
    · rename_i hliteral
      cases h
      exact .literal hfirst hliteral
    · cases h
  · rw [scan_of_not_beginsLiteral hfirst] at h
    split at h
    · rename_i hc
      cases h
      exact .opening hc
    split at h
    · rename_i hc
      cases h
      exact .closing hc
    split at h
    · cases h
    · rename_i op hop
      cases h
      refine .operator (Operator.ofChar?_eq_some_iff.1 hop) fun hminus => ?_
      exact Bool.eq_false_iff.2 fun hplace => hfirst (.inr ⟨hminus, hplace⟩)

theorem fails_of_scan {e : EvalError} (h : scan previous position c cs = .error e) :
    Fails previous position c cs e := by
  by_cases hfirst : BeginsLiteral previous c
  · rw [scan_of_beginsLiteral hfirst] at h
    split at h
    · cases h
    · rename_i hliteral
      cases h
      exact .literal hfirst (Bool.eq_false_iff.2 hliteral)
  · rw [scan_of_not_beginsLiteral hfirst] at h
    split at h
    · cases h
    split at h
    · cases h
    rename_i hopening hclosing
    split at h
    · rename_i hop
      cases h
      refine .character fun hmem => ?_
      rcases mem_alphabet_iff.1 hmem with hnumber | rfl | rfl | ⟨op, hsome⟩
      · exact hfirst (.inl hnumber)
      · exact hopening rfl
      · exact hclosing rfl
      · rw [hop] at hsome
        cases hsome
    · cases h

theorem Fails.eq_ite {e : EvalError} (h : Fails previous position c cs e) :
    e = if c ∈ alphabet then .numberFormat (c :: cs.takeWhile isNumberChar)
      else .invalidCharacter c position := by
  cases h with
  | literal hfirst => rw [if_pos hfirst.mem_alphabet]
  | character hc => rw [if_neg hc]

end Cases

theorem Scans.number {previous : Option Char} {c : Char} {cs text rest : List Char}
    (h : Scans previous c cs (.number text) rest) :
    isLiteral text = true ∧ ∀ d ∈ rest.head?, isNumberChar d = false := by
  cases h with
  | literal _ hliteral =>
    refine ⟨hliteral, fun d hd => ?_⟩
    have hhead := List.head?_dropWhile_not isNumberChar cs
    rw [Option.mem_def.1 hd] at hhead
    simpa using hhead

end Reckoner
