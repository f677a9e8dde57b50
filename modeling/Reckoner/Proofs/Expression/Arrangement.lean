import Reckoner.Proofs.Expression.Accounting
import Reckoner.Proofs.Expression.Grammar
/-!
Which arrangements of tokens have a value.

The machine looks at heights of stacks and never at neighbours, so it may put an operator to values that
do not stand beside it. Counting tells when it does. Where no two operands touch, there are never more
numbers than one for each operator and one for the beginning, and there are as many only if operands and
operators alternate; lexemes that alternate, with parentheses that match, are those of an expression.
So of the texts with a value and without stray parentheses the grammar misses only those in which two
operands touch, and there are such texts: `1(+2)` has the value 3.

What is shown here:
1. `Lexeme.alternates_of_count`: operands and operators alternate if no operands touch and there is one
   number more than operators;
2. `Lexeme.Arranged.beginsWithExpression`: lexemes that alternate and match begin with an expression;
3. `derivable_iff_of_value`: a text with a value derives from the grammar exactly if no operands touch;
4. `value_of_touching_operands`: there is a text with a value that does not derive from the grammar.
-/

namespace Reckoner

namespace Lexeme

/-- Operands and operators alternate: where an operand is expected one begins, and elsewhere none does. -/
def Alternates (expectsOperand : Bool) : List Lexeme → Prop
  | [] => expectsOperand = false
  | l :: ls => l.beginsOperand = expectsOperand ∧ Alternates (!l.endsOperand) ls

instance decidableAlternates : (b : Bool) → (ls : List Lexeme) → Decidable (Alternates b ls)
  | b, [] => inferInstanceAs (Decidable (b = false))
  | b, l :: ls =>
    have := decidableAlternates (!l.endsOperand) ls
    inferInstanceAs (Decidable (l.beginsOperand = b ∧ Alternates (!l.endsOperand) ls))

/-- No operand begins where none is expected. -/
def Separated (expectsOperand : Bool) : List Lexeme → Prop
  | [] => True
  | l :: ls => (l.beginsOperand = true → expectsOperand = true) ∧ Separated (!l.endsOperand) ls

/-- Somewhere two operands touch: an operator is missing between them. -/
def OperandsTouch (ls : List Lexeme) : Prop :=
  ∃ before l m after, ls = before ++ l :: m :: after ∧ l.endsOperand = true ∧ m.beginsOperand = true

/-! ## Counting -/

theorem count_le_of_separated {b : Bool} {ls : List Lexeme} (h : Separated b ls) :
    ls.countP isNumber ≤ ls.countP isOperator + b.toNat := by
  induction ls generalizing b with
  | nil => simp
  | cons l ls ih =>
    obtain ⟨hl, hls⟩ := h
    have := ih hls
    rw [List.countP_cons, List.countP_cons]
    cases l with
    | number text =>
      obtain rfl : b = true := hl rfl
      simp [isNumber, isOperator, endsOperand] at this ⊢
      omega
    | operator op =>
      simp [isNumber, isOperator, endsOperand] at this ⊢
      omega
    | opening =>
      obtain rfl : b = true := hl rfl
      simpa [isNumber, isOperator, endsOperand] using this
    | closing =>
      simp [isNumber, isOperator, endsOperand] at this ⊢
      omega

/-- Operands and operators alternate if no operands touch and the numbers are as many as they can be. -/
theorem alternates_of_count {b : Bool} {ls : List Lexeme} (h : Separated b ls)
    (hcount : ls.countP isNumber = ls.countP isOperator + b.toNat) : Alternates b ls := by
  induction ls generalizing b with
  | nil =>
    cases b with
    | false => rfl
    | true => simp at hcount
  | cons l ls ih =>
    obtain ⟨hl, hls⟩ := h
    have hle := count_le_of_separated hls
    rw [List.countP_cons, List.countP_cons] at hcount
    cases l with
    | number text =>
      obtain rfl : b = true := hl rfl
      refine ⟨rfl, ih hls ?_⟩
      simp [isNumber, isOperator, endsOperand] at hcount ⊢
      exact hcount
    | operator op =>
      simp [isNumber, isOperator, endsOperand] at hcount hle
      cases b with
      | true =>
        simp at hcount
        omega
      | false =>
        refine ⟨rfl, ih hls ?_⟩
        simpa [endsOperand] using hcount
    | opening =>
      obtain rfl : b = true := hl rfl
      refine ⟨rfl, ih hls ?_⟩
      simpa [isNumber, isOperator, endsOperand] using hcount
    | closing =>
      simp [isNumber, isOperator, endsOperand] at hcount hle
      cases b with
      | true =>
        simp at hcount
        omega
      | false =>
        refine ⟨rfl, ih hls ?_⟩
        simpa [endsOperand] using hcount

/-! ## Neighbours -/

theorem Alternates.neighbours {b : Bool} {before after : List Lexeme} {l m : Lexeme}
    (h : Alternates b (before ++ l :: m :: after)) : m.beginsOperand = !l.endsOperand := by
  induction before generalizing b with
  | nil => exact h.2.1
  | cons k before ih => exact ih h.2

theorem Alternates.not_operandsTouch {b : Bool} {ls : List Lexeme} (h : Alternates b ls) :
    ¬OperandsTouch ls := by
  rintro ⟨before, l, m, after, rfl, hl, hm⟩
  have := h.neighbours
  rw [hl, hm] at this
  cases this

theorem OperandsTouch.cons {l : Lexeme} {ls : List Lexeme} (h : OperandsTouch ls) :
    OperandsTouch (l :: ls) := by
  obtain ⟨before, k, m, after, rfl, hk, hm⟩ := h
  exact ⟨l :: before, k, m, after, rfl, hk, hm⟩

theorem separated_tail {l : Lexeme} {ls : List Lexeme} (h : ¬OperandsTouch (l :: ls)) :
    Separated (!l.endsOperand) ls := by
  induction ls generalizing l with
  | nil => trivial
  | cons m ls ih =>
    refine ⟨fun hm => ?_, ih fun ht => h ht.cons⟩
    cases hl : l.endsOperand with
    | false => rfl
    | true => exact absurd ⟨[], l, m, ls, rfl, hl, hm⟩ h

theorem separated_of_not_operandsTouch {ls : List Lexeme} (h : ¬OperandsTouch ls) :
    Separated true ls := by
  cases ls with
  | nil => trivial
  | cons l ls => exact ⟨fun _ => rfl, separated_tail h⟩

end Lexeme

/-! ## Expressions from lexemes -/

namespace Phrase

/-- The lexemes of an expression alternate, and so do they with what follows the expression. -/
theorem alternates_append {p : Nat} (e : Phrase p) {rest : List Lexeme}
    (h : Lexeme.Alternates false rest) : Lexeme.Alternates true (e.lexemes ++ rest) := by
  induction e generalizing rest with
  | number text literal => exact ⟨rfl, h⟩
  | group e ih =>
    rw [lexemes, List.cons_append, List.append_assoc]
    exact ⟨rfl, ih ⟨rfl, h⟩⟩
  | single e ih => exact ih h
  | binary op hop left right ihl ihr =>
    rw [lexemes, List.append_assoc]
    exact ihl ⟨rfl, ihr h⟩

theorem alternates_lexemes {p : Nat} (e : Phrase p) : Lexeme.Alternates true e.lexemes := by
  have hend : Lexeme.Alternates false [] := rfl
  have h := e.alternates_append hend
  rwa [List.append_nil] at h

theorem exists_lift (f : Phrase 3) {p : Nat} (h : p ≤ 3) : ∃ e : Phrase p, e.lexemes = f.lexemes := by
  obtain ⟨k, hk⟩ := Nat.exists_eq_add_of_le h
  induction k generalizing p with
  | zero =>
    obtain rfl : 3 = p := hk
    exact ⟨f, rfl⟩
  | succ k ih =>
    obtain ⟨e, he⟩ := ih (p := p + 1) (by omega) (by omega)
    exact ⟨.single e, he⟩

/-- A factor and an operator can be put before a phrase whose level the operator allows: they join the
leftmost operand that binds more tightly than the operator. -/
theorem exists_prepend (f : Phrase 3) (op : Operator) {p : Nat} (e : Phrase p)
    (h : p ≤ op.precedence) :
    ∃ e' : Phrase p, e'.lexemes = f.lexemes ++ .operator op :: e.lexemes := by
  have hop : op.precedence < 3 := by cases op <;> decide
  induction e with
  -- no operator binds as tightly as a factor
  | number text literal => omega
  | group e ih => omega
  | @single p e ih =>
    rcases Nat.lt_or_eq_of_le h with hlt | heq
    · obtain ⟨e', he'⟩ := ih hlt
      exact ⟨.single e', he'⟩
    · obtain ⟨left, hleft⟩ := f.exists_lift (p := p) (by omega)
      refine ⟨.binary op heq.symm left e, ?_⟩
      show left.lexemes ++ .operator op :: e.lexemes = f.lexemes ++ .operator op :: e.lexemes
      rw [hleft]
  | binary op' hop' left right ihl ihr =>
    obtain ⟨left', hleft⟩ := ihl h
    exact ⟨.binary op' hop' left' right, by rw [lexemes, hleft, lexemes]; simp⟩

end Phrase

namespace Lexeme

/-- Lexemes that alternate, that close as many parentheses as are open before them and leave none open,
and whose numbers are literals. -/
structure Arranged (depth : Nat) (expectsOperand : Bool) (ls : List Lexeme) : Prop where
  alternates : Alternates expectsOperand ls
  closed : (Matching.mk depth 0).after (ls.filterMap Bracket.ofLexeme?) = ⟨0, 0⟩
  literals : ∀ text, .number text ∈ ls → isLiteral text = true

namespace Arranged

variable {depth : Nat} {b : Bool} {ls : List Lexeme}

theorem literals_tail {l : Lexeme} (h : Arranged depth b (l :: ls)) :
    ∀ text, .number text ∈ ls → isLiteral text = true :=
  fun text ht => h.literals text (List.mem_cons_of_mem _ ht)

theorem number {text : List Char} (h : Arranged depth b (.number text :: ls)) :
    Arranged depth false ls := ⟨h.alternates.2, h.closed, h.literals_tail⟩

theorem operator {op : Operator} (h : Arranged depth b (.operator op :: ls)) :
    Arranged depth true ls := ⟨h.alternates.2, h.closed, h.literals_tail⟩

theorem opening (h : Arranged depth b (.opening :: ls)) : Arranged (depth + 1) true ls :=
  ⟨h.alternates.2, h.closed, h.literals_tail⟩

theorem closing (h : Arranged depth b (.closing :: ls)) :
    ∃ d, depth = d + 1 ∧ Arranged d false ls := by
  cases depth with
  | zero =>
    have hstray := Matching.stray_le_after ⟨0, 1⟩ (ls.filterMap Bracket.ofLexeme?)
    have hclosed : (Matching.mk 0 1).after (ls.filterMap Bracket.ofLexeme?) = ⟨0, 0⟩ := h.closed
    rw [hclosed] at hstray
    exact absurd hstray (by decide)
  | succ d => exact ⟨d, rfl, h.alternates.2, h.closed, h.literals_tail⟩

end Arranged

/-- An expression, and behind it the end or a parenthesis that closes an earlier one. -/
def BeginsWithExpression (depth : Nat) (ls : List Lexeme) : Prop :=
  ∃ (e : Expression) (rest : List Lexeme), ls = e.lexemes ++ rest ∧
    ((rest = [] ∧ depth = 0) ∨
      ∃ after d, rest = .closing :: after ∧ depth = d + 1 ∧ Arranged d false after)

theorem beginsWithExpression_factor {depth : Nat} (f : Phrase 3) {ls : List Lexeme}
    (h : Arranged depth false ls)
    (ih : ∀ ms : List Lexeme, ms.length < ls.length → Arranged depth true ms →
      BeginsWithExpression depth ms) :
    BeginsWithExpression depth (f.lexemes ++ ls) := by
  obtain ⟨e, he⟩ := f.exists_lift (p := 1) (by decide)
  cases ls with
  | nil =>
    have hdepth : depth = 0 := congrArg Matching.unclosed h.closed
    exact ⟨e, [], by rw [he], .inl ⟨rfl, hdepth⟩⟩
  | cons l ms =>
    cases l with
    | number text => cases h.alternates.1
    | opening => cases h.alternates.1
    | closing =>
      obtain ⟨d, hd, hms⟩ := h.closing
      exact ⟨e, .closing :: ms, by rw [he], .inr ⟨ms, d, rfl, hd, hms⟩⟩
    | operator op =>
      obtain ⟨e', rest, rfl, hrest⟩ := ih ms (Nat.lt_succ_self _) h.operator
      obtain ⟨joined, hjoined⟩ := f.exists_prepend op e' (by cases op <;> decide)
      exact ⟨joined, rest, by rw [hjoined]; simp, hrest⟩

theorem Arranged.beginsWithExpression {depth : Nat} {ls : List Lexeme}
    (h : Arranged depth true ls) : BeginsWithExpression depth ls := by
  induction hn : ls.length using Nat.strongRecOn generalizing depth ls with
  | ind n ih =>
    subst hn
    cases ls with
    | nil => cases h.alternates
    | cons l ms =>
      cases l with
      | number text =>
        have hlit : isLiteral text = true := h.literals text List.mem_cons_self
        refine beginsWithExpression_factor (.number text hlit) h.number fun ks hks hk => ?_
        exact ih ks.length (Nat.lt_succ_of_lt hks) hk rfl
      | opening =>
        -- the expression inside ends at the parenthesis that closes this one
        obtain ⟨e, rest, rfl, hrest⟩ := ih ms.length (Nat.lt_succ_self _) h.opening rfl
        rcases hrest with ⟨-, hzero⟩ | ⟨after, d, rfl, hd, hafter⟩
        · cases hzero
        · obtain rfl : depth = d := Nat.succ.inj hd
          have hgroup : (Lexeme.opening :: (e.lexemes ++ .closing :: after)) =
              (Phrase.group e).lexemes ++ after := by
            rw [Phrase.lexemes, List.cons_append, List.append_assoc]
            rfl
          rw [hgroup]
          refine beginsWithExpression_factor (.group e) hafter fun ks hks hk => ?_
          refine ih ks.length ?_ hk rfl
          simp only [List.length_cons, List.length_append]
          omega
      | operator op => cases h.alternates.1
      | closing => cases h.alternates.1

theorem Arranged.exists_expression {ls : List Lexeme} (h : Arranged 0 true ls) :
    ∃ e : Expression, ls = e.lexemes := by
  obtain ⟨e, rest, rfl, hrest⟩ := h.beginsWithExpression
  rcases hrest with ⟨rfl, -⟩ | ⟨after, d, -, hd, -⟩
  · exact ⟨e, List.append_nil _⟩
  · cases hd

end Lexeme

/-! ## Texts with a value -/

/-- A text derives from the grammar: it is read to its end, and its lexemes are those of an expression. -/
def Derivable (cs : List Char) : Prop :=
  (Reading.read cs).stoppedBy = none ∧ ∃ e : Expression, (Reading.read cs).lexemes = e.lexemes

theorem Derivable.not_operandsTouch {cs : List Char} (h : Derivable cs) :
    ¬Lexeme.OperandsTouch (Reading.read cs).lexemes := by
  obtain ⟨-, e, he⟩ := h
  rw [he]
  exact e.alternates_lexemes.not_operandsTouch

/-- A text without stray parentheses that has a value derives from the grammar exactly if no two
operands touch in it. In any case there is one number more than operators in it, and every opening
parenthesis is closed. -/
theorem derivable_iff_of_value {α : Type} {A : Arithmetic α} {cs : List Char} {v : α}
    (hstray : (Matching.ofText cs).stray = 0) (h : A.evaluateText cs = .ok v) :
    (Derivable cs ↔ ¬Lexeme.OperandsTouch (Reading.read cs).lexemes) ∧
      (Reading.read cs).lexemes.countP Lexeme.isNumber =
        (Reading.read cs).lexemes.countP Lexeme.isOperator + 1 ∧
      (Matching.ofText cs).unclosed = 0 := by
  obtain ⟨hcount, hclosed⟩ := account_of_value h
  refine ⟨⟨Derivable.not_operandsTouch, fun htouch => ?_⟩, hcount, hclosed⟩
  have hcomplete := (complete_of_value h).1
  have harranged : Lexeme.Arranged 0 true (Reading.read cs).lexemes := by
    refine ⟨?_, ?_, fun text => Reading.isLiteral_of_mem_lexemes⟩
    · exact Lexeme.alternates_of_count (Lexeme.separated_of_not_operandsTouch htouch) hcount
    · rw [← Reading.brackets_of_complete hcomplete]
      exact Matching.ext hclosed hstray
  exact ⟨hcomplete, harranged.exists_expression⟩

theorem derivable_product_of_group :
    (Matching.ofText "2*(3-1)".toList).stray = 0 ∧
      Binary64.arithmetic.evaluateText "2*(3-1)".toList = .ok (Binary64.ofNat 4) ∧
      Derivable "2*(3-1)".toList := by
  have hstray : (Matching.ofText "2*(3-1)".toList).stray = 0 := by decide
  have hvalue : Binary64.arithmetic.evaluateText "2*(3-1)".toList = .ok (Binary64.ofNat 4) :=
    eq_ok_of_toOption (by decide +kernel)
  have halternates : Lexeme.Alternates true (Reading.read "2*(3-1)".toList).lexemes := by
    decide +kernel
  exact ⟨hstray, hvalue,
    (derivable_iff_of_value hstray hvalue).1.2 halternates.not_operandsTouch⟩

/-- In `1(+2)` the operator takes an operand from outside its parentheses: the text has a value and
does not derive from the grammar. -/
theorem value_of_touching_operands :
    (Matching.ofText "1(+2)".toList).stray = 0 ∧
      Binary64.arithmetic.evaluateText "1(+2)".toList = .ok (Binary64.ofNat 3) ∧
      ¬Derivable "1(+2)".toList := by
  refine ⟨by decide, eq_ok_of_toOption (by decide +kernel), fun hd => hd.not_operandsTouch ?_⟩
  have hlexemes : (Reading.read "1(+2)".toList).lexemes =
      [.number ['1'], .opening, .operator .add, .number ['2'], .closing] := by
    decide +kernel
  exact ⟨[], _, _, _, hlexemes, rfl, rfl⟩

end Reckoner
