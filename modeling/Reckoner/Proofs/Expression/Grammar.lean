import Reckoner.Proofs.Expression.Tokens
/-!
The grammar of expressions.

An expression is made of terms with plus and minus between them, a term of factors with times and
divided by between them, and a factor is a literal or an expression in parentheses. The three levels are
numbered by how tightly they bind: an operator of precedence `p` joins a phrase of level `p` on its left
and one of level `p + 1` on its right, so operators of one precedence group to the left.

A phrase is a tree of this grammar. It has lexemes, a text, and a value over any arithmetic: there is
none if somewhere a value is divided by zero.

What is shown here:
1. `Phrase.wellFormed_lexemes`: the lexemes of a phrase fit where an operand may stand;
2. `Phrase.read_text`: the text of an expression reads as its lexemes;
3. `Phrase.value?_eq_none_iff`: a phrase has no value exactly if it divides by zero.
-/

namespace Reckoner

/-- A tree of the grammar: of level 1 an expression, of level 2 a term, of level 3 a factor. -/
inductive Phrase : Nat → Type where
  | number (text : List Char) (literal : isLiteral text = true) : Phrase 3
  | group (e : Phrase 1) : Phrase 3
  /-- A phrase that binds more tightly than it has to. -/
  | single {p : Nat} (e : Phrase (p + 1)) : Phrase p
  | binary {p : Nat} (op : Operator) (h : op.precedence = p) (left : Phrase p)
      (right : Phrase (p + 1)) : Phrase p

/-- A tree of the whole grammar. -/
abbrev Expression := Phrase 1

namespace Phrase

def lexemes {p : Nat} : Phrase p → List Lexeme
  | .number text _ => [.number text]
  | .group e => .opening :: (e.lexemes ++ [.closing])
  | .single e => e.lexemes
  | .binary op _ left right => left.lexemes ++ .operator op :: right.lexemes

/-- The text of a phrase, without white space. -/
def text {p : Nat} (e : Phrase p) : List Char := Lexeme.texts e.lexemes

section Value
variable {α : Type} (A : Arithmetic α)

/-- The value of a phrase, unless a value is divided by zero in it. -/
def value? {p : Nat} : Phrase p → Option α
  | .number text _ => some (A.literal text)
  | .group e => e.value?
  | .single e => e.value?
  | .binary op _ left right =>
    match left.value?, right.value? with
    | some x, some y => if op = .div ∧ A.isZero y = true then none else some (A.operation op x y)
    | _, _ => none

/-- Somewhere in a phrase a value is divided by a value that is zero. -/
def DividesByZero {p : Nat} : Phrase p → Prop
  | .number _ _ => False
  | .group e => e.DividesByZero
  | .single e => e.DividesByZero
  | .binary op _ left right =>
    left.DividesByZero ∨ right.DividesByZero ∨
      (op = .div ∧ ∃ x y, left.value? A = some x ∧ right.value? A = some y ∧ A.isZero y = true)

theorem value?_binary {p : Nat} {op : Operator} {h : op.precedence = p} {left : Phrase p}
    {right : Phrase (p + 1)} {x y : α} (hx : left.value? A = some x) (hy : right.value? A = some y) :
    (Phrase.binary op h left right).value? A =
      if op = .div ∧ A.isZero y = true then none else some (A.operation op x y) := by
  simp only [value?, hx, hy]

theorem value?_eq_none_iff {p : Nat} (e : Phrase p) : e.value? A = none ↔ e.DividesByZero A := by
  induction e with
  | number text h => simp [value?, DividesByZero]
  | group e ih => exact ih
  | single e ih => exact ih
  | binary op h left right ihl ihr =>
    cases hl : left.value? A with
    | none =>
      have : left.DividesByZero A := ihl.1 hl
      simp [value?, DividesByZero, hl, this]
    | some x =>
      have hleft : ¬left.DividesByZero A := by
        rw [← ihl, hl]
        exact Option.some_ne_none x
      cases hr : right.value? A with
      | none =>
        have : right.DividesByZero A := ihr.1 hr
        simp [value?, DividesByZero, hl, hr, this]
      | some y =>
        have hright : ¬right.DividesByZero A := by
          rw [← ihr, hr]
          exact Option.some_ne_none y
        rw [value?_binary A hl hr]
        simp [DividesByZero, hl, hr, hleft, hright]

end Value

/-! ## Texts of phrases -/

/-- Where a minus is a sign the lexemes of a phrase fit, if behind them there is what fits behind the
last lexeme of an operand. -/
theorem wellFormed_lexemes {p : Nat} (e : Phrase p) {previous : Option Lexeme} {rest : List Lexeme}
    (hprev : Lexeme.signFollows previous = true)
    (hrest : ∀ l, l.endsOperand = true → Lexeme.WellFormed (some l) rest) :
    Lexeme.WellFormed previous (e.lexemes ++ rest) := by
  induction e generalizing previous rest with
  | number text literal =>
    refine ⟨⟨literal, ?_, fun _ => hprev⟩, hrest _ rfl⟩
    rintro l hl t rfl
    obtain rfl : previous = some (.number t) := hl
    cases hprev
  | group e ih =>
    rw [lexemes, List.cons_append, List.append_assoc]
    exact ⟨trivial, ih rfl fun _ _ => ⟨trivial, hrest .closing rfl⟩⟩
  | single e ih => exact ih hprev hrest
  | binary op h left right ihl ihr =>
    rw [lexemes, List.append_assoc]
    refine ihl hprev fun l hl => ⟨fun _ => ?_, ihr rfl hrest⟩
    simp [Lexeme.signFollows, hl]

/-- The text of an expression reads as its lexemes. -/
theorem read_text (e : Expression) : Reading.read e.text = ⟨Reading.place 0 e.lexemes, none⟩ := by
  have hwf : Lexeme.WellFormed none (e.lexemes ++ []) :=
    e.wellFormed_lexemes rfl fun _ _ => trivial
  rw [List.append_nil] at hwf
  exact Reading.read_texts hwf

/-- A signed literal may stand behind an operator. -/
example :
    (Phrase.binary .sub rfl (.single (.single (.number ['5'] rfl)))
      (.single (.number ['-', '3'] rfl))).text = "5--3".toList := by decide

end Phrase

end Reckoner
