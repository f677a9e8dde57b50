import Reckoner.Proofs.Binary64.WholeNumber
import Reckoner.Proofs.Expression.Reentry
import Reckoner.Proofs.Expression.Value
/-!
Expressions over the integers.

Digits, plus, minus, times and parentheses give an expression a value in the integers. If neither a
literal nor a value on the way to it is greater than `2 ^ 53`, no operation rounds, and the result is the
decimal digits of that integer. A phrase is followed by its structure: the number computed for it equals
its integer, whatever sign a zero among them has.

What is shown here:
1. `Phrase.exists_value?_of_integer?`: the value of a phrase equals its integer;
2. `evaluate_integer`: the result of an expression is its integer in decimal digits.
-/

namespace Reckoner

open Binary64

/-! ## Integers of literals -/

/-- The integer that a literal without a point is. -/
def literalInteger? : List Char → Option Int
  | '-' :: cs => if cs.all Char.isDigit then some (-(Text.digitsValue cs : Int)) else none
  | cs => if cs.all Char.isDigit then some (Text.digitsValue cs) else none

theorem literalInteger?_signText {c : Char} (hc : isNumberChar c = true) (negative : Bool)
    (cs : List Char) :
    literalInteger? (Text.signText negative ++ c :: cs) =
      if (c :: cs).all Char.isDigit then
        some (if negative then -(Text.digitsValue (c :: cs) : Int) else Text.digitsValue (c :: cs))
      else none := by
  cases negative with
  | true => rfl
  | false =>
    rw [Text.signText_false_append, literalInteger?]
    · rfl
    · rintro ds heq
      cases heq
      exact absurd hc (by decide)

theorem exists_signText_of_isLiteral {text : List Char} (h : isLiteral text = true) :
    ∃ negative c cs, text = Text.signText negative ++ c :: cs ∧ isNumberChar c = true ∧
      isNumeral (c :: cs) = true := by
  rcases isLiteral_cases h with hnumeral | ⟨ds, rfl, hnumeral⟩
  · obtain ⟨c, cs, rfl, hc⟩ := exists_cons_of_isNumeral hnumeral
    exact ⟨false, c, cs, rfl, hc, hnumeral⟩
  · obtain ⟨c, cs, rfl, hc⟩ := exists_cons_of_isNumeral hnumeral
    exact ⟨true, c, cs, rfl, hc, hnumeral⟩

theorem Binary64.isInteger_ofLiteral {text : List Char} {n : Int} (h : isLiteral text = true)
    (hinteger : literalInteger? text = some n) (hbound : n.natAbs ≤ 2 ^ 53) :
    (ofLiteral text).IsInteger n := by
  obtain ⟨negative, c, cs, rfl, hc, -⟩ := exists_signText_of_isLiteral h
  rw [literalInteger?_signText hc] at hinteger
  split at hinteger
  · rename_i hdigits
    cases hinteger
    have hvalue : Text.digitsValue (c :: cs) ≤ 2 ^ 53 := by
      cases negative with
      | true => simpa using hbound
      | false => exact hbound
    obtain ⟨m, hm, hunits⟩ := exists_ofDecimal_digits (List.all_eq_true.1 hdigits)
      (List.cons_ne_nil c cs) hvalue negative
    rw [ofLiteral_signText hc]
    exact isInteger_iff.2 ⟨negative, m, hm, _, hunits, rfl⟩
  · cases hinteger

/-! ## Integers of phrases -/

/-- The operation of an operator on integers; a division is none. -/
def Operator.onIntegers? : Operator → Int → Int → Option Int
  | .add, a, b => some (a + b)
  | .sub, a, b => some (a - b)
  | .mul, a, b => some (a * b)
  | .div, _, _ => none

namespace Phrase

/-- The integer that a phrase is, if all its literals are integers and nothing is divided in it. -/
def integer? {p : Nat} : Phrase p → Option Int
  | .number text _ => literalInteger? text
  | .group e => e.integer?
  | .single e => e.integer?
  | .binary op _ left right => left.integer?.bind fun a => right.integer?.bind (op.onIntegers? a)

/-- No integer in a phrase, of a literal or of a part, has an absolute value beyond a bound. -/
def StaysWithin (bound : Nat) {p : Nat} : Phrase p → Prop
  | .number text _ => ∀ n ∈ literalInteger? text, n.natAbs ≤ bound
  | .group e => e.StaysWithin bound
  | .single e => e.StaysWithin bound
  | .binary op h left right =>
    left.StaysWithin bound ∧ right.StaysWithin bound ∧
      ∀ n ∈ (Phrase.binary op h left right).integer?, n.natAbs ≤ bound

instance decidableStaysWithin (bound : Nat) :
    {p : Nat} → (e : Phrase p) → Decidable (e.StaysWithin bound)
  | _, .number text _ => inferInstanceAs (Decidable (∀ n ∈ literalInteger? text, n.natAbs ≤ bound))
  | _, .group e => decidableStaysWithin bound e
  | _, .single e => decidableStaysWithin bound e
  | _, .binary op h left right =>
    have := decidableStaysWithin bound left
    have := decidableStaysWithin bound right
    inferInstanceAs (Decidable (left.StaysWithin bound ∧ right.StaysWithin bound ∧
      ∀ n ∈ (Phrase.binary op h left right).integer?, n.natAbs ≤ bound))

/-! ## Texts -/

theorem text_group (e : Phrase 1) : text (.group e) = ['('] ++ (e.text ++ [')']) := by
  simp [text, lexemes, Lexeme.texts, Lexeme.text]

theorem text_binary {p : Nat} (op : Operator) (h : op.precedence = p) (left : Phrase p)
    (right : Phrase (p + 1)) :
    text (.binary op h left right) = left.text ++ ([op.symbol] ++ right.text) := by
  simp [text, lexemes, Lexeme.texts, Lexeme.text]

theorem form_text {p : Nat} (e : Phrase p) : Normal.form e.text = e.text := by
  induction e with
  | number text literal =>
    rw [Phrase.text, lexemes, Lexeme.texts, List.flatMap_singleton, Lexeme.text]
    obtain ⟨negative, c, cs, rfl, -, hnumeral⟩ := exists_signText_of_isLiteral literal
    exact form_signText negative (isNumberChar_of_isNumeral hnumeral)
  | group e ih =>
    have hopening : Normal.form ['('] = ['('] := Normal.form_singleton (by decide)
    have hclosing : Normal.form [')'] = [')'] := Normal.form_singleton (by decide)
    rw [text_group, Normal.form_append, Normal.form_append, hopening, ih, hclosing]
  | single e ih => exact ih
  | binary op h left right ihl ihr =>
    have hsymbol : Normal.form [op.symbol] = [op.symbol] :=
      Normal.form_singleton (by cases op <;> decide)
    rw [text_binary, Normal.form_append, Normal.form_append, ihl, hsymbol, ihr]

theorem text_ne_nil {p : Nat} (e : Phrase p) : e.text ≠ [] := by
  induction e with
  | number text literal =>
    rw [Phrase.text, lexemes, Lexeme.texts, List.flatMap_singleton, Lexeme.text]
    rintro rfl
    exact absurd literal (by decide)
  | group e ih => simp [text_group]
  | single e ih => exact ih
  | binary op h left right ihl ihr => simp [text_binary]

end Phrase

/-- What the machine says of the text of an expression that has a value: at the end nothing waits, and
the value is all that is left. -/
theorem Arithmetic.evaluateText_of_value? {α : Type} (A : Arithmetic α) {e : Expression} {v : α}
    (h : e.value? A = some v) : A.evaluateText e.text = .ok v := by
  have hbelow : Stacks.Below 1 (Stacks.empty (α := α)).pending := by
    simp [Stacks.Below, Stacks.topOperator?, Stacks.empty]
  have hsettled : Stacks.empty.feed A (Stacks.symbolsOf A e) >>= Stacks.settle A 0 = .ok ⟨[v], []⟩ := by
    rw [Stacks.feed_phrase A e (Nat.zero_le 1) hbelow, h]
    rfl
  rw [evaluateText_eq, Phrase.read_text, Reading.symbols_place, ← Stacks.symbolsOf]
  cases hfed : Stacks.empty.feed A (Stacks.symbolsOf A e) with
  | error c =>
    rw [hfed] at hsettled
    cases hsettled
  | ok t =>
    rw [hfed] at hsettled
    show t.finish A = .ok v
    rw [Stacks.finish_eq]
    show (Except.ok t >>= Stacks.settle A 0) >>= Stacks.verdict = _
    rw [hsettled]
    rfl

/-! ## Values that are integers -/

namespace Binary64

theorem isInteger_operation {op : Operator} {x y : Binary64} {a b n : Int} (hx : x.IsInteger a)
    (hy : y.IsInteger b) (h : op.onIntegers? a b = some n) (hbound : n.natAbs ≤ 2 ^ 53) :
    op ≠ .div ∧ (arithmetic.operation op x y).IsInteger n := by
  cases op with
  | add =>
    cases h
    exact ⟨nofun, hx.add hy hbound⟩
  | sub =>
    cases h
    exact ⟨nofun, hx.sub hy hbound⟩
  | mul =>
    cases h
    exact ⟨nofun, hx.mul hy hbound⟩
  | div => cases h

end Binary64

/-- The value of a phrase equals its integer, if that and all on the way to it is within `2 ^ 53`. -/
theorem Phrase.exists_value?_of_integer? {p : Nat} {e : Phrase p} {n : Int} (h : e.integer? = some n)
    (hbound : e.StaysWithin (2 ^ 53)) : ∃ x, e.value? arithmetic = some x ∧ x.IsInteger n := by
  induction e generalizing n with
  | number text literal => exact ⟨_, rfl, isInteger_ofLiteral literal h (hbound n h)⟩
  | group e ih => exact ih h hbound
  | single e ih => exact ih h hbound
  | binary op hop left right ihl ihr =>
    obtain ⟨hboundl, hboundr, hboundn⟩ := hbound
    -- the bound on the whole is needed as well: it keeps the operation itself exact
    have hn := hboundn n h
    obtain ⟨a, ha, h⟩ := Option.bind_eq_some_iff.1 h
    obtain ⟨b, hb, h⟩ := Option.bind_eq_some_iff.1 h
    obtain ⟨x, hx, hxa⟩ := ihl ha hboundl
    obtain ⟨y, hy, hyb⟩ := ihr hb hboundr
    obtain ⟨hdiv, hvalue⟩ := isInteger_operation hxa hyb h hn
    refine ⟨_, ?_, hvalue⟩
    rw [value?_binary arithmetic hx hy, if_neg fun hzero => hdiv hzero.1]

/-- An expression of integers, plus, minus, times and parentheses, in which no literal and no part is
beyond `2 ^ 53`, has its exact integer as the result, in decimal digits. -/
theorem evaluate_integer {e : Expression} {n : Int} (h : e.integer? = some n)
    (hbound : e.StaysWithin (2 ^ 53)) :
    evaluate (String.ofList e.text) = .ok (Text.integerText n) ∧
      Text.IsInteger (Text.integerText n).toList n := by
  obtain ⟨x, hx, hinteger⟩ := Phrase.exists_value?_of_integer? h hbound
  have hform : Normal.form (String.ofList e.text).toList = e.text := by
    rw [String.toList_ofList, e.form_text]
  refine ⟨?_, Text.isInteger_integerText n⟩
  rw [evaluate_of_form hform e.text_ne_nil, arithmetic.evaluateText_of_value? hx, Except.map,
    display_of_isInteger hinteger]

/-- A product of `2 ^ 53`, of zero and of minus one is a zero with a sign, and it is shown as zero. -/
theorem evaluate_integer_of_signed_zero :
    let sum : Expression := .binary .sub rfl
      (.binary .sub rfl (.single (.single (.number ['3'] rfl))) (.single (.number ['-', '1'] rfl)))
      (.single (.number ['4'] rfl))
    let product : Expression := .single <| .binary .mul rfl
      (.binary .mul rfl (.single (.number "9007199254740992".toList (by decide))) (.group sum))
      (.number ['-', '1'] rfl)
    product.integer? = some 0 ∧ product.StaysWithin (2 ^ 53) ∧
      evaluate "9007199254740992*(3--1-4)*-1" = .ok "0" := by
  intro sum product
  have hinteger : product.integer? = some 0 := by decide
  have hbound : product.StaysWithin (2 ^ 53) := by decide
  have htext : String.ofList product.text = "9007199254740992*(3--1-4)*-1" := by decide
  have hresult := (evaluate_integer hinteger hbound).1
  rw [htext] at hresult
  exact ⟨hinteger, hbound, hresult⟩

/-- Beyond the bound a literal may be read as the number beside it. -/
example : evaluate "9007199254740993" = .ok "9007199254740992" := eq_ok_of_toOption (by decide +kernel)

end Reckoner
