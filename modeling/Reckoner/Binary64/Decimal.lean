import Reckoner.Binary64.Basic
import Reckoner.Text.WholeNumber
/-!
Decimals, and reading them as binary64 numbers.

A decimal is a whole coefficient times a power of ten. Reading one rounds its exact value once. The
texts read here are the literals of expressions (an optional sign, digits and at most one point) and
the general form of a number with an optional power of ten.
-/

namespace Reckoner

/-- The number `coefficient * 10 ^ exponent`. -/
structure Decimal where
  coefficient : Nat
  exponent : Int
  deriving DecidableEq

/-- The characters of which a numeral is made. -/
def isNumberChar (c : Char) : Bool := c.isDigit || c == '.'

/-- Whether characters are a numeral: digits, at least one, and at most one point. -/
def isNumeral (cs : List Char) : Bool :=
  cs.all isNumberChar && cs.any Char.isDigit && decide (cs.count '.' ≤ 1)

namespace Decimal

/-- Digits with at most one point among them: the digits after the point lower the exponent. -/
def ofDigits (cs : List Char) : Decimal :=
  let wholePart := cs.takeWhile (· ≠ '.')
  let fraction := (cs.dropWhile (· ≠ '.')).drop 1
  ⟨Text.digitsValue (wholePart ++ fraction), -(fraction.length : Int)⟩

/-- The same number with a further power of ten. -/
def scale (d : Decimal) (k : Int) : Decimal := ⟨d.coefficient, d.exponent + k⟩

end Decimal

namespace Binary64

/-- The number nearest to a decimal. -/
def ofDecimal (negative : Bool) (d : Decimal) : Binary64 :=
  if 0 ≤ d.exponent then
    ofQuotient negative (d.coefficient * Nat.pow 10 d.exponent.toNat * Magnitude.one) 1
  else ofQuotient negative (d.coefficient * Magnitude.one) (Nat.pow 10 (-d.exponent).toNat)

/-- The value of a literal: an optional minus, then digits with at most one point. -/
def ofLiteral : List Char → Binary64
  | '-' :: cs => ofDecimal true (.ofDigits cs)
  | cs => ofDecimal false (.ofDigits cs)

/-- A decimal of `length` digits whose exponent lies beyond these bounds is read as an infinity or a
zero, so a written exponent may be cut to them. -/
def cutExponent (length : Nat) (e : Int) : Int :=
  max (-(length + 400 : Int)) (min 400 e)

/-- A written power of ten: an optional sign and at least one digit. -/
def exponent? : List Char → Option Int
  | '-' :: cs => if cs ≠ [] ∧ cs.all Char.isDigit then some (-(Text.digitsValue cs : Int)) else none
  | '+' :: cs => if cs ≠ [] ∧ cs.all Char.isDigit then some (Text.digitsValue cs) else none
  | cs => if cs ≠ [] ∧ cs.all Char.isDigit then some (Text.digitsValue cs) else none

/-- A number without its sign: a word for infinity or for what is not a number, or digits with an
optional power of ten. -/
def unsigned? (negative : Bool) (cs : List Char) : Option Binary64 :=
  match String.ofList (cs.map Char.toLower) with
  | "inf" | "infinity" => some (.infinite negative)
  | "nan" => some .nan
  | _ =>
    let digits := cs.takeWhile (fun c => c ≠ 'e' ∧ c ≠ 'E')
    let power := (cs.dropWhile (fun c => c ≠ 'e' ∧ c ≠ 'E'))
    if isNumeral digits then
      match power with
      | [] => some (ofDecimal negative (.ofDigits digits))
      | _ :: written =>
        (exponent? written).map fun e =>
          let d := (Decimal.ofDigits digits).scale e
          ofDecimal negative ⟨d.coefficient, cutExponent digits.length d.exponent⟩
    else none

/-- The number that a text denotes: an optional sign, then a word for infinity or for what is not a
number, or digits with at most one point and an optional power of ten. -/
def ofText? (s : String) : Option Binary64 :=
  match s.toList with
  | '-' :: cs => unsigned? true cs
  | '+' :: cs => unsigned? false cs
  | cs => unsigned? false cs

end Binary64

end Reckoner
