import Reckoner.Binary64.Shortest
/-!
How numbers are written.

The decimal chosen for a number is laid out with a point for decimal exponents from -4 to 15, always
with a digit on both sides of the point, and otherwise with one digit before the point and a power of
ten of at least two digits. A result is shown in full when it is whole, and laid out otherwise.
-/

namespace Reckoner

/-- The decisions of a number format: the decimal exponents of the leading digit that are written
with a point only, and how many digits a written power of ten has at least. -/
structure Layout where
  leastPlain : Int
  greatestPlain : Int
  powerDigits : Nat

/-- Exponents from -4 to 15 are written with a point only; a power of ten has two digits or more. -/
def Layout.standard : Layout := ⟨-4, 15, 2⟩

namespace Layout

/-- Digits without the zeros at their end. -/
def trimZeros (ds : List Char) : List Char := (ds.reverse.dropWhile (· == '0')).reverse

/-- Digits with a point after the first `k`, at least one digit standing on either side. -/
def withPoint (ds : List Char) (k : Int) : List Char :=
  if k ≤ 0 then '0' :: '.' :: (List.replicate (-k).toNat '0' ++ ds)
  else
    let n := k.toNat
    if ds.length ≤ n then ds ++ List.replicate (n - ds.length) '0' ++ ['.', '0']
    else ds.take n ++ '.' :: ds.drop n

/-- A power of ten: its sign and at least so many digits. -/
def power (f : Layout) (e : Int) : List Char :=
  'e' :: (if e < 0 then '-' else '+') :: Text.paddedDigits f.powerDigits e.natAbs

/-- Digits in scientific form: one before the point, and no point if that is the only one. -/
def scientific (f : Layout) (ds : List Char) (e : Int) : List Char :=
  match ds with
  | [] => []
  | [c] => c :: f.power e
  | c :: rest => c :: '.' :: rest ++ f.power e

/-- A decimal that is not zero, laid out. -/
def write (f : Layout) (d : Decimal) : List Char :=
  let all := Text.decimalDigits d.coefficient
  let leading : Int := all.length + d.exponent - 1
  let ds := trimZeros all
  if f.leastPlain ≤ leading ∧ leading ≤ f.greatestPlain then withPoint ds (leading + 1)
  else f.scientific ds leading

end Layout

namespace Binary64

/-- A number by the fewest digits that read back, in the standard layout. -/
def text : Binary64 → String
  | .nan => "nan"
  | .infinite s => String.ofList (Text.signText s ++ "inf".toList)
  | .finite s x =>
    if x.significand = 0 then String.ofList (Text.signText s ++ "0.0".toList)
    else String.ofList (Text.signText s ++ Layout.standard.write x.shortest)

/-- A result as it is shown: a whole number in full, and anything else by its text. -/
def display (x : Binary64) : String :=
  match x.integer? with
  | some n => Text.integerText n
  | none => x.text

theorem display_negative_zero : display (.finite true .zero) = "0" := by decide

end Binary64

end Reckoner
