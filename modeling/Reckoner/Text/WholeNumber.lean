import Reckoner.Text.Blank
import Reckoner.Text.Digit
/-!
Whole numbers as texts.

A whole number is written as its decimal digits behind a minus if it is negative. One is read from an
optional sign and decimal digits of any script, in which single underscores may stand between digits,
white space around it being ignored.

What is shown here: `digitsValue_decimalDigits`, the digits written for a number denote it.
-/

namespace Reckoner.Text

/-! ## Writing -/

/-- The decimal digits of a natural number, most significant first. -/
def decimalDigits (n : Nat) : List Char := Nat.toDigits 10 n

/-- Decimal digits behind as many zeros as a width asks for. -/
def paddedDigits (width n : Nat) : List Char :=
  List.replicate (width - (decimalDigits n).length) '0' ++ decimalDigits n

def signText (negative : Bool) : List Char := if negative then ['-'] else []

/-- An integer in decimal digits. -/
def integerText (n : Int) : String :=
  String.ofList (signText (decide (n < 0)) ++ decimalDigits n.natAbs)

/-! ## Reading -/

/-- The number that ASCII digits denote, most significant first. -/
def digitsValue (cs : List Char) : Nat :=
  cs.foldl (fun n c => 10 * n + (c.toNat - 48)) 0

theorem digitsValue_append_singleton (cs : List Char) (c : Char) :
    digitsValue (cs ++ [c]) = 10 * digitsValue cs + (c.toNat - 48) := by
  simp [digitsValue]

theorem digitsValue_decimalDigits (n : Nat) : digitsValue (decimalDigits n) = n := by
  induction n using Nat.strongRecOn with
  | ind n ih =>
    by_cases h : n < 10
    · rw [decimalDigits, Nat.toDigits_of_lt_base h]
      have : ∀ m < 10, digitsValue [Nat.digitChar m] = m := by decide
      exact this n h
    · rw [decimalDigits, Nat.toDigits_of_base_le (by decide) (by omega), ← decimalDigits,
        digitsValue_append_singleton, ih (n / 10) (by omega)]
      have : ∀ m < 10, (Nat.digitChar m).toNat - 48 = m := by decide
      rw [this (n % 10) (by omega)]
      omega

/-- Digits in which single underscores may stand between two digits, by a reader of digits. -/
def groupedDigits? (digit? : Char → Option Nat) : List Char → Option (List Nat)
  | [] => none
  | c :: cs =>
    match digit? c with
    | none => none
    | some n =>
      match cs with
      | [] => some [n]
      | '_' :: rest => (groupedDigits? digit? rest).map (n :: ·)
      | d :: rest => (groupedDigits? digit? (d :: rest)).map (n :: ·)

/-- The number that digit values denote, most significant first. -/
def valueOfDigits (ds : List Nat) : Nat := ds.foldl (fun n d => 10 * n + d) 0

/-- An optional sign and what follows it. -/
def splitSign : List Char → Bool × List Char
  | '-' :: cs => (true, cs)
  | '+' :: cs => (false, cs)
  | cs => (false, cs)

/-- The longest run of digits that is read as one number. -/
def digitLimit : Nat := 4300

/-- A whole number with digits of any script, white space around it ignored. The information separators,
which are blanks, are no such white space. -/
def wholeNumber? (cs : List Char) : Option Int :=
  let (negative, digits) := splitSign (trimBy isWhiteSpace cs)
  match groupedDigits? digit? digits with
  | none => none
  | some ds =>
    if digitLimit < ds.length then none
    else some (if negative then -(valueOfDigits ds : Int) else valueOfDigits ds)

end Reckoner.Text
