/-!
Hexadecimal digits.

Numbers are written in lower-case digits; digits of either case are read.

What is shown here: `hexNumber?_append_singleton`, a further digit counts sixteen times what is there
and itself.
-/

namespace Reckoner.Text

/-- A number in lower-case hexadecimal digits, with zeros in front up to a width. -/
def hexDigits (width n : Nat) : List Char :=
  let ds := Nat.toDigits 16 n
  List.replicate (width - ds.length) '0' ++ ds

/-- The value of a hexadecimal digit. -/
def hexValue? (c : Char) : Option Nat :=
  if '0' ≤ c ∧ c ≤ '9' then some (c.toNat - 48)
  else if 'a' ≤ c ∧ c ≤ 'f' then some (c.toNat - 87)
  else if 'A' ≤ c ∧ c ≤ 'F' then some (c.toNat - 55)
  else none

/-- A number with one more digit at its end. -/
def appendHex (n : Option Nat) (c : Char) : Option Nat :=
  match n, hexValue? c with
  | some n, some d => some (16 * n + d)
  | _, _ => none

/-- The number that hexadecimal digits denote, most significant first. -/
def hexNumber? (cs : List Char) : Option Nat := cs.foldl appendHex (some 0)

theorem hexNumber?_append_singleton (cs : List Char) (c : Char) :
    hexNumber? (cs ++ [c]) = appendHex (hexNumber? cs) c := by
  simp [hexNumber?]

end Reckoner.Text
