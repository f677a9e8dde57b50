import Reckoner.Text.Hexadecimal
import Reckoner.Text.Printable
/-!
Quoted texts.

A text is shown between single quotes, or between double quotes when it holds a single quote and no
double one. Inside, the backslash and the surrounding quote are escaped, tab, line feed and carriage
return have escapes of their own, and every other character that is not printable is written by its
code in two, four or eight hexadecimal digits.
-/

namespace Reckoner.Text

/-- The quote that surrounds a text. -/
def quoteFor (cs : List Char) : Char :=
  if cs.contains '\'' && !cs.contains '"' then '"' else '\''

/-- A character that is not printable, by its code. -/
def escapeCode (c : Char) : List Char :=
  let n := c.toNat
  if n ≤ 0xFF then '\\' :: 'x' :: hexDigits 2 n
  else if n ≤ 0xFFFF then '\\' :: 'u' :: hexDigits 4 n
  else '\\' :: 'U' :: hexDigits 8 n

def escapeQuoted (quote c : Char) : List Char :=
  if c = quote ∨ c = '\\' then ['\\', c]
  else if c = '\t' then ['\\', 't']
  else if c = '\n' then ['\\', 'n']
  else if c = '\r' then ['\\', 'r']
  else if isPrintable c then [c]
  else escapeCode c

def quoted (s : String) : String :=
  let q := quoteFor s.toList
  String.ofList (q :: (s.toList.flatMap (escapeQuoted q) ++ [q]))

end Reckoner.Text
