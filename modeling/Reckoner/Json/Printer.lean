import Reckoner.Binary64.Layout
import Reckoner.Json.Basic
import Reckoner.Text.Quoted
/-!
Writing JSON text.

One printer serves three styles: compact, on one line with blanks after commas and colons, and with
every item on a line of its own. Characters beyond ASCII stand as they are or are escaped.
-/

namespace Reckoner.Json

/-- The decisions of a style of JSON text. -/
structure Style where
  comma : List Char
  colon : List Char
  asciiOnly : Bool
  /-- How far each level of nesting is indented, if items stand on lines of their own. -/
  indent : Option Nat

/-- No blank at all. -/
def Style.compact : Style := ⟨[','], [':'], false, none⟩

/-- One line, with a blank after each comma and colon, characters as they are. -/
def Style.line : Style := ⟨[',', ' '], [':', ' '], false, none⟩

/-- An item a line, indented by two blanks a level, with characters beyond ASCII escaped. -/
def Style.indented : Style := ⟨[','], [':', ' '], true, some 2⟩

/-- A code unit written by its four hexadecimal digits. -/
def unitEscape (n : Nat) : List Char := '\\' :: 'u' :: Text.hexDigits 4 n

/-- A character beyond ASCII by its code, as a pair of surrogates beyond the first plane. -/
def escapeWide (c : Char) : List Char :=
  if c.toNat < 0x10000 then unitEscape c.toNat
  else
    let n := c.toNat - 0x10000
    unitEscape (0xD800 + n / 0x400) ++ unitEscape (0xDC00 + n % 0x400)

def escapeChar (asciiOnly : Bool) (c : Char) : List Char :=
  if c = '"' then ['\\', '"']
  else if c = '\\' then ['\\', '\\']
  else if c = '\n' then ['\\', 'n']
  else if c = '\r' then ['\\', 'r']
  else if c = '\t' then ['\\', 't']
  else if c = '\x08' then ['\\', 'b']
  else if c = '\x0c' then ['\\', 'f']
  else if c.toNat < 0x20 then unitEscape c.toNat
  else if asciiOnly && 0x7F ≤ c.toNat then escapeWide c
  else [c]

def stringText (asciiOnly : Bool) (s : String) : List Char :=
  '"' :: (s.toList.flatMap (escapeChar asciiOnly) ++ ['"'])

def floatText : Binary64 → List Char
  | .nan => "NaN".toList
  | .infinite s => Text.signText s ++ "Infinity".toList
  | x => x.text.toList

/-- The line break and blanks before an item at a depth, where a style has them. -/
def lineBreak (style : Style) (depth : Nat) : List Char :=
  match style.indent with
  | none => []
  | some n => '\n' :: List.replicate (n * depth) ' '

mutual

/-- A value at a depth of nesting. A string that is not Unicode text is written as a replacement
character. -/
def write (style : Style) (depth : Nat) : Json → List Char
  | .null => "null".toList
  | .bool true => "true".toList
  | .bool false => "false".toList
  | .int n => (Text.integerText n).toList
  | .float x => floatText x
  | .str s => stringText style.asciiOnly s
  | .illFormed => stringText style.asciiOnly "\uFFFD"
  | .arr [] => ['[', ']']
  | .arr (v :: vs) =>
    '[' :: (lineBreak style (depth + 1) ++ write style (depth + 1) v ++
      writeItems style (depth + 1) vs ++ lineBreak style depth ++ [']'])
  | .obj [] => ['{', '}']
  | .obj (f :: fs) =>
    '{' :: (lineBreak style (depth + 1) ++ stringText style.asciiOnly f.1 ++ style.colon ++
      write style (depth + 1) f.2 ++ writeFields style (depth + 1) fs ++
      lineBreak style depth ++ ['}'])

/-- The items after the first, each behind a comma. -/
def writeItems (style : Style) (depth : Nat) : List Json → List Char
  | [] => []
  | v :: vs =>
    style.comma ++ lineBreak style depth ++ write style depth v ++ writeItems style depth vs

/-- The fields after the first, each behind a comma. -/
def writeFields (style : Style) (depth : Nat) : List (String × Json) → List Char
  | [] => []
  | f :: fs =>
    style.comma ++ lineBreak style depth ++ stringText style.asciiOnly f.1 ++ style.colon ++
      write style depth f.2 ++ writeFields style depth fs

end

def render (style : Style) (v : Json) : String := String.ofList (write style 0 v)

end Reckoner.Json
