import Reckoner.Binary64.Decimal
import Reckoner.Json.Basic
import Reckoner.Text.Hexadecimal
import Reckoner.Text.WholeNumber
/-!
Reading JSON text.

The grammar is the usual one, with three words for numbers that are not finite. A whole number with too
many digits is a fault of its own. The fields of an object are read in order, the last of several with
one name counting.
-/

namespace Reckoner.Json

/-- Why a text is not read. -/
inductive Fault where
  | malformed
  | tooManyDigits
  deriving DecidableEq

def isSpace (c : Char) : Bool := c == ' ' || c == '\t' || c == '\n' || c == '\r'

def skipSpace (cs : List Char) : List Char := cs.dropWhile isSpace

/-! ## Strings -/

/-- What a one-letter escape stands for. -/
def escape? : Char → Option Nat
  | '"' => some 34
  | '\\' => some 92
  | '/' => some 47
  | 'b' => some 8
  | 'f' => some 12
  | 'n' => some 10
  | 'r' => some 13
  | 't' => some 9
  | _ => none

/-- The code units of a string up to its closing quote, and what follows it. -/
def readUnits : List Char → Option (List Nat × List Char)
  | [] => none
  | '"' :: rest => some ([], rest)
  | '\\' :: 'u' :: a :: b :: c :: d :: rest =>
    match Text.hexNumber? [a, b, c, d], readUnits rest with
    | some u, some (us, r) => some (u :: us, r)
    | _, _ => none
  | '\\' :: c :: rest =>
    match escape? c, readUnits rest with
    | some u, some (us, r) => some (u :: us, r)
    | _, _ => none
  | c :: rest =>
    if c.toNat < 0x20 ∨ c = '\\' then none
    else
      match readUnits rest with
      | some (us, r) => some (c.toNat :: us, r)
      | none => none

def isHighSurrogate (u : Nat) : Bool := 0xD800 ≤ u && u ≤ 0xDBFF

def isLowSurrogate (u : Nat) : Bool := 0xDC00 ≤ u && u ≤ 0xDFFF

/-- The text that code units spell, a high and a low surrogate together making one character; none
when a surrogate is left over. -/
def textOfUnits : List Nat → Option (List Char)
  | [] => some []
  | u :: us =>
    if isHighSurrogate u then
      match us with
      | v :: vs =>
        if isLowSurrogate v then
          (textOfUnits vs).map (Char.ofNat (0x10000 + (u - 0xD800) * 0x400 + (v - 0xDC00)) :: ·)
        else none
      | [] => none
    else if isLowSurrogate u then none
    else (textOfUnits us).map (Char.ofNat u :: ·)

/-- A string value from its code units. -/
def ofUnits (us : List Nat) : Json :=
  match textOfUnits us with
  | some cs => .str (String.ofList cs)
  | none => .illFormed

/-! ## Numbers -/

/-- The digits after a point, if a point and at least one digit come next. -/
def readFraction : List Char → List Char × List Char
  | '.' :: rest =>
    if (rest.takeWhile Char.isDigit).isEmpty then ([], '.' :: rest)
    else (rest.takeWhile Char.isDigit, rest.dropWhile Char.isDigit)
  | cs => ([], cs)

/-- A power of ten, if the letter for one and at least one digit come next. -/
def readPower (cs : List Char) : Option Int × List Char :=
  match cs with
  | c :: rest =>
    if c = 'e' ∨ c = 'E' then
      let (negative, digits) := Text.splitSign rest
      if (digits.takeWhile Char.isDigit).isEmpty then (none, cs)
      else
        let n : Int := Text.digitsValue (digits.takeWhile Char.isDigit)
        (some (if negative then -n else n), digits.dropWhile Char.isDigit)
    else (none, cs)
  | [] => (none, [])

/-- The digits before the point: a zero alone, or digits that do not begin with one. -/
def readWhole : List Char → Option (List Char × List Char)
  | '0' :: rest => some (['0'], rest)
  | cs =>
    if (cs.takeWhile Char.isDigit).isEmpty then none
    else some (cs.takeWhile Char.isDigit, cs.dropWhile Char.isDigit)

/-- The value of a number without a sign. -/
def numberValue (negative : Bool) (whole fraction : List Char) (power : Option Int) :
    Except Fault Json :=
  if fraction.isEmpty && power.isNone then
    if Text.digitLimit < whole.length then .error .tooManyDigits
    else
      let n : Int := Text.digitsValue whole
      .ok (.int (if negative then -n else n))
  else
    let digits := whole ++ fraction
    let e := power.getD 0 - fraction.length
    .ok (.float (Binary64.ofDecimal negative
      ⟨Text.digitsValue digits, Binary64.cutExponent digits.length e⟩))

def readNumber (cs : List Char) : Except Fault (Json × List Char) :=
  let (negative, digits) := match cs with
    | '-' :: rest => (true, rest)
    | _ => (false, cs)
  match digits with
  | 'I' :: 'n' :: 'f' :: 'i' :: 'n' :: 'i' :: 't' :: 'y' :: rest =>
    .ok (.float (.infinite negative), rest)
  | _ =>
    match readWhole digits with
    | none => .error .malformed
    | some (whole, rest) =>
      let (fraction, rest) := readFraction rest
      let (power, rest) := readPower rest
      match numberValue negative whole fraction power with
      | .ok v => .ok (v, rest)
      | .error e => .error e

/-! ## Values -/

/-- A field name: text, or a replacement character for a name that is not Unicode text, whose value
is then not sent either. -/
def ofField (name : List Nat) (v : Json) : String × Json :=
  match textOfUnits name with
  | some cs => (String.ofList cs, v)
  | none => ("\uFFFD", .illFormed)

mutual

/-- A value at the start of the text. The fuel bounds nesting and the number of items. -/
def readValue : Nat → List Char → Except Fault (Json × List Char)
  | 0, _ => .error .malformed
  | fuel + 1, cs =>
    match cs with
    | '"' :: rest =>
      match readUnits rest with
      | some (us, r) => .ok (ofUnits us, r)
      | none => .error .malformed
    | '{' :: rest =>
      match skipSpace rest with
      | '}' :: r => .ok (.obj [], r)
      | r =>
        match readFields fuel r with
        | .ok (fields, r) => .ok (ofFields fields, r)
        | .error e => .error e
    | '[' :: rest =>
      match skipSpace rest with
      | ']' :: r => .ok (.arr [], r)
      | r =>
        match readItems fuel r with
        | .ok (items, r) => .ok (.arr items, r)
        | .error e => .error e
    | 'n' :: 'u' :: 'l' :: 'l' :: rest => .ok (.null, rest)
    | 't' :: 'r' :: 'u' :: 'e' :: rest => .ok (.bool true, rest)
    | 'f' :: 'a' :: 'l' :: 's' :: 'e' :: rest => .ok (.bool false, rest)
    | 'N' :: 'a' :: 'N' :: rest => .ok (.float .nan, rest)
    | _ => readNumber cs

/-- Items up to the closing bracket. -/
def readItems : Nat → List Char → Except Fault (List Json × List Char)
  | 0, _ => .error .malformed
  | fuel + 1, cs =>
    match readValue fuel cs with
    | .error e => .error e
    | .ok (v, r) =>
      match skipSpace r with
      | ',' :: r =>
        match readItems fuel (skipSpace r) with
        | .ok (vs, r) => .ok (v :: vs, r)
        | .error e => .error e
      | ']' :: r => .ok ([v], r)
      | _ => .error .malformed

/-- Fields up to the closing brace. -/
def readFields : Nat → List Char → Except Fault (List (String × Json) × List Char)
  | 0, _ => .error .malformed
  | fuel + 1, cs =>
    match cs with
    | '"' :: rest =>
      match readUnits rest with
      | none => .error .malformed
      | some (name, r) =>
        match skipSpace r with
        | ':' :: r =>
          match readValue fuel (skipSpace r) with
          | .error e => .error e
          | .ok (v, r) =>
            match skipSpace r with
            | ',' :: r =>
              match readFields fuel (skipSpace r) with
              | .ok (fs, r) => .ok (ofField name v :: fs, r)
              | .error e => .error e
            | '}' :: r => .ok ([ofField name v], r)
            | _ => .error .malformed
        | _ => .error .malformed
    | _ => .error .malformed

end

/-- The value of a text: one value, with white space around it. There is no bound on how deep lists and objects
are nested in each other; the fuel is enough for any text. -/
def parse (cs : List Char) : Except Fault Json :=
  match readValue (cs.length + 1) (skipSpace cs) with
  | .error e => .error e
  | .ok (v, rest) => if (skipSpace rest).isEmpty then .ok v else .error .malformed

/-- The value of a text that may begin with a byte order mark. -/
def parseMarked (s : String) : Except Fault Json :=
  match s.toList with
  | '\uFEFF' :: cs => parse cs
  | cs => parse cs

end Reckoner.Json
