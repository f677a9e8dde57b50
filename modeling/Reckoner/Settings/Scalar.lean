import Reckoner.Quantity
import Reckoner.Text.Line
import Reckoner.Text.Quoted
/-!
Scalars of a settings document.

A plain scalar is a word whose form decides what it is: nothing, a truth value, a whole number, a number
with a point, or else a text. Whole numbers may be written in base two, eight, ten, sixteen or sixty,
numbers with a point in base ten or sixty, and underscores between digits are dropped.
-/

namespace Reckoner.Settings

inductive Scalar where
  | null
  | bool (b : Bool)
  | number (q : Quantity)
  | text (s : String)
  deriving DecidableEq

namespace Scalar

def shown : Scalar → String
  | .null => "None"
  | .bool true => "True"
  | .bool false => "False"
  | .number q => q.text
  | .text s => Text.quoted s

/-- A scalar by its own text: a text without quotes, and anything else as it is shown. -/
def bare : Scalar → String
  | .text s => s
  | s => s.shown

/-- The integer that a scalar equals, truth values being one and zero. -/
def integer? : Scalar → Option Int
  | .bool b => some (if b then 1 else 0)
  | .number (.whole n) => some n
  | .number (.pointed x) => x.integer?
  | _ => none

/-- Whether two scalars name the same key: they are equal, or equal the same integer. -/
def sameKey (a b : Scalar) : Bool :=
  a == b || (a.integer?.isSome && a.integer? == b.integer?)

/-- Whether a scalar says nothing, no, zero, or the empty text. -/
def isVoid : Scalar → Bool
  | .null => true
  | .bool b => !b
  | .number q => q.isZero
  | .text s => s.isEmpty

end Scalar

/-! ## The forms of numbers -/

/-- Why the numeral of a plain scalar has no value: there is no digit behind its mark, or there are
more decimal digits than are read. -/
inductive NumeralFault where
  | noDigits (base : Nat)
  | tooManyDigits (count : Nat)
  deriving DecidableEq

def NumeralFault.message : NumeralFault → String
  | .noDigits base => "invalid literal for int() with base " ++ toString base ++ ": ''"
  | .tooManyDigits count =>
    "Exceeds the limit (" ++ toString Text.digitLimit ++
      " digits) for integer string conversion: value has " ++ toString count ++
      " digits; use sys.set_int_max_str_digits() to increase the limit"

def isDigitOrGap (c : Char) : Bool := c.isDigit || c == '_'

def dropGaps (cs : List Char) : List Char := cs.filter (· ≠ '_')

def digitOf (c : Char) : Nat :=
  if c.isDigit then c.toNat - 48
  else if c.isLower then c.toNat - 87
  else c.toNat - 55

def valueInBase (base : Nat) (cs : List Char) : Nat :=
  cs.foldl (fun n c => base * n + digitOf c) 0

/-- The parts of a numeral in base sixty: the first is any number without a leading zero where that is
asked for, the others are below sixty. -/
def sixtiesForm (leadingZero : Bool) (cs : List Char) : Bool :=
  match Text.split (· == ':') cs with
  | first :: part :: parts =>
    (match first with
      | c :: rest => c.isDigit && (leadingZero || c != '0') && rest.all isDigitOrGap
      | [] => false) &&
    (part :: parts).all fun p =>
      match p with
      | [d] => d.isDigit
      | [c, d] => '0' ≤ c && c ≤ '5' && d.isDigit
      | _ => false
  | _ => false

/-- The value of decimal digits, unless there are too many. -/
def decimal (ds : List Char) : Except NumeralFault Nat :=
  if Text.digitLimit < ds.length then .error (.tooManyDigits ds.length) else .ok (Text.digitsValue ds)

/-- The value of parts in base sixty, each read as decimal digits. -/
def sixties (cs : List Char) : Except NumeralFault Nat :=
  (Text.split (· == ':') cs).foldlM (fun n p => (decimal p).map fun k => 60 * n + k) 0

/-- The value of an unsigned whole number, if the word has one of the forms of whole numbers. -/
def natural? (cs : List Char) : Option (Except NumeralFault Nat) :=
  match cs with
  | '0' :: 'b' :: ds =>
    if !ds.isEmpty && ds.all (fun c => c == '0' || c == '1' || c == '_') then
      some (if (dropGaps ds).isEmpty then .error (.noDigits 2) else .ok (valueInBase 2 (dropGaps ds)))
    else none
  | '0' :: 'x' :: ds =>
    if !ds.isEmpty && ds.all (fun c => isDigitOrGap c || ('a' ≤ c && c ≤ 'f') || ('A' ≤ c && c ≤ 'F'))
    then
      some (if (dropGaps ds).isEmpty then .error (.noDigits 16) else .ok (valueInBase 16 (dropGaps ds)))
    else none
  | '0' :: ds =>
    if ds.all fun c => ('0' ≤ c && c ≤ '7') || c == '_' then some (.ok (valueInBase 8 (dropGaps ds)))
    else none
  | c :: ds =>
    if c.isDigit && ds.all isDigitOrGap then some (decimal (dropGaps cs))
    else if sixtiesForm false cs then some (sixties (dropGaps cs))
    else none
  | [] => none

/-- Whether a text is nothing, or a power of ten with a sign and at least one digit. -/
def isPower : List Char → Bool
  | [] => true
  | c :: sign :: ds =>
    (c == 'e' || c == 'E') && (sign == '+' || sign == '-') && !ds.isEmpty && ds.all Char.isDigit
  | _ => false

/-- Whether an unsigned word has the form of a number with a point. -/
def isPointed (signed : Bool) (cs : List Char) : Bool :=
  match cs with
  | '.' :: d :: rest => !signed && d.isDigit && isPower (rest.dropWhile isDigitOrGap)
  | d :: rest =>
    d.isDigit &&
      match rest.dropWhile isDigitOrGap with
      | '.' :: rest => isPower (rest.dropWhile isDigitOrGap)
      | _ => false
  | [] => false

/-- Whether an unsigned word has the form of a number with a point in base sixty. -/
def isPointedSixties (cs : List Char) : Bool :=
  sixtiesForm true (cs.takeWhile (· ≠ '.')) &&
    match cs.dropWhile (· ≠ '.') with
    | '.' :: rest => rest.all isDigitOrGap
    | _ => false

/-- The value of parts in base sixty, the last with a point: the last part first, each part before it
times a power of sixty. -/
def pointedSixtiesValue (cs : List Char) : Binary64 :=
  let parts := (Text.split (· == ':') cs).map Binary64.ofLiteral
  let add (sum : Binary64 × Nat) (x : Binary64) : Binary64 × Nat :=
    (sum.1.add (x.mul (.ofNat sum.2)), sum.2 * 60)
  (parts.reverse.foldl add (.zero, 1)).1

/-- The number with a point that a word is, if it has one of the forms of such numbers. -/
def pointed? (cs : List Char) : Option Binary64 :=
  let (negative, rest) := Text.splitSign cs
  let signed := rest.length < cs.length
  let word := String.ofList rest
  if isPointed signed rest then Binary64.unsigned? negative (dropGaps rest)
  else if isPointedSixties rest then
    let x := pointedSixtiesValue (dropGaps rest)
    some (if negative then x.neg else x)
  else if word = ".inf" ∨ word = ".Inf" ∨ word = ".INF" then some (.infinite negative)
  else if ¬ signed ∧ (word = ".nan" ∨ word = ".NaN" ∨ word = ".NAN") then some .nan
  else none

/-- The whole number that a word is, if it has one of the forms of such numbers. -/
def whole? (cs : List Char) : Option (Except NumeralFault Int) :=
  let (negative, rest) := Text.splitSign cs
  (natural? rest).map fun n => n.map fun k => if negative then -(k : Int) else k

def nullWords : List String := ["~", "null", "Null", "NULL"]

def trueWords : List String :=
  ["yes", "Yes", "YES", "true", "True", "TRUE", "on", "On", "ON"]

def falseWords : List String :=
  ["no", "No", "NO", "false", "False", "FALSE", "off", "Off", "OFF"]

/-- What a plain scalar is. There are no dates: a word such as `2026-01-01` is a text. -/
def Scalar.ofPlain (cs : List Char) : Except NumeralFault Scalar :=
  let word := String.ofList cs
  if cs.isEmpty ∨ word ∈ nullWords then .ok .null
  else if word ∈ trueWords then .ok (.bool true)
  else if word ∈ falseWords then .ok (.bool false)
  else
    match pointed? cs with
    | some x => .ok (.number (.pointed x))
    | none =>
      match whole? cs with
      | some (.ok n) => .ok (.number (.whole n))
      | some (.error e) => .error e
      | none => .ok (.text word)

end Reckoner.Settings
