import Reckoner.Calendar.DateTime
import Reckoner.Text.WholeNumber
/-!
Timestamps and their texts.

A timestamp is a date and time as a clock on the wall shows it, possibly with the offset of that clock.
It has two written forms: the one that is stored always has six digits after the second, and the one that
is shown leaves them out when they are all zero. The offset stands at the end of both, in hours and
minutes, with its seconds and their fraction only where they are not zero.
-/

namespace Reckoner

/-- A wall-clock time and the offset of the clock in microseconds, less than a day either way. -/
structure Timestamp where
  wall : DateTime
  offset : Option Int
  offset_range : ∀ m ∈ offset, m.natAbs < DateTime.microsecondsPerDay
  deriving DecidableEq

namespace Timestamp

def ofWall (t : DateTime) : Timestamp := ⟨t, none, by simp⟩

/-- A timestamp with the given offset in microseconds, if that is less than a day. -/
def ofOffset? (wall : DateTime) (offset : Option Int) : Option Timestamp :=
  if h : ∀ m ∈ offset, m.natAbs < DateTime.microsecondsPerDay then some ⟨wall, offset, h⟩ else none

/-- A timestamp with the given offset in minutes, if that is less than a day. -/
def of? (wall : DateTime) (minutes : Option Int) : Option Timestamp :=
  ofOffset? wall (minutes.map (60000000 * ·))

/-! ## Writing -/

/-- Date and time to the second. -/
def secondsText (t : DateTime) : List Char :=
  Text.paddedDigits 4 t.year ++ '-' :: (Text.paddedDigits 2 t.month ++ '-' ::
    (Text.paddedDigits 2 t.day ++ 'T' :: (Text.paddedDigits 2 t.hour ++ ':' ::
      (Text.paddedDigits 2 t.minute ++ ':' :: Text.paddedDigits 2 t.second))))

def fractionText (microsecond : Nat) : List Char := '.' :: Text.paddedDigits 6 microsecond

/-- The microseconds of an offset below a minute: seconds, and a fraction if it is not zero. -/
def offsetEnd (n : Nat) : List Char :=
  if n = 0 then []
  else ':' :: (Text.paddedDigits 2 (n / 1000000) ++
    if n % 1000000 = 0 then [] else fractionText (n % 1000000))

def offsetText : Option Int → List Char
  | none => []
  | some m =>
    (if m < 0 then '-' else '+') :: (Text.paddedDigits 2 (m.natAbs / 3600000000) ++ ':' ::
      (Text.paddedDigits 2 (m.natAbs / 60000000 % 60) ++ offsetEnd (m.natAbs % 60000000)))

/-- The form that is stored. -/
def storedText (t : Timestamp) : List Char :=
  secondsText t.wall ++ fractionText t.wall.microsecond ++ offsetText t.offset

/-- The form that is shown. -/
def text (t : Timestamp) : List Char :=
  secondsText t.wall ++ (if t.wall.microsecond = 0 then [] else fractionText t.wall.microsecond) ++
    offsetText t.offset

/-! ## Reading -/

/-- A number of exactly so many ASCII digits, and what follows it. -/
def readDigits (width : Nat) (cs : List Char) : Option (Nat × List Char) :=
  let ds := cs.take width
  if ds.length = width ∧ ds.all Char.isDigit = true then
    some (Text.digitsValue ds, cs.drop width)
  else none

/-- The rest of a text behind an expected character. -/
def expect (c : Char) : List Char → Option (List Char)
  | d :: cs => if d = c then some cs else none
  | [] => none

/-- A fraction at the end of a text, or nothing. -/
def readFraction : List Char → Option Nat
  | [] => some 0
  | cs => do
    let cs ← expect '.' cs
    let (microsecond, cs) ← readDigits 6 cs
    if cs = [] then some microsecond else none

/-- The seconds of an offset with their fraction at the end of a text, or nothing. -/
def readOffsetEnd : List Char → Option Nat
  | [] => some 0
  | cs => do
    let cs ← expect ':' cs
    let (second, cs) ← readDigits 2 cs
    let microsecond ← readFraction cs
    if second < 60 then some (second * 1000000 + microsecond) else none

/-- An offset at the end of a text, or nothing. -/
def readOffset : List Char → Option (Option Int)
  | [] => some none
  | sign :: cs => do
    let (hours, cs) ← readDigits 2 cs
    let cs ← expect ':' cs
    let (minutes, cs) ← readDigits 2 cs
    let rest ← readOffsetEnd cs
    let n := (hours * 60 + minutes) * 60000000 + rest
    if 60 ≤ minutes then none
    else if sign = '-' then some (some (-(n : Int)))
    else if sign = '+' then some (some (n : Int))
    else none

/-- The timestamp of a stored text. -/
def ofText? (cs : List Char) : Option Timestamp := do
  let (year, cs) ← readDigits 4 cs
  let cs ← expect '-' cs
  let (month, cs) ← readDigits 2 cs
  let cs ← expect '-' cs
  let (day, cs) ← readDigits 2 cs
  let cs ← expect 'T' cs
  let (hour, cs) ← readDigits 2 cs
  let cs ← expect ':' cs
  let (minute, cs) ← readDigits 2 cs
  let cs ← expect ':' cs
  let (second, cs) ← readDigits 2 cs
  let cs ← expect '.' cs
  let (microsecond, cs) ← readDigits 6 cs
  let offset ← readOffset cs
  let wall ← DateTime.of? year month day hour minute second microsecond
  ofOffset? wall offset

end Timestamp

end Reckoner
