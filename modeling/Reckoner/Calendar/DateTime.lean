/-!
Dates with a time of day, to the microsecond.

Years run from 1 to 9999 in the usual calendar continued backwards. A date and time is also a count of
microseconds since the beginning of year 1, in which the calendar plays no part.
-/

namespace Reckoner

def isLeapYear (year : Nat) : Bool :=
  year % 4 == 0 && (year % 100 != 0 || year % 400 == 0)

def daysInMonth (year month : Nat) : Nat :=
  if month = 2 then (if isLeapYear year then 29 else 28)
  else if month = 4 ∨ month = 6 ∨ month = 9 ∨ month = 11 then 30
  else 31

structure DateTime where
  year : Nat
  month : Nat
  day : Nat
  hour : Nat
  minute : Nat
  second : Nat
  microsecond : Nat
  year_range : 1 ≤ year ∧ year ≤ 9999
  month_range : 1 ≤ month ∧ month ≤ 12
  day_range : 1 ≤ day ∧ day ≤ daysInMonth year month
  time_range : hour < 24 ∧ minute < 60 ∧ second < 60 ∧ microsecond < 1000000
  deriving DecidableEq

namespace DateTime

/-- The date and time with the given fields, if there is one. -/
def of? (year month day hour minute second microsecond : Nat) : Option DateTime :=
  if hy : 1 ≤ year ∧ year ≤ 9999 then
    if hm : 1 ≤ month ∧ month ≤ 12 then
      if hd : 1 ≤ day ∧ day ≤ daysInMonth year month then
        if ht : hour < 24 ∧ minute < 60 ∧ second < 60 ∧ microsecond < 1000000 then
          some ⟨year, month, day, hour, minute, second, microsecond, hy, hm, hd, ht⟩
        else none
      else none
    else none
  else none

/-- The days from the beginning of year 1 to the beginning of a year. -/
def daysBeforeYear (year : Nat) : Nat :=
  (year - 1) * 365 + (year - 1) / 4 - (year - 1) / 100 + (year - 1) / 400

/-- The days of a year before a month. -/
def daysBeforeMonth (year month : Nat) : Nat :=
  (List.range (month - 1)).foldl (fun days k => days + daysInMonth year (k + 1)) 0

/-- The days from the beginning of year 1 to a date. -/
def dayNumber (t : DateTime) : Nat :=
  daysBeforeYear t.year + daysBeforeMonth t.year t.month + (t.day - 1)

/-- The microseconds of a day before a time of day. -/
def timeOfDay (t : DateTime) : Nat :=
  ((t.hour * 60 + t.minute) * 60 + t.second) * 1000000 + t.microsecond

def microsecondsPerDay : Nat := 86400000000

/-- The microseconds from the beginning of year 1. -/
def microseconds (t : DateTime) : Nat := t.dayNumber * microsecondsPerDay + t.timeOfDay

/-- The year of a day: an estimate by the mean length of a year, put right by at most one. -/
def yearOfDay (n : Nat) : Nat :=
  let estimate := n * 400 / 146097 + 1
  if n < daysBeforeYear estimate then estimate - 1
  else if daysBeforeYear (estimate + 1) ≤ n then estimate + 1
  else estimate

/-- The month and the day of the month, `n` days after the first of a month. -/
def monthAndDay (year : Nat) : Nat → Nat → Nat → Nat × Nat
  | 0, month, n => (month, n + 1)
  | left + 1, month, n =>
    if n < daysInMonth year month then (month, n + 1)
    else monthAndDay year left (month + 1) (n - daysInMonth year month)

/-- The date and time a number of microseconds after the beginning of year 1, unless the years have
run out. -/
def ofMicroseconds? (n : Int) : Option DateTime :=
  if n < 0 then none
  else
    let n := n.toNat
    let day := n / microsecondsPerDay
    let time := n % microsecondsPerDay
    let year := yearOfDay day
    let (month, dayOfMonth) := monthAndDay year 11 1 (day - daysBeforeYear year)
    of? year month dayOfMonth (time / 3600000000) (time / 60000000 % 60) (time / 1000000 % 60)
      (time % 1000000)

theorem of?_fields (t : DateTime) :
    of? t.year t.month t.day t.hour t.minute t.second t.microsecond = some t := by
  simp only [of?, t.year_range, t.month_range, t.day_range, t.time_range, and_self, dite_true]

end DateTime

end Reckoner
