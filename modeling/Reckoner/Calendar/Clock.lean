import Reckoner.Calendar.Timestamp
/-!
The clock that dates what is recorded.

A clock shows its next reading and moves on by a fixed step each time it is read; the step may be zero
or negative. Beyond the calendar it has no reading.
-/

namespace Reckoner

/-- The next reading and the step, in microseconds. -/
structure Clock where
  next : Int
  step : Int
  deriving DecidableEq

namespace Clock

def startingAt (t : DateTime) (step : Int) : Clock := ⟨t.microseconds, step⟩

/-- The clock after a reading. -/
def tick (c : Clock) : Clock := ⟨c.next + c.step, c.step⟩

/-- What the clock shows, without an offset. -/
def reading? (c : Clock) : Option Timestamp :=
  (DateTime.ofMicroseconds? c.next).map Timestamp.ofWall

end Clock

end Reckoner
