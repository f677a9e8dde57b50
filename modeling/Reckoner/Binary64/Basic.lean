import Reckoner.Binary64.Magnitude
/-!
Binary64 numbers and their arithmetic.

Every operation is the exact operation on whole numbers of units followed by one rounding to the
nearest magnitude; beyond the greatest magnitude the result is infinite. Signs of zeros, infinities
and the result that is not a number follow the usual rules for such arithmetic.
-/

namespace Reckoner

/-- A binary64 number. All results that are not a number are one value, since no output tells them
apart. -/
inductive Binary64 where
  | nan
  | infinite (negative : Bool)
  | finite (negative : Bool) (magnitude : Magnitude)
  deriving DecidableEq

namespace Binary64

instance : Inhabited Binary64 := ⟨.nan⟩

def zero : Binary64 := .finite false .zero

/-- The number nearest to `n / d` units, with the given sign. -/
def ofQuotient (negative : Bool) (n d : Nat) : Binary64 :=
  match Magnitude.ofQuotient? n d with
  | some x => .finite negative x
  | none => .infinite negative

theorem ofQuotient_of_some {negative : Bool} {n d : Nat} {x : Magnitude}
    (h : Magnitude.ofQuotient? n d = some x) : ofQuotient negative n d = .finite negative x := by
  simp only [ofQuotient, h]

/-- A magnitude with its sign, as a whole number of units. -/
def signed (negative : Bool) (x : Magnitude) : Int :=
  if negative then -(x.units : Int) else (x.units : Int)

/-- The number nearest to a whole number of units; an exact zero takes the sign given for it. -/
def ofUnits (negativeZero : Bool) (n : Int) : Binary64 :=
  if n = 0 then .finite negativeZero .zero else ofQuotient (decide (n < 0)) n.natAbs 1

/-- The number nearest to a natural number. -/
def ofNat (n : Nat) : Binary64 := ofQuotient false (n * Magnitude.one) 1

def neg : Binary64 → Binary64
  | .nan => .nan
  | .infinite s => .infinite (!s)
  | .finite s x => .finite (!s) x

/-- A sum that is exactly zero is negative only when both terms are. -/
def add : Binary64 → Binary64 → Binary64
  | .finite s x, .finite t y => ofUnits (s && t) (signed s x + signed t y)
  | .infinite s, .infinite t => if s = t then .infinite s else .nan
  | .infinite s, .finite _ _ => .infinite s
  | .finite _ _, .infinite t => .infinite t
  | .nan, _ => .nan
  | _, .nan => .nan

def sub (x y : Binary64) : Binary64 := add x y.neg

def isZero : Binary64 → Bool
  | .finite _ x => x.significand == 0
  | _ => false

def mul : Binary64 → Binary64 → Binary64
  | .finite s x, .finite t y => ofQuotient (s != t) (x.units * y.units) Magnitude.one
  | .infinite s, .infinite t => .infinite (s != t)
  | .infinite s, .finite t y => if y.significand = 0 then .nan else .infinite (s != t)
  | .finite s x, .infinite t => if x.significand = 0 then .nan else .infinite (s != t)
  | .nan, _ => .nan
  | _, .nan => .nan

def div : Binary64 → Binary64 → Binary64
  | .finite s x, .finite t y =>
    if y.significand = 0 then
      if x.significand = 0 then .nan else .infinite (s != t)
    else ofQuotient (s != t) (x.units * Magnitude.one) y.units
  | .infinite _, .infinite _ => .nan
  | .infinite s, .finite t _ => .infinite (s != t)
  | .finite s _, .infinite t => .finite (s != t) .zero
  | .nan, _ => .nan
  | _, .nan => .nan

/-- The order of numbers; nothing is less than, or greater than, what is not a number, and the two
zeros are equal. -/
def lt : Binary64 → Binary64 → Bool
  | .finite s x, .finite t y => decide (signed s x < signed t y)
  | .infinite s, .infinite t => s && !t
  | .infinite s, .finite _ _ => s
  | .finite _ _, .infinite t => !t
  | .nan, _ => false
  | _, .nan => false

/-- The whole part of a finite number, toward zero. -/
def whole? : Binary64 → Option Int
  | .finite s x =>
    let n : Int := (x.units / Magnitude.one : Nat)
    some (if s then -n else n)
  | _ => none

/-- Whether a number is finite and has no fraction. -/
def isIntegral : Binary64 → Bool
  | .finite _ x => x.units % Magnitude.one == 0
  | _ => false

/-- The whole number that an integral number is. -/
def integer? (x : Binary64) : Option Int := if x.isIntegral then x.whole? else none

/-- The comparison of a whole number with a binary64 number, exactly: `n < x`. -/
def intLt (n : Int) : Binary64 → Bool
  | .finite s x => decide (n * (Magnitude.one : Int) < signed s x)
  | .infinite s => !s
  | .nan => false

/-- The comparison of a binary64 number with a whole number, exactly: `x < n`. -/
def ltInt (n : Int) : Binary64 → Bool
  | .finite s x => decide (signed s x < n * (Magnitude.one : Int))
  | .infinite s => s
  | .nan => false

theorem isZero_iff (x : Binary64) : x.isZero = true ↔ ∃ s m, x = .finite s m ∧ m.units = 0 := by
  cases x with
  | nan => simp [isZero]
  | infinite s => simp [isZero]
  | finite s m =>
    constructor
    · intro h
      exact ⟨s, m, rfl, (Magnitude.units_eq_zero_iff m).2 (by simpa [isZero] using h)⟩
    · rintro ⟨t, k, h, hk⟩
      cases h
      simpa [isZero] using (Magnitude.units_eq_zero_iff m).1 hk

end Binary64

end Reckoner
