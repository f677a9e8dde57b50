import Reckoner.Binary64.Basic
/-!
Percentiles of a list of numbers.

The numbers are put in ascending order and the one at the rank of the quantile is taken, the rank being
cut to a whole number. Numbers that can all be compared are sorted. Where one is not a number there is
no ascending order; the arrangement is then the one that insertion by halving makes of the list.
-/

namespace Reckoner

namespace Percentile

/-- How many numbers at the start of a list run on, each not less than the one before it, or each less
if the first two are so. -/
def leadingRun : List Binary64 → Nat
  | [] => 0
  | [_] => 1
  | x :: y :: rest =>
    let descending := Binary64.lt y x
    let rec more (last : Binary64) : List Binary64 → Nat
      | [] => 0
      | z :: zs => if Binary64.lt z last == descending then more z zs + 1 else 0
    more y rest + 2

/-- The place at which a number is inserted, searched for between two places by halving: behind every
number it meets that is not greater. -/
def place (xs : Array Binary64) (x : Binary64) : Nat → Nat → Nat → Nat
  | 0, low, _ => low
  | fuel + 1, low, high =>
    if low < high then
      let middle := low + (high - low) / 2
      if Binary64.lt x (xs.getD middle .nan) then place xs x fuel low middle
      else place xs x fuel (middle + 1) high
    else low

/-- Numbers inserted one after the other into a list that is arranged already. -/
def insertAll (arranged : List Binary64) : List Binary64 → List Binary64
  | [] => arranged
  | x :: xs =>
    let k := place arranged.toArray x (arranged.length + 1) 0 arranged.length
    insertAll (arranged.take k ++ x :: arranged.drop k) xs

/-- The arrangement by insertion: the leading run, turned round if it descends, and then the other
numbers one after the other. So does a merge sort with fewer than 64 numbers. Of more it merges several runs,
which makes a difference where one is not a number; that is not modelled, and a long list is arranged here as
a short one is. -/
def arrange (xs : List Binary64) : List Binary64 :=
  let n := leadingRun xs
  let run := xs.take n
  let descends := match run with
    | x :: y :: _ => Binary64.lt y x
    | _ => false
  insertAll (if descends then run.reverse else run) (xs.drop n)

/-- Numbers in ascending order, equal ones in the order given. -/
def ascending (xs : List Binary64) : List Binary64 :=
  if xs.contains .nan then arrange xs else xs.mergeSort fun x y => !Binary64.lt y x

/-- Why there is no percentile. -/
inductive Failure where
  | rankNotANumber
  | rankInfinite
  | rankTooGreat
  deriving DecidableEq

def Failure.message : Failure → String
  | .rankNotANumber => "cannot convert float NaN to integer"
  | .rankInfinite => "cannot convert float infinity to integer"
  | .rankTooGreat => "list index out of range"

/-- The number at the quantile `q`: that of rank `q * n`, cut to a whole number, and of the least rank
if that is less; zero for no numbers. -/
def percentile (values : List Binary64) (q : Binary64) : Except Failure Binary64 :=
  if values.isEmpty then .ok .zero
  else
    let rank := q.mul (.ofNat values.length)
    match rank.whole? with
    | none => .error (if rank = .nan then .rankNotANumber else .rankInfinite)
    | some k =>
      match (ascending values)[(k - 1).toNat]? with
      | some x => .ok x
      | none => .error .rankTooGreat

end Percentile

end Reckoner
