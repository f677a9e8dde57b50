import Reckoner.Binary64.Decimal
/-!
The shortest decimal that reads back as a given magnitude.

For one digit, two digits and so on up to seventeen, the two neighbours of the magnitude on the grid
of decimals with so many digits are tried, the nearer one first and on a tie the one with an even
last digit. The first that reads back is taken. The exact decimal of the magnitude stands at the end
of the search, so the result reads back whatever the search does.

Main statement: `Magnitude.readsBack_shortest`, what is chosen for a magnitude reads back as it.
-/

namespace Reckoner

namespace Magnitude

/-- The exponent of the leading decimal digit of `u` units, for `u` positive: the number of decimal
digits of a multiple that is far above one, less that multiple's own exponent. -/
def leadingExponent (u : Nat) : Int :=
  ((Nat.toDigits 10 (u * Nat.pow 10 400 / one)).length : Int) - 401

/-- The two decimals with a unit of `10 ^ exponent` in the last place next to `u` units, the nearer
first; on a tie, the one with an even coefficient. -/
def neighbours (u : Nat) (exponent : Int) : List Decimal :=
  let n := if exponent ≤ 0 then u * Nat.pow 10 (-exponent).toNat else u
  let d := if exponent ≤ 0 then one else one * Nat.pow 10 exponent.toNat
  let below : Decimal := ⟨n / d, exponent⟩
  let above : Decimal := ⟨n / d + 1, exponent⟩
  if roundDiv n d = n / d then [below, above] else [above, below]

/-- Whether a decimal reads back as a magnitude. -/
def ReadsBack (x : Magnitude) (d : Decimal) : Prop :=
  Binary64.ofDecimal false d = .finite false x

instance (x : Magnitude) (d : Decimal) : Decidable (ReadsBack x d) :=
  inferInstanceAs (Decidable (_ = _))

/-- The neighbours of a magnitude on the grids of one to seventeen digits. -/
def candidates (x : Magnitude) : List Decimal :=
  let leading := leadingExponent x.units
  (List.range 17).flatMap fun (k : Nat) => neighbours x.units (leading - k)

/-- The exact decimal of a magnitude. -/
def exactDecimal (x : Magnitude) : Decimal := ⟨x.units * Nat.pow 5 places, -(places : Int)⟩

/-- The decimal with the fewest digits that reads back; of several, the nearest. -/
def shortest (x : Magnitude) : Decimal :=
  ((candidates x).find? fun d => ReadsBack x d).getD (exactDecimal x)

theorem ofDecimal_neg (negative : Bool) (c : Nat) {k : Nat} (hk : 0 < k) :
    Binary64.ofDecimal negative ⟨c, -(k : Int)⟩ = Binary64.ofQuotient negative (c * one) (Nat.pow 10 k) := by
  have hneg : ¬ (0 : Int) ≤ -(k : Int) := by omega
  rw [Binary64.ofDecimal, if_neg hneg, Int.neg_neg, Int.toNat_natCast]

theorem mul_pow_shiftLeft (u k : Nat) : u * Nat.pow 5 k * (1 <<< k) = u * Nat.pow 10 k := by
  rw [Nat.one_shiftLeft, Nat.mul_assoc]
  exact congrArg (u * ·) (Nat.mul_pow 5 2 k).symm

theorem ten_pow_pos (k : Nat) : 0 < Nat.pow 10 k := Nat.pow_pos (by decide)

theorem readsBack_exactDecimal (x : Magnitude) : ReadsBack x (exactDecimal x) := by
  have h : ofQuotient? (x.units * Nat.pow 10 places) (Nat.pow 10 places) = some x :=
    ofQuotient?_units x (ten_pow_pos places)
  have hq := ofDecimal_neg false (x.units * Nat.pow 5 places) places_pos
  rw [one, mul_pow_shiftLeft] at hq
  exact hq.trans (Binary64.ofQuotient_of_some h)

/-- The decimal chosen for a magnitude reads back as that magnitude. -/
theorem readsBack_shortest (x : Magnitude) : ReadsBack x x.shortest := by
  unfold shortest
  cases h : (candidates x).find? fun d => ReadsBack x d with
  | none => exact readsBack_exactDecimal x
  | some d => simpa using List.find?_some h

end Magnitude

end Reckoner
