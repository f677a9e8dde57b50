import Reckoner.Binary64.Basic
import Reckoner.Proofs.Binary64.Rounding
/-!
Differences that are not near zero.

A number whose fraction is not near zero nor near one keeps its distance from zero when a whole number is
taken off it, and rounding does not take the distance away, since what the difference is compared with is
rounded to itself.

What is shown here:
1. `FarFromMultiples.quarter_le`: the exact difference is a quarter at least;
2. `Magnitude.quarter_le_rounded` and `Binary64.units_of_ofUnits`: what a sum is rounded to;
3. `Binary64.quarter_le_sub`: the difference that is computed is a quarter at least.
-/

namespace Reckoner

/-- A number is more than a quarter of a modulus away from the multiples on either side of it. -/
def FarFromMultiples (p u : Nat) : Prop := p < 4 * (u % p) ∧ 4 * (u % p) < 3 * p

instance (p u : Nat) : Decidable (FarFromMultiples p u) := inferInstanceAs (Decidable (_ ∧ _))

/-- A number that is a quarter of a modulus away from the multiples stays so when one is taken off. -/
theorem FarFromMultiples.quarter_le {p u : Nat} (h : FarFromMultiples p u) (negative : Bool) (n : Nat) :
    p ≤ 4 * ((if negative then -(u : Int) else u) + -((n * p : Nat) : Int)).natAbs := by
  obtain ⟨hlow, hhigh⟩ := h
  have hdiv : (u : Int) = (u / p : Nat) * p + (u % p : Nat) := by
    exact_mod_cast (Nat.div_add_mod' u p).symm
  have hp : (0 : Int) ≤ p := Int.natCast_nonneg p
  have hn : ((n * p : Nat) : Int) = n * p := Int.natCast_mul n p
  rw [hdiv, hn]
  cases negative with
  | true =>
    -- both terms have one sign, so the distance is the fraction at least
    have hquotient := Int.mul_nonneg (Int.natCast_nonneg (u / p)) hp
    have hmultiple := Int.mul_nonneg (Int.natCast_nonneg n) hp
    simp only [if_true]
    omega
  | false =>
    simp only [Bool.false_eq_true, if_false]
    rcases Nat.lt_or_ge (u / p) n with hlt | hle
    · have hnext : (((u / p : Nat) : Int) + 1) * p ≤ n * p :=
        Int.mul_le_mul_of_nonneg_right (by omega) hp
      rw [Int.add_mul, Int.one_mul] at hnext
      omega
    · have hbelow : (n : Int) * p ≤ (u / p : Nat) * p :=
        Int.mul_le_mul_of_nonneg_right (by omega) hp
      omega

namespace Magnitude

/-- A whole number of units that is a quarter at least is rounded to a quarter at least. -/
theorem quarter_le_rounded {n : Nat} (h : one ≤ 4 * n) : one ≤ 4 * rounded n 1 := by
  obtain ⟨k, hk⟩ : ∃ k, one = 4 * (1 * 2 ^ k) := ⟨1072, by decide +kernel⟩
  have hquarter := rounded_of_significand (q := 1) (by decide) k
  have hle : 1 * 2 ^ k ≤ n := by omega
  have hmono := rounded_mono 1 hle
  rw [hquarter] at hmono
  omega

end Magnitude

namespace Binary64

theorem units_of_ofUnits {z t : Bool} {n : Int} {m : Magnitude} (h : ofUnits z n = .finite t m) :
    m.units = Magnitude.rounded n.natAbs 1 := by
  rw [ofUnits] at h
  split at h
  · rename_i hzero
    cases h
    rw [hzero]
    decide +kernel
  · rw [ofQuotient] at h
    split at h
    · rename_i k hk
      cases h
      exact Magnitude.units_of_ofQuotient? hk
    · cases h

/-- A number whose fraction is a quarter away from both ends, less a whole number, is a quarter at least. -/
theorem quarter_le_sub {s t : Bool} {x k m : Magnitude} {n : Nat}
    (hx : FarFromMultiples Magnitude.one x.units) (hk : k.units = n * Magnitude.one)
    (h : sub (.finite s x) (.finite false k) = .finite t m) : Magnitude.one ≤ 4 * m.units := by
  have hunits := units_of_ofUnits (show ofUnits (s && true) (signed s x + signed true k) = _ from h)
  have hdistance := hx.quarter_le s n
  rw [hunits, signed, signed, if_pos rfl, hk]
  exact Magnitude.quarter_le_rounded hdistance

end Binary64

end Reckoner
