import Mathlib.Algebra.Order.Field.Power
import Mathlib.Data.Rat.Cast.Order
import Mathlib.Tactic.FieldSimp
import Mathlib.Tactic.Linarith
import Mathlib.Tactic.NormNum
import Mathlib.Tactic.Positivity
import Reckoner.Binary64.Decimal
import Reckoner.Proofs.Binary64.Rounding
import Reckoner.Proofs.Text.Digits
/-!
Decimals as rational numbers.

Reading a decimal depends on the rational number that it is and on nothing else, and the greater decimal
is not read as a lesser number. So decimals that are written in different ways but equal are read alike,
and a decimal far beyond the greatest magnitude or far below the least one is read as if it were nearer.

What is shown here:
1. `Binary64.ofDecimal_eq_finite_iff`: what a decimal is read as, by the units it is rounded to;
2. `Decimal.rounded_le_of_value_le`: the greater decimal is not rounded to less;
3. `Binary64.ofDecimal_congr`: equal decimals are read alike;
4. `Binary64.ofDecimal_cutExponent`: a written power of ten may be cut to bounds.
-/

namespace Reckoner

namespace Decimal

/-- The rational number that a decimal is. -/
def value (d : Decimal) : ℚ := d.coefficient * 10 ^ d.exponent

/-- A decimal in units is a quotient of whole numbers; this is its numerator. -/
def numerator (d : Decimal) : Nat :=
  if 0 ≤ d.exponent then d.coefficient * Nat.pow 10 d.exponent.toNat * Magnitude.one
  else d.coefficient * Magnitude.one

/-- The denominator of a decimal in units. -/
def denominator (d : Decimal) : Nat :=
  if 0 ≤ d.exponent then 1 else Nat.pow 10 (-d.exponent).toNat

/-- The units that a decimal is rounded to. -/
def rounded (d : Decimal) : Nat := Magnitude.rounded d.numerator d.denominator

theorem denominator_pos (d : Decimal) : 0 < d.denominator := by
  rw [denominator]
  split
  · exact Nat.one_pos
  · exact Nat.pow_pos (by decide)

theorem value_mul_one (d : Decimal) :
    d.value * (Magnitude.one : ℚ) = (d.numerator : ℚ) / (d.denominator : ℚ) := by
  rw [value, numerator, denominator]
  by_cases h : 0 ≤ d.exponent
  · obtain ⟨k, hk⟩ := Int.eq_ofNat_of_zero_le h
    rw [if_pos h, if_pos h, hk, Int.toNat_natCast, zpow_natCast, Nat.pow_eq]
    push_cast
    rw [div_one]
  · obtain ⟨k, hk⟩ : ∃ k : Nat, d.exponent = -(k : Int) := ⟨(-d.exponent).toNat, by omega⟩
    rw [if_neg h, if_neg h, hk, neg_neg, Int.toNat_natCast, zpow_neg, zpow_natCast, Nat.pow_eq]
    push_cast
    field_simp

theorem rounded_le_of_value_le {d e : Decimal} (h : d.value ≤ e.value) : d.rounded ≤ e.rounded := by
  have hone : (0 : ℚ) ≤ Magnitude.one := Nat.cast_nonneg _
  have hd : (0 : ℚ) < d.denominator := Nat.cast_pos.2 d.denominator_pos
  have he : (0 : ℚ) < e.denominator := Nat.cast_pos.2 e.denominator_pos
  have hquotient : (d.numerator : ℚ) / d.denominator ≤ e.numerator / e.denominator := by
    rw [← value_mul_one, ← value_mul_one]
    exact mul_le_mul_of_nonneg_right h hone
  rw [div_le_div_iff₀ hd he] at hquotient
  refine Magnitude.rounded_le_of_le d.denominator_pos e.denominator_pos ?_
  exact_mod_cast hquotient

theorem rounded_congr {d e : Decimal} (h : d.value = e.value) : d.rounded = e.rounded :=
  Nat.le_antisymm (rounded_le_of_value_le h.le) (rounded_le_of_value_le h.ge)

end Decimal

namespace Binary64

theorem ofDecimal_eq (negative : Bool) (d : Decimal) :
    ofDecimal negative d = ofQuotient negative d.numerator d.denominator := by
  rw [ofDecimal, Decimal.numerator, Decimal.denominator]
  split <;> rfl

theorem ofDecimal_eq_finite_iff {negative s : Bool} {d : Decimal} {x : Magnitude} :
    ofDecimal negative d = .finite s x ↔ s = negative ∧ d.rounded = x.units := by
  rw [ofDecimal_eq, ofQuotient, Decimal.rounded, ← Magnitude.ofQuotient?_eq_some_iff]
  cases Magnitude.ofQuotient? d.numerator d.denominator with
  | none => simp
  | some y => simp [eq_comm]

theorem ofDecimal_of_limit_le {d : Decimal} (h : Magnitude.limit ≤ d.rounded) (negative : Bool) :
    ofDecimal negative d = .infinite negative := by
  rw [ofDecimal_eq, ofQuotient, Magnitude.ofQuotient?_eq_none_iff.2 h]

theorem exists_ofDecimal_of_lt {d : Decimal} (h : d.rounded < Magnitude.limit) (negative : Bool) :
    ∃ m, ofDecimal negative d = .finite negative m ∧ m.units = d.rounded := by
  cases hq : Magnitude.ofQuotient? d.numerator d.denominator with
  | none => exact absurd (Magnitude.ofQuotient?_eq_none_iff.1 hq) (Nat.not_le_of_lt h)
  | some m =>
    have hm : d.rounded = m.units := Magnitude.ofQuotient?_eq_some_iff.1 hq
    exact ⟨m, ofDecimal_eq_finite_iff.2 ⟨rfl, hm⟩, hm.symm⟩

theorem ofDecimal_of_rounded_eq {d e : Decimal} (h : d.rounded = e.rounded) (negative : Bool) :
    ofDecimal negative d = ofDecimal negative e := by
  by_cases hlimit : Magnitude.limit ≤ d.rounded
  · rw [ofDecimal_of_limit_le hlimit, ofDecimal_of_limit_le (h ▸ hlimit)]
  · obtain ⟨m, hd, hm⟩ := exists_ofDecimal_of_lt (Nat.lt_of_not_le hlimit) negative
    rw [hd, ofDecimal_eq_finite_iff.2 ⟨rfl, h.symm.trans hm.symm⟩]

theorem ofDecimal_congr {d e : Decimal} (h : d.value = e.value) (negative : Bool) :
    ofDecimal negative d = ofDecimal negative e :=
  ofDecimal_of_rounded_eq (Decimal.rounded_congr h) negative

/-! ## Powers of ten far beyond the bounds -/

theorem limit_le_rounded_of_value {d : Decimal} (h : 10 ^ (400 : ℤ) ≤ d.value) :
    Magnitude.limit ≤ d.rounded := by
  have hten : Magnitude.limit ≤ (Decimal.mk 1 400).rounded := by decide +kernel
  refine Nat.le_trans hten (Decimal.rounded_le_of_value_le ?_)
  rw [Decimal.value, Nat.cast_one, one_mul]
  exact h

theorem rounded_eq_zero_of_value {d : Decimal} (h : d.value ≤ 10 ^ (-400 : ℤ)) : d.rounded = 0 := by
  have hten : (Decimal.mk 1 (-400)).rounded = 0 := by decide +kernel
  have hle : d.rounded ≤ (Decimal.mk 1 (-400)).rounded := by
    refine Decimal.rounded_le_of_value_le ?_
    rw [Decimal.value.eq_def ⟨1, -400⟩, Nat.cast_one, one_mul]
    exact h
  omega

/-- A decimal of so many digits is read the same if its exponent is cut to the bounds for them. -/
theorem ofDecimal_cutExponent {c length : Nat} (hc : c < 10 ^ length) (e : Int) (negative : Bool) :
    ofDecimal negative ⟨c, cutExponent length e⟩ = ofDecimal negative ⟨c, e⟩ := by
  rcases Nat.eq_zero_or_pos c with rfl | hpos
  · exact ofDecimal_congr (by simp [Decimal.value]) negative
  have hone : (1 : ℚ) ≤ c := by exact_mod_cast hpos
  rcases lt_or_ge (400 : ℤ) e with hbig | hbig
  · -- both are beyond the greatest magnitude
    have hvalue : ∀ k : ℤ, 400 ≤ k → (10 : ℚ) ^ (400 : ℤ) ≤ (Decimal.mk c k).value := by
      intro k hk
      calc (10 : ℚ) ^ (400 : ℤ) ≤ 10 ^ k := zpow_le_zpow_right₀ (by norm_num) hk
        _ = 1 * 10 ^ k := (one_mul _).symm
        _ ≤ c * 10 ^ k := mul_le_mul_of_nonneg_right hone (by positivity)
    have hcut : cutExponent length e = 400 := by
      rw [cutExponent]
      omega
    rw [ofDecimal_of_limit_le (limit_le_rounded_of_value (hvalue e hbig.le)), hcut,
      ofDecimal_of_limit_le (limit_le_rounded_of_value (hvalue 400 le_rfl))]
  rcases lt_or_ge e (-(length + 400 : ℤ)) with hsmall | hsmall
  · -- both are below half of a unit
    have hlength : (c : ℚ) ≤ 10 ^ (length : ℤ) := by
      rw [zpow_natCast]
      exact_mod_cast hc.le
    have hvalue : ∀ k : ℤ, k ≤ -(length + 400 : ℤ) →
        (Decimal.mk c k).value ≤ (10 : ℚ) ^ (-400 : ℤ) := by
      intro k hk
      calc (c : ℚ) * 10 ^ k ≤ 10 ^ (length : ℤ) * 10 ^ k :=
            mul_le_mul_of_nonneg_right hlength (by positivity)
        _ = 10 ^ (length + k : ℤ) := (zpow_add₀ (by norm_num) _ _).symm
        _ ≤ 10 ^ (-400 : ℤ) := zpow_le_zpow_right₀ (by norm_num) (by omega)
    have hcut : cutExponent length e = -(length + 400 : ℤ) := by
      rw [cutExponent]
      omega
    refine ofDecimal_of_rounded_eq ?_ negative
    rw [rounded_eq_zero_of_value (hvalue e hsmall.le), hcut,
      rounded_eq_zero_of_value (hvalue _ le_rfl)]
  · have hcut : cutExponent length e = e := by
      rw [cutExponent]
      omega
    rw [hcut]

end Binary64

end Reckoner
