import Reckoner.Proofs.Binary64.Display
/-!
Arithmetic on whole numbers.

Every whole number up to `2 ^ 53` is a magnitude, so a sum, a difference or a product of whole numbers
that is not greater than that is not rounded, and neither is a literal of digits. A product of a zero and
a negative number is the zero with a sign; it equals the integer zero all the same, and that is what is
kept of a number here.

What is shown here:
1. `Magnitude.exists_whole`: the whole numbers that are magnitudes;
2. `IsInteger.add`, `IsInteger.sub` and `IsInteger.mul`: operations that are exact;
3. `exists_ofDecimal_digits`: digits that are exact.
-/

namespace Reckoner

/-- A whole number up to `2 ^ 53` is a magnitude: either it fits the significand or it is the first power
of two that does not. -/
theorem Magnitude.exists_whole {k : Nat} (hk : k ≤ 2 ^ 53) : ∃ m : Magnitude, m.units = k * one := by
  obtain ⟨q, j, hq, hunits⟩ : ∃ q j, q < 2 ^ 53 ∧ k * one = q * 2 ^ j := by
    rcases Nat.lt_or_eq_of_le hk with hlt | rfl
    · exact ⟨k, places, hlt, by rw [one_eq]⟩
    · -- one bit too many, but the last of them is zero
      refine ⟨2 ^ 52, places + 1, by decide, ?_⟩
      rw [one_eq, ← Nat.pow_add, ← Nat.pow_add, Nat.add_left_comm 52 places 1,
        Nat.add_comm places]
  have hrounded : rounded (k * one) 1 = k * one := by
    rw [hunits, rounded_of_significand hq]
  have hlimit : k * one < limit := by
    have hgreatest : 2 ^ 53 * one < limit := by
      rw [one_eq, ← Nat.pow_add, limit]
      exact Nat.pow_lt_pow_right (by decide) (by decide)
    exact Nat.lt_of_le_of_lt (Nat.mul_le_mul_right _ hk) hgreatest
  cases hquotient : ofQuotient? (k * one) 1 with
  | none =>
    have := ofQuotient?_eq_none_iff.1 hquotient
    omega
  | some m => exact ⟨m, by rw [← ofQuotient?_eq_some_iff.1 hquotient, hrounded]⟩

namespace Binary64

theorem isInteger_iff {x : Binary64} {n : Int} :
    x.IsInteger n ↔
      ∃ s m, x = .finite s m ∧ ∃ k : Nat, m.units = k * Magnitude.one ∧
        n = if s then -(k : Int) else k := by
  have hone : (Magnitude.one : Int) ≠ 0 := by decide
  constructor
  · rintro ⟨s, m, rfl, hn⟩
    have hunits := congrArg Int.natAbs hn
    rw [natAbs_signed, Int.natAbs_mul, Int.natAbs_natCast] at hunits
    refine ⟨s, m, rfl, n.natAbs, hunits, ?_⟩
    refine Int.eq_of_mul_eq_mul_right hone ?_
    rw [← hn, signed, hunits]
    cases s <;> simp
  · rintro ⟨s, m, rfl, k, hunits, rfl⟩
    refine ⟨s, m, rfl, ?_⟩
    rw [signed, hunits]
    cases s <;> simp

/-! ## Operations -/

theorem isInteger_ofQuotient {k d : Nat} (hk : k ≤ 2 ^ 53) (hd : 0 < d) (s : Bool) :
    (ofQuotient s (k * Magnitude.one * d) d).IsInteger (if s then -(k : Int) else k) := by
  obtain ⟨m, hm⟩ := Magnitude.exists_whole hk
  have hquotient : ofQuotient s (k * Magnitude.one * d) d = .finite s m := by
    rw [← hm]
    exact ofQuotient_of_some (Magnitude.ofQuotient?_units m hd)
  exact isInteger_iff.2 ⟨s, m, hquotient, k, hm, rfl⟩

theorem isInteger_ofUnits {n : Int} (hn : n.natAbs ≤ 2 ^ 53) (negativeZero : Bool) :
    (ofUnits negativeZero (n * (Magnitude.one : Int))).IsInteger n := by
  rw [ofUnits]
  split
  · rename_i hzero
    -- a zero equals zero with either sign
    refine ⟨negativeZero, .zero, rfl, ?_⟩
    rw [hzero, signed, Magnitude.units_zero]
    cases negativeZero <;> rfl
  · have hquotient := isInteger_ofQuotient hn Nat.one_pos (decide (n * (Magnitude.one : Int) < 0))
    have hone : (0 : Int) < Magnitude.one := by decide
    have hsign : n * (Magnitude.one : Int) < 0 ↔ n < 0 :=
      ⟨fun h => Int.neg_of_mul_neg_left h hone, fun h => Int.mul_neg_of_neg_of_pos h hone⟩
    have hvalue : (if n < 0 then -(n.natAbs : Int) else n.natAbs) = n := by
      split <;> omega
    rw [Nat.mul_one] at hquotient
    simp only [hsign, decide_eq_true_eq, hvalue] at hquotient
    rw [Int.natAbs_mul, Int.natAbs_natCast]
    simpa only [hsign] using hquotient

theorem IsInteger.neg {x : Binary64} {a : Int} (h : x.IsInteger a) : x.neg.IsInteger (-a) := by
  obtain ⟨s, m, rfl, k, hunits, rfl⟩ := isInteger_iff.1 h
  refine isInteger_iff.2 ⟨!s, m, rfl, k, hunits, ?_⟩
  cases s <;> simp

theorem IsInteger.add {x y : Binary64} {a b : Int} (hx : x.IsInteger a) (hy : y.IsInteger b)
    (h : (a + b).natAbs ≤ 2 ^ 53) : (add x y).IsInteger (a + b) := by
  obtain ⟨s, m, rfl, ha⟩ := hx
  obtain ⟨t, k, rfl, hb⟩ := hy
  rw [Binary64.add, ha, hb, ← Int.add_mul]
  exact isInteger_ofUnits h _

theorem IsInteger.sub {x y : Binary64} {a b : Int} (hx : x.IsInteger a) (hy : y.IsInteger b)
    (h : (a - b).natAbs ≤ 2 ^ 53) : (sub x y).IsInteger (a - b) := by
  rw [Int.sub_eq_add_neg] at h ⊢
  exact hx.add hy.neg h

theorem IsInteger.mul {x y : Binary64} {a b : Int} (hx : x.IsInteger a) (hy : y.IsInteger b)
    (h : (a * b).natAbs ≤ 2 ^ 53) : (mul x y).IsInteger (a * b) := by
  obtain ⟨s, m, rfl, i, hm, rfl⟩ := isInteger_iff.1 hx
  obtain ⟨t, k, rfl, j, hk, rfl⟩ := isInteger_iff.1 hy
  have hunits : m.units * k.units = i * j * Magnitude.one * Magnitude.one := by
    rw [hm, hk, Nat.mul_mul_mul_comm, Nat.mul_assoc (i * j)]
  have hvalue : (if s then -(i : Int) else i) * (if t then -(j : Int) else j) =
      if s != t then -((i * j : Nat) : Int) else (i * j : Nat) := by
    cases s <;> cases t <;> simp
  have hbound : i * j ≤ 2 ^ 53 := by
    rw [hvalue] at h
    split at h <;> omega
  rw [Binary64.mul, hunits, hvalue]
  exact isInteger_ofQuotient hbound (by decide) _

/-! ## Literals -/

/-- Digits of a number up to `2 ^ 53` are read as the magnitude of so many ones. -/
theorem exists_ofDecimal_digits {ds : List Char} (h : ∀ c ∈ ds, c.isDigit = true) (hne : ds ≠ [])
    (hbound : Text.digitsValue ds ≤ 2 ^ 53) (s : Bool) :
    ∃ m, ofDecimal s (.ofDigits ds) = .finite s m ∧
      m.units = Text.digitsValue ds * Magnitude.one := by
  obtain ⟨m, hm⟩ := Magnitude.exists_whole hbound
  have hvalue : (Decimal.ofDigits ds).value = (Decimal.mk (Text.digitsValue ds) 0).value := by
    rw [(denotes_digits h hne).value, Decimal.value, zpow_zero, mul_one]
  exact ⟨m, by rw [ofDecimal_congr hvalue, ofDecimal_whole hm.symm], hm⟩

end Binary64

end Reckoner
