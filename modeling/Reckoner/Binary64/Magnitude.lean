/-!
The finite magnitudes of binary64 arithmetic.

A magnitude is a whole number of *units*, one unit being the least positive number `2 ^ -1074`, with
at most 53 significant bits. Rounding a quotient of whole numbers to the nearest magnitude is then a
matter of whole-number division alone, and every operation on magnitudes is such a quotient.

What is shown here:
1. `Magnitude.ofQuotient?` builds canonical magnitudes only (the type carries it);
2. `Magnitude.ofQuotient?_units`: a quotient that is exactly a magnitude rounds to it;
3. `Magnitude.units_injective`: a magnitude is determined by its number of units.
-/

namespace Reckoner

/-- The whole number nearest to `n / d`; a quotient half way between two goes to the even one. -/
@[irreducible]
def roundDiv (n d : Nat) : Nat :=
  if 2 * (n % d) < d ∨ (2 * (n % d) = d ∧ (n / d) % 2 = 0) then n / d else n / d + 1

theorem div_le_roundDiv (n d : Nat) : n / d ≤ roundDiv n d := by
  unfold roundDiv
  split <;> omega

theorem roundDiv_le (n d : Nat) : roundDiv n d ≤ n / d + 1 := by
  unfold roundDiv
  split <;> omega

theorem roundDiv_mul_self (m : Nat) {d : Nat} (h : 0 < d) : roundDiv (m * d) d = m := by
  simp [roundDiv, Nat.mul_div_cancel m h, h]

/-- A finite magnitude: `significand * 2 ^ shift` units of `2 ^ -1074`, in the one form in which the
shift is as small as 53 bits allow: the significand is less than `2 ^ 53`, and not less than `2 ^ 52`
where there is a shift. -/
structure Magnitude where
  significand : Nat
  shift : Nat
  significand_lt : significand < 9007199254740992
  shift_le : shift ≤ 2045
  normal : shift = 0 ∨ 4503599627370496 ≤ significand
  deriving DecidableEq

namespace Magnitude

/-- The number of units, that is the magnitude as a whole multiple of `2 ^ -1074`. -/
def units (x : Magnitude) : Nat := x.significand <<< x.shift

/-- A unit has this many places after the point, written in base two or in base ten. -/
def places : Nat := 1074

theorem places_pos : 0 < places := by decide

/-- The number of units in the number one. -/
def one : Nat := 1 <<< places

def zero : Magnitude := ⟨0, 0, by decide, by decide, .inl rfl⟩

/-- How far the significand of a magnitude near `q` units is shifted: whatever exceeds 53 bits. -/
def shiftFor (q : Nat) : Nat := q.log2 - 52

theorem le_div_of_shiftFor_pos {n d : Nat} (h : shiftFor (n / d) ≠ 0) :
    4503599627370496 ≤ n / (d <<< shiftFor (n / d)) := by
  have hq : n / d ≠ 0 := by
    intro h0
    simp [h0, shiftFor] at h
  have hlog : 52 + shiftFor (n / d) = (n / d).log2 := by
    unfold shiftFor at h ⊢
    omega
  have hle := Nat.log2_self_le hq
  rw [← hlog, Nat.pow_add] at hle
  rw [Nat.shiftLeft_eq, ← Nat.div_div_eq_div_mul, Nat.le_div_iff_mul_le (Nat.two_pow_pos _)]
  exact hle

/-- The magnitude nearest to `n / d` units, ties going to the even significand; `none` when the
nearest one lies beyond the greatest magnitude. -/
def ofQuotient? (n d : Nat) : Option Magnitude :=
  if carry : roundDiv n (d <<< shiftFor (n / d)) < 9007199254740992 then
    if bounded : shiftFor (n / d) ≤ 2045 then
      some {
        significand := roundDiv n (d <<< shiftFor (n / d))
        shift := shiftFor (n / d)
        significand_lt := carry
        shift_le := bounded
        normal := by
          by_cases h : shiftFor (n / d) = 0
          · exact .inl h
          · exact .inr (Nat.le_trans (le_div_of_shiftFor_pos h) (div_le_roundDiv _ _)) }
    else none
  else if bounded : shiftFor (n / d) + 1 ≤ 2045 then
    some ⟨4503599627370496, shiftFor (n / d) + 1, by decide, bounded, .inr (Nat.le_refl _)⟩
  else none

theorem shiftFor_units (x : Magnitude) : shiftFor x.units = x.shift := by
  have hlt := x.significand_lt
  rcases x.normal with h | h
  · have hu : x.units = x.significand := by simp [units, h]
    rw [hu, h, shiftFor]
    by_cases h0 : x.significand = 0
    · simp [h0]
    · have hlog : x.significand.log2 < 53 := (Nat.log2_lt h0).2 hlt
      omega
  · have hu : x.units ≠ 0 := by
      rw [units, Nat.shiftLeft_eq]
      exact Nat.mul_ne_zero (by omega) (Nat.pos_iff_ne_zero.1 (Nat.two_pow_pos _))
    have hlog : x.units.log2 = 52 + x.shift := by
      rw [Nat.log2_eq_iff hu, units, Nat.shiftLeft_eq]
      constructor
      · rw [Nat.pow_add]
        exact Nat.mul_le_mul_right _ h
      · rw [show 52 + x.shift + 1 = 53 + x.shift by omega, Nat.pow_add]
        exact Nat.mul_lt_mul_of_pos_right hlt (Nat.two_pow_pos _)
    rw [shiftFor, hlog]
    omega

theorem ofQuotient?_units (x : Magnitude) {d : Nat} (h : 0 < d) :
    ofQuotient? (x.units * d) d = some x := by
  have hr : roundDiv (x.units * d) (d <<< x.shift) = x.significand := by
    have hmul : x.units * d = x.significand * (d <<< x.shift) := by
      simp only [units, Nat.shiftLeft_eq, Nat.mul_assoc, Nat.mul_comm d]
    rw [hmul]
    refine roundDiv_mul_self _ ?_
    rw [Nat.shiftLeft_eq]
    exact Nat.mul_pos h (Nat.two_pow_pos _)
  have hs : shiftFor (x.units * d / d) = x.shift := by
    rw [Nat.mul_div_cancel _ h, shiftFor_units]
  simp only [ofQuotient?, hs, hr, x.significand_lt, x.shift_le, dite_true]

theorem units_zero : zero.units = 0 := by simp [zero, units]

theorem units_eq_zero_iff (x : Magnitude) : x.units = 0 ↔ x.significand = 0 := by
  rw [units, Nat.shiftLeft_eq]
  constructor
  · intro h
    rcases Nat.mul_eq_zero.1 h with h | h
    · exact h
    · exact absurd h (Nat.pos_iff_ne_zero.1 (Nat.two_pow_pos _))
  · intro h
    simp [h]

/-- Of two magnitudes with the same units the shifts agree: the smaller shift would need a
significand of more than 53 bits. -/
theorem shift_le_of_units_eq {x y : Magnitude} (h : x.units = y.units) : y.shift ≤ x.shift := by
  refine Nat.le_of_not_lt fun hlt => ?_
  have hy : 4503599627370496 ≤ y.significand := by
    rcases y.normal with h0 | h1
    · omega
    · exact h1
  obtain ⟨k, hk⟩ : ∃ k, y.shift = k + 1 + x.shift := ⟨y.shift - x.shift - 1, by omega⟩
  simp only [units, Nat.shiftLeft_eq, hk, Nat.pow_add, ← Nat.mul_assoc] at h
  have hs := Nat.eq_of_mul_eq_mul_right (Nat.two_pow_pos _) h
  have hbig := Nat.mul_le_mul hy (Nat.two_pow_pos k)
  have := x.significand_lt
  omega

theorem units_injective {x y : Magnitude} (h : x.units = y.units) : x = y := by
  have hs : x.shift = y.shift :=
    Nat.le_antisymm (shift_le_of_units_eq h.symm) (shift_le_of_units_eq h)
  obtain ⟨m, s, _, _, _⟩ := x
  obtain ⟨m', s', _, _, _⟩ := y
  simp only [units, Nat.shiftLeft_eq] at h hs
  subst hs
  obtain rfl := Nat.eq_of_mul_eq_mul_right (Nat.two_pow_pos _) h
  rfl

end Magnitude

end Reckoner
