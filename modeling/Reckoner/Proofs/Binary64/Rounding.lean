import Mathlib.Algebra.Group.Nat.Defs
import Reckoner.Binary64.Magnitude
/-!
Rounding to magnitudes.

What a quotient is rounded to is a number of units that depends on the quotient alone, and not on how it
is written, and that grows with it. If it lies below the limit it is a magnitude, and otherwise there is
none. All that is said here of rounding follows from a description of the units rounded to that makes no
difference between the ways in which the significand is found.

What is shown here:
1. `Magnitude.ofQuotient?_eq_some_iff` and `Magnitude.ofQuotient?_eq_none_iff`: a quotient is rounded to
   a magnitude exactly if it is rounded to its units, and overflows exactly if those reach the limit;
2. `Magnitude.rounded_le_of_le`: rounding is monotone;
3. `Magnitude.rounded_congr`: equal quotients are rounded alike;
4. `Magnitude.rounded_units`: a magnitude is rounded to itself.
-/

namespace Reckoner

/-! ## Rounding to whole numbers -/

theorem roundDiv_mul_right (n d : Nat) {k : Nat} (hk : 0 < k) :
    roundDiv (n * k) (d * k) = roundDiv n d := by
  have hdiv : n * k / (d * k) = n / d := Nat.mul_div_mul_right n d hk
  have hmod : n * k % (d * k) = n % d * k := Nat.mul_mod_mul_right k n d
  have hlt : 2 * (n % d * k) < d * k ↔ 2 * (n % d) < d := by
    rw [← Nat.mul_assoc]
    exact Nat.mul_lt_mul_right hk
  have heq : 2 * (n % d * k) = d * k ↔ 2 * (n % d) = d := by
    rw [← Nat.mul_assoc]
    exact Nat.mul_right_cancel_iff hk
  unfold roundDiv
  simp only [hdiv, hmod, hlt, heq]

theorem roundDiv_mono {n m : Nat} (d : Nat) (h : n ≤ m) : roundDiv n d ≤ roundDiv m d := by
  have hquotient : n / d ≤ m / d := Nat.div_le_div_right h
  rcases Nat.lt_or_eq_of_le hquotient with hlt | heq
  · have hn := roundDiv_le n d
    have hm := div_le_roundDiv m d
    omega
  · -- between the same two whole numbers the remainders decide
    have hn := Nat.div_add_mod n d
    have hm := Nat.div_add_mod m d
    rw [heq] at hn
    have hmod : n % d ≤ m % d := by omega
    unfold roundDiv
    rw [heq]
    split
    · split <;> omega
    · split <;> omega

namespace Magnitude

/-! ## Units rounded to -/

/-- The units that a quotient is rounded to, whether or not they are within bounds. -/
def rounded (n d : Nat) : Nat := roundDiv n (d <<< shiftFor (n / d)) <<< shiftFor (n / d)

/-- A magnitude has this many binary digits at most. -/
def width : Nat := 2098

/-- The first power of two beyond the greatest magnitude. -/
def limit : Nat := 2 ^ width

theorem units_lt_limit (x : Magnitude) : x.units < limit := by
  have hsignificand : x.significand < 2 ^ 53 := x.significand_lt
  have hshift : 53 + x.shift ≤ width := Nat.add_le_add_left x.shift_le 53
  calc x.units = x.significand * 2 ^ x.shift := Nat.shiftLeft_eq ..
    _ < 2 ^ 53 * 2 ^ x.shift := Nat.mul_lt_mul_of_pos_right hsignificand (Nat.two_pow_pos _)
    _ = 2 ^ (53 + x.shift) := (Nat.pow_add 2 53 x.shift).symm
    _ ≤ limit := Nat.pow_le_pow_right (by decide) hshift

theorem one_eq : one = 2 ^ places := Nat.one_shiftLeft places

theorem div_shiftLeft_lt (n d : Nat) : n / (d <<< shiftFor (n / d)) < 2 ^ 53 := by
  rw [Nat.shiftLeft_eq, ← Nat.div_div_eq_div_mul, Nat.div_lt_iff_lt_mul (Nat.two_pow_pos _),
    ← Nat.pow_add]
  have hlog : (n / d).log2 + 1 ≤ 53 + shiftFor (n / d) := by
    unfold shiftFor
    omega
  exact Nat.lt_of_lt_of_le Nat.lt_log2_self (Nat.pow_le_pow_right (by decide) hlog)

theorem roundDiv_shiftLeft_le (n d : Nat) : roundDiv n (d <<< shiftFor (n / d)) ≤ 2 ^ 53 := by
  have hround := roundDiv_le n (d <<< shiftFor (n / d))
  have hquotient := div_shiftLeft_lt n d
  omega

theorem rounded_of_carry {n d : Nat}
    (h : ¬roundDiv n (d <<< shiftFor (n / d)) < 9007199254740992) :
    rounded n d = 2 ^ 53 * 2 ^ shiftFor (n / d) := by
  have hle := roundDiv_shiftLeft_le n d
  have heq : roundDiv n (d <<< shiftFor (n / d)) = 2 ^ 53 := by omega
  rw [rounded, heq, Nat.shiftLeft_eq]

theorem units_of_ofQuotient? {n d : Nat} {x : Magnitude} (h : ofQuotient? n d = some x) :
    x.units = rounded n d := by
  unfold ofQuotient? at h
  split at h
  · split at h
    · cases h
      rfl
    · cases h
  · rename_i hcarry
    split at h
    · cases h
      have htwice : 4503599627370496 * 2 = 2 ^ 53 := rfl
      rw [rounded_of_carry hcarry, units, Nat.shiftLeft_eq, Nat.pow_succ', ← Nat.mul_assoc, htwice]
    · cases h

theorem limit_le_of_ofQuotient? {n d : Nat} (h : ofQuotient? n d = none) : limit ≤ rounded n d := by
  unfold ofQuotient? at h
  split at h
  · split at h
    · cases h
    · rename_i hbounded
      have hwidth : width ≤ 52 + shiftFor (n / d) := by
        unfold width
        omega
      have hshift : shiftFor (n / d) ≠ 0 := by omega
      have hfloor := le_div_of_shiftFor_pos hshift
      have hround := div_le_roundDiv n (d <<< shiftFor (n / d))
      have hfull : 2 ^ 52 ≤ roundDiv n (d <<< shiftFor (n / d)) := Nat.le_trans hfloor hround
      calc limit ≤ 2 ^ (52 + shiftFor (n / d)) := Nat.pow_le_pow_right (by decide) hwidth
        _ = 2 ^ 52 * 2 ^ shiftFor (n / d) := Nat.pow_add ..
        _ ≤ rounded n d := by
          rw [rounded, Nat.shiftLeft_eq]
          exact Nat.mul_le_mul_right _ hfull
  · rename_i hcarry
    split at h
    · cases h
    · rename_i hbounded
      have hwidth : width ≤ 53 + shiftFor (n / d) := by
        unfold width
        omega
      calc limit ≤ 2 ^ (53 + shiftFor (n / d)) := Nat.pow_le_pow_right (by decide) hwidth
        _ = 2 ^ 53 * 2 ^ shiftFor (n / d) := Nat.pow_add ..
        _ = rounded n d := (rounded_of_carry hcarry).symm

/-- A quotient is rounded to a magnitude exactly if it is rounded to its units. -/
theorem ofQuotient?_eq_some_iff {n d : Nat} {x : Magnitude} :
    ofQuotient? n d = some x ↔ rounded n d = x.units := by
  constructor
  · intro h
    exact (units_of_ofQuotient? h).symm
  · intro h
    cases hq : ofQuotient? n d with
    | none =>
      have hlimit := limit_le_of_ofQuotient? hq
      have hlt := units_lt_limit x
      omega
    | some y =>
      have hy := units_of_ofQuotient? hq
      rw [units_injective (hy.trans h)]

/-- A quotient overflows exactly if it is rounded to the limit or beyond. -/
theorem ofQuotient?_eq_none_iff {n d : Nat} : ofQuotient? n d = none ↔ limit ≤ rounded n d := by
  constructor
  · exact limit_le_of_ofQuotient?
  · intro h
    cases hq : ofQuotient? n d with
    | none => rfl
    | some y =>
      have hy := units_of_ofQuotient? hq
      have hlt := units_lt_limit y
      omega

theorem rounded_units (x : Magnitude) {d : Nat} (hd : 0 < d) : rounded (x.units * d) d = x.units :=
  ofQuotient?_eq_some_iff.1 (ofQuotient?_units x hd)

theorem rounded_of_significand {q : Nat} (hq : q < 2 ^ 53) (k : Nat) :
    rounded (q * 2 ^ k) 1 = q * 2 ^ k := by
  have hshift : shiftFor (q * 2 ^ k) ≤ k := by
    unfold shiftFor
    by_cases hzero : q * 2 ^ k = 0
    · simp [hzero]
    · have hbound : q * 2 ^ k < 2 ^ (53 + k) := by
        rw [Nat.pow_add]
        exact Nat.mul_lt_mul_of_pos_right hq (Nat.two_pow_pos k)
      have hlog := (Nat.log2_lt hzero).2 hbound
      omega
  obtain ⟨j, hj⟩ := Nat.exists_eq_add_of_le' hshift
  have hsplit : q * 2 ^ k = q * 2 ^ j * 2 ^ shiftFor (q * 2 ^ k) := by
    rw [Nat.mul_assoc, ← Nat.pow_add, ← hj]
  calc rounded (q * 2 ^ k) 1
      = roundDiv (q * 2 ^ k) (2 ^ shiftFor (q * 2 ^ k)) * 2 ^ shiftFor (q * 2 ^ k) := by
        rw [rounded, Nat.div_one, Nat.one_shiftLeft, Nat.shiftLeft_eq]
    _ = roundDiv (q * 2 ^ j * 2 ^ shiftFor (q * 2 ^ k)) (2 ^ shiftFor (q * 2 ^ k)) *
          2 ^ shiftFor (q * 2 ^ k) := by rw [← hsplit]
    _ = q * 2 ^ j * 2 ^ shiftFor (q * 2 ^ k) := by rw [roundDiv_mul_self _ (Nat.two_pow_pos _)]
    _ = q * 2 ^ k := hsplit.symm

/-! ## Equal and greater quotients -/

theorem rounded_mul_right (n d : Nat) {k : Nat} (hk : 0 < k) :
    rounded (n * k) (d * k) = rounded n d := by
  have hshifted : ∀ s, (d * k) <<< s = (d <<< s) * k := by
    intro s
    rw [Nat.shiftLeft_eq, Nat.shiftLeft_eq, Nat.mul_right_comm]
  rw [rounded, rounded, Nat.mul_div_mul_right n d hk, hshifted, roundDiv_mul_right _ _ hk]

theorem shiftFor_mono {p q : Nat} (h : p ≤ q) : shiftFor p ≤ shiftFor q := by
  unfold shiftFor
  by_cases hp : p = 0
  · simp [hp]
  · have hq : q ≠ 0 := by omega
    have hlog : p.log2 ≤ q.log2 := (Nat.le_log2 hq).2 (Nat.le_trans (Nat.log2_self_le hp) h)
    omega

theorem rounded_mono {n m : Nat} (d : Nat) (h : n ≤ m) : rounded n d ≤ rounded m d := by
  have hquotient : n / d ≤ m / d := Nat.div_le_div_right h
  rcases Nat.lt_or_eq_of_le (shiftFor_mono hquotient) with hlt | heq
  · -- a greater shift begins where the smaller one ends
    have hshift : shiftFor (m / d) ≠ 0 := by omega
    have hfull : 2 ^ 52 ≤ roundDiv m (d <<< shiftFor (m / d)) :=
      Nat.le_trans (le_div_of_shiftFor_pos hshift) (div_le_roundDiv _ _)
    calc rounded n d
        ≤ 2 ^ 53 * 2 ^ shiftFor (n / d) := by
          rw [rounded, Nat.shiftLeft_eq]
          exact Nat.mul_le_mul_right _ (roundDiv_shiftLeft_le n d)
      _ = 2 ^ 52 * 2 ^ (shiftFor (n / d) + 1) := by rw [← Nat.pow_add, ← Nat.pow_add]; congr 1; omega
      _ ≤ 2 ^ 52 * 2 ^ shiftFor (m / d) :=
          Nat.mul_le_mul_left _ (Nat.pow_le_pow_right (by decide) hlt)
      _ ≤ rounded m d := by
          rw [rounded, Nat.shiftLeft_eq]
          exact Nat.mul_le_mul_right _ hfull
  · have hround := roundDiv_mono (d <<< shiftFor (m / d)) h
    rw [rounded, rounded, heq, Nat.shiftLeft_eq (roundDiv n _), Nat.shiftLeft_eq (roundDiv m _)]
    exact Nat.mul_le_mul_right _ hround

theorem rounded_le_of_le {n d m e : Nat} (hd : 0 < d) (he : 0 < e) (h : n * e ≤ m * d) :
    rounded n d ≤ rounded m e := by
  calc rounded n d = rounded (n * e) (d * e) := (rounded_mul_right n d he).symm
    _ ≤ rounded (m * d) (d * e) := rounded_mono _ h
    _ = rounded (m * d) (e * d) := by rw [Nat.mul_comm d e]
    _ = rounded m e := rounded_mul_right m e hd

theorem rounded_congr {n d m e : Nat} (hd : 0 < d) (he : 0 < e) (h : n * e = m * d) :
    rounded n d = rounded m e :=
  Nat.le_antisymm (rounded_le_of_le hd he (Nat.le_of_eq h))
    (rounded_le_of_le he hd (Nat.le_of_eq h.symm))

end Magnitude

end Reckoner
