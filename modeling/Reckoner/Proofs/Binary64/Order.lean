import Mathlib.Data.Rat.Floor
import Reckoner.Proofs.Binary64.WholeNumber
/-!
The order of numbers, and their values.

Numbers that can be compared stand in one order: the negative infinity, the finite numbers by their units,
the two zeros side by side, and the positive infinity. A finite number is also a fraction, and a product is
that of the fractions, rounded. Rounding passes no whole number up to `2 ^ 53`, since these stay as they
are.

What is shown here:
1. `lt_iff_height_lt`: how two numbers compare;
2. `exists_mul_ofNat`: the product of a fraction and a whole number is finite;
3. `floor_mul_ofNat`: its whole part is one of the whole numbers around the exact product.
-/

namespace Reckoner.Binary64

/-- The height of a number in the order of numbers, in units. The infinities stand at the limit that no
finite number reaches. -/
def height : Binary64 → ℤ
  | .finite s m => signed s m
  | .infinite s => if s then -Magnitude.limit else Magnitude.limit
  | .nan => 0

theorem signed_between (s : Bool) (m : Magnitude) :
    -(Magnitude.limit : ℤ) < signed s m ∧ signed s m < Magnitude.limit := by
  have hlimit := m.units_lt_limit
  cases s with
  | false =>
    rw [signed, if_neg Bool.false_ne_true]
    omega
  | true =>
    rw [signed, if_pos rfl]
    omega

theorem lt_iff_height_lt {x y : Binary64} (hx : x ≠ .nan) (hy : y ≠ .nan) :
    lt x y = true ↔ x.height < y.height := by
  have hlimit : -(Magnitude.limit : ℤ) < Magnitude.limit :=
    (signed_between false .zero).1.trans (signed_between false .zero).2
  cases x with
  | nan => exact absurd rfl hx
  | infinite s =>
    cases y with
    | nan => exact absurd rfl hy
    | infinite t =>
      match s, t with
      | false, false => exact iff_of_false Bool.false_ne_true (lt_irrefl _)
      | false, true => exact iff_of_false Bool.false_ne_true hlimit.asymm
      | true, false => exact iff_of_true rfl hlimit
      | true, true => exact iff_of_false Bool.false_ne_true (lt_irrefl _)
    | finite t k =>
      cases s with
      | false => exact iff_of_false Bool.false_ne_true (signed_between t k).2.asymm
      | true => exact iff_of_true rfl (signed_between t k).1
  | finite s m =>
    cases y with
    | nan => exact absurd rfl hy
    | infinite t =>
      cases t with
      | false => exact iff_of_true rfl (signed_between s m).2
      | true => exact iff_of_false Bool.false_ne_true (signed_between s m).1.asymm
    | finite t k => exact decide_eq_true_iff

/-- The fraction that a finite number is. -/
def value : Binary64 → ℚ
  | .finite s m => signed s m / (Magnitude.one : ℚ)
  | _ => 0

theorem exists_of_fraction {q : Binary64} (hpos : lt .zero q = true) (hone : intLt 1 q = false) :
    ∃ m : Magnitude, q = .finite false m ∧ 0 < m.units ∧ m.units ≤ Magnitude.one := by
  cases q with
  | nan => cases hpos
  | infinite s => cases s <;> simp [lt, intLt, zero] at hpos hone
  | finite s m =>
    have hunits : 0 < signed s m := by simpa [lt, zero, signed, Magnitude.units_zero] using hpos
    have hle : signed s m ≤ Magnitude.one := by simpa [intLt] using hone
    cases s with
    | false => exact ⟨m, rfl, by simpa [signed] using hunits, by simpa [signed] using hle⟩
    | true =>
      rw [signed, if_pos rfl] at hunits
      omega

theorem rounded_whole {k d : Nat} (hk : k ≤ 2 ^ 53) (hd : 0 < d) :
    Magnitude.rounded (k * Magnitude.one * d) d = k * Magnitude.one := by
  obtain ⟨m, hm⟩ := Magnitude.exists_whole hk
  rw [← hm, Magnitude.rounded_units m hd]

theorem value_finite (m : Magnitude) : (finite false m).value = m.units / Magnitude.one := rfl

theorem value_of_fraction {q : Binary64} (hpos : lt .zero q = true) (hone : intLt 1 q = false) :
    0 < q.value ∧ q.value ≤ 1 := by
  obtain ⟨m, rfl, hm, hle⟩ := exists_of_fraction hpos hone
  have hunit : (0 : ℚ) < Magnitude.one := Nat.cast_pos.2 (by decide)
  rw [value_finite]
  exact ⟨div_pos (Nat.cast_pos.2 hm) hunit, (div_le_one hunit).2 (Nat.cast_le.2 hle)⟩

/-- A fraction that is not above one, multiplied by a number up to `2 ^ 53`. -/
theorem exists_mul_ofNat {m : Magnitude} (hm : m.units ≤ Magnitude.one) {n : Nat} (hn : n ≤ 2 ^ 53) :
    ∃ p : Magnitude, mul (.finite false m) (.ofNat n) = .finite false p ∧
      p.units = Magnitude.rounded (m.units * n * Magnitude.one) Magnitude.one := by
  have hone : 0 < Magnitude.one := by decide
  obtain ⟨k, hk⟩ := Magnitude.exists_whole hn
  have hcount : ofNat n = .finite false k := by
    have hexact := Magnitude.ofQuotient?_units k Nat.one_pos
    rw [hk] at hexact
    rw [ofNat, ← Nat.mul_one (n * Magnitude.one)]
    exact ofQuotient_of_some hexact
  have hproduct : m.units * k.units = m.units * n * Magnitude.one := by rw [hk, Nat.mul_assoc]
  -- the product is not above the number, so it does not overflow
  have hbound : Magnitude.rounded (m.units * n * Magnitude.one) Magnitude.one < Magnitude.limit := by
    have hle : m.units * n * Magnitude.one ≤ n * Magnitude.one * Magnitude.one := by
      refine Nat.mul_le_mul_right _ ?_
      rw [Nat.mul_comm n]
      exact Nat.mul_le_mul_right _ hm
    calc Magnitude.rounded (m.units * n * Magnitude.one) Magnitude.one
        ≤ n * Magnitude.one := by
          rw [← rounded_whole hn hone]
          exact Magnitude.rounded_mono _ hle
      _ = k.units := hk.symm
      _ < Magnitude.limit := k.units_lt_limit
  cases hquotient : Magnitude.ofQuotient? (m.units * n * Magnitude.one) Magnitude.one with
  | none =>
    have := Magnitude.ofQuotient?_eq_none_iff.1 hquotient
    omega
  | some p =>
    refine ⟨p, ?_, (Magnitude.ofQuotient?_eq_some_iff.1 hquotient).symm⟩
    rw [hcount, mul, hproduct]
    exact ofQuotient_of_some hquotient

/-- Rounding passes no whole number, so the whole part of a product as rounded lies between the whole
numbers around the exact product. -/
theorem floor_mul_ofNat {m : Magnitude} (hm : m.units ≤ Magnitude.one) {n : Nat} (hn : n ≤ 2 ^ 53) :
    ⌊(finite false m).value * n⌋₊ ≤ ⌊(mul (.finite false m) (.ofNat n)).value⌋₊ ∧
      ⌊(mul (.finite false m) (.ofNat n)).value⌋₊ ≤ ⌈(finite false m).value * n⌉₊ := by
  have hone : 0 < Magnitude.one := by decide
  obtain ⟨p, hproduct, hp⟩ := exists_mul_ofNat hm hn
  have hexact : (finite false m).value * n = ((m.units * n : ℕ) : ℚ) / Magnitude.one := by
    rw [value_finite, Nat.cast_mul, div_mul_eq_mul_div]
  rw [hproduct, hexact, value_finite, Rat.natFloor_natCast_div_natCast,
    Rat.natFloor_natCast_div_natCast]
  have hle : m.units * n ≤ Magnitude.one * n := Nat.mul_le_mul_right _ hm
  constructor
  · have hfloor : m.units * n / Magnitude.one ≤ n := Nat.div_le_of_le_mul hle
    rw [Nat.le_div_iff_mul_le hone, hp, ← rounded_whole (hfloor.trans hn) hone]
    exact Magnitude.rounded_mono _ (Nat.mul_le_mul_right _ (Nat.div_mul_le_self _ _))
  · have habove := Nat.le_ceil (((m.units * n : ℕ) : ℚ) / Magnitude.one)
    have hceil : ⌈((m.units * n : ℕ) : ℚ) / Magnitude.one⌉₊ ≤ n := by
      rw [Nat.ceil_le, div_le_iff₀' (Nat.cast_pos.2 hone)]
      exact_mod_cast hle
    generalize ⌈((m.units * n : ℕ) : ℚ) / Magnitude.one⌉₊ = b at habove hceil
    rw [div_le_iff₀ (Nat.cast_pos.2 hone)] at habove
    have hunits : m.units * n ≤ b * Magnitude.one := by exact_mod_cast habove
    have hrounded : p.units ≤ b * Magnitude.one := by
      rw [hp, ← rounded_whole (hceil.trans hn) hone]
      exact Magnitude.rounded_mono _ (Nat.mul_le_mul_right _ hunits)
    exact Nat.div_le_of_le_mul (hrounded.trans_eq (Nat.mul_comm _ _))

end Reckoner.Binary64
