import Reckoner.Proofs.Binary64.Display
/-!
Which numbers are shown with a power of ten.

A whole number is shown in full, and a number with a fraction is less than `2 ^ 52`, so its first digit
never stands too high to be shown with a point alone. What is left for a power of ten are the numbers
below `10 ^ -4` other than zero. The first digit of a number is that of a decimal that is rounded to it,
and it is compared with a power of ten by comparing the units that both are rounded to.

What is shown here:
1. `Decimal.le_value` and `Decimal.value_lt`: a decimal lies between two powers of ten, and its first
   digit tells which;
2. `leading_shortest_le` and `leading_shortest_lt_iff`: where the first digit of a number stands;
3. `display_cases`: the two forms of a display, and the numbers that are shown in each of them.
-/

namespace Reckoner

namespace Decimal

/-! ## Between two powers of ten -/

theorem value_lt (d : Decimal) : d.value < 10 ^ (d.leading + 1) := by
  have hcoefficient : (d.coefficient : ℚ) < 10 ^ (Text.decimalDigits d.coefficient).length := by
    exact_mod_cast Text.lt_pow_decimalDigits d.coefficient
  have hexponent :
      d.leading + 1 = ((Text.decimalDigits d.coefficient).length : ℤ) + d.exponent := by
    rw [leading]
    omega
  rw [hexponent, zpow_add₀ (by norm_num), zpow_natCast, value]
  exact mul_lt_mul_of_pos_right hcoefficient (by positivity)

theorem le_value {d : Decimal} (hd : d.coefficient ≠ 0) : 10 ^ d.leading ≤ d.value := by
  have hcoefficient :
      (10 : ℚ) ^ ((Text.decimalDigits d.coefficient).length - 1) ≤ d.coefficient := by
    exact_mod_cast Text.pow_le_of_decimalDigits hd
  have hpos := List.length_pos_iff.2 (Text.decimalDigits_ne_nil d.coefficient)
  have hexponent :
      d.leading = (((Text.decimalDigits d.coefficient).length - 1 : Nat) : ℤ) + d.exponent := by
    rw [leading]
    omega
  rw [hexponent, zpow_add₀ (by norm_num), zpow_natCast, value]
  exact mul_le_mul_of_nonneg_right hcoefficient (by positivity)

theorem value_power (k : ℤ) : (Decimal.mk 1 k).value = 10 ^ k := by
  rw [value, Nat.cast_one, one_mul]

theorem rounded_le_of_leading_lt {d : Decimal} {k : ℤ} (h : d.leading < k) :
    d.rounded ≤ (Decimal.mk 1 k).rounded := by
  refine rounded_le_of_value_le ?_
  calc d.value ≤ 10 ^ (d.leading + 1) := d.value_lt.le
    _ ≤ 10 ^ k := zpow_le_zpow_right₀ (by norm_num) (by omega)
    _ = (Decimal.mk 1 k).value := (value_power k).symm

theorem le_rounded_of_le_leading {d : Decimal} {k : ℤ} (hd : d.coefficient ≠ 0)
    (h : k ≤ d.leading) : (Decimal.mk 1 k).rounded ≤ d.rounded := by
  refine rounded_le_of_value_le ?_
  calc (Decimal.mk 1 k).value = 10 ^ k := value_power k
    _ ≤ 10 ^ d.leading := zpow_le_zpow_right₀ (by norm_num) h
    _ ≤ d.value := le_value hd

theorem head?_digits {d : Decimal} (hd : d.coefficient ≠ 0) : d.digits.head? ≠ some '0' := by
  obtain ⟨k, hall⟩ := d.exists_digits
  obtain ⟨c, rest, hdigits⟩ := List.exists_cons_of_ne_nil (digits_ne_nil hd)
  have hhead := Text.head?_decimalDigits hd
  rw [hall, hdigits, List.cons_append, List.head?_cons] at hhead
  rw [hdigits, List.head?_cons]
  exact hhead

end Decimal

namespace Magnitude

/-! ## Where the first digit of a number stands -/

theorem units_lt_of_fraction {m : Magnitude} (h : m.units % one ≠ 0) : m.units < 2 ^ 52 * one := by
  have hplaces : m.shift < places := by
    refine Nat.lt_of_not_le fun hle => h (Nat.mod_eq_zero_of_dvd ?_)
    rw [units, Nat.shiftLeft_eq, one_eq]
    exact Nat.dvd_mul_left_of_dvd (Nat.pow_dvd_pow 2 hle) _
  have hsignificand : m.significand < 2 ^ 53 := m.significand_lt
  calc m.units = m.significand * 2 ^ m.shift := Nat.shiftLeft_eq ..
    _ < 2 ^ 53 * 2 ^ m.shift := Nat.mul_lt_mul_of_pos_right hsignificand (Nat.two_pow_pos _)
    _ = 2 ^ 52 * 2 ^ (m.shift + 1) := by
      rw [← Nat.pow_add, ← Nat.pow_add]
      exact congrArg (2 ^ ·) (by omega)
    _ ≤ 2 ^ 52 * 2 ^ places := Nat.mul_le_mul_left _ (Nat.pow_le_pow_right (by decide) hplaces)
    _ = 2 ^ 52 * one := by rw [one_eq]

/-- Whether a magnitude is positive and below `10 ^ -4`. -/
def Tiny (m : Magnitude) : Prop := 0 < m.units ∧ m.units * 10 ^ 4 < one

/-- The magnitude that `10 ^ -4` is rounded to. -/
def tenThousandth : Magnitude := ⟨7378697629483821, 1008, by decide, by decide, by decide⟩

theorem rounded_tenThousandth : (Decimal.mk 1 (-4)).rounded = tenThousandth.units := by
  decide +kernel

theorem units_lt_tenThousandth_iff {m : Magnitude} :
    m.units < tenThousandth.units ↔ m.units * 10 ^ 4 < one := by
  constructor
  · intro h
    refine Nat.lt_of_not_le fun hle => Nat.not_le_of_lt h ?_
    calc tenThousandth.units = rounded (1 * one) (Nat.pow 10 4) := rounded_tenThousandth.symm
      _ ≤ rounded (m.units * 1) 1 := by
        refine rounded_le_of_le (by decide) Nat.one_pos ?_
        rw [Nat.one_mul, Nat.mul_one, Nat.mul_one]
        exact hle
      _ = m.units := m.rounded_units Nat.one_pos
  · intro h
    have habove : one ≤ tenThousandth.units * 10 ^ 4 := by decide
    exact Nat.lt_of_mul_lt_mul_right (Nat.lt_of_lt_of_le h habove)

open Binary64 in
/-- The first digit of a number with a fraction stands no higher than a layout without a power of ten
goes. -/
theorem leading_shortest_le {m : Magnitude} (h : m.units % one ≠ 0) : m.shortest.leading ≤ 15 := by
  refine Int.le_of_not_gt fun hlt => ?_
  have hm := units_ne_zero_of_fraction h
  have hpower : 2 ^ 52 * one ≤ (Decimal.mk 1 16).rounded := by decide +kernel
  have hle := Decimal.le_rounded_of_le_leading (coefficient_shortest hm) (k := 16) (by omega)
  have hfraction := units_lt_of_fraction h
  rw [rounded_shortest] at hle
  omega

open Binary64 in
theorem leading_shortest_lt_iff {m : Magnitude} (hm : m.units ≠ 0) :
    m.shortest.leading < -4 ↔ m.units * 10 ^ 4 < one := by
  rw [← units_lt_tenThousandth_iff]
  constructor
  · intro h
    have hle := Decimal.rounded_le_of_leading_lt h
    rw [rounded_shortest, rounded_tenThousandth] at hle
    refine Nat.lt_of_le_of_ne hle fun heq => ?_
    have hleading : tenThousandth.shortest.leading = -4 := by decide +kernel
    rw [units_injective heq, hleading] at h
    exact absurd h (by decide)
  · intro h
    refine Int.lt_of_not_ge fun hge => ?_
    have hle := Decimal.le_rounded_of_le_leading (coefficient_shortest hm) hge
    rw [rounded_shortest, rounded_tenThousandth] at hle
    omega

open Binary64 in
theorem le_leading_shortest {m : Magnitude} (hm : m.units ≠ 0) : -400 ≤ m.shortest.leading := by
  refine Int.le_of_not_gt fun hlt => hm ?_
  rw [← rounded_shortest]
  refine rounded_eq_zero_of_value ?_
  calc m.shortest.value ≤ 10 ^ (m.shortest.leading + 1) := m.shortest.value_lt.le
    _ ≤ 10 ^ (-400 : ℤ) := zpow_le_zpow_right₀ (by norm_num) (by omega)

end Magnitude

namespace Binary64

/-! ## The two forms of a display -/

theorem power_of_neg (f : Layout) {e : ℤ} (he : e < 0) :
    f.power e = 'e' :: '-' :: Text.paddedDigits f.powerDigits e.natAbs := by
  rw [Layout.power, if_pos he]

/-- A finite number that is not tiny is shown as a numeral, possibly behind a minus. A tiny one is shown
with a power of ten that is negative. -/
theorem display_cases (s : Bool) (m : Magnitude) :
    (¬m.Tiny ∧ ∃ sign ds, (display (.finite s m)).toList = Text.signText sign ++ ds ∧
        isNumeral ds = true) ∨
      (m.Tiny ∧ ∃ n ≤ 400, (display (.finite s m)).toList =
        Text.signText s ++ (Layout.mantissa m.shortest.digits ++
          'e' :: '-' :: Text.paddedDigits 2 n)) := by
  rw [display]
  rcases integer?_finite s m with ⟨k, hk, hinteger⟩ | ⟨hfraction, hinteger⟩
  · -- a whole number is zero or one at least
    refine .inl ⟨?_, ?_⟩
    · rintro ⟨hpos, hlt⟩
      rw [← hk] at hpos hlt
      have hpositive := Nat.pos_of_mul_pos_right hpos
      have hone : 1 * Magnitude.one ≤ k * Magnitude.one * 10 ^ 4 :=
        Nat.le_trans (Nat.mul_le_mul_right _ hpositive) (Nat.le_mul_of_pos_right _ (by decide))
      omega
    · rw [hinteger]
      exact ⟨_, _, String.toList_ofList, isNumeral_digits
        (fun c hc => Text.isDigit_decimalDigits hc) (Text.decimalDigits_ne_nil _)⟩
  · have hm := units_ne_zero_of_fraction hfraction
    have hne := Decimal.digits_ne_nil (coefficient_shortest hm)
    have htiny : m.Tiny ↔ m.shortest.leading < -4 := by
      rw [Magnitude.leading_shortest_lt_iff hm, Magnitude.Tiny, and_iff_right (Nat.pos_of_ne_zero hm)]
    have hhigh := Magnitude.leading_shortest_le hfraction
    rw [hinteger, htiny]
    simp only [text_finite hm, String.toList_ofList, Layout.write_eq]
    by_cases hlow : m.shortest.leading < -4
    · have hlayout : ¬(Layout.standard.leastPlain ≤ m.shortest.leading ∧
          m.shortest.leading ≤ Layout.standard.greatestPlain) := fun h => absurd h.1 (not_le.2 hlow)
      have hleast := Magnitude.le_leading_shortest hm
      refine .inr ⟨hlow, m.shortest.leading.natAbs, by omega, ?_⟩
      rw [if_neg hlayout, Layout.scientific_eq _ hne, power_of_neg _ (by omega)]
      rfl
    · have hlayout : Layout.standard.leastPlain ≤ m.shortest.leading ∧
          m.shortest.leading ≤ Layout.standard.greatestPlain := ⟨not_lt.1 hlow, hhigh⟩
      refine .inl ⟨hlow, s, _, rfl, ?_⟩
      rw [if_pos hlayout]
      exact (Layout.denotes_withPoint m.shortest.isDigit_digits hne _).numeral

theorem e_mem_display_iff (s : Bool) (m : Magnitude) :
    'e' ∈ (display (.finite s m)).toList ↔ m.Tiny := by
  rcases display_cases s m with ⟨htiny, sign, ds, hdisplay, hds⟩ | ⟨htiny, n, -, hdisplay⟩
  · refine iff_of_false (fun he => ?_) htiny
    rw [hdisplay, List.mem_append] at he
    rcases he with he | he
    · cases sign <;> simp [Text.signText] at he
    · exact absurd (isNumberChar_of_isNumeral hds _ he) (by decide)
  · refine iff_of_true ?_ htiny
    rw [hdisplay]
    simp

end Binary64

end Reckoner
