import Reckoner.Proofs.Binary64.Notation
/-!
The display of a number denotes it.

A whole number is shown in full and any other number by a decimal that reads back, so that what is shown
is read as the number again. Only the sign of a zero is lost, since a zero is shown without one. Two
numbers are therefore shown alike exactly if they are equal as numbers.

What is shown here:
1. `ofText?_display`: what is shown is read as the number, up to the sign of a zero;
2. `display_eq_iff`: equal displays are displays of equal numbers;
3. `isInteger_display`: a whole number is shown as its digits;
4. `display_faithful`: all of these together.
-/

namespace Reckoner

namespace Text

/-- A text is an integer in decimal digits: a zero, or an optional minus and digits that do not begin
with a zero. -/
def IsInteger (cs : List Char) (n : Int) : Prop :=
  (cs = ['0'] ∧ n = 0) ∨
    ∃ negative ds, cs = signText negative ++ ds ∧ (∀ c ∈ ds, c.isDigit = true) ∧ ds ≠ [] ∧
      ds.head? ≠ some '0' ∧ n = if negative then -(digitsValue ds : Int) else digitsValue ds

theorem isInteger_integerText (n : Int) : IsInteger (integerText n).toList n := by
  rw [integerText, String.toList_ofList]
  rcases eq_or_ne n 0 with rfl | hn
  · exact .inl ⟨rfl, rfl⟩
  · refine .inr ⟨decide (n < 0), decimalDigits n.natAbs, rfl, fun c hc => isDigit_decimalDigits hc,
      decimalDigits_ne_nil _, head?_decimalDigits (Int.natAbs_ne_zero.2 hn), ?_⟩
    rw [digitsValue_decimalDigits]
    by_cases hneg : n < 0
    · rw [if_pos (decide_eq_true hneg)]
      omega
    · rw [if_neg (by simpa using hneg)]
      omega

end Text

namespace Binary64

/-- The number without the sign of a zero. -/
def unsignedZero (x : Binary64) : Binary64 := if x.isZero then .zero else x

/-- Equality of numbers: the two zeros are equal, and what is not a number equals nothing. -/
def SameNumber : Binary64 → Binary64 → Prop
  | .finite s x, .finite t y => signed s x = signed t y
  | .infinite s, .infinite t => s = t
  | _, _ => False

/-- A number is finite and equals an integer. -/
def IsInteger (x : Binary64) (n : Int) : Prop :=
  ∃ s m, x = .finite s m ∧ signed s m = n * (Magnitude.one : Int)

/-! ## Zeros and signs -/

theorem eq_zero_of_isZero {x : Binary64} (h : x.isZero = true) : ∃ s, x = .finite s .zero := by
  obtain ⟨s, m, rfl, hm⟩ := x.isZero_iff.1 h
  exact ⟨s, congrArg _ (Magnitude.units_injective (hm.trans Magnitude.units_zero.symm))⟩

theorem display_zero (s : Bool) : display (.finite s .zero) = "0" := by
  cases s with
  | false => decide
  | true => exact display_negative_zero

theorem display_unsignedZero (x : Binary64) : x.unsignedZero.display = x.display := by
  rw [unsignedZero]
  split
  · rename_i h
    obtain ⟨s, rfl⟩ := eq_zero_of_isZero h
    exact (display_zero false).trans (display_zero s).symm
  · rfl

theorem natAbs_signed (s : Bool) (m : Magnitude) : (signed s m).natAbs = m.units := by
  cases s with
  | false => exact Int.natAbs_natCast _
  | true => exact (Int.natAbs_neg _).trans (Int.natAbs_natCast _)

theorem unsignedZero_nan : unsignedZero .nan = .nan := rfl

theorem unsignedZero_infinite (s : Bool) : unsignedZero (.infinite s) = .infinite s := rfl

theorem unsignedZero_finite (s : Bool) (m : Magnitude) :
    unsignedZero (.finite s m) = .finite (s && m.units != 0) m := by
  by_cases hm : m.units = 0
  · have hzero : isZero (.finite s m) = true := (isZero_iff _).2 ⟨s, m, rfl, hm⟩
    obtain ⟨t, ht⟩ := eq_zero_of_isZero hzero
    cases ht
    rw [unsignedZero, if_pos hzero, hm, bne_self_eq_false, Bool.and_false]
    rfl
  · have hzero : ¬isZero (.finite s m) = true := by
      rintro h
      obtain ⟨t, k, hk, hunits⟩ := (isZero_iff _).1 h
      cases hk
      exact hm hunits
    rw [unsignedZero, if_neg hzero, bne_iff_ne.2 hm, Bool.and_true]

theorem signed_eq_iff {s t : Bool} {m k : Magnitude} :
    signed s m = signed t k ↔ m = k ∧ (s && m.units != 0) = (t && k.units != 0) := by
  constructor
  · intro h
    have hunits : m.units = k.units := by
      rw [← natAbs_signed s m, h, natAbs_signed]
    refine ⟨Magnitude.units_injective hunits, ?_⟩
    rw [← hunits]
    by_cases hm : m.units = 0
    · rw [hm, bne_self_eq_false, Bool.and_false, Bool.and_false]
    · simp only [signed, ← hunits] at h
      cases s <;> cases t <;> simp at h ⊢ <;> omega
  · rintro ⟨rfl, h⟩
    by_cases hm : m.units = 0
    · cases s <;> cases t <;> simp [signed, hm]
    · rw [bne_iff_ne.2 hm, Bool.and_true, Bool.and_true] at h
      rw [h]

theorem unsignedZero_eq_iff {x y : Binary64} :
    x.unsignedZero = y.unsignedZero ↔ SameNumber x y ∨ (x = .nan ∧ y = .nan) := by
  cases x <;> cases y <;>
    simp [unsignedZero_nan, unsignedZero_infinite, unsignedZero_finite, SameNumber, signed_eq_iff,
      and_comm]

theorem eq_finite_of_sameNumber {x : Binary64} {s : Bool} {m : Magnitude}
    (h : SameNumber x (.finite s m)) : ∃ t, x = .finite t m := by
  cases x with
  | nan => exact absurd h id
  | infinite t => exact absurd h id
  | finite t k =>
    obtain ⟨rfl, -⟩ := signed_eq_iff.1 h
    exact ⟨t, rfl⟩

/-! ## Reading what is shown -/

theorem ofText?_signText {c : Char} (hc : isNumberChar c = true) (negative : Bool) (cs : List Char) :
    ofText? (String.ofList (Text.signText negative ++ c :: cs)) = unsigned? negative (c :: cs) := by
  rw [ofText?, String.toList_ofList]
  cases negative with
  | true => rfl
  | false =>
    rw [Text.signText_false_append]
    split
    · rename_i heq
      cases heq
      exact absurd hc (by decide)
    · rename_i heq
      cases heq
      exact absurd hc (by decide)
    · rfl

theorem ofDecimal_whole {m : Magnitude} {k : Nat} (h : k * Magnitude.one = m.units)
    (negative : Bool) : ofDecimal negative ⟨k, 0⟩ = .finite negative m := by
  have hrounded : (Decimal.mk k 0).rounded = m.units := by
    calc (Decimal.mk k 0).rounded = Magnitude.rounded (k * Nat.pow 10 0 * Magnitude.one) 1 := rfl
      _ = Magnitude.rounded (m.units * 1) 1 := by rw [Nat.pow_eq, Nat.pow_zero, Nat.mul_one, h, Nat.mul_one]
      _ = m.units := m.rounded_units Nat.one_pos
  exact ofDecimal_eq_finite_iff.2 ⟨rfl, hrounded⟩

theorem unsigned?_decimalDigits (k : Nat) (negative : Bool) :
    unsigned? negative (Text.decimalDigits k) = some (ofDecimal negative ⟨k, 0⟩) := by
  refine unsigned?_of_denotes ?_ negative
  have hdigits := denotes_digits (fun c hc => Text.isDigit_decimalDigits hc)
    (Text.decimalDigits_ne_nil k)
  rw [Text.digitsValue_decimalDigits] at hdigits
  rw [Decimal.value, zpow_zero, mul_one]
  exact hdigits

theorem units_ne_zero_of_fraction {m : Magnitude} (h : m.units % Magnitude.one ≠ 0) :
    m.units ≠ 0 := by
  intro hzero
  rw [hzero, Nat.zero_mod] at h
  exact h rfl

theorem integer?_finite (s : Bool) (m : Magnitude) :
    (∃ k, k * Magnitude.one = m.units ∧
        integer? (.finite s m) = some (if s then -(k : Int) else k)) ∨
      (m.units % Magnitude.one ≠ 0 ∧ integer? (.finite s m) = none) := by
  by_cases h : m.units % Magnitude.one = 0
  · refine .inl ⟨m.units / Magnitude.one, Nat.div_mul_cancel (Nat.dvd_of_mod_eq_zero h), ?_⟩
    rw [integer?, isIntegral, if_pos (beq_iff_eq.2 h)]
    rfl
  · refine .inr ⟨h, ?_⟩
    rw [integer?, isIntegral, if_neg (by simpa using h)]

theorem rounded_shortest (m : Magnitude) : m.shortest.rounded = m.units :=
  (ofDecimal_eq_finite_iff.1 m.readsBack_shortest).2

theorem coefficient_shortest {m : Magnitude} (hm : m.units ≠ 0) : m.shortest.coefficient ≠ 0 := by
  intro h
  have hvalue : m.shortest.value ≤ 10 ^ (-400 : ℤ) := by
    rw [Decimal.value, h, Nat.cast_zero, zero_mul]
    positivity
  exact hm ((rounded_shortest m).symm.trans (rounded_eq_zero_of_value hvalue))

theorem text_finite {m : Magnitude} (hm : m.units ≠ 0) (s : Bool) :
    text (.finite s m) =
      String.ofList (Text.signText s ++ Layout.standard.write m.shortest) := by
  rw [text, if_neg fun h => hm (m.units_eq_zero_iff.2 h)]

theorem ofText?_text {m : Magnitude} (hm : m.units ≠ 0) (s : Bool) :
    ofText? (text (.finite s m)) = some (.finite s m) := by
  have hcoefficient := coefficient_shortest hm
  have hread := unsigned?_write hcoefficient Layout.standard s
  have hvalue : ofDecimal s m.shortest = .finite s m :=
    ofDecimal_eq_finite_iff.2 ⟨rfl, rounded_shortest m⟩
  obtain ⟨c, rest, hwritten, hc⟩ := exists_cons_of_write hcoefficient Layout.standard
  rw [text_finite hm, hwritten, ofText?_signText hc, ← hwritten, hread, hvalue]

theorem ofText?_integerText {m : Magnitude} {k : Nat} (h : k * Magnitude.one = m.units) (s : Bool) :
    ofText? (Text.integerText (if s then -(k : Int) else k)) = some (.finite (s && m.units != 0) m) := by
  have hone : Magnitude.one ≠ 0 := by decide
  have habs : (if s then -(k : Int) else k).natAbs = k := by
    cases s with
    | false => rfl
    | true => exact Int.natAbs_neg k
  have hsign : decide ((if s then -(k : Int) else k) < 0) = (s && m.units != 0) := by
    rw [← h]
    rcases Nat.eq_zero_or_pos k with rfl | hk
    · cases s <;> simp
    · rw [bne_iff_ne.2 (Nat.mul_ne_zero hk.ne' hone), Bool.and_true]
      cases s with
      | false => simp
      | true =>
        simp
        omega
  obtain ⟨c, rest, hdigits⟩ := List.exists_cons_of_ne_nil (Text.decimalDigits_ne_nil k)
  have hc : isNumberChar c = true :=
    isNumberChar_of_isDigit (Text.isDigit_decimalDigits (hdigits ▸ List.mem_cons_self))
  rw [Text.integerText, habs, hsign, hdigits, ofText?_signText hc, ← hdigits,
    unsigned?_decimalDigits, ofDecimal_whole h]

/-- What is shown is read as the number, up to the sign of a zero. -/
theorem ofText?_display (x : Binary64) : ofText? x.display = some x.unsignedZero := by
  cases x with
  | nan => decide
  | infinite s => cases s <;> decide
  | finite s m =>
    rw [display, unsignedZero_finite]
    rcases integer?_finite s m with ⟨k, hk, hinteger⟩ | ⟨hfraction, hinteger⟩
    · rw [hinteger]
      exact ofText?_integerText hk s
    · have hm := units_ne_zero_of_fraction hfraction
      rw [hinteger, bne_iff_ne.2 hm, Bool.and_true]
      exact ofText?_text hm s

/-- Equal displays are displays of equal numbers. -/
theorem display_eq_iff {x y : Binary64} :
    x.display = y.display ↔ SameNumber x y ∨ (x = .nan ∧ y = .nan) := by
  rw [← unsignedZero_eq_iff]
  constructor
  · intro h
    have hread := congrArg ofText? h
    rw [ofText?_display, ofText?_display] at hread
    exact Option.some.inj hread
  · intro h
    rw [← display_unsignedZero x, h, display_unsignedZero]

/-! ## Whole numbers -/

theorem display_of_isInteger {x : Binary64} {n : Int} (h : x.IsInteger n) :
    x.display = Text.integerText n := by
  obtain ⟨s, m, rfl, hn⟩ := h
  have hone : (Magnitude.one : Int) ≠ 0 := by decide
  rw [display]
  rcases integer?_finite s m with ⟨k, hk, hinteger⟩ | ⟨hfraction, -⟩
  · have hsigned : signed s m = (if s then -(k : Int) else k) * (Magnitude.one : Int) := by
      rw [signed, ← hk]
      cases s <;> simp
    rw [hinteger, ← Int.eq_of_mul_eq_mul_right hone (hsigned.symm.trans hn)]
  · refine absurd ?_ hfraction
    have hunits := congrArg Int.natAbs hn
    rw [natAbs_signed, Int.natAbs_mul, Int.natAbs_natCast] at hunits
    rw [hunits]
    exact Nat.mul_mod_left _ _

theorem isInteger_display {x : Binary64} {n : Int} (h : x.IsInteger n) :
    Text.IsInteger x.display.toList n := by
  rw [display_of_isInteger h]
  exact Text.isInteger_integerText n

/-- What is shown for a number is read as that number, up to the sign of a zero, and shown alike again;
two numbers are shown alike exactly if they are equal as numbers or both none; and a number that equals
an integer is shown as the digits of the integer. -/
theorem display_faithful (x y : Binary64) :
    ofText? x.display = some x.unsignedZero ∧
      (x.display = y.display ↔ SameNumber x y ∨ (x = .nan ∧ y = .nan)) ∧
      (ofText? x.display).map display = some x.display ∧
      ∀ n, x.IsInteger n → Text.IsInteger x.display.toList n := by
  refine ⟨ofText?_display x, display_eq_iff, ?_, fun n h => isInteger_display h⟩
  rw [ofText?_display, Option.map_some, display_unsignedZero]

/-- The least finite number is a whole number of 309 digits, and all of them are shown. -/
theorem display_faithful_of_least :
    let x : Binary64 := .finite true ⟨9007199254740991, 2045, by decide, by decide, by decide⟩
    let n : Int := -(9007199254740991 * 2 ^ 971)
    x.IsInteger n ∧ Text.IsInteger x.display.toList n := by
  intro x n
  have hinteger : x.IsInteger n := ⟨true, _, rfl, by decide +kernel⟩
  exact ⟨hinteger, (display_faithful x x).2.2.2 n hinteger⟩

end Binary64

end Reckoner
