import Reckoner.Proofs.Binary64.WholeNumber
import Reckoner.Quantity
/-!
Quantities that are integers.

A quantity is compared by its exact value, so one that equals an integer is below or above a whole number
as the integer is, in whatever form it was given.

What is shown here:
1. `Quantity.isIntegral_iff`: the quantities that are found to be whole are those that equal an integer;
2. `Quantity.isBelow_iff` and `Quantity.isAbove_iff`: how they compare.
-/

namespace Reckoner.Quantity

/-- A quantity equals an integer, in whatever form it was given. -/
def IsInteger : Quantity → Int → Prop
  | .whole m, n => m = n
  | .pointed x, n => x.IsInteger n

theorem isBelow_iff {q : Quantity} {limit : Int} (h : q.IsInteger limit) (n : Int) :
    q.isBelow n = true ↔ limit < n := by
  cases q with
  | whole m =>
    obtain rfl : m = limit := h
    exact decide_eq_true_iff
  | pointed x =>
    obtain ⟨s, m, rfl, hm⟩ := h
    have hone : (0 : Int) < Magnitude.one := by decide
    show decide (Binary64.signed s m < n * (Magnitude.one : Int)) = true ↔ limit < n
    rw [decide_eq_true_iff, hm]
    exact Int.mul_lt_mul_right hone

theorem isAbove_iff {q : Quantity} {limit : Int} (h : q.IsInteger limit) (n : Int) :
    q.isAbove n = true ↔ n < limit := by
  cases q with
  | whole m =>
    obtain rfl : m = limit := h
    exact decide_eq_true_iff
  | pointed x =>
    obtain ⟨s, m, rfl, hm⟩ := h
    have hone : (0 : Int) < Magnitude.one := by decide
    show decide (n * (Magnitude.one : Int) < Binary64.signed s m) = true ↔ n < limit
    rw [decide_eq_true_iff, hm]
    exact Int.mul_lt_mul_right hone

/-- The quantities that are found to be whole are those that equal an integer. -/
theorem isIntegral_iff {q : Quantity} : q.isIntegral = true ↔ ∃ n, q.IsInteger n := by
  cases q with
  | whole m => exact iff_of_true rfl ⟨m, rfl⟩
  | pointed x =>
    constructor
    · intro h
      cases x with
      | nan => cases h
      | infinite s => cases h
      | finite s m =>
        have hdivides := Nat.dvd_of_mod_eq_zero (beq_iff_eq.1 h)
        exact ⟨_, Binary64.isInteger_iff.2
          ⟨s, m, rfl, _, (Nat.div_mul_cancel hdivides).symm, rfl⟩⟩
    · rintro ⟨n, hn⟩
      obtain ⟨s, m, rfl, k, hunits, -⟩ := Binary64.isInteger_iff.1 hn
      show (m.units % Magnitude.one == 0) = true
      rw [hunits, Nat.mul_mod_left]
      rfl

end Reckoner.Quantity
