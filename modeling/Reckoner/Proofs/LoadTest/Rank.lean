import Mathlib.Data.List.Sort
import Reckoner.LoadTest.Percentile
import Reckoner.Proofs.Binary64.Order
/-!
The rank of a percentile.

A percentile stands at a rank in the ascending order: fewer numbers than the rank are below it, and at
least so many as the rank are not above it. Whether these are the share of the numbers that the quantile
asks for is then a question about the rank alone. It is cut to a whole number where the product has a
fraction, and so it may be one too low.

What is shown here:
1. `rank_ascending`: how many numbers are below the one at a place of the ascending order, and how many
   not above it;
2. `rank_bounds`: the rank of a quantile beside its share of the numbers;
3. `percentile_ranked`: what a percentile is, and when it covers its quantile;
4. `not_percentile_covers`: it does not always.
-/

namespace Reckoner

/-- Where a property is handed on to everything before, it holds at a place exactly if it holds of more
elements than stand before that place. -/
theorem lt_countP_iff {α : Type} {p : α → Bool} {l : List α}
    (h : l.Pairwise fun x y => p y = true → p x = true) {i : Nat} (hi : i < l.length) :
    i < l.countP p ↔ p l[i] = true := by
  induction l generalizing i with
  | nil => cases hi
  | cons a l ih =>
    obtain ⟨hfirst, hl⟩ := List.pairwise_cons.1 h
    by_cases ha : p a = true
    · rw [List.countP_cons_of_pos ha]
      cases i with
      | zero => exact iff_of_true (Nat.succ_pos _) ha
      | succ i => exact Nat.succ_lt_succ_iff.trans (ih hl (Nat.lt_of_succ_lt_succ hi))
    · have hnone : ∀ x ∈ a :: l, ¬p x = true :=
        List.forall_mem_cons.2 ⟨ha, fun x hx hp => ha (hfirst x hx hp)⟩
      rw [List.countP_eq_zero.2 hnone]
      exact iff_of_false (Nat.not_lt_zero i) (hnone _ (List.getElem_mem hi))

namespace Percentile

open Binary64

/-- How many numbers of a list are not above `x`. -/
def atMost (values : List Binary64) (x : Binary64) : Nat := values.countP fun v => !lt x v

/-- How many numbers of a list are below `x`. -/
def below (values : List Binary64) (x : Binary64) : Nat := values.countP fun v => lt v x

/-- The rank of a quantile of so many numbers: the product, rounded and cut to a whole number, but one at
least. -/
def rank (q : Binary64) (n : Nat) : Nat := max 1 ⌊(q.mul (.ofNat n)).value⌋₊

/-- A number covers a quantile of a list: the quantile's share of the numbers, or more, is not above
it. -/
def Covers (values : List Binary64) (q x : Binary64) : Prop :=
  q.value * values.length ≤ atMost values x

section Sorted
variable {values : List Binary64}

theorem ascending_spec (hnan : .nan ∉ values) :
    (ascending values).Perm values ∧ (ascending values).Pairwise fun x y => x.height ≤ y.height := by
  have hcompare : ∀ x ∈ values, ∀ y ∈ values, (!lt y x) = decide (x.height ≤ y.height) := by
    intro x hx y hy
    have hlt := lt_iff_height_lt (fun h => hnan (h ▸ hy)) (fun h => hnan (h ▸ hx))
    rw [Bool.eq_iff_iff, Bool.not_eq_true', ← Bool.not_eq_true, hlt, decide_eq_true_iff, not_lt]
  have hsame : (values.mergeSort fun x y => !lt y x) =
      values.mergeSort fun x y => decide (x.height ≤ y.height) := by
    have hmap := List.map_mergeSort (f := id) (s := fun x y : Binary64 => decide (x.height ≤ y.height))
      hcompare
    rwa [List.map_id, List.map_id] at hmap
  have hsorted : (values.mergeSort fun x y => decide (x.height ≤ y.height)).Pairwise fun x y =>
      decide (x.height ≤ y.height) = true :=
    List.pairwise_mergeSort (fun _ _ _ => by simpa using le_trans)
      (fun _ _ => by simpa using le_total _ _) values
  rw [ascending, if_neg (by simpa using hnan), hsame]
  exact ⟨List.mergeSort_perm _ _, hsorted.imp of_decide_eq_true⟩

theorem ne_nan_of_mem_ascending (hnan : .nan ∉ values) {v : Binary64} (hv : v ∈ ascending values) :
    v ≠ .nan :=
  fun h => hnan (h ▸ (ascending_spec hnan).1.mem_iff.1 hv)

theorem ascending_not_above (hnan : .nan ∉ values) {x : Binary64} (hx : x ≠ .nan) :
    (ascending values).Pairwise fun u v => (!lt x v) = true → (!lt x u) = true := by
  refine (ascending_spec hnan).2.imp_of_mem fun {u v} hu hv hle => ?_
  rw [Bool.not_eq_true', ← Bool.not_eq_true, Bool.not_eq_true', ← Bool.not_eq_true,
    lt_iff_height_lt hx (ne_nan_of_mem_ascending hnan hu),
    lt_iff_height_lt hx (ne_nan_of_mem_ascending hnan hv)]
  exact fun hv hu => hv (hu.trans_le hle)

theorem ascending_below (hnan : .nan ∉ values) {x : Binary64} (hx : x ≠ .nan) :
    (ascending values).Pairwise fun u v => lt v x = true → lt u x = true := by
  refine (ascending_spec hnan).2.imp_of_mem fun {u v} hu hv hle => ?_
  rw [lt_iff_height_lt (ne_nan_of_mem_ascending hnan hu) hx,
    lt_iff_height_lt (ne_nan_of_mem_ascending hnan hv) hx]
  exact hle.trans_lt

/-- At a place of the ascending order stands a number with no more numbers below it than stand before the
place, and with more that are not above it. -/
theorem rank_ascending (hnan : .nan ∉ values) {i : Nat} (hi : i < (ascending values).length) :
    below values (ascending values)[i] ≤ i ∧ i < atMost values (ascending values)[i] := by
  have hx := ne_nan_of_mem_ascending hnan (List.getElem_mem hi)
  have hself : lt (ascending values)[i] (ascending values)[i] = false :=
    Bool.eq_false_iff.2 fun h => lt_irrefl _ ((lt_iff_height_lt hx hx).1 h)
  have hperm := (ascending_spec hnan).1
  rw [below, atMost, ← hperm.countP_eq, ← hperm.countP_eq, ← not_lt,
    lt_countP_iff (ascending_below hnan hx) hi, lt_countP_iff (ascending_not_above hnan hx) hi]
  simp [hself]

/-- Where no two numbers are equal, no more numbers than stand up to a place are not above the one at the
place. -/
theorem atMost_ascending_le (hnan : .nan ∉ values)
    (hne : values.Pairwise fun x y => lt x y = true ∨ lt y x = true) {i : Nat}
    (hi : i < (ascending values).length) : atMost values (ascending values)[i] ≤ i + 1 := by
  obtain ⟨hperm, hsorted⟩ := ascending_spec hnan
  have hx := ne_nan_of_mem_ascending hnan (List.getElem_mem hi)
  by_contra hmore
  rw [not_le, atMost, ← hperm.countP_eq] at hmore
  -- otherwise the number at the next place, too, is not above this one
  have hnext : i + 1 < (ascending values).length := hmore.trans_le List.countP_le_length
  have hy := ne_nan_of_mem_ascending hnan (List.getElem_mem hnext)
  rw [lt_countP_iff (ascending_not_above hnan hx) hnext, Bool.not_eq_true'] at hmore
  have hle := List.pairwise_iff_getElem.1 hsorted i (i + 1) hi hnext (Nat.lt_succ_self i)
  have hdistinct := hperm.symm.pairwise hne Or.symm
  cases List.pairwise_iff_getElem.1 hdistinct i (i + 1) hi hnext (Nat.lt_succ_self i) with
  | inl hup => exact Bool.false_ne_true (hmore.symm.trans hup)
  | inr hdown => exact hle.not_gt ((lt_iff_height_lt hy hx).1 hdown)

end Sorted

/-- The rank of a fraction is a whole number next to its share of the numbers, and never past the last
number. -/
theorem rank_bounds {q : Binary64} (hpos : lt .zero q = true) (hone : intLt 1 q = false) {n : Nat}
    (hn : 0 < n) (hlen : n ≤ 2 ^ 53) :
    ⌊q.value * n⌋₊ ≤ rank q n ∧ rank q n ≤ ⌈q.value * n⌉₊ ∧ ⌈q.value * n⌉₊ ≤ n := by
  obtain ⟨hvalue, hvalue_le⟩ := value_of_fraction hpos hone
  have hn' : (0 : ℚ) < n := Nat.cast_pos.2 hn
  obtain ⟨m, rfl, -, hle⟩ := exists_of_fraction hpos hone
  obtain ⟨hfloor, hceil⟩ := floor_mul_ofNat hle hlen
  refine ⟨hfloor.trans (le_max_right _ _), max_le ?_ hceil, ?_⟩
  · exact Nat.one_le_ceil_iff.2 (mul_pos hvalue hn')
  · exact Nat.ceil_le.2 (mul_le_of_le_one_left hn'.le hvalue_le)

theorem percentile_eq {values : List Binary64} {q : Binary64} (hne : values ≠ [])
    (hnan : .nan ∉ values) (hpos : lt .zero q = true) (hone : intLt 1 q = false)
    (hlen : values.length ≤ 2 ^ 53) :
    ∃ h : rank q values.length - 1 < (ascending values).length,
      percentile values q = .ok (ascending values)[rank q values.length - 1] := by
  have hn := List.length_pos_of_ne_nil hne
  have hplace : rank q values.length - 1 < (ascending values).length := by
    obtain ⟨-, hceil, hlast⟩ := rank_bounds hpos hone hn hlen
    rw [(ascending_spec hnan).1.length_eq]
    omega
  refine ⟨hplace, ?_⟩
  obtain ⟨m, rfl, -, hle⟩ := exists_of_fraction hpos hone
  obtain ⟨p, hproduct, -⟩ := exists_mul_ofNat hle hlen
  have hwhole : p.units / Magnitude.one = ⌊(finite false p).value⌋₊ := by
    rw [value_finite, Rat.natFloor_natCast_div_natCast]
  have hrank : (((p.units / Magnitude.one : Nat) : Int) - 1).toNat =
      rank (.finite false m) values.length - 1 := by
    rw [hwhole, rank, hproduct]
    omega
  rw [percentile, if_neg (by simpa using hne), hproduct]
  simp only [whole?, Bool.false_eq_true, if_false, hrank, List.getElem?_eq_getElem hplace]

/-- What a percentile of a quantile is, by its rank among the numbers of a list. -/
structure Ranked (values : List Binary64) (q x : Binary64) : Prop where
  mem : x ∈ values
  below_lt_rank : below values x < rank q values.length
  rank_le_atMost : rank q values.length ≤ atMost values x
  /-- The number at the nearest rank, the share rounded up, is not below it. -/
  below_lt_share : below values x < q.value * values.length
  /-- With one number more it would always cover its quantile. -/
  share_lt : q.value * values.length < atMost values x + 1
  covers_of_le : q.value * values.length ≤ rank q values.length → Covers values q x
  /-- Without equal numbers, it covers its quantile only if the rank has lost no fraction of the share. -/
  covers_iff : (values.Pairwise fun x y => lt x y = true ∨ lt y x = true) →
    (Covers values q x ↔ q.value * values.length ≤ rank q values.length)

theorem ascending_ranked {values : List Binary64} {q : Binary64} (hnan : .nan ∉ values)
    (hpos : lt .zero q = true) (hone : intLt 1 q = false) (hlen : values.length ≤ 2 ^ 53)
    (hplace : rank q values.length - 1 < (ascending values).length) :
    Ranked values q (ascending values)[rank q values.length - 1] := by
  have hlength := (ascending_spec hnan).1.length_eq
  obtain ⟨hfloor, hceil, -⟩ := rank_bounds hpos hone (n := values.length) (by omega) hlen
  have hrank : 1 ≤ rank q values.length := le_max_left _ _
  obtain ⟨hbelow, hatMost⟩ := rank_ascending hnan hplace
  have hle : rank q values.length ≤ atMost values (ascending values)[rank q values.length - 1] := by
    omega
  have hcovers : q.value * values.length ≤ rank q values.length →
      Covers values q (ascending values)[rank q values.length - 1] :=
    fun h => h.trans (Nat.cast_le.2 hle)
  refine {
    mem := (ascending_spec hnan).1.mem_iff.1 (List.getElem_mem hplace)
    below_lt_rank := by omega
    rank_le_atMost := hle
    below_lt_share := Nat.lt_ceil.1 (by omega)
    share_lt := ?_
    covers_of_le := hcovers
    covers_iff := fun hdistinct => ⟨fun h => ?_, hcovers⟩ }
  · exact (Nat.lt_floor_add_one _).trans_le (by exact_mod_cast Nat.succ_le_succ (hfloor.trans hle))
  · have hall := atMost_ascending_le hnan hdistinct hplace
    exact h.trans (Nat.cast_le.2 (by omega))

/-- A fraction always has a percentile, and it stands at its rank. A longer list than this has a length
that is rounded itself, perhaps to more than there are numbers. -/
theorem percentile_ranked {values : List Binary64} {q : Binary64} (hne : values ≠ [])
    (hnan : .nan ∉ values) (hpos : lt .zero q = true) (hone : intLt 1 q = false)
    (hlen : values.length ≤ 2 ^ 53) :
    ∃ x, percentile values q = .ok x ∧ Ranked values q x := by
  obtain ⟨hplace, heq⟩ := percentile_eq hne hnan hpos hone hlen
  exact ⟨_, heq, ascending_ranked hnan hpos hone hlen hplace⟩

/-- Of three numbers, the 95th percentile is the middle one. -/
theorem percentile_ranked_of_three :
    percentile [.ofNat 30, .ofNat 10, .ofNat 20] (.ofLiteral "0.95".toList) = .ok (.ofNat 20) := by
  have hnan : nan ∉ [ofNat 30, ofNat 10, ofNat 20] := by decide +kernel
  have hpos : lt .zero (ofLiteral "0.95".toList) = true := by decide +kernel
  have hone : intLt 1 (ofLiteral "0.95".toList) = false := by decide +kernel
  obtain ⟨x, hx, hranked⟩ := percentile_ranked (by decide) hnan hpos hone (by decide)
  have hmiddle : ∀ y ∈ [ofNat 30, ofNat 10, ofNat 20],
      below [.ofNat 30, .ofNat 10, .ofNat 20] y < rank (.ofLiteral "0.95".toList) 3 →
      rank (.ofLiteral "0.95".toList) 3 ≤ atMost [.ofNat 30, .ofNat 10, .ofNat 20] y →
      y = .ofNat 20 := by decide +kernel
  rw [hx, hmiddle x hranked.mem hranked.below_lt_rank hranked.rank_le_atMost]

/-- A percentile does not always cover its quantile: of two numbers, the 95th percentile is the lower
one. -/
theorem not_percentile_covers :
    ¬∀ (values : List Binary64) (q : Binary64), values ≠ [] → .nan ∉ values → lt .zero q = true →
      intLt 1 q = false → ∃ x, percentile values q = .ok x ∧ x ∈ values ∧ Covers values q x := by
  have hnan : nan ∉ [ofNat 1, ofNat 2] := by decide +kernel
  have hpos : lt .zero (ofLiteral "0.95".toList) = true := by decide +kernel
  have hone : intLt 1 (ofLiteral "0.95".toList) = false := by decide +kernel
  intro hall
  obtain ⟨x, hx, -, hcovers⟩ := hall [.ofNat 1, .ofNat 2] _ (by decide) hnan hpos hone
  obtain ⟨hplace, heq⟩ := percentile_eq (by decide) hnan hpos hone (by decide)
  cases hx.symm.trans heq
  have hranked := ascending_ranked hnan hpos hone (by decide) hplace
  have hshare := (hranked.covers_iff (by decide +kernel)).1 hcovers
  exact absurd hshare (by decide +kernel)

end Percentile
end Reckoner
