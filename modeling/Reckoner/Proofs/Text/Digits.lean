import Mathlib.Algebra.Group.Nat.Defs
import Reckoner.Text.WholeNumber
/-!
Decimal digits and the numbers they denote.

Digits behind digits shift what stands before them by as many places, so zeros in front change nothing
and zeros at the end multiply by ten. The digits written for a number are digits, the first of them is
not a zero unless the number is, and there are as many as its size asks for.

What is shown here:
1. `digitsValue_append` and `digitsValue_lt`: the value of digits in a row, and its bound;
2. `head?_decimalDigits`: a number that is not zero is written without a zero in front;
3. `pow_le_of_decimalDigits` and `lt_pow_decimalDigits`: a number lies between the powers of ten that
   its digits count;
4. `digitsValue_paddedDigits`: the padded digits of a number denote it;
5. `wholeNumber?_integerText`: a whole number is read back as it is written.
-/

namespace Reckoner.Text

/-! ## Values of digits -/

theorem foldl_digits (n : Nat) (cs : List Char) :
    cs.foldl (fun n c => 10 * n + (c.toNat - 48)) n = n * 10 ^ cs.length + digitsValue cs := by
  induction cs generalizing n with
  | nil => simp [digitsValue]
  | cons c cs ih =>
    have hshift : n * 10 ^ (c :: cs).length = 10 * n * 10 ^ cs.length := by
      rw [List.length_cons, Nat.pow_succ', ← Nat.mul_assoc, Nat.mul_comm n]
    have hfirst : digitsValue (c :: cs) = (c.toNat - 48) * 10 ^ cs.length + digitsValue cs := by
      rw [digitsValue, List.foldl_cons, ih, Nat.mul_zero, Nat.zero_add]
    rw [List.foldl_cons, ih, hfirst, hshift, Nat.add_mul, Nat.add_assoc]

theorem digitsValue_append (xs ys : List Char) :
    digitsValue (xs ++ ys) = digitsValue xs * 10 ^ ys.length + digitsValue ys := by
  rw [digitsValue, List.foldl_append, foldl_digits]
  rfl

theorem digitsValue_cons (c : Char) (cs : List Char) :
    digitsValue (c :: cs) = (c.toNat - 48) * 10 ^ cs.length + digitsValue cs := by
  rw [digitsValue, List.foldl_cons, foldl_digits, Nat.mul_zero, Nat.zero_add]

theorem digitsValue_append_zeros (k : Nat) (cs : List Char) :
    digitsValue (List.replicate k '0' ++ cs) = digitsValue cs := by
  induction k with
  | zero => rfl
  | succ k ih =>
    rw [List.replicate_succ, List.cons_append]
    exact ih

theorem digitsValue_zeros (k : Nat) : digitsValue (List.replicate k '0') = 0 := by
  have h := digitsValue_append_zeros k []
  rwa [List.append_nil] at h

theorem digitsValue_append_zeros_right (cs : List Char) (k : Nat) :
    digitsValue (cs ++ List.replicate k '0') = digitsValue cs * 10 ^ k := by
  rw [digitsValue_append, digitsValue_zeros, List.length_replicate, Nat.add_zero]

/-- Characters none of which counts more than nine denote less than the next power of ten. -/
theorem digitsValue_lt {cs : List Char} (h : ∀ c ∈ cs, c.toNat ≤ 57) :
    digitsValue cs < 10 ^ cs.length := by
  induction cs with
  | nil => exact Nat.one_pos
  | cons c cs ih =>
    have hcs := ih fun d hd => h d (List.mem_cons_of_mem _ hd)
    have hc : c.toNat - 48 ≤ 9 := by
      have := h c List.mem_cons_self
      omega
    have hfirst := Nat.mul_le_mul_right (10 ^ cs.length) hc
    rw [digitsValue_cons, List.length_cons, Nat.pow_succ]
    omega

theorem toNat_le_of_isDigit {c : Char} (h : c.isDigit = true) : c.toNat ≤ 57 := by
  simp only [Char.isDigit, Bool.and_eq_true, decide_eq_true_eq, UInt32.le_iff_toNat_le] at h
  exact h.2

/-! ## Digits of numbers -/

theorem isDigit_decimalDigits {n : Nat} {c : Char} (h : c ∈ decimalDigits n) : c.isDigit = true :=
  Nat.isDigit_of_mem_toDigits (by decide) (by decide) h

theorem decimalDigits_ne_nil (n : Nat) : decimalDigits n ≠ [] := by
  by_cases h : n < 10
  · rw [decimalDigits, Nat.toDigits_of_lt_base h]
    exact List.cons_ne_nil _ _
  · rw [decimalDigits, Nat.toDigits_of_base_le (by decide) (by omega)]
    exact List.append_ne_nil_of_right_ne_nil _ (List.cons_ne_nil _ _)

theorem head?_decimalDigits {n : Nat} (h : n ≠ 0) : (decimalDigits n).head? ≠ some '0' := by
  induction n using Nat.strongRecOn with
  | ind n ih =>
    by_cases hlt : n < 10
    · have hdigit : ∀ m < 10, m ≠ 0 → Nat.digitChar m ≠ '0' := by decide
      rw [decimalDigits, Nat.toDigits_of_lt_base hlt, List.head?_cons, ne_eq, Option.some.injEq]
      exact hdigit n hlt h
    · have hrest := ih (n / 10) (by omega) (by omega)
      rw [decimalDigits, Nat.toDigits_of_base_le (by decide) (by omega), ← decimalDigits,
        List.head?_append]
      cases hhead : (decimalDigits (n / 10)).head? with
      | none => exact absurd (List.head?_eq_none_iff.1 hhead) (decimalDigits_ne_nil _)
      | some c =>
        rw [hhead] at hrest
        exact hrest

theorem lt_pow_decimalDigits (n : Nat) : n < 10 ^ (decimalDigits n).length := by
  have hpos := List.length_pos_iff.2 (decimalDigits_ne_nil n)
  exact (Nat.length_toDigits_le_iff (by decide) hpos).1 (Nat.le_refl _)

theorem pow_le_of_decimalDigits {n : Nat} (h : n ≠ 0) : 10 ^ ((decimalDigits n).length - 1) ≤ n := by
  by_cases hone : (decimalDigits n).length ≤ 1
  · rw [Nat.sub_eq_zero_of_le hone]
    exact Nat.one_le_iff_ne_zero.2 h
  · refine Nat.le_of_not_lt fun hlt => ?_
    have := (Nat.length_toDigits_le_iff (by decide) (by omega)).2 hlt
    change (decimalDigits n).length ≤ _ at this
    omega

/-! ## Signs -/

theorem signText_true_append (cs : List Char) : signText true ++ cs = '-' :: cs := rfl

theorem signText_false_append (cs : List Char) : signText false ++ cs = cs := rfl

/-! ## Padded digits -/

theorem isDigit_paddedDigits {width n : Nat} {c : Char} (h : c ∈ paddedDigits width n) :
    c.isDigit = true := by
  rw [paddedDigits, List.mem_append] at h
  rcases h with h | h
  · rw [List.eq_of_mem_replicate h]
    rfl
  · exact isDigit_decimalDigits h

theorem length_paddedDigits {width n : Nat} (h : (decimalDigits n).length ≤ width) :
    (paddedDigits width n).length = width := by
  rw [paddedDigits, List.length_append, List.length_replicate]
  omega

theorem paddedDigits_ne_nil (width n : Nat) : paddedDigits width n ≠ [] :=
  List.append_ne_nil_of_right_ne_nil _ (decimalDigits_ne_nil n)

theorem digitsValue_paddedDigits (width n : Nat) : digitsValue (paddedDigits width n) = n := by
  rw [paddedDigits, digitsValue_append_zeros, digitsValue_decimalDigits]

/-! ## Whole numbers read back -/

theorem trimBy_eq_self {p : Char → Bool} {cs : List Char} (h : ∀ c ∈ cs, p c = false) :
    trimBy p cs = cs := by
  have hkept : ∀ ds : List Char, (∀ c ∈ ds, p c = false) → ds.dropWhile p = ds := by
    intro ds hds
    cases ds with
    | nil => rfl
    | cons d ds => simp [hds d List.mem_cons_self]
  have hback := hkept cs.reverse fun c hc => h c (List.mem_reverse.1 hc)
  rw [trimBy, hkept cs h, hback, List.reverse_reverse]

theorem groupedDigits?_digits {ds : List Char} (hne : ds ≠ [])
    (h : ∀ c ∈ ds, c.isDigit = true) :
    groupedDigits? digit? ds = some (ds.map fun c => c.toNat - 48) := by
  induction ds with
  | nil => exact absurd rfl hne
  | cons c cs ih =>
    have hc := digit?_of_isDigit (h c List.mem_cons_self)
    cases cs with
    | nil =>
      rw [groupedDigits?, hc]
      rfl
    | cons d rest =>
      have hd : d ≠ '_' := by
        rintro rfl
        exact absurd (h '_' (by simp)) (by decide)
      have hrest := ih (List.cons_ne_nil d rest) fun b hb => h b (List.mem_cons_of_mem c hb)
      rw [groupedDigits?, hc]
      simp only [hrest]
      rfl

theorem isWhiteSpace_of_isBlank_eq_false {c : Char} (h : isBlank c = false) : isWhiteSpace c = false := by
  rw [isWhiteSpace, h, Bool.false_and]

theorem isBlank_of_isDigit {c : Char} (h : c.isDigit = true) : isBlank c = false := by
  have hall : ∀ n < 10, isBlank (Char.ofNat (48 + n)) = false := by decide
  simp only [Char.isDigit, Bool.and_eq_true, decide_eq_true_eq, UInt32.le_iff_toNat_le] at h
  have hlow : 48 ≤ c.toNat := h.1
  have hhigh : c.toNat ≤ 57 := h.2
  have hc := hall (c.toNat - 48) (by omega)
  rwa [Nat.add_sub_cancel' hlow, Char.ofNat_toNat] at hc

theorem isBlank_of_mem_integerText {n : Int} {c : Char} (h : c ∈ (integerText n).toList) :
    isBlank c = false := by
  rw [integerText, String.toList_ofList] at h
  rcases List.mem_append.1 h with hsign | hdigit
  · revert hsign
    cases decide (n < 0) with
    | true =>
      intro hsign
      obtain rfl := List.mem_singleton.1 hsign
      decide
    | false => exact nofun
  · exact isBlank_of_isDigit (isDigit_decimalDigits hdigit)

theorem trim_integerText (n : Int) : trim (integerText n).toList = (integerText n).toList :=
  trimBy_eq_self fun _ => isBlank_of_mem_integerText

/-- A whole number is read back as it is written, if it has no more digits than are read. -/
theorem wholeNumber?_integerText {n : Int} (h : (decimalDigits n.natAbs).length ≤ digitLimit) :
    wholeNumber? (integerText n).toList = some n := by
  have hdigits : ∀ c ∈ decimalDigits n.natAbs, c.isDigit = true := fun c hc => isDigit_decimalDigits hc
  have hne := decimalDigits_ne_nil n.natAbs
  have htrimmed : trimBy isWhiteSpace (integerText n).toList = (integerText n).toList :=
    trimBy_eq_self fun c hc => isWhiteSpace_of_isBlank_eq_false (isBlank_of_mem_integerText hc)
  have hsign : splitSign (signText (decide (n < 0)) ++ decimalDigits n.natAbs) =
      (decide (n < 0), decimalDigits n.natAbs) := by
    obtain ⟨c, cs, hcons⟩ := List.exists_cons_of_ne_nil hne
    have hc : c.isDigit = true := hdigits c (by simp [hcons])
    cases decide (n < 0) with
    | true => rfl
    | false =>
      rw [hcons, signText_false_append, splitSign.eq_def]
      split
      · rename_i heq
        cases heq
        cases hc
      · rename_i heq
        cases heq
        cases hc
      · rfl
  have hvalue : valueOfDigits ((decimalDigits n.natAbs).map fun c => c.toNat - 48) = n.natAbs := by
    rw [valueOfDigits, List.foldl_map]
    exact digitsValue_decimalDigits n.natAbs
  rw [wholeNumber?, htrimmed, integerText, String.toList_ofList, hsign]
  simp only [groupedDigits?_digits hne hdigits, List.length_map, if_neg (Nat.not_lt.2 h), hvalue]
  congr 1
  by_cases hneg : n < 0
  · rw [if_pos (by simpa using hneg)]
    omega
  · rw [if_neg (by simpa using hneg)]
    omega

end Reckoner.Text
