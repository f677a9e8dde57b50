import Reckoner.Binary64.Decimal
import Reckoner.Proofs.Text.Digits
/-!
Numerals and their characters.

A numeral is digits and at most one point. There are eleven characters that can stand in one, and none of
them is a letter, so a numeral ends where a power of ten begins and is no word.

What is shown here:
1. `isNumeral_iff`, `isNumeral_digits` and `isNumeral_point`: what numerals are;
2. `mem_of_isNumberChar`: the characters of numerals, one by one.
-/

namespace Reckoner

/-! ## Characters of numerals -/

theorem ne_point_of_isDigit {c : Char} (h : c.isDigit = true) : c ≠ '.' := by
  rintro rfl
  exact absurd h (by decide)

theorem isNumberChar_of_isDigit {c : Char} (h : c.isDigit = true) : isNumberChar c = true := by
  rw [isNumberChar, h, Bool.true_or]

theorem toNat_le_of_isNumberChar {c : Char} (h : isNumberChar c = true) : c.toNat ≤ 57 := by
  rw [isNumberChar, Bool.or_eq_true] at h
  rcases h with h | h
  · exact Text.toNat_le_of_isDigit h
  · rw [eq_of_beq h]
    decide

theorem toLower_of_isNumberChar {c : Char} (h : isNumberChar c = true) : c.toLower = c := by
  have hle := toNat_le_of_isNumberChar h
  refine dif_neg fun hupper => ?_
  have : (65 : Nat) ≤ c.toNat := hupper.1
  omega

theorem mem_of_isNumberChar {c : Char} (h : isNumberChar c = true) : c ∈ ".0123456789".toList := by
  have hdigits : ∀ k ≤ 57, (Char.ofNat k).isDigit = true → Char.ofNat k ∈ ".0123456789".toList := by
    decide
  have hle := toNat_le_of_isNumberChar h
  rw [isNumberChar, Bool.or_eq_true] at h
  rcases h with h | h
  · rw [← Char.ofNat_toNat c] at h ⊢
    exact hdigits _ hle h
  · rw [eq_of_beq h]
    decide

/-! ## Numerals -/

theorem isNumeral_iff {cs : List Char} :
    isNumeral cs = true ↔
      (∀ c ∈ cs, c.isDigit = true ∨ c = '.') ∧ (∃ c ∈ cs, c.isDigit = true) ∧ cs.count '.' ≤ 1 := by
  simp [isNumeral, isNumberChar, and_assoc]

theorem isNumberChar_of_isNumeral {cs : List Char} (h : isNumeral cs = true) :
    ∀ c ∈ cs, isNumberChar c = true := by
  rw [isNumeral, Bool.and_eq_true, Bool.and_eq_true] at h
  exact List.all_eq_true.1 h.1.1

theorem isNumeral_ne_nil {cs : List Char} (h : isNumeral cs = true) : cs ≠ [] := by
  rintro rfl
  exact absurd h (by decide)

theorem exists_cons_of_isNumeral {cs : List Char} (h : isNumeral cs = true) :
    ∃ c rest, cs = c :: rest ∧ isNumberChar c = true := by
  obtain ⟨c, rest, rfl⟩ := List.exists_cons_of_ne_nil (isNumeral_ne_nil h)
  exact ⟨c, rest, rfl, isNumberChar_of_isNumeral h c List.mem_cons_self⟩

theorem count_point_digits {ds : List Char} (h : ∀ c ∈ ds, c.isDigit = true) :
    ds.count '.' = 0 :=
  List.count_eq_zero.2 fun hd => ne_point_of_isDigit (h _ hd) rfl

theorem isNumeral_digits {ds : List Char} (h : ∀ c ∈ ds, c.isDigit = true) (hne : ds ≠ []) :
    isNumeral ds = true := by
  obtain ⟨c, hc⟩ := List.exists_mem_of_ne_nil ds hne
  refine isNumeral_iff.2 ⟨fun d hd => .inl (h d hd), ⟨c, hc, h c hc⟩, ?_⟩
  rw [count_point_digits h]
  exact Nat.zero_le 1

theorem isNumeral_point {w f : List Char} (hw : ∀ c ∈ w, c.isDigit = true)
    (hf : ∀ c ∈ f, c.isDigit = true) (hne : w ++ f ≠ []) : isNumeral (w ++ '.' :: f) = true := by
  have hdigits : ∀ c ∈ w ++ f, c.isDigit = true :=
    fun c hc => (List.mem_append.1 hc).elim (hw c) (hf c)
  have hmem : ∀ {c : Char}, c ∈ w ++ '.' :: f ↔ c = '.' ∨ c ∈ w ++ f := by
    intro c
    rw [List.mem_append, List.mem_cons, List.mem_append, or_left_comm]
  obtain ⟨c, hc⟩ := List.exists_mem_of_ne_nil _ hne
  refine isNumeral_iff.2 ⟨fun d hd => ?_, ⟨c, hmem.2 (.inr hc), hdigits c hc⟩, ?_⟩
  · rcases hmem.1 hd with rfl | hd
    · exact .inr rfl
    · exact .inl (hdigits d hd)
  · have hcount : (w ++ '.' :: f).count '.' = 0 + (0 + 1) := by
      rw [List.count_append, List.count_cons_self, count_point_digits hw, count_point_digits hf]
    exact Nat.le_of_eq hcount

end Reckoner
