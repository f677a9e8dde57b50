import Mathlib.Data.List.TakeWhile
import Reckoner.Binary64.Layout
import Reckoner.Proofs.Binary64.DecimalValue
import Reckoner.Proofs.Binary64.Numeral
/-!
Written decimals read back.

A decimal is written by its digits without the zeros at their end, with a point among them or in front
of a power of ten. Either way the text denotes the number that the decimal is, so it is read as the
decimal is, whatever the decisions of the layout are.

What is shown here:
1. `denotes_digits` and `denotes_point`: what digits denote, and digits on both sides of a point;
2. `Layout.denotes_withPoint` and `Layout.denotes_mantissa`: what the two ways of writing denote;
3. `Binary64.unsigned?_of_denotes` and `Binary64.unsigned?_power`: how a numeral is read, alone and in
   front of a power of ten;
4. `Binary64.unsigned?_write`: a decimal that is written is read as it is.
-/

namespace Reckoner

/-- A text is a numeral, and it denotes a rational number. -/
structure Denotes (cs : List Char) (q : ℚ) : Prop where
  numeral : isNumeral cs = true
  value : (Decimal.ofDigits cs).value = q

/-! ## What numerals denote -/

theorem takeWhile_ne_point {w : List Char} (hw : ∀ c ∈ w, c.isDigit = true) (rest : List Char) :
    (w ++ rest).takeWhile (· ≠ '.') = w ++ rest.takeWhile (· ≠ '.') ∧
      (w ++ rest).dropWhile (· ≠ '.') = rest.dropWhile (· ≠ '.') := by
  have hall : ∀ c ∈ w, decide (c ≠ '.') = true :=
    fun c hc => decide_eq_true (ne_point_of_isDigit (hw c hc))
  exact ⟨List.takeWhile_append_of_pos hall, List.dropWhile_append_of_pos hall⟩

theorem denotes_digits {ds : List Char} (h : ∀ c ∈ ds, c.isDigit = true) (hne : ds ≠ []) :
    Denotes ds (Text.digitsValue ds) := by
  refine ⟨isNumeral_digits h hne, ?_⟩
  obtain ⟨htake, hdrop⟩ := takeWhile_ne_point h []
  rw [List.append_nil] at htake hdrop
  rw [Decimal.ofDigits, Decimal.value, htake, hdrop]
  simp

theorem denotes_point {w f : List Char} (hw : ∀ c ∈ w, c.isDigit = true)
    (hf : ∀ c ∈ f, c.isDigit = true) (hne : w ++ f ≠ []) :
    Denotes (w ++ '.' :: f) (Text.digitsValue (w ++ f) * 10 ^ (-(f.length : ℤ))) := by
  refine ⟨isNumeral_point hw hf hne, ?_⟩
  obtain ⟨htake, hdrop⟩ := takeWhile_ne_point hw ('.' :: f)
  have htake' : ('.' :: f).takeWhile (· ≠ '.') = [] := by simp
  have hdrop' : ('.' :: f).dropWhile (· ≠ '.') = '.' :: f := by simp
  rw [Decimal.ofDigits, Decimal.value, htake, hdrop, htake', hdrop', List.append_nil]
  rfl

/-! ## The digits of a decimal -/

theorem Layout.exists_trimZeros (ds : List Char) :
    ∃ k, ds = Layout.trimZeros ds ++ List.replicate k '0' := by
  have hzeros : ∀ c ∈ ds.reverse.takeWhile (· == '0'), c = '0' :=
    fun c hc => eq_of_beq (List.all_eq_true.1 List.all_takeWhile c hc)
  refine ⟨(ds.reverse.takeWhile (· == '0')).length, ?_⟩
  rw [← List.reverse_replicate, ← List.eq_replicate_of_mem hzeros, Layout.trimZeros, ← List.reverse_append,
    List.takeWhile_append_dropWhile, List.reverse_reverse]

namespace Decimal

/-- The digits written for a decimal. -/
def digits (d : Decimal) : List Char := Layout.trimZeros (Text.decimalDigits d.coefficient)

/-- The decimal exponent of the first digit. -/
def leading (d : Decimal) : Int := (Text.decimalDigits d.coefficient).length + d.exponent - 1

theorem exists_digits (d : Decimal) :
    ∃ k, Text.decimalDigits d.coefficient = d.digits ++ List.replicate k '0' :=
  Layout.exists_trimZeros _

theorem isDigit_digits (d : Decimal) : ∀ c ∈ d.digits, c.isDigit = true := by
  intro c hc
  obtain ⟨k, hall⟩ := d.exists_digits
  have hmem : c ∈ Text.decimalDigits d.coefficient := by
    rw [hall]
    exact List.mem_append_left _ hc
  exact Text.isDigit_decimalDigits hmem

theorem coefficient_eq_digits (d : Decimal) :
    ∃ k : Nat, d.coefficient = Text.digitsValue d.digits * 10 ^ k ∧
      d.leading + 1 - d.digits.length = k + d.exponent := by
  obtain ⟨k, hall⟩ := d.exists_digits
  have hlength := congrArg List.length hall
  rw [List.length_append, List.length_replicate] at hlength
  refine ⟨k, ?_, ?_⟩
  · rw [← Text.digitsValue_append_zeros_right, ← hall, Text.digitsValue_decimalDigits]
  · rw [leading, hlength]
    omega

theorem digits_ne_nil {d : Decimal} (h : d.coefficient ≠ 0) : d.digits ≠ [] := by
  intro hnil
  obtain ⟨k, hcoefficient, -⟩ := d.coefficient_eq_digits
  rw [hnil] at hcoefficient
  exact h (hcoefficient.trans (Nat.zero_mul _))

theorem value_eq_digits (d : Decimal) :
    d.value = Text.digitsValue d.digits * 10 ^ (d.leading + 1 - d.digits.length) := by
  obtain ⟨k, hcoefficient, hexponent⟩ := d.coefficient_eq_digits
  rw [hexponent, zpow_add₀ (by norm_num), zpow_natCast, ← mul_assoc, value, hcoefficient]
  push_cast
  rfl

end Decimal

namespace Layout

/-! ## What written digits denote -/

/-- Digits with a point after the first `k` denote their value, moved by as many places. -/
theorem denotes_withPoint {ds : List Char} (h : ∀ c ∈ ds, c.isDigit = true) (hne : ds ≠ [])
    (k : Int) : Denotes (withPoint ds k) (Text.digitsValue ds * 10 ^ (k - ds.length)) := by
  have hzeros : ∀ n, ∀ c ∈ List.replicate n '0', c.isDigit = true := by
    intro n c hc
    rw [List.eq_of_mem_replicate hc]
    rfl
  rw [withPoint]
  by_cases hk : k ≤ 0
  · -- all digits behind the point, and zeros in front of them
    have hf : ∀ c ∈ List.replicate (-k).toNat '0' ++ ds, c.isDigit = true := by
      intro c hc
      rcases List.mem_append.1 hc with hc | hc
      · exact hzeros _ c hc
      · exact h c hc
    have hd := denotes_point (hzeros 1) hf (List.cons_ne_nil _ _)
    rw [← List.append_assoc, List.replicate_append_replicate, Text.digitsValue_append_zeros,
      List.length_append, List.length_replicate] at hd
    have hexponent : k - (ds.length : ℤ) = -(((-k).toNat + ds.length : Nat) : ℤ) := by omega
    rw [if_pos hk, hexponent]
    exact hd
  rw [if_neg hk]
  by_cases hlength : ds.length ≤ k.toNat
  · -- all digits in front of the point, and zeros behind them
    have hw : ∀ c ∈ ds ++ List.replicate (k.toNat - ds.length) '0', c.isDigit = true := by
      intro c hc
      rcases List.mem_append.1 hc with hc | hc
      · exact h c hc
      · exact hzeros _ c hc
    have hd := denotes_point hw (hzeros 1) (by simp)
    have hexponent : k - (ds.length : ℤ) = (k.toNat - ds.length + 1 : Nat) + -((1 : Nat) : ℤ) := by
      omega
    rw [List.append_assoc ds _ (List.replicate 1 '0'), List.replicate_append_replicate,
      Text.digitsValue_append_zeros_right, List.length_replicate, Nat.cast_mul, Nat.cast_pow,
      Nat.cast_ofNat, mul_assoc, ← zpow_natCast, ← zpow_add₀ (by norm_num), ← hexponent] at hd
    simp only [hlength, if_true]
    exact hd
  · have hw : ∀ c ∈ ds.take k.toNat, c.isDigit = true := fun c hc => h c (List.mem_of_mem_take hc)
    have hf : ∀ c ∈ ds.drop k.toNat, c.isDigit = true := fun c hc => h c (List.mem_of_mem_drop hc)
    have hd := denotes_point hw hf (by rwa [List.take_append_drop])
    have hexponent : k - (ds.length : ℤ) = -((ds.length - k.toNat : Nat) : ℤ) := by omega
    rw [List.take_append_drop, List.length_drop, ← hexponent] at hd
    simp only [hlength, if_false]
    exact hd

/-- The digits in front of a power of ten: a point behind the first of them, if there are more. -/
def mantissa : List Char → List Char
  | [] => []
  | [c] => [c]
  | c :: rest => c :: '.' :: rest

theorem scientific_eq (f : Layout) {ds : List Char} (hne : ds ≠ []) (e : Int) :
    f.scientific ds e = mantissa ds ++ f.power e := by
  match ds with
  | [] => exact absurd rfl hne
  | [c] => rfl
  | c :: d :: rest => rfl

theorem denotes_mantissa {ds : List Char} (h : ∀ c ∈ ds, c.isDigit = true) (hne : ds ≠ []) :
    Denotes (mantissa ds) (Text.digitsValue ds * 10 ^ (1 - ds.length : ℤ)) := by
  match ds with
  | [] => exact absurd rfl hne
  | [c] =>
    have hd := denotes_digits h hne
    have hpower : (10 : ℚ) ^ (1 - ([c].length : ℤ)) = 1 := by norm_num
    rw [hpower, mul_one]
    exact hd
  | c :: d :: rest =>
    have hc : ∀ b ∈ [c], b.isDigit = true :=
      fun b hb => List.mem_singleton.1 hb ▸ h c List.mem_cons_self
    have hrest : ∀ b ∈ d :: rest, b.isDigit = true := fun b hb => h b (List.mem_cons_of_mem _ hb)
    have hd := denotes_point hc hrest (List.cons_ne_nil _ _)
    have hexponent : 1 - ((c :: d :: rest).length : ℤ) = -((d :: rest).length : ℤ) := by
      rw [List.length_cons]
      omega
    rw [hexponent]
    exact hd

theorem exponent?_power (f : Layout) (e : Int) :
    ∃ written, f.power e = 'e' :: written ∧ Binary64.exponent? written = some e := by
  refine ⟨_, rfl, ?_⟩
  have hdigits : Text.paddedDigits f.powerDigits e.natAbs ≠ [] ∧
      (Text.paddedDigits f.powerDigits e.natAbs).all Char.isDigit = true :=
    ⟨Text.paddedDigits_ne_nil _ _, List.all_eq_true.2 fun c hc => Text.isDigit_paddedDigits hc⟩
  by_cases he : e < 0
  · rw [if_pos he, Binary64.exponent?, if_pos hdigits, Text.digitsValue_paddedDigits]
    congr 1
    omega
  · rw [if_neg he, Binary64.exponent?, if_pos hdigits, Text.digitsValue_paddedDigits]
    congr 1
    omega

theorem write_eq (f : Layout) (d : Decimal) :
    f.write d =
      if f.leastPlain ≤ d.leading ∧ d.leading ≤ f.greatestPlain then withPoint d.digits (d.leading + 1)
      else f.scientific d.digits d.leading :=
  rfl

end Layout

/-! ## How numerals are read -/

theorem Decimal.coefficient_ofDigits_lt {cs : List Char} (h : isNumeral cs = true) :
    (Decimal.ofDigits cs).coefficient < 10 ^ cs.length := by
  have hall := isNumberChar_of_isNumeral h
  have hle : ∀ c ∈ cs.takeWhile (· ≠ '.') ++ (cs.dropWhile (· ≠ '.')).drop 1, c.toNat ≤ 57 := by
    intro c hc
    refine toNat_le_of_isNumberChar (hall c ?_)
    rcases List.mem_append.1 hc with hc | hc
    · exact (List.takeWhile_prefix _).subset hc
    · exact (List.dropWhile_suffix _).subset (List.mem_of_mem_drop hc)
  have hlength : (cs.takeWhile (· ≠ '.') ++ (cs.dropWhile (· ≠ '.')).drop 1).length ≤ cs.length := by
    have := congrArg List.length (List.takeWhile_append_dropWhile (p := (· ≠ '.')) (l := cs))
    rw [List.length_append] at this ⊢
    rw [List.length_drop]
    omega
  exact Nat.lt_of_lt_of_le (Text.digitsValue_lt hle) (Nat.pow_le_pow_right (by decide) hlength)

namespace Binary64

/-- A text that begins with a digit or a point is no word: it is digits with an optional power of ten. -/
theorem unsigned?_cons {c : Char} (hc : isNumberChar c = true) (cs : List Char) (negative : Bool) :
    unsigned? negative (c :: cs) =
      let digits := (c :: cs).takeWhile (fun c => c ≠ 'e' ∧ c ≠ 'E')
      if isNumeral digits then
        match (c :: cs).dropWhile (fun c => c ≠ 'e' ∧ c ≠ 'E') with
        | [] => some (ofDecimal negative (.ofDigits digits))
        | _ :: written =>
          (exponent? written).map fun e =>
            let d := (Decimal.ofDigits digits).scale e
            ofDecimal negative ⟨d.coefficient, cutExponent digits.length d.exponent⟩
      else none := by
  have hword : ∀ {first : Char} {rest : List Char}, isNumberChar first = false →
      String.ofList ((c :: cs).map Char.toLower) ≠ String.ofList (first :: rest) := by
    intro first rest hfirst heq
    have hhead := List.head_eq_of_cons_eq (String.ofList_injective heq)
    rw [toLower_of_isNumberChar hc] at hhead
    rw [hhead, hfirst] at hc
    cases hc
  rw [unsigned?]
  split
  · exact absurd ‹_› (hword rfl)
  · exact absurd ‹_› (hword rfl)
  · exact absurd ‹_› (hword rfl)
  · rfl

theorem noPower_of_isNumeral {cs : List Char} (h : isNumeral cs = true) :
    ∀ c ∈ cs, decide (c ≠ 'e' ∧ c ≠ 'E') = true := by
  intro c hc
  have hle := toNat_le_of_isNumberChar (isNumberChar_of_isNumeral h c hc)
  refine decide_eq_true ⟨?_, ?_⟩
  · rintro rfl
    exact absurd hle (by decide)
  · rintro rfl
    exact absurd hle (by decide)

theorem unsigned?_numeral {cs : List Char} (h : isNumeral cs = true) (negative : Bool) :
    unsigned? negative cs = some (ofDecimal negative (.ofDigits cs)) := by
  have hplain := noPower_of_isNumeral h
  obtain ⟨c, rest, rfl, hc⟩ := exists_cons_of_isNumeral h
  rw [unsigned?_cons hc, List.takeWhile_eq_self_iff.2 hplain, List.dropWhile_eq_nil_iff.2 hplain]
  simp only [h, if_true]

/-- A numeral in front of a power of ten is read as the decimal scaled by that power, though the power
is cut before. -/
theorem unsigned?_scaled {cs written : List Char} {e : Int} (h : isNumeral cs = true)
    (hwritten : exponent? written = some e) (negative : Bool) :
    unsigned? negative (cs ++ 'e' :: written) =
      some (ofDecimal negative ((Decimal.ofDigits cs).scale e)) := by
  have hplain := noPower_of_isNumeral h
  have htake : (cs ++ 'e' :: written).takeWhile (fun c => c ≠ 'e' ∧ c ≠ 'E') = cs := by
    rw [List.takeWhile_append_of_pos hplain, List.takeWhile_cons_of_neg (by decide), List.append_nil]
  have hdrop : (cs ++ 'e' :: written).dropWhile (fun c => c ≠ 'e' ∧ c ≠ 'E') = 'e' :: written := by
    rw [List.dropWhile_append_of_pos hplain, List.dropWhile_cons_of_neg (by decide)]
  have hcut := ofDecimal_cutExponent (Decimal.coefficient_ofDigits_lt h)
  obtain ⟨c, rest, hcs, hc⟩ := exists_cons_of_isNumeral h
  have hread := unsigned?_cons hc (rest ++ 'e' :: written) negative
  rw [← List.cons_append, ← hcs, htake, hdrop] at hread
  rw [hread]
  simp only [h, if_true, hwritten, Option.map_some, Decimal.scale, hcut]

theorem unsigned?_of_denotes {cs : List Char} {d : Decimal} (h : Denotes cs d.value)
    (negative : Bool) : unsigned? negative cs = some (ofDecimal negative d) := by
  rw [unsigned?_numeral h.numeral, ofDecimal_congr h.value]

/-- A numeral in front of a power of ten is read as the decimal that both of them give. -/
theorem unsigned?_power {cs written : List Char} {q : ℚ} {e : Int} {d : Decimal} (h : Denotes cs q)
    (hwritten : exponent? written = some e) (hd : d.value = q * 10 ^ e) (negative : Bool) :
    unsigned? negative (cs ++ 'e' :: written) = some (ofDecimal negative d) := by
  have hvalue : ((Decimal.ofDigits cs).scale e).value = d.value := by
    rw [hd, ← h.value, Decimal.value, Decimal.value, Decimal.scale, zpow_add₀ (by norm_num),
      mul_assoc]
  rw [unsigned?_scaled h.numeral hwritten, ofDecimal_congr hvalue]

/-! ## How written decimals are read -/

theorem exists_cons_of_write {d : Decimal} (hd : d.coefficient ≠ 0) (f : Layout) :
    ∃ c rest, f.write d = c :: rest ∧ isNumberChar c = true := by
  have hne := Decimal.digits_ne_nil hd
  rw [f.write_eq]
  split
  · exact exists_cons_of_isNumeral (Layout.denotes_withPoint d.isDigit_digits hne _).numeral
  · obtain ⟨c, rest, hcs, hc⟩ :=
      exists_cons_of_isNumeral (Layout.denotes_mantissa d.isDigit_digits hne).numeral
    refine ⟨c, rest ++ f.power d.leading, ?_, hc⟩
    rw [f.scientific_eq hne, hcs, List.cons_append]

/-- A decimal that is not zero is read as it is once it is written, whatever the layout. -/
theorem unsigned?_write {d : Decimal} (hd : d.coefficient ≠ 0) (f : Layout) (negative : Bool) :
    unsigned? negative (f.write d) = some (ofDecimal negative d) := by
  have hne := Decimal.digits_ne_nil hd
  have hvalue := d.value_eq_digits
  rw [f.write_eq]
  split
  · refine unsigned?_of_denotes ?_ negative
    rw [hvalue]
    exact Layout.denotes_withPoint d.isDigit_digits hne _
  · obtain ⟨written, hpower, hwritten⟩ := f.exponent?_power d.leading
    have hexponent : d.leading + 1 - d.digits.length = 1 - d.digits.length + d.leading := by omega
    rw [f.scientific_eq hne, hpower]
    refine unsigned?_power (Layout.denotes_mantissa d.isDigit_digits hne) hwritten ?_ negative
    rw [hvalue, mul_assoc, ← zpow_add₀ (by norm_num), hexponent]

end Binary64

end Reckoner
