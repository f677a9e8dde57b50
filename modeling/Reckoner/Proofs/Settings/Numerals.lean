import Mathlib.Data.List.TakeWhile
import Reckoner.Settings.Value
/-!
Numerals without a value.

A plain word may have the form of a whole number and still stand for none: behind the mark of base two or
sixteen there are underscores only, or a run of decimal digits is longer than is read. These are all of
them, and every other word that is not reserved stands for a scalar.

What is shown here:
1. `natural?_eq_error_iff`: the unsigned numerals without a value, and why;
2. `ofPlain_eq_error_iff`: the plain words that are such numerals;
3. `Value.ofPlain_cases`: what comes of a plain word.
-/

namespace Reckoner.Settings
open Text

/-! ## Numerals -/

/-- A whole number in decimal digits, perhaps with underscores, that does not begin with zero. -/
inductive IsDecimal : List Char → Prop
  | cons {c : Char} {cs : List Char} (hc : c.isDigit = true) (hne : c ≠ '0')
    (hcs : cs.all isDigitOrGap = true) : IsDecimal (c :: cs)

/-- A part below sixty. -/
inductive IsSixtieth : List Char → Prop
  | one {d : Char} (hd : d.isDigit = true) : IsSixtieth [d]
  | two {c d : Char} (hc : '0' ≤ c ∧ c ≤ '5') (hd : d.isDigit = true) : IsSixtieth [c, d]

/-- The unsigned numerals without a value, and why they have none. -/
inductive HasFault : List Char → NumeralFault → Prop
  | noDigits {mark : Char} {base : Nat} (hmark : (mark, base) ∈ [('b', 2), ('x', 16)]) (gaps : Nat) :
    HasFault ('0' :: mark :: List.replicate (gaps + 1) '_') (.noDigits base)
  | tooManyDigits {first : List Char} {parts : List (List Char)} (hfirst : IsDecimal first)
    (hparts : ∀ p ∈ parts, IsSixtieth p) (hlong : digitLimit < (dropGaps first).length) :
    HasFault (first ++ parts.flatMap (':' :: ·)) (.tooManyDigits (dropGaps first).length)

theorem isDigit_isDigitOrGap {c : Char} (h : c.isDigit = true) : isDigitOrGap c = true := by
  simp [isDigitOrGap, h]

theorem IsDecimal.all_isDigitOrGap {cs : List Char} (h : IsDecimal cs) : ∀ c ∈ cs, isDigitOrGap c = true := by
  cases h with
  | cons hc hne hcs => exact List.forall_mem_cons.2 ⟨isDigit_isDigitOrGap hc, List.all_eq_true.1 hcs⟩

theorem IsSixtieth.all_isDigit {cs : List Char} (h : IsSixtieth cs) : ∀ c ∈ cs, c.isDigit = true := by
  cases h with
  | one hd => exact List.forall_mem_singleton.2 hd
  | two hc hd =>
    refine List.forall_mem_cons.2 ⟨?_, List.forall_mem_singleton.2 hd⟩
    have hnine : _ ≤ '9' := Char.le_trans hc.2 (by decide)
    simp only [Char.isDigit, Bool.and_eq_true, decide_eq_true_eq]
    exact ⟨hc.1, hnine⟩

theorem IsSixtieth.length_le {cs : List Char} (h : IsSixtieth cs) : cs.length ≤ 2 := by
  cases h <;> simp

theorem colon_not_mem {cs : List Char} (h : ∀ c ∈ cs, isDigitOrGap c = true) : ':' ∉ cs :=
  fun hmem => absurd (h _ hmem) (by decide)

theorem sixtiesForm_of_split {cs first part : List Char} {parts : List (List Char)}
    (h : split (· == ':') cs = first :: part :: parts) :
    sixtiesForm false cs = true ↔ IsDecimal first ∧ ∀ p ∈ part :: parts, IsSixtieth p := by
  rw [sixtiesForm, h]
  simp only [Bool.and_eq_true]
  refine and_congr ?_ (List.all_eq_true.trans (forall₂_congr fun p _ => ?_))
  · constructor
    · intro hfirst
      split at hfirst
      · simp only [Bool.false_or, Bool.and_eq_true, bne_iff_ne] at hfirst
        exact .cons hfirst.1.1 hfirst.1.2 hfirst.2
      · cases hfirst
    · rintro ⟨hc, hne, hcs⟩
      simp [hc, hne, hcs]
  · constructor
    · intro hp
      split at hp
      · exact .one hp
      · simp only [Bool.and_eq_true, decide_eq_true_eq] at hp
        exact .two hp.1 hp.2
      · cases hp
    · intro hp
      cases hp with
      | one hd => exact hd
      | two hc hd => simp [hc, hd]

theorem sixtiesForm_iff {cs : List Char} : sixtiesForm false cs = true ↔
    ∃ (first : List Char) (parts : List (List Char)), cs = first ++ parts.flatMap (':' :: ·) ∧
      parts ≠ [] ∧ IsDecimal first ∧ ∀ p ∈ parts, IsSixtieth p := by
  constructor
  · intro h
    cases hsplit : split (· == ':') cs with
    | nil => exact absurd hsplit (split_ne_nil _ _)
    | cons first parts =>
      cases parts with
      | nil => simp [sixtiesForm, hsplit] at h
      | cons part parts =>
        obtain ⟨hfirst, hparts⟩ := (sixtiesForm_of_split hsplit).1 h
        exact ⟨first, part :: parts, (split_eq_cons_iff.1 hsplit).1, List.cons_ne_nil _ _, hfirst, hparts⟩
  · rintro ⟨first, _ | ⟨part, parts⟩, hcs, hne, hfirst, hparts⟩
    · exact absurd rfl hne
    · refine (sixtiesForm_of_split (split_eq_cons_iff.2 ⟨hcs, ?_, fun p hp => ?_⟩)).2 ⟨hfirst, hparts⟩
      · exact colon_not_mem hfirst.all_isDigitOrGap
      · exact colon_not_mem fun c hc => isDigit_isDigitOrGap ((hparts p hp).all_isDigit c hc)

theorem decimal_eq_error_iff {ds : List Char} {f : NumeralFault} :
    decimal ds = .error f ↔ digitLimit < ds.length ∧ f = .tooManyDigits ds.length := by
  unfold decimal
  split
  · rename_i h
    simp [h, eq_comm]
  · rename_i h
    simp [h]

theorem exists_sixties {parts : List (List Char)} (h : ∀ p ∈ parts, p.length ≤ digitLimit) (n : Nat) :
    ∃ k, parts.foldlM (fun n p => (decimal p).map fun k => 60 * n + k) n = .ok k := by
  induction parts generalizing n with
  | nil => exact ⟨n, rfl⟩
  | cons p parts ih =>
    obtain ⟨hp, hparts⟩ := List.forall_mem_cons.1 h
    obtain ⟨k, hk⟩ := ih hparts (60 * n + digitsValue p)
    refine ⟨k, ?_⟩
    rw [List.foldlM_cons, decimal, if_neg (Nat.not_lt.2 hp)]
    exact hk

theorem mem_of_mem_dropGaps {c : Char} {cs : List Char} (h : c ∈ dropGaps cs) : c ∈ cs :=
  (List.mem_filter.1 h).1

theorem dropGaps_joined {first : List Char} {parts : List (List Char)} :
    dropGaps (first ++ parts.flatMap (':' :: ·)) =
      dropGaps first ++ (parts.map dropGaps).flatMap (':' :: ·) := by
  simp [dropGaps, List.filter_flatMap, List.flatMap_map]

theorem sixties_eq_error_iff {first : List Char} {parts : List (List Char)} (hfirst : IsDecimal first)
    (hparts : ∀ p ∈ parts, IsSixtieth p) {f : NumeralFault} :
    sixties (dropGaps (first ++ parts.flatMap (':' :: ·))) = .error f ↔
      digitLimit < (dropGaps first).length ∧ f = .tooManyDigits (dropGaps first).length := by
  have hcolon : ':' ∉ dropGaps first := fun h =>
    colon_not_mem hfirst.all_isDigitOrGap (mem_of_mem_dropGaps h)
  have hcolons : ∀ p ∈ parts.map dropGaps, ':' ∉ p := List.forall_mem_map.2 fun p hp h =>
    colon_not_mem (fun c hc => isDigit_isDigitOrGap ((hparts p hp).all_isDigit c hc))
      (mem_of_mem_dropGaps h)
  have hshort : ∀ p ∈ parts.map dropGaps, p.length ≤ digitLimit := List.forall_mem_map.2 fun p hp =>
    Nat.le_trans (List.length_filter_le _ p) (Nat.le_trans (hparts p hp).length_le (by decide))
  rw [sixties, dropGaps_joined, split_joined hcolon hcolons, List.foldlM_cons, ← decimal_eq_error_iff]
  cases hdecimal : decimal (dropGaps first) with
  | error e => rfl
  | ok k =>
    obtain ⟨n, hn⟩ := exists_sixties hshort (60 * 0 + k)
    refine iff_of_false (fun h => ?_) (fun h => by cases h)
    cases hn.symm.trans h

theorem eq_replicate_of_dropGaps {ds : List Char} (h : dropGaps ds = []) :
    ds = List.replicate ds.length '_' := by
  refine List.eq_replicate_of_mem fun c hc => ?_
  simpa using List.filter_eq_nil_iff.1 h c hc

theorem natural?_of_ne {c : Char} {cs : List Char} (hc : c ≠ '0') :
    natural? (c :: cs) =
      if c.isDigit && cs.all isDigitOrGap then some (decimal (dropGaps (c :: cs)))
      else if sixtiesForm false (c :: cs) then some (sixties (dropGaps (c :: cs)))
      else none := by
  unfold natural?
  split
  · rename_i h
    exact absurd (List.cons.inj h).1 hc
  · rename_i h
    exact absurd (List.cons.inj h).1 hc
  · rename_i h
    exact absurd (List.cons.inj h).1 hc
  · rename_i h
    obtain ⟨rfl, rfl⟩ := List.cons.inj h
    rfl
  · rename_i h
    cases h

theorem exists_gaps {ds : List Char} {base value : Nat} {f : NumeralFault} (hne : ds ≠ [])
    (h : (if (dropGaps ds).isEmpty then .error (.noDigits base) else .ok value) = Except.error f) :
    ∃ gaps, ds = List.replicate (gaps + 1) '_' ∧ f = .noDigits base := by
  split at h
  · rename_i hgaps
    obtain ⟨gaps, hlength⟩ := Nat.exists_eq_succ_of_ne_zero (mt List.length_eq_zero_iff.1 hne)
    refine ⟨gaps, ?_, (Except.error.inj h).symm⟩
    rw [← Nat.succ_eq_add_one, ← hlength]
    exact eq_replicate_of_dropGaps (List.isEmpty_iff.1 hgaps)
  · cases h

theorem HasFault.of_natural? {cs : List Char} {f : NumeralFault}
    (h : natural? cs = some (.error f)) : HasFault cs f := by
  unfold natural? at h
  split at h
  · split at h
    · rename_i ds hds
      obtain ⟨gaps, rfl, rfl⟩ := exists_gaps (by rintro rfl; simp at hds) (Option.some.inj h)
      exact .noDigits (by simp) gaps
    · cases h
  · split at h
    · rename_i ds hds
      obtain ⟨gaps, rfl, rfl⟩ := exists_gaps (by rintro rfl; simp at hds) (Option.some.inj h)
      exact .noDigits (by simp) gaps
    · cases h
  · split at h
    · cases h
    · cases h
  · rename_i c ds _ _ hzero
    split at h
    · rename_i hdigits
      obtain ⟨hc, hds⟩ := Bool.and_eq_true_iff.1 hdigits
      obtain ⟨hlong, rfl⟩ := decimal_eq_error_iff.1 (Option.some.inj h)
      have hfirst : IsDecimal (c :: ds) := .cons hc hzero hds
      simpa using @HasFault.tooManyDigits (c :: ds) [] hfirst (by simp) hlong
    · split at h
      · rename_i hform
        obtain ⟨first, parts, hjoined, -, hfirst, hparts⟩ := sixtiesForm_iff.1 hform
        rw [hjoined] at h ⊢
        obtain ⟨hlong, rfl⟩ := (sixties_eq_error_iff hfirst hparts).1 (Option.some.inj h)
        exact .tooManyDigits hfirst hparts hlong
      · cases h
  · cases h

theorem natural?_eq_error_iff {cs : List Char} {f : NumeralFault} :
    natural? cs = some (.error f) ↔ HasFault cs f := by
  refine ⟨.of_natural?, fun h => ?_⟩
  cases h with
  | noDigits hmark gaps =>
    simp only [List.mem_cons, Prod.mk.injEq, List.not_mem_nil, or_false] at hmark
    rcases hmark with ⟨rfl, rfl⟩ | ⟨rfl, rfl⟩ <;>
      simp [natural?, dropGaps, isDigitOrGap, List.replicate_succ]
  | @tooManyDigits first parts hfirst hparts hlong =>
    have hfirst' := hfirst
    cases hfirst' with
    | @cons c ds hc hne hds =>
      rw [List.cons_append, natural?_of_ne hne, ← List.cons_append]
      cases parts with
      | nil =>
        rw [if_pos (by simp [hc, hds])]
        simpa using decimal_eq_error_iff.2 ⟨hlong, rfl⟩
      | cons part parts =>
        have hcolon : (ds ++ (part :: parts).flatMap (':' :: ·)).all isDigitOrGap = false := by
          simp [show isDigitOrGap ':' = false by decide]
        have hform := sixtiesForm_iff.2 ⟨_, _, rfl, List.cons_ne_nil part parts, hfirst, hparts⟩
        rw [hcolon, Bool.and_false, if_neg Bool.false_ne_true, if_pos hform]
        exact congrArg some ((sixties_eq_error_iff hfirst hparts).2 ⟨hlong, rfl⟩)

/-! ## Words -/

/-- A plain word that is a numeral without a value, perhaps with a sign. -/
def WordHasFault (word : List Char) (f : NumeralFault) : Prop :=
  ∃ cs, HasFault cs f ∧ (word = cs ∨ word = '+' :: cs ∨ word = '-' :: cs)

theorem HasFault.exists_cons {cs : List Char} {f : NumeralFault} (h : HasFault cs f) :
    ∃ c ds, cs = c :: ds ∧ c.isDigit = true := by
  cases h with
  | noDigits hmark gaps => exact ⟨_, _, rfl, by decide⟩
  | tooManyDigits hfirst hparts hlong =>
    cases hfirst with
    | cons hc hne hcs => exact ⟨_, _, rfl, hc⟩

theorem HasFault.point_not_mem {cs : List Char} {f : NumeralFault} (h : HasFault cs f) : '.' ∉ cs := by
  cases h with
  | noDigits hmark gaps =>
    simp only [List.mem_cons, Prod.mk.injEq, List.not_mem_nil, or_false] at hmark
    rcases hmark with ⟨rfl, rfl⟩ | ⟨rfl, rfl⟩ <;> simp [List.mem_replicate]
  | tooManyDigits hfirst hparts hlong =>
    rw [List.mem_append, List.mem_flatMap, not_or]
    refine ⟨fun h => absurd (hfirst.all_isDigitOrGap _ h) (by decide), ?_⟩
    rintro ⟨p, hp, hmem⟩
    rcases List.mem_cons.1 hmem with heq | hmem
    · exact absurd heq (by decide)
    · exact absurd ((hparts p hp).all_isDigit _ hmem) (by decide)

theorem splitSign_cases (word : List Char) :
    word = (splitSign word).2 ∨ word = '+' :: (splitSign word).2 ∨ word = '-' :: (splitSign word).2 := by
  unfold splitSign
  split <;> simp

theorem splitSign_snd {word ds : List Char} {c : Char} (hc : c.isDigit = true)
    (h : word = c :: ds ∨ word = '+' :: c :: ds ∨ word = '-' :: c :: ds) :
    (splitSign word).2 = c :: ds := by
  rcases h with rfl | rfl | rfl
  · unfold splitSign
    split
    · rename_i h
      exact absurd hc (by rw [(List.cons.inj h).1]; decide)
    · rename_i h
      exact absurd hc (by rw [(List.cons.inj h).1]; decide)
    · rfl
  · rfl
  · rfl

theorem isPointed_eq_false {signed : Bool} {cs : List Char} (h : '.' ∉ cs) :
    isPointed signed cs = false := by
  unfold isPointed
  split
  · exact absurd List.mem_cons_self h
  · rename_i d rest _
    split
    · rename_i hrest
      have hmem := (List.dropWhile_suffix isDigitOrGap).mem (hrest ▸ List.mem_cons_self)
      exact absurd (List.mem_cons_of_mem d hmem) h
    · exact Bool.and_false _
  · rfl

theorem isPointedSixties_eq_false {cs : List Char} (h : '.' ∉ cs) : isPointedSixties cs = false := by
  have hdrop : cs.dropWhile (· ≠ '.') = [] :=
    List.dropWhile_eq_nil_iff.2 fun c hc => decide_eq_true fun heq => h (heq ▸ hc)
  rw [isPointedSixties, hdrop]
  exact Bool.and_false _

theorem pointed?_eq_none {word : List Char} (h : '.' ∉ word) : pointed? word = none := by
  have hrest : '.' ∉ (splitSign word).2 := by
    intro hmem
    rcases splitSign_cases word with heq | heq | heq <;> rw [heq] at h
    · exact h hmem
    · exact h (List.mem_cons_of_mem _ hmem)
    · exact h (List.mem_cons_of_mem _ hmem)
  have hname : ∀ name : String, '.' ∈ name.toList → String.ofList (splitSign word).2 ≠ name := by
    rintro name hmem rfl
    exact hrest (by simpa using hmem)
  unfold pointed?
  simp [isPointed_eq_false hrest, isPointedSixties_eq_false hrest, hname]

theorem not_isDigit_of_mem_words {w : String} (hw : w ∈ nullWords ++ trueWords ++ falseWords) {c : Char}
    (hc : c ∈ w.toList) : c.isDigit = false := by
  have hall : (nullWords ++ trueWords ++ falseWords).all (fun w => w.toList.all fun c => !c.isDigit) := by
    decide
  simpa using List.all_eq_true.1 (List.all_eq_true.1 hall w hw) c hc

theorem whole?_eq_error_iff {word : List Char} {f : NumeralFault} :
    whole? word = some (.error f) ↔ HasFault (splitSign word).2 f := by
  have hwhole : whole? word = (natural? (splitSign word).2).map fun n =>
      n.map fun k => if (splitSign word).1 then -(k : Int) else k := rfl
  rw [← natural?_eq_error_iff, hwhole]
  cases natural? (splitSign word).2 with
  | none => simp
  | some r => cases r <;> simp [Except.map]

/-- A word fails to be a scalar only as a numeral without a value. -/
theorem ofPlain_eq_error_iff {word : List Char} {f : NumeralFault} :
    Scalar.ofPlain word = .error f ↔ WordHasFault word f := by
  constructor
  · intro h
    refine ⟨(splitSign word).2, whole?_eq_error_iff.1 ?_, splitSign_cases word⟩
    rw [Scalar.ofPlain] at h
    cases hpoint : pointed? word <;> cases hwhole : whole? word <;> grind
  · rintro ⟨cs, hcs, hword⟩
    obtain ⟨c, ds, rfl, hc⟩ := hcs.exists_cons
    have hwhole : whole? word = some (.error f) := by
      rwa [whole?_eq_error_iff, splitSign_snd hc hword]
    have hdigit : c ∈ word := by
      rcases hword with rfl | rfl | rfl <;> simp
    have hpoint : pointed? word = none := by
      refine pointed?_eq_none ?_
      rcases hword with rfl | rfl | rfl <;> simpa using hcs.point_not_mem
    have hother : String.ofList word ∉ nullWords ++ trueWords ++ falseWords := fun hmem =>
      absurd hc (Bool.eq_false_iff.1 (not_isDigit_of_mem_words hmem (by simpa using hdigit)))
    simp only [List.mem_append, not_or] at hother
    have hempty : ¬word.isEmpty = true := by simpa using List.ne_nil_of_mem hdigit
    rw [Scalar.ofPlain, if_neg (not_or.2 ⟨hempty, hother.1.1⟩), if_neg hother.1.2, if_neg hother.2,
      hpoint, hwhole]

example : Scalar.ofPlain "-0b_".toList = .error (.noDigits 2) := by cbv

/-- The plain words that stand for a scalar: they are not reserved, and are not numerals without a
value. -/
def IsWord (word : List Char) : Prop :=
  String.ofList word ∉ Value.reservedWords ∧ ∀ f, ¬WordHasFault word f

/-- What a plain word stands for, and the faults it may have instead. -/
theorem Value.ofPlain_cases (word : List Char) :
    (IsWord word ∧ ∃ s, Value.ofPlain word = .ok s) ∨
      (String.ofList word ∈ reservedWords ∧ Value.ofPlain word = .error .malformed) ∨
      ∃ f, WordHasFault word f ∧ Value.ofPlain word = .error (.numeral f) := by
  by_cases hreserved : String.ofList word ∈ reservedWords
  · exact .inr (.inl ⟨hreserved, by rw [ofPlain, if_pos hreserved]⟩)
  · cases hword : Scalar.ofPlain word with
    | ok s =>
      refine .inl ⟨⟨hreserved, fun f hf => ?_⟩, s, by rw [ofPlain, if_neg hreserved, hword]⟩
      cases hword.symm.trans (ofPlain_eq_error_iff.2 hf)
    | error f =>
      refine .inr (.inr ⟨f, ofPlain_eq_error_iff.1 hword, ?_⟩)
      rw [ofPlain, if_neg hreserved, hword]

end Reckoner.Settings
