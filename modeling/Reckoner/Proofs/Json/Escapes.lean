import Mathlib.Algebra.Group.Nat.Defs
import Mathlib.Data.List.Induction
import Reckoner.Json.Parser
import Reckoner.Json.Printer
/-!
Strings of JSON text.

A character is written as itself or by an escape, and what is read for it are its code units: one, or two
where a character beyond the first plane is written by the codes of a pair of surrogates. A character of
a text is never a surrogate itself, so the code units of a text spell that text again, and a string is
read back as it was written in every style.

What is shown here:
1. `hexNumber?_hexDigits`: hexadecimal digits are read as the number that they were written for;
2. `readUnits_escapeChar`: an escaped character is read as its code units;
3. `textOfUnits_codeUnits`: the code units of a text spell it;
4. `readUnits_string` and `ofUnits_codeUnits`: a written string is read back;
5. `le_of_mem_stringText`: there is no control in a written string.
-/

namespace Reckoner

/-! ## Hexadecimal digits -/

namespace Text

theorem hexValue?_digitChar {d : Nat} (h : d < 16) : hexValue? (Nat.digitChar d) = some d := by
  have hall : ∀ d < 16, hexValue? (Nat.digitChar d) = some d := by decide
  exact hall d h

theorem hexNumber?_toDigits (n : Nat) : hexNumber? (Nat.toDigits 16 n) = some n := by
  induction n using Nat.strongRecOn with
  | ind n ih =>
    by_cases h : n < 16
    · rw [Nat.toDigits_of_lt_base h]
      simp [hexNumber?, appendHex, hexValue?_digitChar h]
    · have hlast := hexValue?_digitChar (Nat.mod_lt n (by omega : 16 > 0))
      rw [Nat.toDigits_of_base_le (by decide) (by omega), hexNumber?_append_singleton,
        ih (n / 16) (by omega)]
      simp only [appendHex, hlast, Option.some.injEq]
      omega

theorem hexNumber?_zeros (k : Nat) (cs : List Char) :
    hexNumber? (List.replicate k '0' ++ cs) = hexNumber? cs := by
  have hzero : appendHex (some 0) '0' = some 0 := by decide
  induction k with
  | zero => rfl
  | succ k ih =>
    rw [List.replicate_succ, List.cons_append, hexNumber?, List.foldl_cons, hzero]
    exact ih

theorem hexNumber?_hexDigits (width n : Nat) : hexNumber? (hexDigits width n) = some n := by
  rw [hexDigits, hexNumber?_zeros, hexNumber?_toDigits]

theorem length_hexDigits {width n : Nat} (hwidth : 0 < width) (h : n < 16 ^ width) :
    (hexDigits width n).length = width := by
  have hle := (Nat.length_toDigits_le_iff (by decide : 1 < 16) hwidth).2 h
  simp only [hexDigits, List.length_append, List.length_replicate]
  omega

theorem isSome_hexValue? {cs : List Char} {n : Nat} (h : hexNumber? cs = some n) {c : Char}
    (hc : c ∈ cs) : (hexValue? c).isSome = true := by
  induction cs using List.reverseRecOn generalizing n with
  | nil => cases hc
  | append_singleton cs d ih =>
    rw [hexNumber?_append_singleton, appendHex.eq_def] at h
    split at h
    · rename_i m v hm hv
      rcases List.mem_append.1 hc with hc | hc
      · exact ih hm hc
      · rw [List.mem_singleton.1 hc, hv]
        rfl
    · cases h

theorem le_of_mem_hexDigits {width n : Nat} {c : Char} (h : c ∈ hexDigits width n) :
    0x20 ≤ c.toNat := by
  have hvalue := isSome_hexValue? (hexNumber?_hexDigits width n) h
  have hall : ∀ m < 0x20, hexValue? (Char.ofNat m) = none := by decide
  refine Nat.le_of_not_lt fun hcontrol => ?_
  have hnone := hall c.toNat hcontrol
  rw [Char.ofNat_toNat] at hnone
  rw [hnone] at hvalue
  cases hvalue

end Text

namespace Json

/-! ## Code units -/

theorem toNat_cases (c : Char) : c.toNat < 0xD800 ∨ (0xDFFF < c.toNat ∧ c.toNat < 0x110000) := c.valid

/-- What is read for a character: its code, or the codes of a pair of surrogates where the character is
written by them. -/
def codeUnits (asciiOnly : Bool) (c : Char) : List Nat :=
  if asciiOnly = true ∧ 0x10000 ≤ c.toNat then
    [0xD800 + (c.toNat - 0x10000) / 0x400, 0xDC00 + (c.toNat - 0x10000) % 0x400]
  else [c.toNat]

theorem readUnits_unitEscape {n : Nat} (h : n < 0x10000) (rest : List Char) :
    readUnits (unitEscape n ++ rest) = (readUnits rest).map fun r => (n :: r.1, r.2) := by
  have hlength : (Text.hexDigits 4 n).length = 4 := Text.length_hexDigits (by decide) h
  have hnumber := Text.hexNumber?_hexDigits 4 n
  match hdigits : Text.hexDigits 4 n with
  | [a, b, c, d] =>
    rw [hdigits] at hnumber
    simp only [unitEscape, hdigits, List.cons_append, List.nil_append, readUnits, hnumber]
    cases readUnits rest <;> rfl
  | [] | [_] | [_, _] | [_, _, _] | _ :: _ :: _ :: _ :: _ :: _ => simp [hdigits] at hlength

theorem readUnits_escape {c e : Char} (hescape : escape? e = some c.toNat) (he : e ≠ 'u')
    (hplane : c.toNat < 0x10000) (asciiOnly : Bool) (rest : List Char) :
    readUnits ('\\' :: e :: rest) =
      (readUnits rest).map fun r => (codeUnits asciiOnly c ++ r.1, r.2) := by
  rw [codeUnits, if_neg (by omega), readUnits]
  · rw [hescape]
    cases readUnits rest <;> rfl
  · intro _ _ _ _ _ hu _
    exact he hu

theorem readUnits_plain {c : Char} (hquote : c ≠ '"') (hbackslash : c ≠ '\\') (h : 0x20 ≤ c.toNat)
    (rest : List Char) :
    readUnits (c :: rest) = (readUnits rest).map fun r => (c.toNat :: r.1, r.2) := by
  rw [readUnits]
  · rw [if_neg (by simp only [not_or]; exact ⟨by omega, hbackslash⟩)]
    cases readUnits rest <;> rfl
  · intro hc
    exact hquote hc
  · intro a b d e t hc _
    exact hbackslash hc
  · intro a t hc _
    exact hbackslash hc

theorem readUnits_escapeWide (c : Char) (rest : List Char) :
    readUnits (escapeWide c ++ rest) =
      (readUnits rest).map fun r => (codeUnits true c ++ r.1, r.2) := by
  have hc : c.toNat < 0x110000 := by
    have := toNat_cases c
    omega
  rw [escapeWide, codeUnits]
  by_cases hplane : c.toNat < 0x10000
  · rw [if_pos hplane, if_neg (by omega), readUnits_unitEscape hplane]
    rfl
  · rw [if_neg hplane, if_pos ⟨rfl, by omega⟩]
    simp only [List.append_assoc]
    rw [readUnits_unitEscape (by omega), readUnits_unitEscape (by omega)]
    cases readUnits rest <;> rfl

/-- The forms in which a character is written: a letter behind a backslash, its code, or the character
itself. -/
inductive Escaped (asciiOnly : Bool) (c : Char) : List Char → Prop
  | letter {e : Char} (hescape : escape? e = some c.toNat) (he : e ≠ 'u') (hprinted : 0x20 ≤ e.toNat)
    (hplane : c.toNat < 0x10000) : Escaped asciiOnly c ['\\', e]
  | control (h : c.toNat < 0x20) : Escaped asciiOnly c (unitEscape c.toNat)
  | wide (hwide : asciiOnly = true) : Escaped asciiOnly c (escapeWide c)
  | plain (hquote : c ≠ '"') (hbackslash : c ≠ '\\') (hprinted : 0x20 ≤ c.toNat)
    (hnarrow : asciiOnly = true → c.toNat < 0x7F) : Escaped asciiOnly c [c]

theorem escaped_escapeChar (asciiOnly : Bool) (c : Char) :
    Escaped asciiOnly c (escapeChar asciiOnly c) := by
  have hletter : ∀ d e : Char, escape? e = some d.toNat → e ≠ 'u' → 0x20 ≤ e.toNat →
      d.toNat < 0x10000 → c = d → Escaped asciiOnly c ['\\', e] := by
    rintro d e hescape he hprinted hplane rfl
    exact .letter hescape he hprinted hplane
  unfold escapeChar
  refine iteInduction (hletter _ _ rfl (by decide) (by decide) (by decide)) fun hquote => ?_
  refine iteInduction (hletter _ _ rfl (by decide) (by decide) (by decide)) fun hbackslash => ?_
  iterate 5
    refine iteInduction (hletter _ _ rfl (by decide) (by decide) (by decide)) fun _ => ?_
  refine iteInduction .control fun hcontrol => ?_
  refine iteInduction (fun h => .wide (Bool.and_eq_true_iff.1 h).1) fun hnarrow => ?_
  refine .plain hquote hbackslash (by omega) fun hascii => ?_
  rw [hascii, Bool.true_and, decide_eq_true_eq] at hnarrow
  omega

/-- An escaped character is read as its code units. -/
theorem readUnits_escapeChar (asciiOnly : Bool) (c : Char) (rest : List Char) :
    readUnits (escapeChar asciiOnly c ++ rest) =
      (readUnits rest).map fun r => (codeUnits asciiOnly c ++ r.1, r.2) := by
  have hescaped := escaped_escapeChar asciiOnly c
  generalize escapeChar asciiOnly c = written at hescaped ⊢
  cases hescaped with
  | letter hescape he hprinted hplane => exact readUnits_escape hescape he hplane asciiOnly rest
  | control h =>
    rw [codeUnits, if_neg (by omega)]
    exact readUnits_unitEscape (by omega) rest
  | wide hwide =>
    rw [hwide]
    exact readUnits_escapeWide c rest
  | plain hquote hbackslash hprinted hnarrow =>
    rw [codeUnits, if_neg fun h => by have := hnarrow h.1; omega]
    exact readUnits_plain hquote hbackslash hprinted rest

theorem readUnits_flatMap (asciiOnly : Bool) (cs rest : List Char) :
    readUnits (cs.flatMap (escapeChar asciiOnly) ++ rest) =
      (readUnits rest).map fun r => (cs.flatMap (codeUnits asciiOnly) ++ r.1, r.2) := by
  induction cs with
  | nil =>
    show readUnits rest = (readUnits rest).map id
    rw [Option.map_id_fun, id]
  | cons c cs ih =>
    rw [List.flatMap_cons, List.append_assoc, readUnits_escapeChar, ih]
    cases readUnits rest with
    | none => rfl
    | some r => simp

/-- Behind its opening quote a written string is read as the code units of its text. -/
theorem readUnits_string (asciiOnly : Bool) (s : String) (rest : List Char) :
    readUnits (s.toList.flatMap (escapeChar asciiOnly) ++ '"' :: rest) =
      some (s.toList.flatMap (codeUnits asciiOnly), rest) := by
  have hclosing : readUnits ('"' :: rest) = some ([], rest) := by simp [readUnits]
  rw [readUnits_flatMap, hclosing]
  simp

/-! ## The text that code units spell -/

theorem textOfUnits_code (c : Char) (us : List Nat) :
    textOfUnits (c.toNat :: us) = (textOfUnits us).map (c :: ·) := by
  have hcode := toNat_cases c
  have hhigh : isHighSurrogate c.toNat = false := by
    simp only [isHighSurrogate, Bool.and_eq_false_iff, decide_eq_false_iff_not]
    omega
  have hlow : isLowSurrogate c.toNat = false := by
    simp only [isLowSurrogate, Bool.and_eq_false_iff, decide_eq_false_iff_not]
    omega
  rw [textOfUnits.eq_def]
  simp [hhigh, hlow]

theorem textOfUnits_pair {c : Char} (h : 0x10000 ≤ c.toNat) (us : List Nat) :
    textOfUnits
        ((0xD800 + (c.toNat - 0x10000) / 0x400) :: (0xDC00 + (c.toNat - 0x10000) % 0x400) :: us) =
      (textOfUnits us).map (c :: ·) := by
  have hc : c.toNat < 0x110000 := by
    have := toNat_cases c
    omega
  have hhigh : isHighSurrogate (0xD800 + (c.toNat - 0x10000) / 0x400) = true := by
    simp only [isHighSurrogate, Bool.and_eq_true, decide_eq_true_eq]
    omega
  have hlow : isLowSurrogate (0xDC00 + (c.toNat - 0x10000) % 0x400) = true := by
    simp only [isLowSurrogate, Bool.and_eq_true, decide_eq_true_eq]
    omega
  have hcode : 0x10000 + (0xD800 + (c.toNat - 0x10000) / 0x400 - 0xD800) * 0x400 +
      (0xDC00 + (c.toNat - 0x10000) % 0x400 - 0xDC00) = c.toNat := by omega
  rw [textOfUnits.eq_def]
  simp only [hhigh, hlow, if_true]
  rw [hcode, Char.ofNat_toNat]

theorem textOfUnits_codeUnits (asciiOnly : Bool) (cs : List Char) :
    textOfUnits (cs.flatMap (codeUnits asciiOnly)) = some cs := by
  induction cs with
  | nil => rfl
  | cons c cs ih =>
    rw [List.flatMap_cons, codeUnits]
    split
    · rename_i hwide
      rw [List.cons_append, List.cons_append, List.nil_append, textOfUnits_pair hwide.2, ih]
      rfl
    · rw [List.singleton_append, textOfUnits_code, ih]
      rfl

theorem ofUnits_codeUnits (asciiOnly : Bool) (s : String) :
    ofUnits (s.toList.flatMap (codeUnits asciiOnly)) = .str s := by
  rw [ofUnits, textOfUnits_codeUnits]
  simp

/-! ## Strings without controls -/

theorem le_of_mem_unitEscape {n : Nat} {d : Char} (h : d ∈ unitEscape n) : 0x20 ≤ d.toNat := by
  simp only [unitEscape, List.mem_cons] at h
  rcases h with rfl | rfl | h
  · decide
  · decide
  · exact Text.le_of_mem_hexDigits h

theorem le_of_mem_escapeChar {asciiOnly : Bool} {c d : Char} (h : d ∈ escapeChar asciiOnly c) :
    0x20 ≤ d.toNat := by
  have hescaped := escaped_escapeChar asciiOnly c
  generalize escapeChar asciiOnly c = written at h hescaped
  cases hescaped with
  | letter hescape he hprinted hplane =>
    simp only [List.mem_cons, List.not_mem_nil, or_false] at h
    rcases h with rfl | rfl
    · decide
    · exact hprinted
  | control hcontrol => exact le_of_mem_unitEscape h
  | wide hwide =>
    rw [escapeWide] at h
    split at h
    · exact le_of_mem_unitEscape h
    · exact (List.mem_append.1 h).elim le_of_mem_unitEscape le_of_mem_unitEscape
  | plain hquote hbackslash hprinted hnarrow =>
    rw [List.mem_singleton.1 h]
    exact hprinted

theorem le_of_mem_stringText {asciiOnly : Bool} {s : String} {d : Char}
    (h : d ∈ stringText asciiOnly s) : 0x20 ≤ d.toNat := by
  simp only [stringText, List.mem_cons, List.mem_append, List.mem_flatMap, List.not_mem_nil,
    or_false] at h
  rcases h with rfl | ⟨c, -, hd⟩ | rfl
  · decide
  · exact le_of_mem_escapeChar hd
  · decide

end Json

end Reckoner
