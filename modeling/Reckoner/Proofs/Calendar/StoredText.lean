import Reckoner.Calendar.Timestamp
import Reckoner.Proofs.Text.Digits
/-!
The stored text of a timestamp reads back.

Every field of the text has a fixed width, so each is read off the front of what is left, and the
offset is what is left at the end.

What is shown here:
1. `Timestamp.readDigits_paddedDigits`: a number written to a width it fits in is read back;
2. `Timestamp.readOffset_offsetText`: so is an offset, whether it has seconds and a fraction or not;
3. `Timestamp.ofText?_storedText`: a timestamp is read back from its stored text.
-/

namespace Reckoner

namespace Timestamp

theorem readDigits_paddedDigits {width n : Nat} (h : (Text.decimalDigits n).length ≤ width)
    (rest : List Char) :
    readDigits width (Text.paddedDigits width n ++ rest) = some (n, rest) := by
  have hlength := Text.length_paddedDigits h
  have htake : (Text.paddedDigits width n ++ rest).take width = Text.paddedDigits width n :=
    List.take_left' hlength
  have hdrop : (Text.paddedDigits width n ++ rest).drop width = rest := List.drop_left' hlength
  have hdigits : (Text.paddedDigits width n).all Char.isDigit = true :=
    List.all_eq_true.2 fun c hc => Text.isDigit_paddedDigits hc
  simp only [readDigits, htake, hdrop]
  rw [if_pos ⟨hlength, hdigits⟩, Text.digitsValue_paddedDigits]

theorem length_two {n : Nat} (h : n < 100) : (Text.decimalDigits n).length ≤ 2 :=
  (Nat.length_toDigits_le_iff (by decide) (by decide)).2 h

theorem length_six {n : Nat} (h : n < 1000000) : (Text.decimalDigits n).length ≤ 6 :=
  (Nat.length_toDigits_le_iff (by decide) (by decide)).2 h

theorem readDigits_two {n : Nat} (h : n < 100) (rest : List Char) :
    readDigits 2 (Text.paddedDigits 2 n ++ rest) = some (n, rest) :=
  readDigits_paddedDigits (length_two h) rest

theorem expect_cons (c : Char) (cs : List Char) : expect c (c :: cs) = some cs := if_pos rfl

theorem bind_of_eq_some {β γ : Type} {x : Option β} {b : β} (h : x = some b) (f : β → Option γ) :
    (x >>= f) = f b := by
  rw [h]
  rfl

theorem readDigits_six {n : Nat} (h : n < 1000000) (rest : List Char) :
    readDigits 6 (Text.paddedDigits 6 n ++ rest) = some (n, rest) :=
  readDigits_paddedDigits (length_six h) rest

theorem readFraction_fractionText {n : Nat} (h : n < 1000000) :
    readFraction (fractionText n) = some n := by
  have hdigits := readDigits_six h []
  rw [List.append_nil] at hdigits
  refine (bind_of_eq_some (expect_cons '.' _) _).trans ?_
  exact (bind_of_eq_some hdigits _).trans (if_pos rfl)

theorem readOffsetEnd_offsetEnd {n : Nat} (h : n < 60000000) :
    readOffsetEnd (offsetEnd n) = some n := by
  rw [offsetEnd]
  split
  · rename_i hzero
    rw [hzero]
    rfl
  · have hsecond : n / 1000000 < 60 := by omega
    have hvalue : n / 1000000 * 1000000 + n % 1000000 = n := by omega
    have hfraction : readFraction (if n % 1000000 = 0 then [] else fractionText (n % 1000000)) =
        some (n % 1000000) := by
      split
      · rename_i hwhole
        rw [hwhole]
        rfl
      · exact readFraction_fractionText (by omega)
    refine (bind_of_eq_some (expect_cons ':' _) _).trans ?_
    refine (bind_of_eq_some (readDigits_two (by omega) _) _).trans ?_
    refine (bind_of_eq_some hfraction _).trans ?_
    rw [if_pos hsecond, hvalue]

theorem readOffset_offsetText {offset : Option Int}
    (h : ∀ m ∈ offset, m.natAbs < DateTime.microsecondsPerDay) :
    readOffset (offsetText offset) = some offset := by
  cases offset with
  | none => rfl
  | some m =>
    have hm : m.natAbs < 86400000000 := h m rfl
    have hhours : m.natAbs / 3600000000 < 100 := by omega
    have hminutes : m.natAbs / 60000000 % 60 < 60 := by omega
    have hend := readOffsetEnd_offsetEnd (n := m.natAbs % 60000000) (by omega)
    have hvalue : (m.natAbs / 3600000000 * 60 + m.natAbs / 60000000 % 60) * 60000000 +
        m.natAbs % 60000000 = m.natAbs := by omega
    rw [offsetText, readOffset]
    refine (bind_of_eq_some (readDigits_two hhours _) _).trans ?_
    refine (bind_of_eq_some (expect_cons ':' _) _).trans ?_
    refine (bind_of_eq_some (readDigits_two (by omega) _) _).trans ?_
    refine (bind_of_eq_some hend _).trans ?_
    simp only [hvalue]
    rw [if_neg (by omega)]
    by_cases hneg : m < 0
    · rw [if_pos hneg, if_pos rfl]
      congr 2
      omega
    · rw [if_neg hneg, if_neg (by decide), if_pos rfl]
      congr 2
      omega

theorem daysInMonth_le (year month : Nat) : daysInMonth year month ≤ 31 := by
  unfold daysInMonth
  split
  · split <;> omega
  · split <;> omega

theorem ofText?_storedText (t : Timestamp) : ofText? t.storedText = some t := by
  obtain ⟨wall, offset, hoffset⟩ := t
  have hyear := wall.year_range
  have hmonth := wall.month_range
  have hday := wall.day_range
  have htime := wall.time_range
  have hdays := daysInMonth_le wall.year wall.month
  have hyears : (Text.decimalDigits wall.year).length ≤ 4 :=
    (Nat.length_toDigits_le_iff (by decide) (by decide)).2 (by omega)
  simp only [storedText, secondsText, fractionText, List.append_assoc, List.cons_append]
  rw [ofText?]
  -- each field and the character behind it, from the year to the microsecond
  refine (bind_of_eq_some (readDigits_paddedDigits hyears _) _).trans ?_
  refine (bind_of_eq_some (expect_cons '-' _) _).trans ?_
  refine (bind_of_eq_some (readDigits_two (by omega) _) _).trans ?_
  refine (bind_of_eq_some (expect_cons '-' _) _).trans ?_
  refine (bind_of_eq_some (readDigits_two (by omega) _) _).trans ?_
  refine (bind_of_eq_some (expect_cons 'T' _) _).trans ?_
  refine (bind_of_eq_some (readDigits_two (by omega) _) _).trans ?_
  refine (bind_of_eq_some (expect_cons ':' _) _).trans ?_
  refine (bind_of_eq_some (readDigits_two (by omega) _) _).trans ?_
  refine (bind_of_eq_some (expect_cons ':' _) _).trans ?_
  refine (bind_of_eq_some (readDigits_two (by omega) _) _).trans ?_
  refine (bind_of_eq_some (expect_cons '.' _) _).trans ?_
  refine (bind_of_eq_some (readDigits_six (by omega) _) _).trans ?_
  refine (bind_of_eq_some (readOffset_offsetText hoffset) _).trans ?_
  refine (bind_of_eq_some (DateTime.of?_fields wall) _).trans ?_
  exact dif_pos hoffset

end Timestamp

end Reckoner
