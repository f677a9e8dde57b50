import Mathlib.Order.Monotone.Basic
import Reckoner.Proofs.Calendar.StoredText
/-!
The order of stored texts is the order of time.

Every field of a stored text has a fixed width and is written with zeros in front, the year first and the
microsecond last. So two texts compare as their fields do, from the year down, and so do the counts of
microseconds: what is left of a time below a field is never as much as one step of that field. Behind the
fields stands the offset, if there is one. It is compared last, with its sign before its size.

What is shown here:
1. `steps_lt_iff`: what lies on steps is ordered by the step first, and then by what lies above it;
2. `Text.paddedDigits_lt_iff`: numbers written to one width compare as texts as they do as numbers;
3. `DateTime.microseconds_lt_iff`: counts of microseconds are ordered by their fields, from the year down;
4. `Timestamp.storedText_lt_iff`: stored texts are ordered by time, and at one time by their offsets;
5. `Timestamp.offsetText_lt_iff`: how offsets compare as texts.
-/

namespace Reckoner

/-! ## Steps -/

/-- What lies on steps is ordered by the step first, and on one step by how far it lies above it. -/
theorem steps_lt_iff {f : Nat → Nat} (hf : Monotone f) {a b r s : Nat} (hr : f a + r < f (a + 1))
    (hs : f b + s < f (b + 1)) : f a + r < f b + s ↔ a < b ∨ a = b ∧ r < s := by
  rcases Nat.lt_trichotomy a b with hlt | rfl | hgt
  · have hstep : f (a + 1) ≤ f b := hf hlt
    exact iff_of_true (by omega) (.inl hlt)
  · simp
  · have hstep : f (b + 1) ≤ f a := hf hgt
    exact iff_of_false (by omega) (by omega)

theorem multiples_lt_iff {width a b r s : Nat} (hr : r < width) (hs : s < width) :
    a * width + r < b * width + s ↔ a < b ∨ a = b ∧ r < s := by
  have hmono : Monotone fun n => n * width := fun _ _ h => Nat.mul_le_mul_right width h
  have hstep : ∀ n, (n + 1) * width = n * width + width := fun n => Nat.succ_mul n width
  exact steps_lt_iff hmono (by rw [hstep]; omega) (by rw [hstep]; omega)

/-! ## Texts -/

namespace Text

theorem append_lt_append_iff {xs ys : List Char} (h : xs.length = ys.length) (s t : List Char) :
    xs ++ s < ys ++ t ↔ xs < ys ∨ xs = ys ∧ s < t := by
  induction xs generalizing ys with
  | nil =>
    obtain rfl := List.length_eq_zero_iff.1 h.symm
    simp
  | cons x xs ih =>
    cases ys with
    | nil => cases h
    | cons y ys =>
      rw [List.cons_append, List.cons_append, List.cons_lt_cons_iff, List.cons_lt_cons_iff,
        ih (Nat.succ.inj h), List.cons.injEq, and_or_left, or_assoc, and_assoc]

theorem lt_iff_of_isDigit {c d : Char} (hc : c.isDigit = true) (hd : d.isDigit = true) :
    (c < d ↔ c.toNat - 48 < d.toNat - 48) ∧ (c = d ↔ c.toNat - 48 = d.toNat - 48) := by
  have hleast : ∀ e : Char, e.isDigit = true → 48 ≤ e.toNat := by
    intro e he
    simp only [Char.isDigit, Bool.and_eq_true, decide_eq_true_eq, UInt32.le_iff_toNat_le] at he
    exact he.1
  have hlt : c < d ↔ c.toNat < d.toNat := Iff.rfl
  have heq : c = d ↔ c.toNat = d.toNat := Char.toNat_inj.symm
  have hc48 := hleast c hc
  have hd48 := hleast d hd
  rw [hlt, heq]
  omega

theorem digits_lt_iff {xs ys : List Char} (h : xs.length = ys.length) (hxs : ∀ c ∈ xs, c.isDigit = true)
    (hys : ∀ c ∈ ys, c.isDigit = true) : xs < ys ↔ digitsValue xs < digitsValue ys := by
  induction xs generalizing ys with
  | nil =>
    obtain rfl := List.length_eq_zero_iff.1 h.symm
    simp
  | cons x xs ih =>
    cases ys with
    | nil => cases h
    | cons y ys =>
      obtain ⟨hx, hxs⟩ := List.forall_mem_cons.1 hxs
      obtain ⟨hy, hys⟩ := List.forall_mem_cons.1 hys
      have hlength : xs.length = ys.length := Nat.succ.inj h
      have hxlt := digitsValue_lt fun c hc => toNat_le_of_isDigit (hxs c hc)
      have hylt := digitsValue_lt fun c hc => toNat_le_of_isDigit (hys c hc)
      obtain ⟨hlt, heq⟩ := lt_iff_of_isDigit hx hy
      rw [List.cons_lt_cons_iff, digitsValue_cons, digitsValue_cons, hlength,
        multiples_lt_iff (hlength ▸ hxlt) hylt, ih hlength hxs hys, hlt, heq]

theorem paddedDigits_injective {width : Nat} : Function.Injective (paddedDigits width) := by
  intro m n h
  rw [← digitsValue_paddedDigits width m, h, digitsValue_paddedDigits]

section Padded
variable {width m n : Nat} (hm : (decimalDigits m).length ≤ width) (hn : (decimalDigits n).length ≤ width)
include hm hn

theorem paddedDigits_lt_iff : paddedDigits width m < paddedDigits width n ↔ m < n := by
  have hlength := (length_paddedDigits hm).trans (length_paddedDigits hn).symm
  rw [digits_lt_iff hlength (fun _ => isDigit_paddedDigits) fun _ => isDigit_paddedDigits,
    digitsValue_paddedDigits, digitsValue_paddedDigits]

theorem paddedDigits_append_lt_iff (s t : List Char) :
    paddedDigits width m ++ s < paddedDigits width n ++ t ↔ m < n ∨ m = n ∧ s < t := by
  have hlength := (length_paddedDigits hm).trans (length_paddedDigits hn).symm
  rw [append_lt_append_iff hlength, paddedDigits_lt_iff hm hn, paddedDigits_injective.eq_iff]

end Padded

end Text

/-! ## The calendar -/

namespace DateTime

/-- The fields from the year down. -/
def fields (t : DateTime) : List Nat :=
  [t.year, t.month, t.day, t.hour, t.minute, t.second, t.microsecond]

theorem fields_injective : Function.Injective fields := by
  intro t u h
  obtain ⟨year, month, day, hour, minute, second, microsecond, _, _, _, _⟩ := t
  simp only [fields, List.cons.injEq] at h
  obtain ⟨rfl, rfl, rfl, rfl, rfl, rfl, rfl, -⟩ := h
  rfl

def daysInYear (year : Nat) : Nat := if isLeapYear year then 366 else 365

theorem daysBeforeYear_succ {year : Nat} (h : 1 ≤ year) :
    daysBeforeYear (year + 1) = daysBeforeYear year + daysInYear year := by
  obtain ⟨n, rfl⟩ : ∃ n, year = n + 1 := ⟨year - 1, by omega⟩
  have hhundreds : n / 100 ≤ n / 4 := by omega
  have hfour : (n + 1) % 100 = 0 → (n + 1) % 4 = 0 := by omega
  have hcentury : (n + 1) % 400 = 0 → (n + 1) % 100 = 0 := by omega
  simp only [daysBeforeYear, daysInYear, isLeapYear, Nat.add_sub_cancel, Nat.succ_div,
    Nat.dvd_iff_mod_eq_zero]
  by_cases h4 : (n + 1) % 4 = 0 <;> by_cases h100 : (n + 1) % 100 = 0 <;>
    by_cases h400 : (n + 1) % 400 = 0 <;> simp [h4, h100, h400] at hfour hcentury ⊢ <;> omega

theorem daysBeforeMonth_succ (year : Nat) {month : Nat} (h : 1 ≤ month) :
    daysBeforeMonth year (month + 1) = daysBeforeMonth year month + daysInMonth year month := by
  obtain ⟨n, rfl⟩ : ∃ n, month = n + 1 := ⟨month - 1, by omega⟩
  simp [daysBeforeMonth, List.range_succ]

theorem daysBeforeMonth_thirteen (year : Nat) : daysBeforeMonth year 13 = daysInYear year := by
  cases h : isLeapYear year <;> simp [daysBeforeMonth, daysInYear, daysInMonth, h, List.range_succ]

theorem monotone_daysBeforeYear : Monotone daysBeforeYear := by
  refine monotone_nat_of_le_succ fun year => ?_
  rcases Nat.eq_zero_or_pos year with rfl | h
  · decide
  · rw [daysBeforeYear_succ h]
    exact Nat.le_add_right _ _

theorem monotone_daysBeforeMonth (year : Nat) : Monotone (daysBeforeMonth year) := by
  refine monotone_nat_of_le_succ fun month => ?_
  rcases Nat.eq_zero_or_pos month with rfl | h
  · exact Nat.le_refl _
  · rw [daysBeforeMonth_succ year h]
    exact Nat.le_add_right _ _

section Steps
variable (t : DateTime)

theorem lt_nextMonth : daysBeforeMonth t.year t.month + (t.day - 1) <
    daysBeforeMonth t.year (t.month + 1) := by
  have hday := t.day_range
  rw [daysBeforeMonth_succ _ t.month_range.1]
  omega

theorem lt_nextYear : daysBeforeYear t.year + (daysBeforeMonth t.year t.month + (t.day - 1)) <
    daysBeforeYear (t.year + 1) := by
  have hmonth := t.lt_nextMonth
  have hlast : daysBeforeMonth t.year (t.month + 1) ≤ daysBeforeMonth t.year 13 :=
    monotone_daysBeforeMonth t.year (Nat.succ_le_succ t.month_range.2)
  rw [daysBeforeMonth_thirteen] at hlast
  rw [daysBeforeYear_succ t.year_range.1]
  omega

theorem timeOfDay_lt : t.timeOfDay < microsecondsPerDay := by
  have htime := t.time_range
  simp only [timeOfDay, microsecondsPerDay]
  omega

end Steps

section Order
variable {t u : DateTime}

theorem dayNumber_lt_iff : t.dayNumber < u.dayNumber ↔
    t.year < u.year ∨ t.year = u.year ∧ (t.month < u.month ∨ t.month = u.month ∧ t.day < u.day) := by
  have hday := t.day_range
  have hday' := u.day_range
  rw [dayNumber, dayNumber, Nat.add_assoc, Nat.add_assoc,
    steps_lt_iff monotone_daysBeforeYear t.lt_nextYear u.lt_nextYear]
  refine or_congr_right (and_congr_right fun hyear => ?_)
  have hmonth := u.lt_nextMonth
  rw [← hyear] at hmonth ⊢
  rw [steps_lt_iff (monotone_daysBeforeMonth t.year) t.lt_nextMonth hmonth]
  omega

theorem dayNumber_eq_iff : t.dayNumber = u.dayNumber ↔
    t.year = u.year ∧ t.month = u.month ∧ t.day = u.day := by
  have hlt := dayNumber_lt_iff (t := t) (u := u)
  have hgt := dayNumber_lt_iff (t := u) (u := t)
  omega

theorem timeOfDay_lt_iff : t.timeOfDay < u.timeOfDay ↔
    t.hour < u.hour ∨ t.hour = u.hour ∧ (t.minute < u.minute ∨ t.minute = u.minute ∧
      (t.second < u.second ∨ t.second = u.second ∧ t.microsecond < u.microsecond)) := by
  have htime := t.time_range
  have htime' := u.time_range
  simp only [timeOfDay]
  omega

theorem microseconds_lt_iff : t.microseconds < u.microseconds ↔ t.fields < u.fields := by
  rw [microseconds, microseconds, multiples_lt_iff t.timeOfDay_lt u.timeOfDay_lt, dayNumber_lt_iff,
    dayNumber_eq_iff, timeOfDay_lt_iff]
  simp only [fields, List.cons_lt_cons_iff, List.not_lt_nil, and_false, or_false, and_or_left, or_assoc,
    and_assoc]

theorem microseconds_injective : Function.Injective microseconds := by
  intro t u h
  have hlt := mt microseconds_lt_iff.2 (Nat.not_lt_of_le (Nat.le_of_eq h.symm))
  have hgt := mt microseconds_lt_iff.2 (Nat.not_lt_of_le (Nat.le_of_eq h))
  exact fields_injective (List.le_antisymm hgt hlt)

end Order

end DateTime

/-! ## Stored texts -/

namespace Timestamp

/-- The fields of a stored text, without its offset. -/
def wallText (t : DateTime) : List Char := secondsText t ++ fractionText t.microsecond

theorem storedText_eq (t : Timestamp) : t.storedText = wallText t.wall ++ offsetText t.offset := rfl

theorem lengths_fields (t : DateTime) : (Text.decimalDigits t.year).length ≤ 4 ∧
    ((Text.decimalDigits t.month).length ≤ 2 ∧ (Text.decimalDigits t.day).length ≤ 2) ∧
      ((Text.decimalDigits t.hour).length ≤ 2 ∧ (Text.decimalDigits t.minute).length ≤ 2 ∧
        (Text.decimalDigits t.second).length ≤ 2) ∧
          (Text.decimalDigits t.microsecond).length ≤ 6 := by
  have hyear := t.year_range
  have hmonth := t.month_range
  have hday := t.day_range
  have htime := t.time_range
  have hdays := daysInMonth_le t.year t.month
  refine ⟨?_, ⟨length_two (by omega), length_two (by omega)⟩,
    ⟨length_two (by omega), length_two (by omega), length_two (by omega)⟩, length_six (by omega)⟩
  exact (Nat.length_toDigits_le_iff (by decide) (by decide)).2 (by omega)

theorem length_wallText (t : DateTime) : (wallText t).length = 26 := by
  obtain ⟨hyear, ⟨hmonth, hday⟩, ⟨hhour, hminute, hsecond⟩, hmicrosecond⟩ := lengths_fields t
  simp [wallText, secondsText, fractionText, Text.length_paddedDigits, *]

theorem wallText_lt_iff {t u : DateTime} : wallText t < wallText u ↔ t.microseconds < u.microseconds := by
  obtain ⟨hyear, ⟨hmonth, hday⟩, ⟨hhour, hminute, hsecond⟩, hmicrosecond⟩ := lengths_fields t
  obtain ⟨hyear', ⟨hmonth', hday'⟩, ⟨hhour', hminute', hsecond'⟩, hmicrosecond'⟩ :=
    lengths_fields u
  rw [DateTime.microseconds_lt_iff]
  simp only [wallText, secondsText, fractionText, List.append_assoc, List.cons_append]
  rw [Text.paddedDigits_append_lt_iff hyear hyear', List.cons_lt_cons_self,
    Text.paddedDigits_append_lt_iff hmonth hmonth', List.cons_lt_cons_self,
    Text.paddedDigits_append_lt_iff hday hday', List.cons_lt_cons_self,
    Text.paddedDigits_append_lt_iff hhour hhour', List.cons_lt_cons_self,
    Text.paddedDigits_append_lt_iff hminute hminute', List.cons_lt_cons_self,
    Text.paddedDigits_append_lt_iff hsecond hsecond', List.cons_lt_cons_self,
    Text.paddedDigits_lt_iff hmicrosecond hmicrosecond']
  simp only [DateTime.fields, List.cons_lt_cons_iff, List.not_lt_nil, and_false, or_false]

theorem wallText_injective : Function.Injective wallText := by
  intro t u h
  have hlt : ¬t.microseconds < u.microseconds := by
    rw [← wallText_lt_iff, h]
    exact List.lt_irrefl _
  have hgt : ¬u.microseconds < t.microseconds := by
    rw [← wallText_lt_iff, h]
    exact List.lt_irrefl _
  exact DateTime.microseconds_injective (Nat.le_antisymm (Nat.not_lt.1 hgt) (Nat.not_lt.1 hlt))

/-- Stored texts compare as time does, and at one time as the offsets behind it. -/
theorem storedText_lt_iff {t u : Timestamp} : t.storedText < u.storedText ↔
    t.wall.microseconds < u.wall.microseconds ∨
      t.wall = u.wall ∧ offsetText t.offset < offsetText u.offset := by
  have hlength := (length_wallText t.wall).trans (length_wallText u.wall).symm
  rw [storedText_eq, storedText_eq, Text.append_lt_append_iff hlength, wallText_lt_iff,
    wallText_injective.eq_iff]

theorem storedText_injective : Function.Injective storedText := by
  intro t u h
  have hread := congrArg ofText? h
  rw [ofText?_storedText, ofText?_storedText] at hread
  exact Option.some_inj.1 hread

/-! ## Offsets -/

theorem fractionEnd_lt_iff {m n : Nat} (hm : m < 1000000) (hn : n < 1000000) :
    (if m = 0 then [] else fractionText m) < (if n = 0 then [] else fractionText n) ↔ m < n := by
  by_cases hm0 : m = 0
  · by_cases hn0 : n = 0
    · simp [hm0, hn0]
    · simp [hm0, hn0, fractionText, Nat.pos_of_ne_zero hn0]
  · by_cases hn0 : n = 0
    · simp [hm0, hn0]
    · rw [if_neg hm0, if_neg hn0, fractionText, fractionText, List.cons_lt_cons_self,
        Text.paddedDigits_lt_iff (length_six hm) (length_six hn)]

theorem offsetEnd_lt_iff {m n : Nat} (hm : m < 60000000) (hn : n < 60000000) :
    offsetEnd m < offsetEnd n ↔ m < n := by
  by_cases hm0 : m = 0
  · by_cases hn0 : n = 0
    · simp [hm0, hn0]
    · simp [hm0, hn0, offsetEnd, Nat.pos_of_ne_zero hn0]
  · by_cases hn0 : n = 0
    · simp [hn0, offsetEnd]
    · rw [offsetEnd, offsetEnd, if_neg hm0, if_neg hn0, List.cons_lt_cons_self,
        Text.paddedDigits_append_lt_iff (length_two (by omega)) (length_two (by omega)),
        fractionEnd_lt_iff (by omega) (by omega)]
      omega

/-- As texts, offsets behind the universal time come after all others, and those of one sign are ordered
by their size. -/
theorem offsetText_lt_iff {m n : Int} (hm : m.natAbs < DateTime.microsecondsPerDay)
    (hn : n.natAbs < DateTime.microsecondsPerDay) :
    offsetText (some m) < offsetText (some n) ↔
      0 ≤ m ∧ n < 0 ∨ (m < 0 ↔ n < 0) ∧ m.natAbs < n.natAbs := by
  have hm' : m.natAbs < 86400000000 := hm
  have hn' : n.natAbs < 86400000000 := hn
  have hmagnitude : (Text.paddedDigits 2 (m.natAbs / 3600000000) ++ ':' ::
      (Text.paddedDigits 2 (m.natAbs / 60000000 % 60) ++ offsetEnd (m.natAbs % 60000000)) <
        Text.paddedDigits 2 (n.natAbs / 3600000000) ++ ':' ::
      (Text.paddedDigits 2 (n.natAbs / 60000000 % 60) ++ offsetEnd (n.natAbs % 60000000))) ↔
        m.natAbs < n.natAbs := by
    rw [Text.paddedDigits_append_lt_iff (length_two (by omega)) (length_two (by omega)),
      List.cons_lt_cons_self,
      Text.paddedDigits_append_lt_iff (length_two (by omega)) (length_two (by omega)),
      offsetEnd_lt_iff (by omega) (by omega)]
    omega
  rw [offsetText, offsetText, List.cons_lt_cons_iff, hmagnitude]
  by_cases hmneg : m < 0
  · by_cases hnneg : n < 0
    · simp [hmneg, hnneg]
    · have hsigns : ¬ '-' < '+' := by decide
      simp [hmneg, hnneg, hsigns]
  · by_cases hnneg : n < 0
    · have hsigns : '+' < '-' := by decide
      simp [hmneg, hnneg, hsigns, Int.not_lt.1 hmneg]
    · simp [hmneg, hnneg]

end Timestamp

end Reckoner
