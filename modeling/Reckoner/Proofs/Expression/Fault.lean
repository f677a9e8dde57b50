import Reckoner.Proofs.Expression.Reassembly
/-!
The first fault of a text.

What is wrong with a text can be said without reading it: a character that stands in no expression, a run
of digits and points that is no number, a sign with no number behind it. The scanner looks at one place
after the other, and it takes many characters at once, but it steps over no fault: it goes from one place
where no run is cut and no sign is parted from its number to the next such place, and at such a place it
fails exactly if a fault begins there. So it stops at the first fault of the text, and tells of it.

What is shown here:
1. `faultless_iff`: a text is faultless exactly if no fault begins anywhere in it;
2. `fault_of_scan`: the scanner fails at a fault only;
3. `not_fault_of_token` and `boundary_of_scan`: it steps over no fault, and gets to a place like the one
   it came from.
-/

namespace Reckoner

/-! ## Faults -/

/-- A minus behind this part of a text is a sign: it begins the text, or stands behind an opening
parenthesis or an operator. -/
def SignBehind (before : List Char) : Prop := ∀ c ∈ before.getLast?, c ∈ "(+-*/".toList

/-- A part of a text ends with a minus that is a sign. -/
def EndsWithSign (before : List Char) : Prop :=
  ∃ earlier, before = earlier ++ ['-'] ∧ SignBehind earlier

/-- A run of digits and points, between two parts of a text, that is part of no longer one. -/
structure MaximalRun (before run after : List Char) : Prop where
  nonempty : run ≠ []
  numberChars : ∀ c ∈ run, isNumberChar c = true
  begins : ∀ c ∈ before.getLast?, isNumberChar c = false
  ends : ∀ c ∈ after.head?, isNumberChar c = false

/-- A run of digits and points is one number: there is a digit in it, and at most one point. -/
def OneNumber (run : List Char) : Prop := (∃ c ∈ run, c.isDigit = true) ∧ run.count '.' ≤ 1

/-- Between two parts of a text begins what no expression has there: a character that stands in none, a
run of digits and points that is no number, with its sign if it has one, or a sign without a number. -/
inductive Fault (before rest : List Char) : Prop
  | character {c : Char} {after : List Char} (hrest : rest = c :: after) (hc : c ∉ alphabet)
  | run {run after : List Char} (hrest : rest = run ++ after) (hrun : MaximalRun before run after)
    (hbad : ¬OneNumber run) (hsign : ¬EndsWithSign before)
  | signedRun {run after : List Char} (hrest : rest = '-' :: (run ++ after)) (hsign : SignBehind before)
    (hrun : MaximalRun (before ++ ['-']) run after) (hbad : ¬OneNumber run)
  | loneSign {after : List Char} (hrest : rest = '-' :: after) (hsign : SignBehind before)
    (hafter : ∀ c ∈ after.head?, isNumberChar c = false)

/-- A fault begins at a position. -/
def FaultAt (cs : List Char) (position : Nat) : Prop := Fault (cs.take position) (cs.drop position)

/-- A text without faults: each character stands in expressions, each run of digits and points is a number,
and behind each sign there is a digit or a point. -/
structure Faultless (cs : List Char) : Prop where
  characters : ∀ c ∈ cs, c ∈ alphabet
  runs : ∀ before run after, cs = before ++ run ++ after → MaximalRun before run after → OneNumber run
  signs : ∀ before after, cs = before ++ '-' :: after → SignBehind before →
    ∃ c ∈ after.head?, isNumberChar c = true

/-- A text is faultless exactly if no fault begins anywhere in it. -/
theorem faultless_iff {cs : List Char} : Faultless cs ↔ ∀ position, ¬FaultAt cs position := by
  constructor
  · intro h position hfault
    have hcs := List.take_append_drop position cs
    rw [FaultAt] at hfault
    generalize cs.take position = before at hcs hfault
    generalize cs.drop position = rest at hcs hfault
    cases hfault with
    | character hrest hc =>
      subst hrest
      exact hc (h.characters _ (by simp [← hcs]))
    | run hrest hrun hbad _ =>
      subst hrest
      exact hbad (h.runs _ _ _ (by simp [← hcs]) hrun)
    | signedRun hrest _ hrun hbad =>
      subst hrest
      exact hbad (h.runs _ _ _ (by simp [← hcs]) hrun)
    | loneSign hrest hsign hafter =>
      subst hrest
      obtain ⟨c, hc, hnumber⟩ := h.signs _ _ hcs.symm hsign
      rw [hafter c hc] at hnumber
      cases hnumber
  · intro h
    have hsplit : ∀ before rest, cs = before ++ rest → ¬Fault before rest := by
      rintro before rest rfl hfault
      refine h before.length ?_
      rwa [FaultAt, List.take_left, List.drop_left]
    refine ⟨fun c hc => ?_, fun before run after hcs hrun => ?_, fun before after hcs hsign => ?_⟩
    · obtain ⟨before, after, hcs⟩ := List.append_of_mem hc
      exact Decidable.by_contra fun hnot => hsplit before _ hcs (.character rfl hnot)
    · by_contra hbad
      by_cases hsign : EndsWithSign before
      · obtain ⟨earlier, rfl, hplace⟩ := hsign
        exact hsplit earlier _ (by simp [hcs]) (.signedRun rfl hplace hrun hbad)
      · exact hsplit before _ (by simp [hcs]) (.run rfl hrun hbad hsign)
    · by_contra hnone
      refine hsplit before _ hcs (.loneSign rfl hsign fun c hc => ?_)
      exact Bool.eq_false_iff.2 fun hnumber => hnone ⟨c, hc, hnumber⟩

/-! ## Places of the scanner -/

theorem signBehind_iff {before : List Char} :
    SignBehind before ↔ isSignPlace before.getLast? = true := by
  have hplaces : ∀ c ∈ "(+-*/".toList, isSignPlace (some c) = true :=
    List.all_iff_forall_prop.1 (by decide)
  unfold SignBehind
  cases before.getLast? with
  | none => exact iff_of_true nofun rfl
  | some c =>
    constructor
    · exact fun h => hplaces c (h c rfl)
    · rintro h d ⟨⟩
      rw [isSignPlace, Bool.or_eq_true, beq_iff_eq, Option.isSome_iff_exists] at h
      rcases h with rfl | ⟨op, hop⟩
      · decide
      · rw [Operator.ofChar?_eq_some_iff.1 hop]
        cases op <;> decide

theorem MaximalRun.takeWhile_eq {before run after : List Char} (h : MaximalRun before run after) :
    (run ++ after).takeWhile isNumberChar = run := (span_isNumberChar h.numberChars h.ends).1

theorem MaximalRun.oneNumber_iff {before run after : List Char} (h : MaximalRun before run after) :
    OneNumber run ↔ isNumeral run = true := by
  rw [isNumeral_iff, OneNumber]
  refine (and_iff_right fun c hc => ?_).symm
  simpa [isNumberChar] using h.numberChars c hc

theorem maximalRun_takeWhile {before : List Char} (rest : List Char)
    (hne : rest.takeWhile isNumberChar ≠ [])
    (hbegins : ∀ c ∈ before.getLast?, isNumberChar c = false) :
    MaximalRun before (rest.takeWhile isNumberChar) (rest.dropWhile isNumberChar) where
  nonempty := hne
  numberChars := List.all_eq_true.1 List.all_takeWhile
  begins := hbegins
  ends c hc := by
    have hhead := List.head?_dropWhile_not isNumberChar rest
    rw [Option.mem_def.1 hc] at hhead
    simpa using hhead

/-- A place where the scanner can be: no run is cut there, and no sign is parted from its number. -/
structure Boundary (before rest : List Char) : Prop where
  uncut : ∀ c ∈ before.getLast?, isNumberChar c = true → ∀ d ∈ rest.head?, isNumberChar d = false
  unsigned : ¬EndsWithSign before

theorem not_fault_of_nil {before : List Char} : ¬Fault before [] := by
  intro h
  cases h with
  | character hrest => cases hrest
  | run hrest hrun => exact hrun.nonempty (List.append_eq_nil_iff.1 hrest.symm).1
  | signedRun hrest => cases hrest
  | loneSign hrest => cases hrest

section Scanned
variable {before cs : List Char} {c : Char}

theorem fault_number_iff (hb : Boundary before (c :: cs)) (hc : isNumberChar c = true) :
    Fault before (c :: cs) ↔ isNumeral ((c :: cs).takeWhile isNumberChar) = false := by
  constructor
  · intro h
    cases h with
    | character hrest hforeign =>
      cases hrest
      exact absurd (mem_alphabet_iff.2 (.inl hc)) hforeign
    | run hrest hrun hbad _ =>
      rw [hrest, hrun.takeWhile_eq]
      exact Bool.eq_false_iff.2 fun hnumeral => hbad (hrun.oneNumber_iff.2 hnumeral)
    | signedRun hrest =>
      cases hrest
      exact absurd hc (by decide)
    | loneSign hrest =>
      cases hrest
      exact absurd hc (by decide)
  · intro h
    have hbegins : ∀ d ∈ before.getLast?, isNumberChar d = false := by
      intro d hd
      refine Bool.eq_false_iff.2 fun hnumber => ?_
      rw [hb.uncut d hd hnumber c rfl] at hc
      cases hc
    have hrun : MaximalRun before _ _ :=
      maximalRun_takeWhile (c :: cs) (by simp [hc]) hbegins
    refine .run List.takeWhile_append_dropWhile.symm hrun (fun hone => ?_) hb.unsigned
    rw [hrun.oneNumber_iff.1 hone] at h
    cases h

theorem fault_sign_iff (hsign : SignBehind before) :
    Fault before ('-' :: cs) ↔ isNumeral (cs.takeWhile isNumberChar) = false := by
  constructor
  · intro h
    cases h with
    | character hrest hforeign =>
      cases hrest
      exact absurd (by decide) hforeign
    | @run run after hrest hrun _ _ =>
      obtain ⟨d, ds, rfl⟩ := List.exists_cons_of_ne_nil hrun.nonempty
      cases hrest
      exact absurd (hrun.numberChars '-' List.mem_cons_self) (by decide)
    | signedRun hrest _ hrun hbad =>
      cases hrest
      rw [hrun.takeWhile_eq]
      exact Bool.eq_false_iff.2 fun hnumeral => hbad (hrun.oneNumber_iff.2 hnumeral)
    | loneSign hrest _ hafter =>
      cases hrest
      have hnone : cs.takeWhile isNumberChar = [] := by
        cases cs with
        | nil => rfl
        | cons d ds => exact List.takeWhile_cons_of_neg (Bool.eq_false_iff.1 (hafter d rfl))
      rw [hnone]
      rfl
  · intro h
    have hbegins : ∀ d ∈ (before ++ ['-']).getLast?, isNumberChar d = false := by
      intro d hd
      obtain rfl : '-' = d := by simpa using hd
      decide
    cases htake : cs.takeWhile isNumberChar with
    | nil =>
      refine .loneSign rfl hsign fun d hd => Bool.eq_false_iff.2 fun hnumber => ?_
      obtain ⟨rest, rfl⟩ := List.head?_eq_some_iff.1 hd
      rw [List.takeWhile_cons_of_pos hnumber] at htake
      cases htake
    | cons d ds =>
      have hrun : MaximalRun (before ++ ['-']) _ _ :=
        maximalRun_takeWhile cs (by simp [htake]) hbegins
      refine .signedRun (congrArg ('-' :: ·) List.takeWhile_append_dropWhile.symm) hsign hrun
        fun hone => ?_
      rw [hrun.oneNumber_iff.1 hone] at h
      cases h

theorem not_fault_of_symbol (hc : c ∈ alphabet) (hnumber : isNumberChar c = false)
    (hsign : c = '-' → ¬SignBehind before) : ¬Fault before (c :: cs) := by
  intro h
  cases h with
  | character hrest hforeign =>
    cases hrest
    exact hforeign hc
  | @run run after hrest hrun _ _ =>
    obtain ⟨d, ds, rfl⟩ := List.exists_cons_of_ne_nil hrun.nonempty
    cases hrest
    rw [hrun.numberChars c List.mem_cons_self] at hnumber
    cases hnumber
  | signedRun hrest hplace =>
    cases hrest
    exact hsign rfl hplace
  | loneSign hrest hplace =>
    cases hrest
    exact hsign rfl hplace

theorem fault_literal_iff (hb : Boundary before (c :: cs)) (hfirst : BeginsLiteral before.getLast? c) :
    Fault before (c :: cs) ↔ isLiteral (c :: cs.takeWhile isNumberChar) = false := by
  rcases hfirst with hnumber | ⟨rfl, hplace⟩
  · rw [fault_number_iff hb hnumber, List.takeWhile_cons_of_pos hnumber, isLiteral_cons hnumber]
  · exact fault_sign_iff (signBehind_iff.2 hplace)

theorem fault_of_scan {position : Nat} {e : EvalError} (hb : Boundary before (c :: cs))
    (h : scan before.getLast? position c cs = .error e) : Fault before (c :: cs) := by
  cases fails_of_scan h with
  | literal hfirst hliteral => exact (fault_literal_iff hb hfirst).2 hliteral
  | character hc => exact .character rfl hc

theorem not_fault_of_scan {position : Nat} {l : Lexeme} {rest : List Char}
    (hb : Boundary before (c :: cs)) (h : scan before.getLast? position c cs = .ok (l, rest)) :
    ¬Fault before (c :: cs) := by
  cases scans_of_scan h with
  | literal hfirst hliteral =>
    rw [fault_literal_iff hb hfirst, hliteral]
    exact Bool.noConfusion
  | opening hc =>
    subst hc
    exact not_fault_of_symbol (by decide) (by decide) (fun h => absurd h (by decide))
  | closing hc =>
    subst hc
    exact not_fault_of_symbol (by decide) (by decide) (fun h => absurd h (by decide))
  | @operator op hc hplace =>
    subst hc
    have hmem : op.symbol ∈ alphabet := by cases op <;> decide
    refine not_fault_of_symbol hmem (isNumberChar_symbol op) fun hminus hsign => ?_
    rw [signBehind_iff, hplace hminus] at hsign
    cases hsign

theorem not_fault_inside (hc : isNumberChar c = true)
    (hinside : EndsWithSign before ∨ ∃ d ∈ before.getLast?, isNumberChar d = true) :
    ¬Fault before (c :: cs) := by
  intro h
  cases h with
  | character hrest hforeign =>
    cases hrest
    exact hforeign (mem_alphabet_iff.2 (.inl hc))
  | run _ hrun _ hsign =>
    rcases hinside with hends | ⟨d, hd, hnumber⟩
    · exact hsign hends
    · rw [hrun.begins d hd] at hnumber
      cases hnumber
  | signedRun hrest =>
    cases hrest
    exact absurd hc (by decide)
  | loneSign hrest =>
    cases hrest
    exact absurd hc (by decide)

/-- The first character of a token and those behind it: there are others only in a literal, and these are
digits and points. -/
theorem text_of_scan {position : Nat} {l : Lexeme} {rest : List Char}
    (h : scan before.getLast? position c cs = .ok (l, rest)) :
    ∃ ds, l.text = c :: ds ∧ (∀ d ∈ ds, isNumberChar d = true) ∧
      (ds ≠ [] → BeginsLiteral before.getLast? c) := by
  cases scans_of_scan h with
  | literal hfirst => exact ⟨_, rfl, List.all_eq_true.1 List.all_takeWhile, fun _ => hfirst⟩
  | opening hc => exact ⟨[], by rw [hc]; rfl, by simp, fun hne => absurd rfl hne⟩
  | closing hc => exact ⟨[], by rw [hc]; rfl, by simp, fun hne => absurd rfl hne⟩
  | operator hc => exact ⟨[], by rw [hc]; rfl, by simp, fun hne => absurd rfl hne⟩

/-- The scanner steps over no fault: none begins at its place or inside the token. -/
theorem not_fault_of_token {position : Nat} {l : Lexeme} {rest xs ys : List Char}
    (hb : Boundary before (c :: cs)) (h : scan before.getLast? position c cs = .ok (l, rest))
    (hsplit : l.text = xs ++ ys) (hys : ys ≠ []) : ¬Fault (before ++ xs) (ys ++ rest) := by
  cases xs with
  | nil =>
    have htext : ys ++ rest = c :: cs := by rw [← scan_append h, hsplit, List.nil_append]
    rw [List.append_nil, htext]
    exact not_fault_of_scan hb h
  | cons x xs =>
    -- inside a token, so it is a literal, and what is before is a digit, a point or its sign
    obtain ⟨ds, htext, hds, hfirst⟩ := text_of_scan h
    rw [hsplit, List.cons_append] at htext
    obtain ⟨rfl, rfl⟩ := List.cons.inj htext
    obtain ⟨y, ys, rfl⟩ := List.exists_cons_of_ne_nil hys
    refine not_fault_inside (hds y (by simp)) ?_
    cases hlast : xs.getLast? with
    | some d =>
      have hmem : d ∈ xs := List.mem_of_getLast? hlast
      exact .inr ⟨d, by simp [List.getLast?_cons, hlast], hds d (List.mem_append_left _ hmem)⟩
    | none =>
      obtain rfl := List.getLast?_eq_none_iff.1 hlast
      rcases hfirst (List.cons_ne_nil _ _) with hnumber | ⟨rfl, hplace⟩
      · exact .inr ⟨x, by simp, hnumber⟩
      · exact .inl ⟨before, rfl, signBehind_iff.2 hplace⟩

theorem boundary_of_scan {position : Nat} {l : Lexeme} {rest : List Char}
    (h : scan before.getLast? position c cs = .ok (l, rest)) :
    Boundary (before ++ l.text) rest := by
  have hlast : (before ++ l.text).getLast? = l.text.getLast? :=
    List.getLast?_append_of_ne_nil before (scan_nonempty h)
  have hends : ∀ d ∈ l.text.getLast?, d ≠ '-' → ¬EndsWithSign (before ++ l.text) := by
    rintro d hd hother ⟨earlier, hsplit, -⟩
    rw [← hlast, hsplit] at hd
    exact hother (by simpa [eq_comm] using hd)
  cases scans_of_scan h with
  | literal hfirst hliteral =>
    obtain ⟨d, hd, hchar⟩ := getLast?_isNumberChar hliteral
    refine ⟨fun _ _ _ => (Scans.literal hfirst hliteral).number.2, hends d hd ?_⟩
    rintro rfl
    exact absurd hchar (by decide)
  | opening =>
    have hchar : isNumberChar '(' = false := by decide
    exact ⟨by simp [Lexeme.text, hchar], hends '(' rfl (by decide)⟩
  | closing =>
    have hchar : isNumberChar ')' = false := by decide
    exact ⟨by simp [Lexeme.text, hchar], hends ')' rfl (by decide)⟩
  | operator hc hplace =>
    refine ⟨by simp [Lexeme.text, isNumberChar_symbol], ?_⟩
    rintro ⟨earlier, hsplit, hsign⟩
    obtain ⟨rfl, hminus⟩ := List.append_inj' hsplit rfl
    rw [signBehind_iff, hplace (hc.trans (List.cons.inj hminus).1)] at hsign
    cases hsign

end Scanned

end Reckoner
