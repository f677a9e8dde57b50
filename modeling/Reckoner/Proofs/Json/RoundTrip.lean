import Reckoner.Proofs.Json.Escapes
import Reckoner.Proofs.Text.Digits
/-!
JSON text that is written is read back.

In every style the marks and the white space between the parts of a value are what the reader passes
over, and a written value ends where the reader stops: behind a closing mark, or behind digits that
nothing continues. What is read back are the values that say all that they hold: a whole number with no
more digits than are read, text and not half of a surrogate pair, and fields of different names. The
induction is on the fuel of the reader, and the length of the text is enough of it.

What is shown here:
1. `reads`: whatever follows, with enough fuel a written value is read up to its end;
2. `parse_render` and `parseMarked_render`: the text of a value is read as that value;
3. `le_of_mem_render`: there is no control in a text on one line, and so no line end.
-/

namespace Reckoner.Json

/-! ## Styles and values -/

/-- Whether what a style puts between the parts of a value is white space but for the comma and the
colon. -/
structure Style.Legible (style : Style) : Prop where
  comma : ∃ blanks, style.comma = ',' :: blanks ∧ ∀ c ∈ blanks, isSpace c = true
  colon : ∃ blanks, style.colon = ':' :: blanks ∧ ∀ c ∈ blanks, isSpace c = true

theorem isSpace_of_mem_blank {c : Char} (h : c ∈ [' ']) : isSpace c = true := by
  rw [List.mem_singleton.1 h]
  rfl

theorem Style.legible_compact : Style.compact.Legible := ⟨⟨[], rfl, nofun⟩, ⟨[], rfl, nofun⟩⟩

theorem Style.legible_line : Style.line.Legible :=
  ⟨⟨[' '], rfl, fun _ => isSpace_of_mem_blank⟩, ⟨[' '], rfl, fun _ => isSpace_of_mem_blank⟩⟩

mutual

/-- Whether a value is read back as it is written: its numbers are whole and have no more digits than are
read, its strings are text, and no two fields of an object have the same name. -/
def Plain : Json → Prop
  | .null => True
  | .bool _ => True
  | .int n => (Text.decimalDigits n.natAbs).length ≤ Text.digitLimit
  | .float _ => False
  | .str _ => True
  | .illFormed => False
  | .arr vs => PlainItems vs
  | .obj fs => (fs.map (·.1)).Nodup ∧ PlainFields fs

def PlainItems : List Json → Prop
  | [] => True
  | v :: vs => Plain v ∧ PlainItems vs

def PlainFields : List (String × Json) → Prop
  | [] => True
  | f :: fs => Plain f.2 ∧ PlainFields fs

end

/-! ## White space -/

theorem skipSpace_append {blanks : List Char} (h : ∀ c ∈ blanks, isSpace c = true) (cs : List Char) :
    skipSpace (blanks ++ cs) = skipSpace cs := List.dropWhile_append_of_pos h

theorem skipSpace_cons {c : Char} (h : isSpace c = false) (cs : List Char) :
    skipSpace (c :: cs) = c :: cs := by
  simp [skipSpace, h]

theorem isSpace_lineBreak (style : Style) (depth : Nat) :
    ∀ c ∈ lineBreak style depth, isSpace c = true := by
  intro c h
  unfold lineBreak at h
  split at h
  · cases h
  · rcases List.mem_cons.1 h with rfl | h
    · rfl
    · rw [List.eq_of_mem_replicate h]
      rfl

/-! ## Numbers -/

/-- Whether a text does not go on with a number that ends before it. -/
def EndsNumber (cs : List Char) : Prop :=
  ∀ c ∈ cs.head?, c.isDigit = false ∧ c ≠ '.' ∧ c ≠ 'e' ∧ c ≠ 'E'

theorem endsNumber_cons {c : Char} (cs : List Char)
    (h : c.isDigit = false ∧ c ≠ '.' ∧ c ≠ 'e' ∧ c ≠ 'E') : EndsNumber (c :: cs) := by
  rintro d ⟨⟩
  exact h

theorem span_isDigit {ds rest : List Char} (hds : ∀ c ∈ ds, c.isDigit = true)
    (hrest : EndsNumber rest) :
    (ds ++ rest).takeWhile Char.isDigit = ds ∧ (ds ++ rest).dropWhile Char.isDigit = rest := by
  have hstop : rest.takeWhile Char.isDigit = [] ∧ rest.dropWhile Char.isDigit = rest := by
    cases rest with
    | nil => exact ⟨rfl, rfl⟩
    | cons c cs => simp [(hrest c rfl).1]
  rw [List.takeWhile_append_of_pos hds, List.dropWhile_append_of_pos hds, hstop.1, hstop.2]
  simp

theorem readFraction_of_endsNumber {cs : List Char} (h : EndsNumber cs) :
    readFraction cs = ([], cs) := by
  unfold readFraction
  split
  · exact absurd rfl (h '.' rfl).2.1
  · rfl

theorem readPower_of_endsNumber {cs : List Char} (h : EndsNumber cs) : readPower cs = (none, cs) := by
  cases cs with
  | nil => rfl
  | cons c cs =>
    have hc := h c rfl
    rw [readPower, if_neg (by simp [hc.2.2])]

theorem readWhole_decimalDigits (n : Nat) {rest : List Char} (h : EndsNumber rest) :
    readWhole (Text.decimalDigits n ++ rest) = some (Text.decimalDigits n, rest) := by
  by_cases hzero : n = 0
  · subst hzero
    rfl
  have hne := Text.decimalDigits_ne_nil n
  have hhead := Text.head?_decimalDigits hzero
  obtain ⟨htake, hdrop⟩ := span_isDigit (fun c hc => Text.isDigit_decimalDigits (n := n) hc) h
  unfold readWhole
  split
  · rename_i heq
    obtain ⟨c, cs, hcons⟩ := List.exists_cons_of_ne_nil hne
    rw [hcons] at heq hhead
    cases heq
    exact absurd rfl hhead
  · rw [htake, hdrop, if_neg]
    simpa using hne

theorem readNumber_signText {c : Char} (hc : c.isDigit = true) {cs whole rest : List Char}
    (hwhole : readWhole (c :: cs) = some (whole, rest)) (h : EndsNumber rest) (negative : Bool) :
    readNumber (Text.signText negative ++ c :: cs) =
      (numberValue negative whole [] none).map fun v => (v, rest) := by
  have hword : ∀ word, c :: cs ≠ 'I' :: word := by
    rintro word heq
    cases heq
    cases hc
  have hminus : c ≠ '-' := by
    rintro rfl
    cases hc
  unfold readNumber
  cases negative with
  | true =>
    rw [Text.signText_true_append]
    simp only
    split
    · rename_i heq
      exact absurd heq (hword _)
    · simp only [hwhole, readFraction_of_endsNumber h, readPower_of_endsNumber h]
      cases numberValue true whole [] none <;> rfl
  | false =>
    rw [Text.signText_false_append]
    split
    rename_i heq
    split at heq
    · rename_i hcons
      exact absurd (List.cons.inj hcons).1 hminus
    cases heq
    split
    · rename_i heq
      exact absurd heq (hword _)
    · simp only [hwhole, readFraction_of_endsNumber h, readPower_of_endsNumber h]
      cases numberValue false whole [] none <;> rfl

theorem readNumber_integerText {n : Int}
    (hn : (Text.decimalDigits n.natAbs).length ≤ Text.digitLimit) {rest : List Char}
    (h : EndsNumber rest) :
    readNumber ((Text.integerText n).toList ++ rest) = .ok (.int n, rest) := by
  have hwhole := readWhole_decimalDigits n.natAbs h
  have hvalue : numberValue (decide (n < 0)) (Text.decimalDigits n.natAbs) [] none = .ok (.int n) := by
    simp only [numberValue, List.isEmpty_nil, Option.isNone_none, Bool.and_self, if_true,
      if_neg (Nat.not_lt.2 hn), Text.digitsValue_decimalDigits]
    by_cases hneg : n < 0
    · simp only [hneg, decide_true, if_true]
      congr
      omega
    · simp only [hneg, decide_false, Bool.false_eq_true, if_false]
      congr
      omega
  obtain ⟨c, cs, hcons⟩ := List.exists_cons_of_ne_nil (Text.decimalDigits_ne_nil n.natAbs)
  have hc : c.isDigit = true := Text.isDigit_decimalDigits (n := n.natAbs) (by simp [hcons])
  rw [Text.integerText, String.toList_ofList, List.append_assoc, hcons, List.cons_append]
  rw [hcons, List.cons_append] at hwhole
  rw [hcons] at hvalue
  rw [readNumber_signText hc hwhole h, hvalue]
  rfl

/-! ## What a written value begins with and is followed by -/

theorem endsNumber_blanks {blanks : List Char} (h : ∀ c ∈ blanks, isSpace c = true) {c : Char}
    (hc : c.isDigit = false ∧ c ≠ '.' ∧ c ≠ 'e' ∧ c ≠ 'E') (cs : List Char) :
    EndsNumber (blanks ++ c :: cs) := by
  cases blanks with
  | nil => exact endsNumber_cons cs hc
  | cons b bs =>
    have hb := h b List.mem_cons_self
    simp only [isSpace, Bool.or_eq_true, beq_iff_eq] at hb
    apply endsNumber_cons
    rcases hb with ((rfl | rfl) | rfl) | rfl <;> decide

theorem exists_cons_of_write (style : Style) (depth : Nat) {v : Json} (hv : v.Plain) :
    ∃ c cs, write style depth v = c :: cs ∧ isSpace c = false ∧ c ≠ ']' ∧ c ≠ '\uFEFF' := by
  cases v with
  | null => exact ⟨'n', _, by rw [write]; rfl, by decide, by decide, by decide⟩
  | bool b =>
    cases b with
    | true => exact ⟨'t', _, by rw [write]; rfl, by decide, by decide, by decide⟩
    | false => exact ⟨'f', _, by rw [write]; rfl, by decide, by decide, by decide⟩
  | int n =>
    obtain ⟨c, cs, hcons⟩ := List.exists_cons_of_ne_nil (Text.decimalDigits_ne_nil n.natAbs)
    have hc : c.isDigit = true := Text.isDigit_decimalDigits (n := n.natAbs) (by simp [hcons])
    rw [write, Text.integerText, String.toList_ofList, hcons]
    cases decide (n < 0) with
    | true => exact ⟨'-', _, rfl, by decide, by decide, by decide⟩
    | false =>
      refine ⟨c, cs, rfl, ?_, ?_, ?_⟩
      · refine Bool.eq_false_iff.2 fun hspace => ?_
        simp only [isSpace, Bool.or_eq_true, beq_iff_eq] at hspace
        rcases hspace with ((rfl | rfl) | rfl) | rfl <;> cases hc
      · rintro rfl
        cases hc
      · rintro rfl
        cases hc
  | float x => exact absurd hv (by simp [Plain])
  | str s => exact ⟨'"', _, by rw [write, stringText], by decide, by decide, by decide⟩
  | illFormed => exact absurd hv (by simp [Plain])
  | arr vs =>
    cases vs with
    | nil => exact ⟨'[', _, by rw [write], by decide, by decide, by decide⟩
    | cons w ws => exact ⟨'[', _, by rw [write], by decide, by decide, by decide⟩
  | obj fs =>
    cases fs with
    | nil => exact ⟨'\x7b', _, by rw [write], by decide, by decide, by decide⟩
    | cons f fs => exact ⟨'\x7b', _, by rw [write], by decide, by decide, by decide⟩

theorem skipSpace_write (style : Style) (depth : Nat) {v : Json} (hv : v.Plain) (rest : List Char) :
    skipSpace (write style depth v ++ rest) = write style depth v ++ rest := by
  obtain ⟨c, cs, hcons, hspace, -⟩ := exists_cons_of_write style depth hv
  rw [hcons, List.cons_append, skipSpace_cons hspace]

theorem readValue_of_number {c : Char} (hc : c = '-' ∨ c.isDigit = true) (fuel : Nat) (cs : List Char) :
    readValue (fuel + 1) (c :: cs) = readNumber (c :: cs) := by
  unfold readValue
  split <;> first | rfl | (exfalso; rename_i heq; cases heq; revert hc; decide)

theorem readValue_integerText (fuel : Nat) {n : Int}
    (hn : (Text.decimalDigits n.natAbs).length ≤ Text.digitLimit) {rest : List Char}
    (h : EndsNumber rest) :
    readValue (fuel + 1) ((Text.integerText n).toList ++ rest) = .ok (.int n, rest) := by
  have hread := readNumber_integerText hn h
  obtain ⟨c, cs, hcons⟩ := List.exists_cons_of_ne_nil (Text.decimalDigits_ne_nil n.natAbs)
  have hc : c.isDigit = true := Text.isDigit_decimalDigits (n := n.natAbs) (by simp [hcons])
  rw [Text.integerText, String.toList_ofList, hcons] at hread ⊢
  cases hneg : decide (n < 0) with
  | true =>
    rw [hneg] at hread
    exact (readValue_of_number (.inl rfl) fuel _).trans hread
  | false =>
    rw [hneg] at hread
    exact (readValue_of_number (.inr hc) fuel _).trans hread

/-! ## Fields of different names -/

theorem insertField_of_not_mem {name : String} {fields : List (String × Json)}
    (h : name ∉ fields.map (·.1)) (value : Json) :
    insertField name value fields = fields ++ [(name, value)] := by
  induction fields with
  | nil => rfl
  | cons f fs ih =>
    simp only [List.map_cons, List.mem_cons, not_or] at h
    rw [insertField, if_neg (Ne.symm h.1), ih h.2, List.cons_append]

theorem foldl_insertField (done : List (String × Json)) {fields : List (String × Json)}
    (h : ((done ++ fields).map (·.1)).Nodup) :
    fields.foldl (fun fs f => insertField f.1 f.2 fs) done = done ++ fields := by
  induction fields generalizing done with
  | nil => simp
  | cons f fs ih =>
    have hnew : f.1 ∉ done.map (·.1) := by
      intro hmem
      rw [List.map_append, List.nodup_append] at h
      exact h.2.2 _ hmem _ (by simp) rfl
    have hsplit : done ++ f :: fs = done ++ [f] ++ fs := by simp
    rw [List.foldl_cons, insertField_of_not_mem hnew, hsplit]
    exact ih _ (hsplit ▸ h)

theorem ofFields_of_nodup {fields : List (String × Json)} (h : (fields.map (·.1)).Nodup) :
    ofFields fields = .obj fields := by
  have hfold := foldl_insertField [] h
  rw [ofFields, hfold, List.nil_append]

/-! ## The induction on the fuel -/

/-- With so much fuel what is written is read: values, the items of a list up to its closing bracket, and
the fields of an object up to its closing brace. -/
structure Reads (style : Style) (fuel : Nat) : Prop where
  value : ∀ (depth : Nat) {v : Json} (rest : List Char), v.Plain → EndsNumber rest →
    (write style depth v).length ≤ fuel →
      readValue fuel (write style depth v ++ rest) = .ok (v, rest)
  items : ∀ (depth : Nat) {v : Json} {vs : List Json} {blanks : List Char} (rest : List Char),
    v.Plain → PlainItems vs → (∀ c ∈ blanks, isSpace c = true) →
    (write style depth v ++ writeItems style depth vs).length < fuel →
      readItems fuel (write style depth v ++ (writeItems style depth vs ++ (blanks ++ ']' :: rest))) =
        .ok (v :: vs, rest)
  fields : ∀ (depth : Nat) {f : String × Json} {fs : List (String × Json)} {blanks : List Char}
    (rest : List Char), f.2.Plain → PlainFields fs → (∀ c ∈ blanks, isSpace c = true) →
    (write style depth f.2 ++ writeFields style depth fs).length < fuel →
      readFields fuel (stringText style.asciiOnly f.1 ++ (style.colon ++ (write style depth f.2 ++
        (writeFields style depth fs ++ (blanks ++ '\x7d' :: rest))))) = .ok (f :: fs, rest)

section Step
variable {style : Style} (hstyle : style.Legible) {fuel : Nat} (ih : Reads style fuel)
include ih

theorem Reads.value_succ (depth : Nat) {v : Json} (rest : List Char) (hv : v.Plain)
    (hrest : EndsNumber rest) (hfuel : (write style depth v).length ≤ fuel + 1) :
    readValue (fuel + 1) (write style depth v ++ rest) = .ok (v, rest) := by
  cases v with
  | null => simp [write, readValue]
  | bool b => cases b <;> simp [write, readValue]
  | int n =>
    rw [Plain] at hv
    rw [write]
    exact readValue_integerText fuel hv hrest
  | float x => exact absurd hv (by simp [Plain])
  | str s =>
    rw [write, stringText, List.cons_append, List.append_assoc, List.singleton_append, readValue,
      readUnits_string]
    simp [ofUnits_codeUnits]
  | illFormed => exact absurd hv (by simp [Plain])
  | arr vs =>
    cases vs with
    | nil =>
      have hclosing : skipSpace (']' :: rest) = ']' :: rest := skipSpace_cons (by decide) rest
      simp [write, readValue, hclosing]
    | cons v vs =>
      rw [Plain, PlainItems] at hv
      have htext : write style depth (.arr (v :: vs)) ++ rest =
          '[' :: (lineBreak style (depth + 1) ++ (write style (depth + 1) v ++
            (writeItems style (depth + 1) vs ++ (lineBreak style depth ++ ']' :: rest)))) := by
        simp [write]
      have hlength : (write style (depth + 1) v ++ writeItems style (depth + 1) vs).length < fuel := by
        simp only [write, List.length_cons, List.length_append] at hfuel ⊢
        omega
      have hread := ih.items (depth + 1) rest hv.1 hv.2 (isSpace_lineBreak style depth)
        hlength
      obtain ⟨c, cs, hcons, -, hbracket, -⟩ := exists_cons_of_write style (depth + 1) hv.1
      rw [htext, readValue, skipSpace_append (isSpace_lineBreak style (depth + 1)),
        skipSpace_write style (depth + 1) hv.1]
      split
      · rename_i heq
        rw [hcons] at heq
        exact absurd (List.cons.inj heq).1 hbracket
      · rw [hread]
  | obj fs =>
    cases fs with
    | nil =>
      have hclosing : skipSpace ('\x7d' :: rest) = '\x7d' :: rest := skipSpace_cons (by decide) rest
      simp [write, readValue, hclosing]
    | cons f fs =>
      rw [Plain, PlainFields] at hv
      have htext : write style depth (.obj (f :: fs)) ++ rest =
          '\x7b' :: (lineBreak style (depth + 1) ++ (stringText style.asciiOnly f.1 ++ (style.colon ++
            (write style (depth + 1) f.2 ++
              (writeFields style (depth + 1) fs ++ (lineBreak style depth ++ '\x7d' :: rest)))))) := by
        simp [write]
      have hlength : (write style (depth + 1) f.2 ++ writeFields style (depth + 1) fs).length < fuel := by
        simp only [write, List.length_cons, List.length_append] at hfuel ⊢
        omega
      have hread := ih.fields (depth + 1) (f := f) rest hv.2.1 hv.2.2
        (isSpace_lineBreak style depth) hlength
      have hquote : ∀ cs, skipSpace (stringText style.asciiOnly f.1 ++ cs) =
          stringText style.asciiOnly f.1 ++ cs := fun cs => skipSpace_cons (by decide) _
      rw [htext, readValue, skipSpace_append (isSpace_lineBreak style (depth + 1)), hquote]
      split
      · rename_i heq
        cases heq
      · rw [hread]
        simp only [ofFields_of_nodup hv.1]

include hstyle

theorem Reads.items_succ (depth : Nat) {v : Json} {vs : List Json} {blanks : List Char}
    (rest : List Char) (hv : v.Plain) (hvs : PlainItems vs) (hblanks : ∀ c ∈ blanks, isSpace c = true)
    (hfuel : (write style depth v ++ writeItems style depth vs).length < fuel + 1) :
    readItems (fuel + 1)
        (write style depth v ++ (writeItems style depth vs ++ (blanks ++ ']' :: rest))) =
      .ok (v :: vs, rest) := by
  rw [List.length_append] at hfuel
  cases vs with
  | nil =>
    have hclosing : skipSpace (blanks ++ ']' :: rest) = ']' :: rest := by
      rw [skipSpace_append hblanks, skipSpace_cons (by decide)]
    rw [writeItems, List.nil_append, readItems,
      ih.value depth _ hv (endsNumber_blanks hblanks (by decide) rest) (by omega)]
    simp [hclosing]
  | cons w ws =>
    rw [PlainItems] at hvs
    obtain ⟨spaces, hcomma, hspaces⟩ := hstyle.comma
    have htext : writeItems style depth (w :: ws) ++ (blanks ++ ']' :: rest) =
        ',' :: (spaces ++ (lineBreak style depth ++ (write style depth w ++
          (writeItems style depth ws ++ (blanks ++ ']' :: rest))))) := by
      simp [writeItems, hcomma]
    have hlength : (write style depth w ++ writeItems style depth ws).length < fuel := by
      obtain ⟨c, cs, hcons, -⟩ := exists_cons_of_write style depth hv
      simp only [writeItems, hcomma, hcons, List.length_cons, List.length_append] at hfuel ⊢
      omega
    have hread := ih.items depth rest hvs.1 hvs.2 hblanks hlength
    have hbehind : ∀ cs, skipSpace (',' :: cs) = ',' :: cs := fun cs => skipSpace_cons (by decide) cs
    rw [htext, readItems, ih.value depth _ hv (endsNumber_cons _ (by decide)) (by omega)]
    simp only [hbehind]
    rw [skipSpace_append hspaces, skipSpace_append (isSpace_lineBreak style depth),
      skipSpace_write style depth hvs.1, hread]

theorem Reads.fields_succ (depth : Nat) {f : String × Json} {fs : List (String × Json)}
    {blanks : List Char} (rest : List Char) (hf : f.2.Plain) (hfs : PlainFields fs)
    (hblanks : ∀ c ∈ blanks, isSpace c = true)
    (hfuel : (write style depth f.2 ++ writeFields style depth fs).length < fuel + 1) :
    readFields (fuel + 1) (stringText style.asciiOnly f.1 ++ (style.colon ++ (write style depth f.2 ++
        (writeFields style depth fs ++ (blanks ++ '\x7d' :: rest))))) = .ok (f :: fs, rest) := by
  obtain ⟨gap, hcolon, hgap⟩ := hstyle.colon
  have hfield : ∀ v, ofField (f.1.toList.flatMap (codeUnits style.asciiOnly)) v = (f.1, v) := by
    intro v
    rw [ofField, textOfUnits_codeUnits]
    simp
  have hname : ∀ cs, skipSpace (':' :: cs) = ':' :: cs := fun cs => skipSpace_cons (by decide) cs
  rw [List.length_append] at hfuel
  rw [stringText, hcolon, List.cons_append, List.append_assoc, List.singleton_append, readFields,
    readUnits_string]
  simp only [List.cons_append, hname]
  rw [skipSpace_append hgap, skipSpace_write style depth hf]
  cases fs with
  | nil =>
    have hclosing : skipSpace (blanks ++ '\x7d' :: rest) = '\x7d' :: rest := by
      rw [skipSpace_append hblanks, skipSpace_cons (by decide)]
    rw [writeFields, List.nil_append,
      ih.value depth _ hf (endsNumber_blanks hblanks (by decide) rest) (by omega)]
    simp [hclosing, hfield]
  | cons g gs =>
    rw [PlainFields] at hfs
    obtain ⟨spaces, hcomma, hspaces⟩ := hstyle.comma
    have htext : writeFields style depth (g :: gs) ++ (blanks ++ '\x7d' :: rest) =
        ',' :: (spaces ++ (lineBreak style depth ++ (stringText style.asciiOnly g.1 ++ (style.colon ++
          (write style depth g.2 ++ (writeFields style depth gs ++ (blanks ++ '\x7d' :: rest))))))) := by
      simp [writeFields, hcomma]
    have hlength : (write style depth g.2 ++ writeFields style depth gs).length < fuel := by
      obtain ⟨c, cs, hcons, -⟩ := exists_cons_of_write style depth hf
      simp only [writeFields, hcomma, hcons, List.length_cons, List.length_append] at hfuel ⊢
      omega
    have hread := ih.fields depth (f := g) rest hfs.1 hfs.2 hblanks hlength
    have hbehind : ∀ cs, skipSpace (',' :: cs) = ',' :: cs := fun cs => skipSpace_cons (by decide) cs
    have hquote : ∀ cs, skipSpace (stringText style.asciiOnly g.1 ++ cs) =
        stringText style.asciiOnly g.1 ++ cs := fun cs => skipSpace_cons (by decide) _
    rw [htext, ih.value depth _ hf (endsNumber_cons _ (by decide)) (by omega)]
    simp only [hbehind]
    rw [skipSpace_append hspaces, skipSpace_append (isSpace_lineBreak style depth), hquote, hread,
      hfield]

end Step

/-- Whatever follows, with enough fuel a written value is read up to its end. -/
theorem reads {style : Style} (hstyle : style.Legible) (fuel : Nat) : Reads style fuel := by
  induction fuel with
  | zero =>
    refine ⟨?_, ?_, ?_⟩
    · intro depth v rest hv _ hfuel
      obtain ⟨c, cs, hcons, -⟩ := exists_cons_of_write style depth hv
      simp [hcons] at hfuel
    · intro depth v vs blanks rest _ _ _ hfuel
      omega
    · intro depth f fs blanks rest _ _ _ hfuel
      omega
  | succ fuel ih =>
    exact ⟨ih.value_succ, ih.items_succ hstyle, ih.fields_succ hstyle⟩

/-! ## Whole texts -/

section Whole
variable {style : Style} (hstyle : style.Legible) {v : Json} (hv : v.Plain)
include hstyle hv

theorem parse_write : parse (write style 0 v) = .ok v := by
  have hskip := skipSpace_write style 0 hv []
  have hread := (reads hstyle ((write style 0 v).length + 1)).value 0 [] hv nofun (by omega)
  rw [List.append_nil] at hskip hread
  rw [parse, hskip, hread]
  rfl

/-- The text of a value is read as that value. -/
theorem parse_render : parse (render style v).toList = .ok v := by
  rw [render, String.toList_ofList, parse_write hstyle hv]

/-- So it is where a byte order mark may stand before it. -/
theorem parseMarked_render : parseMarked (render style v) = .ok v := by
  obtain ⟨c, cs, hcons, -, -, hmark⟩ := exists_cons_of_write style 0 hv
  have hparse := parse_write hstyle hv
  rw [hcons] at hparse
  rw [parseMarked, render, String.toList_ofList, hcons]
  split
  · rename_i heq
    exact absurd (List.cons.inj heq).1 hmark
  · exact hparse

end Whole

/-! ## Texts on one line -/

/-- Whether a style keeps a value on one line, with no control between its parts. -/
structure Style.OneLine (style : Style) : Prop where
  indent : style.indent = none
  comma : ∀ c ∈ style.comma, 0x20 ≤ c.toNat
  colon : ∀ c ∈ style.colon, 0x20 ≤ c.toNat

theorem le_of_all {cs : List Char} (h : cs.all (fun c => decide (0x20 ≤ c.toNat)) = true) :
    ∀ c ∈ cs, 0x20 ≤ c.toNat := by
  intro c hc
  simpa using List.all_eq_true.1 h c hc

theorem Style.oneLine_line : Style.line.OneLine := ⟨rfl, le_of_all rfl, le_of_all rfl⟩

theorem le_of_mem_integerText {n : Int} {c : Char} (h : c ∈ (Text.integerText n).toList) :
    0x20 ≤ c.toNat := by
  rw [Text.integerText, String.toList_ofList] at h
  rcases List.mem_append.1 h with h | h
  · cases hsign : decide (n < 0) with
    | true =>
      rw [hsign] at h
      rw [List.mem_singleton.1 h]
      decide
    | false =>
      rw [hsign] at h
      cases h
  · have hdigit := Text.isDigit_decimalDigits h
    simp only [Char.isDigit, Bool.and_eq_true, decide_eq_true_eq] at hdigit
    exact Nat.le_trans (by decide : 0x20 ≤ '0'.toNat) hdigit.1

section OneLine
variable {style : Style} (hstyle : style.OneLine)
include hstyle

theorem lineBreak_of_oneLine (depth : Nat) : lineBreak style depth = [] := by
  rw [lineBreak, hstyle.indent]

mutual

theorem le_of_mem_write : ∀ (depth : Nat) (v : Json), v.Plain →
    ∀ c ∈ write style depth v, 0x20 ≤ c.toNat
  | _, .null, _ => by rw [write]; exact le_of_all rfl
  | _, .bool true, _ => by rw [write]; exact le_of_all rfl
  | _, .bool false, _ => by rw [write]; exact le_of_all rfl
  | _, .int n, _ => by
    intro c h
    rw [write] at h
    exact le_of_mem_integerText h
  | _, .float x, hv => absurd hv (by simp [Plain])
  | _, .str s, _ => by
    intro c h
    rw [write] at h
    exact le_of_mem_stringText h
  | _, .illFormed, hv => absurd hv (by simp [Plain])
  | _, .arr [], _ => by rw [write]; exact le_of_all rfl
  | depth, .arr (v :: vs), hv => by
    intro c h
    rw [Plain, PlainItems] at hv
    simp only [write, lineBreak_of_oneLine hstyle, List.nil_append, List.append_nil, List.mem_cons,
      List.mem_append, List.not_mem_nil, or_false] at h
    rcases h with rfl | (h | h) | rfl
    · decide
    · exact le_of_mem_write (depth + 1) v hv.1 c h
    · exact le_of_mem_writeItems (depth + 1) vs hv.2 c h
    · decide
  | _, .obj [], _ => by rw [write]; exact le_of_all rfl
  | depth, .obj (f :: fs), hv => by
    intro c h
    rw [Plain, PlainFields] at hv
    simp only [write, lineBreak_of_oneLine hstyle, List.nil_append, List.append_nil, List.mem_cons,
      List.mem_append, List.not_mem_nil, or_false] at h
    rcases h with rfl | (((h | h) | h) | h) | rfl
    · decide
    · exact le_of_mem_stringText h
    · exact hstyle.colon c h
    · exact le_of_mem_write (depth + 1) f.2 hv.2.1 c h
    · exact le_of_mem_writeFields (depth + 1) fs hv.2.2 c h
    · decide

theorem le_of_mem_writeItems : ∀ (depth : Nat) (vs : List Json), PlainItems vs →
    ∀ c ∈ writeItems style depth vs, 0x20 ≤ c.toNat
  | _, [], _ => by rw [writeItems]; exact nofun
  | depth, v :: vs, hvs => by
    intro c h
    rw [PlainItems] at hvs
    simp only [writeItems, lineBreak_of_oneLine hstyle, List.append_nil, List.mem_append] at h
    rcases h with (h | h) | h
    · exact hstyle.comma c h
    · exact le_of_mem_write depth v hvs.1 c h
    · exact le_of_mem_writeItems depth vs hvs.2 c h

theorem le_of_mem_writeFields : ∀ (depth : Nat) (fs : List (String × Json)), PlainFields fs →
    ∀ c ∈ writeFields style depth fs, 0x20 ≤ c.toNat
  | _, [], _ => by rw [writeFields]; exact nofun
  | depth, f :: fs, hfs => by
    intro c h
    rw [PlainFields] at hfs
    simp only [writeFields, lineBreak_of_oneLine hstyle, List.append_nil, List.mem_append] at h
    rcases h with (((h | h) | h) | h) | h
    · exact hstyle.comma c h
    · exact le_of_mem_stringText h
    · exact hstyle.colon c h
    · exact le_of_mem_write depth f.2 hfs.1 c h
    · exact le_of_mem_writeFields depth fs hfs.2 c h

end

/-- A text on one line has no control in it. -/
theorem le_of_mem_render {v : Json} (hv : v.Plain) : ∀ c ∈ (render style v).toList, 0x20 ≤ c.toNat := by
  rw [render, String.toList_ofList]
  exact le_of_mem_write hstyle 0 v hv

end OneLine

end Reckoner.Json
