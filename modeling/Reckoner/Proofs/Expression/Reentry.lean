import Reckoner.Proofs.Binary64.Difference
import Reckoner.Proofs.Binary64.PlainDisplay
import Reckoner.Proofs.Binary64.WholeNumber
import Reckoner.Proofs.Expression.Substitution
import Reckoner.Proofs.Expression.Tokens
/-!
Results entered again as expressions.

A result that is shown as a numeral is a literal of the same number, so it is its own value. A result
that is shown with a power of ten is not one: the letter in it is the name of a constant, whose digits
run together with the digits before it. Either there are two points in one number then, or the value is
the difference of a number with a fraction near the constant's and a whole number, which is never so near
zero as the result was.

What is shown here:
1. `evaluate_literal`: the result of a literal is the display of its value;
2. `evaluate_display_of_tiny`: a result with a power of ten has no value or another one;
3. `evaluate_result_iff`: the results that are their own value are those without a power of ten.
-/

namespace Reckoner

open Binary64

/-! ## Normal forms of results -/

namespace Normal

theorem form_eq_self {cs : List Char} (h : ∀ c ∈ cs, isNumberChar c = true ∨ c = '-') :
    form cs = cs := by
  have hplain : ∀ c ∈ ".0123456789-".toList, substitute c = [c] :=
    List.all_iff_forall_prop.1 (by decide)
  refine form_of_plain fun c hc => hplain c ?_
  have hkinds : c ∈ ".0123456789".toList ++ ['-'] := by
    rcases h c hc with hnumber | rfl
    · exact List.mem_append_left _ (mem_of_isNumberChar hnumber)
    · exact List.mem_append_right _ List.mem_cons_self
  exact hkinds

/-- The digits of the constant that a letter stands for. -/
def constant : List Char := "2.718281828459045".toList

theorem form_letter (cs ds : List Char) : form (cs ++ 'e' :: ds) = form cs ++ (constant ++ form ds) := by
  have hletter : substitute 'e' = constant := by decide
  rw [form_append, form_eq_flatMap ('e' :: ds), List.flatMap_cons, hletter, form_eq_flatMap ds]

end Normal

theorem evaluate_of_form {s : String} {cs : List Char} (h : Normal.form s.toList = cs) (hne : cs ≠ []) :
    evaluate s = (arithmetic.evaluateText cs).map display := by
  have hform : Normal.form? s = .ok cs := by
    obtain ⟨c, rest, rfl⟩ := List.exists_cons_of_ne_nil hne
    simp only [Normal.form?, h]
  rw [evaluate, hform]
  cases hvalue : arithmetic.evaluateText cs with
  | error e => simp only [hvalue, Except.map]
  | ok x => simp only [hvalue, Except.map]

/-! ## Values of literals and of their differences -/

namespace Arithmetic

variable {α : Type} (A : Arithmetic α)

theorem evaluateText_texts {ls : List Lexeme} (h : Lexeme.WellFormed none ls) :
    A.evaluateText (Lexeme.texts ls) = Stacks.empty.run A (ls.map A.symbolOf) := by
  rw [evaluateText_eq, Reading.read_texts h, Reading.symbols_place, Stacks.run]
  cases Stacks.empty.feed A (ls.map A.symbolOf) with
  | error e => rfl
  | ok t => rfl

theorem evaluateText_literal {cs : List Char} (h : isLiteral cs = true) :
    A.evaluateText cs = .ok (A.literal cs) := by
  have hwell : Lexeme.WellFormed none [.number cs] := ⟨⟨h, nofun, fun _ => rfl⟩, trivial⟩
  have hvalue := A.evaluateText_texts hwell
  rw [Lexeme.texts, List.flatMap_singleton] at hvalue
  exact hvalue

theorem evaluateText_difference {cs ds : List Char} (hcs : isLiteral cs = true)
    (hds : isNumeral ds = true) :
    A.evaluateText (cs ++ '-' :: ds) = .ok (A.sub (A.literal cs) (A.literal ds)) := by
  have hright : Lexeme.Fits (some (.operator .sub)) (.number ds) := by
    refine ⟨isLiteral_of_isNumeral hds, ?_, fun _ => rfl⟩
    rintro l hl t rfl
    cases hl
  have hwell : Lexeme.WellFormed none [.number cs, .operator .sub, .number ds] :=
    ⟨⟨hcs, nofun, fun _ => rfl⟩, fun _ => rfl, hright, trivial⟩
  have htexts : Lexeme.texts [.number cs, .operator .sub, .number ds] = cs ++ '-' :: ds := by
    simp [Lexeme.texts, Lexeme.text, Operator.symbol]
  have hvalue := A.evaluateText_texts hwell
  rw [htexts] at hvalue
  exact hvalue

end Arithmetic

/-! ## Literals with a sign -/

theorem isLiteral_signText {c : Char} (hc : isNumberChar c = true) (negative : Bool)
    (cs : List Char) : isLiteral (Text.signText negative ++ c :: cs) = isNumeral (c :: cs) := by
  cases negative with
  | true => rfl
  | false => exact isLiteral_cons hc cs

theorem ofLiteral_signText {c : Char} (hc : isNumberChar c = true) (negative : Bool)
    (cs : List Char) :
    ofLiteral (Text.signText negative ++ c :: cs) = ofDecimal negative (.ofDigits (c :: cs)) := by
  cases negative with
  | true => rfl
  | false =>
    rw [Text.signText_false_append, ofLiteral]
    rintro ds heq
    cases heq
    exact absurd hc (by decide)

theorem ofText?_literal {ds : List Char} (h : isNumeral ds = true) (negative : Bool) :
    ofText? (String.ofList (Text.signText negative ++ ds)) =
      some (ofLiteral (Text.signText negative ++ ds)) := by
  have hread := unsigned?_numeral h negative
  obtain ⟨c, cs, rfl, hc⟩ := exists_cons_of_isNumeral h
  rw [ofText?_signText hc, hread, ofLiteral_signText hc]

theorem form_signText (negative : Bool) {cs : List Char} (h : ∀ c ∈ cs, isNumberChar c = true) :
    Normal.form (Text.signText negative ++ cs) = Text.signText negative ++ cs := by
  refine Normal.form_eq_self fun c hc => ?_
  rcases List.mem_append.1 hc with hc | hc
  · cases negative with
    | true => exact .inr (List.mem_singleton.1 hc)
    | false => cases hc
  · exact .inl (h c hc)

theorem evaluate_literal {ds : List Char} (h : isNumeral ds = true) (negative : Bool) :
    evaluate (String.ofList (Text.signText negative ++ ds)) =
      .ok (ofLiteral (Text.signText negative ++ ds)).display := by
  have hform := form_signText negative (isNumberChar_of_isNumeral h)
  have hliteral : isLiteral (Text.signText negative ++ ds) = true := by
    obtain ⟨c, cs, rfl, hc⟩ := exists_cons_of_isNumeral h
    rw [isLiteral_signText hc, h]
  have hne := List.append_ne_nil_of_right_ne_nil (Text.signText negative) (isNumeral_ne_nil h)
  rw [← String.toList_ofList (l := Text.signText negative ++ ds)] at hform
  rw [evaluate_of_form (hform.trans String.toList_ofList) hne,
    arithmetic.evaluateText_literal hliteral]
  rfl

theorem evaluate_display_of_numeral {x : Binary64} {sign : Bool} {ds : List Char}
    (hdisplay : x.display.toList = Text.signText sign ++ ds) (h : isNumeral ds = true) :
    evaluate x.display = .ok x.display := by
  have htext : x.display = String.ofList (Text.signText sign ++ ds) := by
    rw [← hdisplay, String.ofList_toList]
  have hread := ofText?_literal h sign
  rw [← htext, ofText?_display] at hread
  calc evaluate x.display = .ok (ofLiteral (Text.signText sign ++ ds)).display := by
        rw [htext, evaluate_literal h]
    _ = .ok x.unsignedZero.display := by rw [Option.some.inj hread]
    _ = .ok x.display := by rw [display_unsignedZero]

/-! ## Two points in one number -/

theorem Arithmetic.evaluateText_of_not_numeral {α : Type} (A : Arithmetic α) {run rest : List Char}
    (hne : run ≠ []) (hrun : ∀ c ∈ run, isNumberChar c = true) (hnot : isNumeral run = false)
    (hrest : ∀ c ∈ rest.head?, isNumberChar c = false) (negative : Bool) :
    A.evaluateText (Text.signText negative ++ (run ++ rest)) =
      .error (.numberFormat (Text.signText negative ++ run)) := by
  obtain ⟨c, cs, rfl⟩ := List.exists_cons_of_ne_nil hne
  have hc := hrun c List.mem_cons_self
  have hscan : scanLiteral (Text.signText negative) (c :: cs ++ rest) =
      .error (.numberFormat (Text.signText negative ++ c :: cs)) := by
    rw [scanLiteral, (span_isNumberChar hrun hrest).1, isLiteral_signText hc, hnot]
    rfl
  rw [evaluateText]
  cases negative with
  | true =>
    have hfirst : scan none 0 '-' (c :: cs ++ rest) = .error (.numberFormat ('-' :: c :: cs)) :=
      hscan
    rw [Text.signText_true_append, A.feedText_error hfirst]
    rfl
  | false =>
    have hfirst : scan none 0 c (cs ++ rest) = .error (.numberFormat (c :: cs)) := by
      rw [scan, if_pos hc]
      exact hscan
    rw [Text.signText_false_append, List.cons_append, A.feedText_error hfirst]
    rfl

theorem isNumberChar_of_mem_constant {c : Char} (h : c ∈ Normal.constant) : isNumberChar c = true := by
  have hall : Normal.constant.all isNumberChar = true := by decide
  exact List.all_eq_true.1 hall c h

theorem not_isNumeral_constant (w f : List Char) :
    isNumeral (w ++ '.' :: f ++ Normal.constant) = false := by
  have hconstant : Normal.constant.count '.' = 1 := by decide
  refine Bool.eq_false_iff.2 fun h => ?_
  have hcount := (isNumeral_iff.1 h).2.2
  rw [List.count_append, List.count_append, List.count_cons_self, hconstant] at hcount
  omega

/-! ## The two numbers in a result with a power of ten -/

namespace Binary64

/-- A digit other than zero in front of the constant's digits is a number whose fraction is a quarter
away from both ends. -/
theorem ofLiteral_constant {c : Char} (hc : c.isDigit = true) (hzero : c ≠ '0') (negative : Bool) :
    ∃ x, ofLiteral (Text.signText negative ++ c :: Normal.constant) = .finite negative x ∧
      FarFromMultiples Magnitude.one x.units := by
  have hdigits : "123456789".toList.all (fun c =>
      let u := (Decimal.ofDigits (c :: Normal.constant)).rounded
      decide (u < Magnitude.limit ∧ FarFromMultiples Magnitude.one u)) = true := by
    decide +kernel
  have hmem : c ∈ "123456789".toList := by
    have := mem_of_isNumberChar (isNumberChar_of_isDigit hc)
    simpa [ne_point_of_isDigit hc, hzero] using this
  obtain ⟨hlimit, hbetween⟩ := of_decide_eq_true (List.all_eq_true.1 hdigits c hmem)
  obtain ⟨x, hx, hunits⟩ := exists_ofDecimal_of_lt hlimit negative
  rw [← hunits] at hbetween
  rw [ofLiteral_signText (isNumberChar_of_isDigit hc)]
  exact ⟨x, hx, hbetween⟩

theorem ofLiteral_paddedDigits {n : Nat} (hn : n ≤ 400) (width : Nat) :
    ∃ k, ofLiteral (Text.paddedDigits width n) = .finite false k ∧
      k.units = n * Magnitude.one := by
  have hdigits : ∀ c ∈ Text.paddedDigits width n, c.isDigit = true := fun c hc =>
    Text.isDigit_paddedDigits hc
  have hne := Text.paddedDigits_ne_nil width n
  have hvalue := Text.digitsValue_paddedDigits width n
  have hbound : Text.digitsValue (Text.paddedDigits width n) ≤ 2 ^ 53 := by
    rw [hvalue]
    exact Nat.le_trans hn (by decide)
  obtain ⟨k, hk, hunits⟩ := exists_ofDecimal_digits hdigits hne hbound false
  obtain ⟨c, cs, hcons, hc⟩ := exists_cons_of_isNumeral (isNumeral_digits hdigits hne)
  have hliteral := ofLiteral_signText hc false cs
  rw [Text.signText_false_append, ← hcons, hk] at hliteral
  exact ⟨k, hliteral, hunits.trans (by rw [hvalue])⟩

end Binary64

/-! ## Results entered again -/

/-- One digit in front of the constant's digits and a whole number behind a minus: their difference is
not shown as a tiny number. -/
theorem display_ne_of_digit {c : Char} (hc : c.isDigit = true) (hzero : c ≠ '0') {n : Nat}
    (hn : n ≤ 400) {m : Magnitude} (hm : m.Tiny) (s : Bool) :
    ∃ x, arithmetic.evaluateText
        (Text.signText s ++ c :: Normal.constant ++ '-' :: Text.paddedDigits 2 n) = .ok x ∧
      x.display ≠ display (.finite s m) := by
  have hnumber := isNumberChar_of_isDigit hc
  have hwhole : ∀ d ∈ [c, '2'], d.isDigit = true := by simpa using hc
  have hfraction : "718281828459045".toList.all Char.isDigit = true := by decide
  have hnumeral : isNumeral (c :: Normal.constant) = true :=
    isNumeral_point hwhole (List.all_eq_true.1 hfraction) (List.cons_ne_nil _ _)
  have hpadded : isNumeral (Text.paddedDigits 2 n) = true :=
    isNumeral_digits (fun d hd => Text.isDigit_paddedDigits hd) (Text.paddedDigits_ne_nil 2 n)
  have hliteral : isLiteral (Text.signText s ++ c :: Normal.constant) = true := by
    rw [isLiteral_signText hnumber, hnumeral]
  obtain ⟨x, hx, hbetween⟩ := ofLiteral_constant hc hzero s
  obtain ⟨k, hk, hunits⟩ := ofLiteral_paddedDigits hn 2
  refine ⟨_, arithmetic.evaluateText_difference hliteral hpadded, fun hdisplay => ?_⟩
  change (sub (ofLiteral _) (ofLiteral _)).display = _ at hdisplay
  rw [hx, hk] at hdisplay
  rcases display_eq_iff.1 hdisplay with hsame | ⟨-, hnan⟩
  · obtain ⟨t, hsub⟩ := eq_finite_of_sameNumber hsame
    have hfar := quarter_le_sub hbetween hunits hsub
    have hnear := hm.2
    omega
  · cases hnan

/-- More than one digit of a result in front of the constant's digits: there are two points in one
number. -/
theorem evaluateText_of_digits {c d : Char} {rest : List Char}
    (h : ∀ b ∈ c :: d :: rest, b.isDigit = true) (cs : List Char) (s : Bool) :
    ∃ e, arithmetic.evaluateText
      (Text.signText s ++ (c :: '.' :: d :: rest ++ Normal.constant ++ '-' :: cs)) = .error e := by
  have hrun : ∀ b ∈ c :: '.' :: d :: rest ++ Normal.constant, isNumberChar b = true := by
    intro b hb
    rcases List.mem_append.1 hb with hb | hb
    · rcases List.mem_cons.1 hb with rfl | hb
      · exact isNumberChar_of_isDigit (h b List.mem_cons_self)
      · rcases List.mem_cons.1 hb with rfl | hb
        · rfl
        · exact isNumberChar_of_isDigit (h b (List.mem_cons_of_mem c hb))
    · exact isNumberChar_of_mem_constant hb
  have hminus : ∀ b ∈ ('-' :: cs).head?, isNumberChar b = false := by
    rintro b ⟨⟩
    rfl
  exact ⟨_, arithmetic.evaluateText_of_not_numeral (List.cons_ne_nil _ _) hrun
    (not_isNumeral_constant [c] (d :: rest)) hminus s⟩

theorem form_display_of_tiny {m : Magnitude} (h : m.Tiny) (s : Bool) :
    ∃ n ≤ 400, Normal.form (display (.finite s m)).toList =
      Text.signText s ++ Layout.mantissa m.shortest.digits ++
        (Normal.constant ++ '-' :: Text.paddedDigits 2 n) := by
  have hne := Decimal.digits_ne_nil (coefficient_shortest (Nat.pos_iff_ne_zero.1 h.1))
  have hmantissa := (Layout.denotes_mantissa m.shortest.isDigit_digits hne).numeral
  rcases display_cases s m with ⟨htiny, -⟩ | ⟨-, n, hn, hdisplay⟩
  · exact absurd h htiny
  have hbehind : ∀ c ∈ '-' :: Text.paddedDigits 2 n, isNumberChar c = true ∨ c = '-' := by
    intro c hc
    rcases List.mem_cons.1 hc with rfl | hc
    · exact .inr rfl
    · exact .inl (isNumberChar_of_isDigit (Text.isDigit_paddedDigits hc))
  refine ⟨n, hn, ?_⟩
  rw [hdisplay, ← List.append_assoc, Normal.form_letter,
    form_signText s (isNumberChar_of_isNumeral hmantissa), Normal.form_eq_self hbehind]

/-- The display of a tiny number, entered again, has no value or another one. -/
theorem evaluate_display_of_tiny {m : Magnitude} (h : m.Tiny) (s : Bool) :
    evaluate (display (.finite s m)) ≠ .ok (display (.finite s m)) := by
  have hcoefficient := coefficient_shortest (Nat.pos_iff_ne_zero.1 h.1)
  have hdigits := m.shortest.isDigit_digits
  have hhead := Decimal.head?_digits hcoefficient
  obtain ⟨n, hn, hform⟩ := form_display_of_tiny h s
  rw [evaluate_of_form hform (by simp)]
  match hshape : m.shortest.digits with
  | [] => exact absurd hshape (Decimal.digits_ne_nil hcoefficient)
  | [c] =>
    rw [hshape] at hdigits hhead
    have hzero : c ≠ '0' := fun hc => hhead (congrArg some hc)
    obtain ⟨x, hvalue, hother⟩ := display_ne_of_digit (hdigits c List.mem_cons_self) hzero hn h s
    rw [List.append_assoc, List.cons_append] at hvalue
    rw [Layout.mantissa, List.append_assoc, List.singleton_append, hvalue]
    exact fun heq => hother (Except.ok.inj heq)
  | c :: d :: rest =>
    rw [hshape] at hdigits
    obtain ⟨e, herror⟩ := evaluateText_of_digits hdigits (Text.paddedDigits 2 n) s
    have hpoint : Layout.mantissa (c :: d :: rest) = c :: '.' :: d :: rest := rfl
    rw [List.append_assoc (c :: '.' :: d :: rest)] at herror
    rw [hpoint, List.append_assoc, herror]
    exact nofun

theorem exists_display_of_evaluate {s r : String} (h : evaluate s = .ok r) :
    ∃ x : Binary64, r = x.display := by
  rw [evaluate] at h
  split at h
  · cases h
  · split at h
    · cases h
    · rename_i x _
      exact ⟨x, (Except.ok.inj h).symm⟩

theorem eq_finite_of_ofText? {x : Binary64} {negative : Bool} {m : Magnitude}
    (h : ofText? x.display = some (.finite negative m)) : ∃ s, x = .finite s m := by
  rw [ofText?_display, Option.some.injEq] at h
  cases x with
  | nan => cases h
  | infinite s => cases h
  | finite s k =>
    rw [unsignedZero_finite] at h
    cases h
    exact ⟨s, rfl⟩

/-- A result of a finite number, entered again, is its own value exactly if there is no power of ten in
it, and there is one exactly if the number is not zero and below `10 ^ -4`. -/
theorem evaluate_result_iff {s r : String} {negative : Bool} {m : Magnitude}
    (h : evaluate s = .ok r) (hfinite : ofText? r = some (.finite negative m)) :
    (evaluate r = .ok r ↔ 'e' ∉ r.toList) ∧
      ('e' ∈ r.toList ↔ 0 < m.units ∧ m.units * 10 ^ 4 < Magnitude.one) := by
  obtain ⟨x, rfl⟩ := exists_display_of_evaluate h
  obtain ⟨t, rfl⟩ := eq_finite_of_ofText? hfinite
  have hletter := e_mem_display_iff t m
  refine ⟨?_, hletter⟩
  rw [hletter]
  rcases display_cases t m with ⟨htiny, sign, ds, hdisplay, hds⟩ | ⟨htiny, -⟩
  · exact iff_of_true (evaluate_display_of_numeral hdisplay hds) htiny
  · exact iff_of_false (evaluate_display_of_tiny htiny t) (not_not_intro htiny)

/-- An eighth is shown as a numeral, and that is its own value. -/
theorem evaluate_result_iff_of_eighth :
    evaluate "1/8" = .ok "0.125" ∧
      ofText? "0.125" = some (.finite false ⟨4503599627370496, 1019, by decide, by decide, by decide⟩) ∧
        (evaluate "0.125" = .ok "0.125" ↔ 'e' ∉ "0.125".toList) := by
  have hresult : evaluate "1/8" = .ok "0.125" := eq_ok_of_toOption (by decide +kernel)
  have hfinite : ofText? "0.125" =
      some (.finite false ⟨4503599627370496, 1019, by decide, by decide, by decide⟩) := by
    decide +kernel
  exact ⟨hresult, hfinite, (evaluate_result_iff hresult hfinite).1⟩

/-- The hundred-thousandth part of one is shown with a power of ten, and its display has another value. -/
theorem not_evaluate_result :
    ¬∀ (s r : String) (negative : Bool) (m : Magnitude), evaluate s = .ok r →
      ofText? r = some (.finite negative m) → evaluate r = .ok r := by
  intro h
  have hresult : evaluate "1/100000" = .ok "1e-05" := eq_ok_of_toOption (by decide +kernel)
  have hfinite : ofText? "1e-05" =
      some (.finite false ⟨5902958103587057, 1005, by decide, by decide, by decide⟩) := by
    decide +kernel
  have hother : evaluate "1e-05" = .ok "7.718281828459045" := eq_ok_of_toOption (by decide +kernel)
  have hsame := hother.symm.trans (h _ _ _ _ hresult hfinite)
  exact absurd (Except.ok.inj hsame) (by decide)

end Reckoner
