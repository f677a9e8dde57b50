import Reckoner.Proofs.Binary64.PlainDisplay
import Reckoner.Proofs.Expression.Causes
import Reckoner.Proofs.Expression.Substitution
import Reckoner.Proofs.Expression.Tokens
/-!
Results and messages stay on one line.

A message repeats a part of the expression: a character that is not known, or a literal. White space is
taken out of an expression before anything is scanned, and the spellings that are put in have none, so
what is repeated holds no white space, whatever was typed. A result is made of few characters, and none
of them is white space either.

What is shown here:
1. `Normal.isBlank_of_mem_form` and `Normal.length_form_le`: there is no white space in a normal form, and
   it is at most seventeen times as long as what was typed;
2. `foundIn_of_evaluate`: a cause tells of nothing but what is found in the normal form;
3. `onOneLine_message` and `onOneLine_display`: there is no line end in a message or in a result.
-/

namespace Reckoner

/-- Whether a text stays on its line: no white space but spaces. -/
def Text.OnOneLine (cs : List Char) : Prop := ∀ c ∈ cs, c = ' ' ∨ isBlank c = false

namespace Text

theorem OnOneLine.append {cs ds : List Char} (hcs : OnOneLine cs) (hds : OnOneLine ds) :
    OnOneLine (cs ++ ds) := by
  intro c h
  rcases List.mem_append.1 h with h | h
  · exact hcs c h
  · exact hds c h

theorem OnOneLine.newline_not_mem {cs : List Char} (h : OnOneLine cs) : '\n' ∉ cs := by
  intro hmem
  exact absurd (h '\n' hmem) (by decide)

end Text

/-! ## Normal forms -/

namespace Normal

/-- No white space is left in a normal form, and none is put in. -/
theorem isBlank_of_mem_form {cs : List Char} {c : Char} (h : c ∈ form cs) :
    Text.isBlank c = false := by
  refine Bool.eq_false_iff.2 fun hblank => ?_
  have hself := substitute_of_mem_form h
  rw [substitute_of_isBlank hblank] at hself
  cases hself

theorem length_substitute_le (c : Char) : (substitute c).length ≤ 17 := by
  have hput : ∀ s ∈ spellings, s.2.length ≤ 17 := by decide
  rcases substitute_cases c with hself | hnone | ⟨s, hs, htext⟩
  · rw [hself, List.length_singleton]
    decide
  · rw [hnone]
    exact Nat.zero_le 17
  · rw [htext]
    exact hput s hs

theorem length_form_le (cs : List Char) : (form cs).length ≤ 17 * cs.length := by
  rw [form_eq_flatMap]
  induction cs with
  | nil => exact Nat.le_refl _
  | cons c cs ih =>
    have hone := length_substitute_le c
    rw [List.flatMap_cons, List.length_append, List.length_cons]
    omega

end Normal

/-! ## Causes -/

/-- The causes that tell of nothing but what is found in a text: a character and its position, or a
literal. -/
inductive EvalError.FoundIn (cs : List Char) : EvalError → Prop where
  | empty : FoundIn cs .emptyExpression
  | ofMachine {e : EvalError} (h : e.OfMachine) : FoundIn cs e
  | character {c : Char} {position : Nat} (hc : c ∈ cs) (hposition : position < cs.length) :
    FoundIn cs (.invalidCharacter c position)
  | literal {ds : List Char} (h : ∀ d ∈ ds, isNumberChar d = true ∨ d = '-') :
    FoundIn cs (.numberFormat ds)

theorem EvalError.FoundIn.of_scan {previous : Option Char} {position : Nat} {c : Char}
    {cs text : List Char} {e : EvalError} (hc : c ∈ text) (hposition : position < text.length)
    (h : scan previous position c cs = .error e) : e.FoundIn text := by
  cases fails_of_scan h with
  | character => exact .character hc hposition
  | literal hfirst =>
    refine .literal fun d hd => ?_
    rcases List.mem_cons.1 hd with rfl | hd
    · exact hfirst.imp_right And.left
    · exact .inl (List.all_eq_true.1 List.all_takeWhile d hd)

theorem EvalError.FoundIn.of_readFrom (before : List Char) {cs : List Char} {previous : Option Char}
    {e : EvalError} (h : (Reading.readFrom previous before.length cs).stoppedBy = some e) :
    e.FoundIn (before ++ cs) := by
  induction hn : cs.length using Nat.strongRecOn generalizing before previous cs with
  | ind n ih =>
    subst hn
    cases cs with
    | nil =>
      rw [Reading.readFrom] at h
      cases h
    | cons c cs =>
      cases hscan : scan previous before.length c cs with
      | error d =>
        rw [Reading.readFrom_error hscan] at h
        cases h
        exact .of_scan (by simp) (by simp) hscan
      | ok p =>
        obtain ⟨l, rest⟩ := p
        rw [Reading.readFrom_ok hscan, ← List.length_append] at h
        have hrest := ih rest.length (scan_length_lt hscan) _ h rfl
        rw [List.append_assoc, scan_append hscan] at hrest
        exact hrest

theorem foundIn_of_evaluateText {α : Type} {A : Arithmetic α} {cs : List Char} {e : EvalError}
    (h : A.evaluateText cs = .error e) : e.FoundIn cs := by
  rw [A.evaluateText_eq] at h
  split at h
  · rename_i hfeed
    cases h
    exact .ofMachine (Stacks.ofMachine_of_feed hfeed)
  · split at h
    · rename_i hstop
      cases h
      exact EvalError.FoundIn.of_readFrom [] hstop
    · exact .ofMachine (Stacks.ofMachine_of_finish h)

/-- A cause tells of nothing but what is found in the normal form. -/
theorem foundIn_of_evaluate {s : String} {e : EvalError} (h : evaluate s = .error e) :
    e.FoundIn (Normal.form s.toList) := by
  rw [evaluate] at h
  cases hform : Normal.form s.toList with
  | nil =>
    simp only [Normal.form?, hform] at h
    cases h
    exact .empty
  | cons c cs =>
    simp only [Normal.form?, hform] at h
    split at h
    · rename_i htext
      cases h
      exact foundIn_of_evaluateText htext
    · cases h

/-! ## Messages and results -/

theorem isBlank_of_isNumberChar {c : Char} (h : isNumberChar c = true) : Text.isBlank c = false := by
  rcases Bool.or_eq_true_iff.1 h with hdigit | hpoint
  · exact Text.isBlank_of_isDigit hdigit
  · rw [eq_of_beq hpoint]
    decide

theorem EvalError.FoundIn.onOneLine {cs : List Char} {e : EvalError} (h : e.FoundIn cs)
    (hcs : ∀ c ∈ cs, Text.isBlank c = false) : Text.OnOneLine e.message.toList := by
  have hword : ∀ s : String, s.toList.all (fun c => c = ' ' || !Text.isBlank c) = true →
      Text.OnOneLine s.toList := by
    intro s hs c hc
    simpa using List.all_eq_true.1 hs c hc
  cases h with
  | empty => exact hword "Empty expression" (by decide)
  | ofMachine h =>
    cases h with
    | divisionByZero => exact hword "Cannot divide by zero" (by decide)
    | malformed reason => exact hword "Invalid expression" (by decide)
  | @character c position hc hposition =>
    show Text.OnOneLine ("Invalid character: " ++ c.toString).toList
    rw [String.toList_append]
    refine (hword "Invalid character: " (by decide)).append fun d hd => ?_
    obtain rfl : d = c := by simpa using hd
    exact .inr (hcs d hc)
  | @literal ds h =>
    show Text.OnOneLine ("Invalid number: " ++ String.ofList ds).toList
    rw [String.toList_append]
    refine (hword "Invalid number: " (by decide)).append fun d hd => ?_
    rw [String.toList_ofList] at hd
    rcases h d hd with hd | rfl
    · exact .inr (isBlank_of_isNumberChar hd)
    · exact .inr (by decide)

theorem onOneLine_message {s : String} {e : EvalError} (h : evaluate s = .error e) :
    Text.OnOneLine e.message.toList :=
  (foundIn_of_evaluate h).onOneLine fun _ hc => Normal.isBlank_of_mem_form hc

namespace Binary64

theorem mem_display {x : Binary64} {c : Char} (h : c ∈ x.display.toList) :
    isNumberChar c = true ∨ c ∈ "-einfa".toList := by
  have hword : ∀ s : String, s.toList.all (fun c => isNumberChar c || "-einfa".toList.contains c) = true →
      c ∈ s.toList → isNumberChar c = true ∨ c ∈ "-einfa".toList := by
    intro s hs hc
    simpa using List.all_eq_true.1 hs c hc
  have hsign : ∀ s, c ∈ Text.signText s → c ∈ "-einfa".toList := by
    intro s hs
    cases s with
    | true =>
      obtain rfl := List.mem_singleton.1 hs
      decide
    | false => cases hs
  cases x with
  | nan => exact hword "nan" (by decide) h
  | infinite s =>
    cases s with
    | true => exact hword "-inf" (by decide) h
    | false => exact hword "inf" (by decide) h
  | finite s m =>
    rcases display_cases s m with ⟨-, sign, ds, hdisplay, hds⟩ | ⟨htiny, n, -, hdisplay⟩
    · rw [hdisplay] at h
      rcases List.mem_append.1 h with h | h
      · exact .inr (hsign sign h)
      · exact .inl (isNumberChar_of_isNumeral hds c h)
    · have hne := Decimal.digits_ne_nil (coefficient_shortest (Nat.pos_iff_ne_zero.1 htiny.1))
      have hmantissa := (Layout.denotes_mantissa m.shortest.isDigit_digits hne).numeral
      rw [hdisplay] at h
      rcases List.mem_append.1 h with h | h
      · exact .inr (hsign s h)
      rcases List.mem_append.1 h with h | h
      · exact .inl (isNumberChar_of_isNumeral hmantissa c h)
      rcases List.mem_cons.1 h with rfl | h
      · exact .inr (by decide)
      rcases List.mem_cons.1 h with rfl | h
      · exact .inr (by decide)
      · exact .inl (isNumberChar_of_isDigit (Text.isDigit_paddedDigits h))

theorem onOneLine_display (x : Binary64) : Text.OnOneLine x.display.toList := by
  intro c h
  rcases mem_display h with hc | hc
  · exact .inr (isBlank_of_isNumberChar hc)
  · have hall : "-einfa".toList.all (fun c => !Text.isBlank c) = true := by decide
    exact .inr (by simpa using List.all_eq_true.1 hall c hc)

end Binary64

end Reckoner
