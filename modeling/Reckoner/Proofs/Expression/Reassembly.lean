import Mathlib.Algebra.Ring.Nat
import Mathlib.Data.List.Chain
import Reckoner.Proofs.Expression.Accounting
/-!
Tokens and texts determine each other.

The tokens of a text that is read to its end are in order: numbers do not touch, a number has a sign
only at the beginning or behind an opening parenthesis or an operator, and a minus is an operator only
behind a number or a closing parenthesis. Conversely tokens in order, each at the place where those
before it end, are the tokens of the text that they make up. The scanner knows nothing of the token
before the one it scans. It looks at one character, and that is enough because the last character of a
lexeme tells whether an operand ends there, and because a number is never cut short.

What is shown here:
1. `Lexeme.wellFormed_iff_orderly`: lexemes fit behind each other exactly if they are in order;
2. `Reading.fits_of_scan` and `Reading.wellFormed_of_complete`: what is scanned fits behind what was
   scanned before it, and so does all that is read of a text;
3. `Reading.read_eq_iff`: reading a text and putting tokens together undo each other.
-/

namespace Reckoner

namespace Lexeme

/-- A number whose text begins with a minus. -/
def isSigned : Lexeme → Bool
  | .number ('-' :: _) => true
  | _ => false

/-- The text of a number: digits and points behind at most one minus, at least one digit and at most
one point among them. -/
def IsNumberText (text : List Char) : Prop :=
  ∃ sign digits, text = sign ++ digits ∧ (sign = [] ∨ sign = ['-']) ∧
    (∀ c ∈ digits, c.isDigit = true ∨ c = '.') ∧ (∃ c ∈ digits, c.isDigit = true) ∧
    digits.count '.' ≤ 1

/-- Lexemes that are in order. -/
structure Orderly (ls : List Lexeme) : Prop where
  numbersApart : ls.IsChain fun l m => ¬(l.isNumber = true ∧ m.isNumber = true)
  signedBehind : ls.IsChain fun l m => m.isSigned = true → l = .opening ∨ l.isOperator = true
  minusNotFirst : ls.head? ≠ some (.operator .sub)
  minusBehind : ls.IsChain fun l m => m = .operator .sub → l.isNumber = true ∨ l = .closing
  numberTexts : ∀ text, .number text ∈ ls → IsNumberText text

/-! ## Lexemes in order fit behind each other -/

theorem isLiteral_iff {text : List Char} : isLiteral text = true ↔ IsNumberText text := by
  constructor
  · intro h
    rcases isLiteral_cases h with hn | ⟨digits, rfl, hn⟩
    · exact ⟨[], text, rfl, .inl rfl, isNumeral_iff.1 hn⟩
    · exact ⟨['-'], digits, rfl, .inr rfl, isNumeral_iff.1 hn⟩
  · rintro ⟨sign, digits, rfl, rfl | rfl, h⟩
    · exact isLiteral_of_isNumeral (isNumeral_iff.2 h)
    · exact isNumeral_iff.2 h

theorem fits_none_iff {m : Lexeme} :
    m.Fits none ↔ m ≠ .operator .sub ∧ ∀ text, m = .number text → isLiteral text = true := by
  cases m with
  | number text => simp [Fits, signFollows]
  | operator op => simp [Fits, signFollows]
  | opening => simp [Fits]
  | closing => simp [Fits]

theorem head?_eq_minus_iff {text : List Char} :
    text.head? = some '-' ↔ (Lexeme.number text).isSigned = true := by
  cases text with
  | nil => simp [isSigned]
  | cons c cs =>
    by_cases hc : c = '-'
    · subst hc
      simp [isSigned]
    · simp [isSigned, hc]

theorem fits_some_iff {l m : Lexeme} :
    m.Fits (some l) ↔ ¬(l.isNumber = true ∧ m.isNumber = true) ∧
      (m.isSigned = true → l = .opening ∨ l.isOperator = true) ∧
      (m = .operator .sub → l.isNumber = true ∨ l = .closing) ∧
      ∀ text, m = .number text → isLiteral text = true := by
  have hsigned : signFollows (some l) = true ↔ l = .opening ∨ l.isOperator = true := by
    cases l <;> simp [signFollows, endsOperand, isOperator]
  have hminus : signFollows (some l) = false ↔ l.isNumber = true ∨ l = .closing := by
    cases l <;> simp [signFollows, endsOperand, isNumber]
  cases m with
  | number text =>
    rw [Fits, hsigned, head?_eq_minus_iff]
    cases l <;> simp [isNumber, and_comm]
  | operator op =>
    rw [Fits, hminus]
    simp [isNumber, isSigned]
  | opening => simp [Fits, isNumber, isSigned]
  | closing => simp [Fits, isNumber, isSigned]

theorem wellFormed_some_iff {l : Lexeme} {ls : List Lexeme} :
    WellFormed (some l) ls ↔ (l :: ls).IsChain fun l m => m.Fits (some l) := by
  induction ls generalizing l with
  | nil => simp [WellFormed]
  | cons m ls ih => rw [WellFormed, ih, List.isChain_cons_cons]

theorem wellFormed_none_iff {ls : List Lexeme} :
    WellFormed none ls ↔
      (∀ l ∈ ls.head?, l.Fits none) ∧ ls.IsChain fun l m => m.Fits (some l) := by
  cases ls with
  | nil => simp [WellFormed]
  | cons l ls => simp [WellFormed, wellFormed_some_iff]

theorem WellFormed.literals {previous : Option Lexeme} {ls : List Lexeme}
    (h : WellFormed previous ls) : ∀ text, .number text ∈ ls → isLiteral text = true := by
  induction ls generalizing previous with
  | nil => simp
  | cons l ls ih =>
    intro text ht
    rcases List.mem_cons.1 ht with rfl | ht
    · exact h.1.1
    · exact ih h.2 text ht

/-- Lexemes fit behind each other exactly if they are in order. -/
theorem wellFormed_iff_orderly {ls : List Lexeme} : WellFormed none ls ↔ Orderly ls := by
  constructor
  · intro h
    obtain ⟨hfirst, hchain⟩ := wellFormed_none_iff.1 h
    refine ⟨hchain.imp fun l m hm => (fits_some_iff.1 hm).1,
      hchain.imp fun l m hm => (fits_some_iff.1 hm).2.1, fun hminus => ?_,
      hchain.imp fun l m hm => (fits_some_iff.1 hm).2.2.1, fun text ht => ?_⟩
    · exact (fits_none_iff.1 (hfirst _ hminus)).1 rfl
    · exact isLiteral_iff.1 (h.literals text ht)
  · intro h
    have hliterals : ∀ text, .number text ∈ ls → isLiteral text = true :=
      fun text ht => isLiteral_iff.2 (h.numberTexts text ht)
    refine wellFormed_none_iff.2 ⟨fun l hl => fits_none_iff.2 ⟨?_, ?_⟩, ?_⟩
    · rintro rfl
      exact h.minusNotFirst hl
    · rintro text rfl
      exact hliterals text (List.mem_of_mem_head? hl)
    · rw [List.isChain_iff_forall_rel_of_append_cons_cons]
      rintro l m before after rfl
      refine fits_some_iff.2 ⟨?_, ?_, ?_, ?_⟩
      · exact List.isChain_iff_forall_rel_of_append_cons_cons.1 h.numbersApart rfl
      · exact List.isChain_iff_forall_rel_of_append_cons_cons.1 h.signedBehind rfl
      · exact List.isChain_iff_forall_rel_of_append_cons_cons.1 h.minusBehind rfl
      · rintro text rfl
        exact hliterals text (by simp)

end Lexeme

namespace Reading

/-! ## What is read is in order -/

/-- What is scanned fits behind the lexeme before it, if that was not cut short. -/
theorem fits_of_scan {previous : Option Lexeme} {position : Nat} {c : Char} {cs rest : List Char}
    {l : Lexeme} (hprev : Lexeme.Readable previous)
    (hbehind : ∀ t, previous = some (.number t) → isNumberChar c = false)
    (h : scan (previous.bind (·.text.getLast?)) position c cs = .ok (l, rest)) :
    l.Fits previous ∧ ∀ t, l = .number t → ∀ d ∈ rest.head?, isNumberChar d = false := by
  have hplace := Lexeme.isSignPlace_getLast? hprev
  constructor
  · cases scans_of_scan h with
    | literal hfirst hliteral =>
      rw [BeginsLiteral, hplace] at hfirst
      refine ⟨hliteral, ?_, fun hminus => ?_⟩
      · rintro p hp t rfl
        obtain rfl : previous = some (.number t) := hp
        rw [hbehind t rfl] at hfirst
        simp [Lexeme.signFollows, Lexeme.endsOperand] at hfirst
      · obtain rfl : c = '-' := by simpa using hminus
        exact (hfirst.resolve_left (by decide)).2
    | opening => trivial
    | closing => trivial
    | operator hc hsign =>
      rintro rfl
      rw [← hplace, hsign hc]
  · rintro t rfl
    exact (scans_of_scan h).number.2

/-- A text that is read to its end behind a lexeme that was not cut short has lexemes that fit there. -/
theorem wellFormed_of_complete {previous : Option Lexeme} {position : Nat} {cs : List Char}
    (hprev : Lexeme.Readable previous)
    (hbehind : ∀ t, previous = some (.number t) → ∀ d ∈ cs.head?, isNumberChar d = false)
    (h : (readFrom (previous.bind (·.text.getLast?)) position cs).stoppedBy = none) :
    Lexeme.WellFormed previous
      (readFrom (previous.bind (·.text.getLast?)) position cs).lexemes := by
  induction hn : cs.length using Nat.strongRecOn generalizing previous position cs with
  | ind n ih =>
    subst hn
    cases cs with
    | nil =>
      simp only [readFrom, lexemes]
      trivial
    | cons c cs =>
      cases hs : scan (previous.bind (·.text.getLast?)) position c cs with
      | error e =>
        rw [readFrom_error hs] at h
        cases h
      | ok p =>
        obtain ⟨l, rest⟩ := p
        have hc : ∀ t, previous = some (.number t) → isNumberChar c = false :=
          fun t ht => hbehind t ht c rfl
        obtain ⟨hfits, hrest⟩ := fits_of_scan hprev hc hs
        rw [readFrom_ok hs] at h ⊢
        refine ⟨hfits, ih rest.length (scan_length_lt hs) hfits.readable ?_ h rfl⟩
        rintro t ht
        exact hrest t (Option.some.inj ht)

/-- The tokens that are read stand where those before them end, also if reading stops at a fault. -/
theorem tokens_eq_place (previous : Option Char) (position : Nat) (cs : List Char) :
    (readFrom previous position cs).tokens =
      place position (readFrom previous position cs).lexemes := by
  induction hn : cs.length using Nat.strongRecOn generalizing previous position cs with
  | ind n ih =>
    subst hn
    cases cs with
    | nil => simp [readFrom, lexemes, place]
    | cons c cs =>
      cases hs : scan previous position c cs with
      | error e => simp [readFrom_error hs, lexemes, place]
      | ok p =>
        obtain ⟨l, rest⟩ := p
        rw [readFrom_ok hs]
        exact congrArg _ (ih rest.length (scan_length_lt hs) _ _ rest rfl)

/-! ## Places -/

/-- Each token stands where the texts of the tokens before it end, counted from a position on. -/
def Placed (position : Nat) (ts : List Token) : Prop :=
  ∀ before t after, ts = before ++ t :: after →
    t.position = position + (before.map fun b => b.lexeme.text.length).sum

theorem placed_cons {position : Nat} {t : Token} {ts : List Token} :
    Placed position (t :: ts) ↔
      t.position = position ∧ Placed (position + t.lexeme.text.length) ts := by
  constructor
  · intro h
    refine ⟨h [] t ts rfl, ?_⟩
    rintro before u after rfl
    rw [h (t :: before) u after rfl, List.map_cons, List.sum_cons, Nat.add_assoc]
  · rintro ⟨ht, hts⟩ before u after hu
    cases before with
    | nil =>
      obtain ⟨rfl, -⟩ := List.cons.inj hu
      exact ht
    | cons b before =>
      obtain ⟨rfl, hafter⟩ := List.cons.inj hu
      rw [hts before u after hafter, List.map_cons, List.sum_cons, Nat.add_assoc]

theorem eq_place_iff {position : Nat} {ts : List Token} :
    ts = place position (ts.map (·.lexeme)) ↔ Placed position ts := by
  induction ts generalizing position with
  | nil =>
    refine ⟨fun _ before t after h => ?_, fun _ => rfl⟩
    cases before <;> cases h
  | cons t ts ih =>
    obtain ⟨lexeme, k⟩ := t
    rw [placed_cons, ← ih, List.map_cons, place, List.cons.injEq, Token.mk.injEq]
    simp

/-- A text is read to its end as certain tokens exactly if the tokens are in order, each stands where
those before it end, and together they make up the text. -/
theorem read_eq_iff {cs : List Char} {ts : List Token} :
    read cs = ⟨ts, none⟩ ↔
      Lexeme.Orderly (ts.map (·.lexeme)) ∧ Placed 0 ts ∧ concat ts = cs := by
  constructor
  · intro h
    have hstop : (read cs).stoppedBy = none := by rw [h]
    have hlexemes : (read cs).lexemes = ts.map (·.lexeme) := by rw [h]; rfl
    have hfits : Lexeme.WellFormed none (read cs).lexemes := by
      have hfirst : Lexeme.Readable none := trivial
      exact wellFormed_of_complete hfirst (fun t ht => by cases ht) hstop
    have hplace := tokens_eq_place none 0 cs
    rw [← read, hlexemes, h] at hplace
    have htexts := texts_lexemes hstop
    rw [hlexemes, Lexeme.texts, List.flatMap_map] at htexts
    rw [hlexemes] at hfits
    exact ⟨Lexeme.wellFormed_iff_orderly.1 hfits, eq_place_iff.1 hplace, htexts⟩
  · rintro ⟨horder, hplaced, rfl⟩
    have htexts : Lexeme.texts (ts.map (·.lexeme)) = concat ts := by
      rw [Lexeme.texts, List.flatMap_map]
      rfl
    have hread := read_texts (Lexeme.wellFormed_iff_orderly.2 horder)
    rwa [htexts, ← eq_place_iff.2 hplaced] at hread

/-- A text without spaces between its tokens is cut where it has to be. -/
example : (read "(-1)--.5*2".toList).tokens.map (·.position) = [0, 1, 3, 4, 5, 8, 9] := by
  decide +kernel

end Reading

end Reckoner
