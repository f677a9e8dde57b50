import Reckoner.Expression.Evaluation
import Reckoner.Proofs.Expression.Scanning
/-!
Texts and their tokens.

The machine is fed while the text is scanned. Here the two are taken apart: what the machine does on a
text is what it does on the tokens that the text reads as, and the fault that stops the reading counts
only if the machine has met none before. The other way round, a list of lexemes can be told from its
texts alone when the lexemes stand where they may.

What is shown here:
1. `Arithmetic.feedText_eq_feed` and `Arithmetic.evaluateText_eq`: evaluating a text is reading its
   tokens, feeding them to the machine, and reporting the fault of the reading last;
2. `Reading.read_texts`: the texts of a well-formed list of lexemes, put together, read as that list;
3. `Reading.isLiteral_of_mem`: the numbers that are read are literals.
-/

namespace Reckoner

namespace Lexeme

/-- Whether a lexeme can be the last of an operand. -/
def endsOperand : Lexeme → Bool
  | .number _ => true
  | .closing => true
  | _ => false

/-- Whether a lexeme can be the first of an operand. -/
def beginsOperand : Lexeme → Bool
  | .number _ => true
  | .opening => true
  | _ => false

/-- Whether a minus behind this lexeme is a sign; one that begins the text is. -/
def signFollows (previous : Option Lexeme) : Bool := previous.all fun l => !l.endsOperand

/-- Whether a lexeme may stand behind another, or at the beginning: numbers are literals and do not
touch, a number has a sign only where a minus is one, and a minus is an operator only elsewhere. -/
def Fits (previous : Option Lexeme) : Lexeme → Prop
  | .number text =>
    isLiteral text = true ∧ (∀ l ∈ previous, ∀ t, l ≠ .number t) ∧
      (text.head? = some '-' → signFollows previous = true)
  | .operator op => op = .sub → signFollows previous = false
  | _ => True

/-- Lexemes each of which fits behind the one before it. -/
def WellFormed (previous : Option Lexeme) : List Lexeme → Prop
  | [] => True
  | l :: ls => l.Fits previous ∧ WellFormed (some l) ls

/-- The texts of lexemes, put together. -/
def texts (ls : List Lexeme) : List Char := ls.flatMap text

theorem texts_cons (l : Lexeme) (ls : List Lexeme) : texts (l :: ls) = l.text ++ texts ls := rfl

end Lexeme

namespace Arithmetic

variable {α : Type} (A : Arithmetic α)

/-- Tokens as the machine reads them. -/
def symbols (tokens : List Token) : List (Symbol α) := tokens.map fun t => A.symbolOf t.lexeme

theorem symbols_eq (tokens : List Token) :
    A.symbols tokens = (tokens.map (·.lexeme)).map A.symbolOf := by
  rw [List.map_map]
  rfl

/-- The moves on a text are those on its tokens; the fault of the reading comes after the faults of the
moves. -/
theorem feedText_eq_feed (s : Stacks α) (previous : Option Char) (position : Nat) (cs : List Char) :
    A.feedText s previous position cs =
      match s.feed A (A.symbols (Reading.readFrom previous position cs).tokens) with
      | .error e => .error e
      | .ok t =>
        match (Reading.readFrom previous position cs).stoppedBy with
        | some e => .error e
        | none => .ok t := by
  induction h : cs.length using Nat.strongRecOn generalizing s previous position cs with
  | ind n ih =>
    subst h
    cases cs with
    | nil => simp [feedText, Reading.readFrom, symbols, Stacks.feed]
    | cons c cs =>
      cases hs : scan previous position c cs with
      | error e => simp [A.feedText_error hs, Reading.readFrom_error hs, symbols, Stacks.feed]
      | ok p =>
        obtain ⟨lexeme, rest⟩ := p
        rw [A.feedText_ok hs, Reading.readFrom_ok hs]
        simp only [symbols, List.map_cons, Stacks.feed]
        cases s.step A (A.symbolOf lexeme) with
        | error e => rfl
        | ok t => exact ih rest.length (scan_length_lt hs) _ _ _ rest rfl

/-- The value of a text by its tokens: first the moves, then the fault of the reading, then the verdict
at the end. -/
theorem evaluateText_eq (cs : List Char) :
    A.evaluateText cs =
      match Stacks.empty.feed A (A.symbols (Reading.read cs).tokens) with
      | .error e => .error e
      | .ok t =>
        match (Reading.read cs).stoppedBy with
        | some e => .error e
        | none => t.finish A := by
  rw [evaluateText, feedText_eq_feed, ← Reading.read]
  cases Stacks.empty.feed A (A.symbols (Reading.read cs).tokens) with
  | error e => rfl
  | ok t =>
    cases (Reading.read cs).stoppedBy with
    | some e => rfl
    | none => rfl

end Arithmetic

/-! ## Reading the texts of lexemes -/

namespace Lexeme

/-- What a lexeme needs of the lexeme before it to be told from the text alone. -/
def Readable : Option Lexeme → Prop
  | some (.number text) => isLiteral text = true
  | _ => True

theorem isSignPlace_getLast? {previous : Option Lexeme} (h : Readable previous) :
    isSignPlace (previous.bind (·.text.getLast?)) = signFollows previous := by
  cases previous with
  | none => rfl
  | some l =>
    cases l with
    | number ds =>
      obtain ⟨c, hc, hnum⟩ := getLast?_isNumberChar h
      simp [text, hc, isSignPlace_of_isNumberChar hnum, signFollows, endsOperand]
    | operator op => cases op <;> rfl
    | opening => rfl
    | closing => rfl

theorem Fits.readable {previous : Option Lexeme} {l : Lexeme} (h : l.Fits previous) :
    Readable (some l) := by
  cases l with
  | number text => exact h.1
  | operator op => trivial
  | opening => trivial
  | closing => trivial

theorem WellFormed.head_texts {text : List Char} {ls : List Lexeme}
    (h : WellFormed (some (.number text)) ls) : ∀ c ∈ (texts ls).head?, isNumberChar c = false := by
  cases ls with
  | nil => simp [texts]
  | cons l ls =>
    intro c hc
    cases l with
    | number t => exact absurd rfl (h.1.2.1 (.number text) rfl text)
    | operator op =>
      obtain rfl : op.symbol = c := by simpa [texts, Lexeme.text] using hc
      exact isNumberChar_symbol op
    | opening =>
      obtain rfl : '(' = c := by simpa [texts, Lexeme.text] using hc
      decide
    | closing =>
      obtain rfl : ')' = c := by simpa [texts, Lexeme.text] using hc
      decide

end Lexeme

theorem span_isNumberChar {ds rest : List Char} (h : ∀ c ∈ ds, isNumberChar c = true)
    (hrest : ∀ c ∈ rest.head?, isNumberChar c = false) :
    (ds ++ rest).takeWhile isNumberChar = ds ∧ (ds ++ rest).dropWhile isNumberChar = rest := by
  have htake : rest.takeWhile isNumberChar = [] := by
    cases rest with
    | nil => rfl
    | cons c cs => simp [hrest c rfl]
  have hdrop : rest.dropWhile isNumberChar = rest := by
    cases rest with
    | nil => rfl
    | cons c cs => simp [hrest c rfl]
  rw [List.takeWhile_append_of_pos h, List.dropWhile_append_of_pos h, htake, hdrop, List.append_nil]
  exact ⟨rfl, rfl⟩

theorem scanLiteral_eq {sign ds rest : List Char} (h : isNumeral ds = true)
    (hsign : isLiteral (sign ++ ds) = true)
    (hrest : ∀ c ∈ rest.head?, isNumberChar c = false) :
    scanLiteral sign (ds ++ rest) = .ok (.number (sign ++ ds), rest) := by
  obtain ⟨htake, hdrop⟩ := span_isNumberChar (isNumberChar_of_isNumeral h) hrest
  rw [scanLiteral, htake, hdrop]
  exact if_pos hsign

theorem scan_of_fits {previous : Option Lexeme} {l : Lexeme} {c : Char} {cs rest : List Char}
    (position : Nat) (hprev : Lexeme.Readable previous) (hfits : l.Fits previous)
    (hrest : ∀ text, l = .number text → ∀ d ∈ rest.head?, isNumberChar d = false)
    (htext : c :: cs = l.text ++ rest) :
    scan (previous.bind (·.text.getLast?)) position c cs = .ok (l, rest) := by
  cases l with
  | number text =>
    obtain ⟨hlit, -, hsign⟩ := hfits
    rcases isLiteral_cases hlit with hn | ⟨ds, rfl, hn⟩
    · obtain ⟨d, ds, rfl⟩ := List.exists_cons_of_ne_nil (isNumeral_ne_nil hn)
      obtain rfl : c = d := (List.cons.inj htext).1
      have hc : isNumberChar c = true := isNumberChar_of_isNumeral hn c List.mem_cons_self
      rw [scan, if_pos hc, htext]
      exact scanLiteral_eq hn hlit (hrest _ rfl)
    · obtain ⟨rfl, rfl⟩ : c = '-' ∧ cs = ds ++ rest := List.cons.inj htext
      have hplace := Lexeme.isSignPlace_getLast? hprev
      rw [hsign rfl] at hplace
      rw [scan, if_neg (by decide), if_neg (by decide), if_neg (by decide)]
      simp only [Operator.ofChar?, hplace, and_self, if_true]
      exact scanLiteral_eq hn hlit (hrest _ rfl)
  | operator op =>
    obtain ⟨rfl, rfl⟩ : c = op.symbol ∧ cs = rest := List.cons.inj htext
    have hplace := Lexeme.isSignPlace_getLast? hprev
    have hnot : ¬(op = .sub ∧ isSignPlace (previous.bind (·.text.getLast?)) = true) := by
      rintro ⟨hop, hsign⟩
      rw [hplace, hfits hop] at hsign
      cases hsign
    have hopen : op.symbol ≠ '(' := by cases op <;> decide
    have hclose : op.symbol ≠ ')' := by cases op <;> decide
    rw [scan, isNumberChar_symbol, if_neg Bool.false_ne_true, if_neg hopen, if_neg hclose,
      Operator.ofChar?_symbol]
    exact if_neg hnot
  | opening =>
    obtain ⟨rfl, rfl⟩ : c = '(' ∧ cs = rest := List.cons.inj htext
    rfl
  | closing =>
    obtain ⟨rfl, rfl⟩ : c = ')' ∧ cs = rest := List.cons.inj htext
    rfl

namespace Reading

/-- Lexemes as tokens, the first at a position and each behind the one before it. -/
def place (position : Nat) : List Lexeme → List Token
  | [] => []
  | l :: ls => ⟨l, position⟩ :: place (position + l.text.length) ls

theorem place_lexemes (position : Nat) (ls : List Lexeme) :
    (place position ls).map (·.lexeme) = ls := by
  induction ls generalizing position with
  | nil => rfl
  | cons l ls ih => rw [place, List.map_cons, ih]

theorem symbols_place {α : Type} (A : Arithmetic α) (position : Nat) (ls : List Lexeme) :
    A.symbols (place position ls) = ls.map A.symbolOf := by
  rw [A.symbols_eq, place_lexemes]

theorem readFrom_texts {previous : Option Lexeme} {ls : List Lexeme} (position : Nat)
    (hprev : Lexeme.Readable previous) (h : Lexeme.WellFormed previous ls) :
    readFrom (previous.bind (·.text.getLast?)) position (Lexeme.texts ls) =
      ⟨place position ls, none⟩ := by
  induction ls generalizing previous position with
  | nil => simp [Lexeme.texts, readFrom, place]
  | cons l ls ih =>
    obtain ⟨hfits, hls⟩ := h
    have hrest : ∀ text, l = .number text →
        ∀ d ∈ (Lexeme.texts ls).head?, isNumberChar d = false := by
      rintro text rfl
      exact hls.head_texts
    have hne : l.text ≠ [] := by
      cases l with
      | number text =>
        rintro rfl
        exact absurd hfits.1 (by decide)
      | operator op => exact List.cons_ne_nil _ _
      | opening => exact List.cons_ne_nil _ _
      | closing => exact List.cons_ne_nil _ _
    obtain ⟨c, cs, hcs⟩ := List.exists_cons_of_ne_nil hne
    have htext : c :: (cs ++ Lexeme.texts ls) = l.text ++ Lexeme.texts ls := by
      rw [hcs, List.cons_append]
    have hscan := scan_of_fits position hprev hfits hrest htext
    rw [Lexeme.texts_cons, hcs, List.cons_append, readFrom_ok hscan, place]
    have := ih (position + l.text.length) hfits.readable hls
    simp only [Option.bind_some] at this
    rw [this]

/-- The texts of a well-formed list of lexemes read as that list. -/
theorem read_texts {ls : List Lexeme} (h : Lexeme.WellFormed none ls) :
    read (Lexeme.texts ls) = ⟨place 0 ls, none⟩ := by
  have hfirst : Lexeme.Readable none := trivial
  exact readFrom_texts 0 hfirst h

theorem isLiteral_of_mem {previous : Option Char} {position : Nat} {cs text : List Char} {k : Nat}
    (h : ⟨.number text, k⟩ ∈ (readFrom previous position cs).tokens) : isLiteral text = true := by
  induction hn : cs.length using Nat.strongRecOn generalizing previous position cs with
  | ind n ih =>
    subst hn
    cases cs with
    | nil => simp [readFrom] at h
    | cons c cs =>
      cases hs : scan previous position c cs with
      | error e => simp [readFrom_error hs] at h
      | ok p =>
        obtain ⟨lexeme, rest⟩ := p
        rw [readFrom_ok hs, List.mem_cons] at h
        rcases h with h | h
        · cases h
          exact (scans_of_scan hs).number.1
        · exact ih rest.length (scan_length_lt hs) h rfl

/-- The lexemes of the tokens read. -/
def lexemes (r : Reading) : List Lexeme := r.tokens.map (·.lexeme)

theorem isLiteral_of_mem_lexemes {cs text : List Char} (h : .number text ∈ (read cs).lexemes) :
    isLiteral text = true := by
  obtain ⟨⟨lexeme, k⟩, ht, hl⟩ := List.mem_map.1 h
  obtain rfl : lexeme = .number text := hl
  exact isLiteral_of_mem ht

theorem texts_lexemes {cs : List Char} (h : (read cs).stoppedBy = none) :
    Lexeme.texts (read cs).lexemes = cs := by
  obtain ⟨rest, hrest, hstop⟩ := concat_tokens_append none 0 cs
  have hconcat : Lexeme.texts (read cs).lexemes = concat (read cs).tokens := by
    rw [Lexeme.texts, lexemes, List.flatMap_map]
    rfl
  rw [hstop h, List.append_nil] at hrest
  exact hconcat.trans hrest

end Reading

end Reckoner
