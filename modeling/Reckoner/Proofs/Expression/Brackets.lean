import Reckoner.Proofs.Expression.Tokens
/-!
Matching of parentheses.

Parentheses are matched in the ordinary way, whatever else a text holds: a closing one closes the last
opening one that is still unclosed, and if there is none it is stray. Texts, lexemes and symbols have
the same parentheses, so the matching can be followed on any of them.

What is shown here:
1. `Matching.stray_le_after`: a stray parenthesis stays one, whatever follows;
2. `Bracket.texts_brackets`: a list of lexemes has the parentheses of its texts;
3. `Reading.brackets_of_complete`: so has a text that is read to its end.
-/

namespace Reckoner

/-- One side of a pair of parentheses. -/
inductive Bracket where
  | opening
  | closing
  deriving DecidableEq

namespace Bracket

def ofChar? : Char → Option Bracket
  | '(' => some .opening
  | ')' => some .closing
  | _ => none

def ofLexeme? : Lexeme → Option Bracket
  | .opening => some .opening
  | .closing => some .closing
  | _ => none

def ofSymbol? {α : Type} : Symbol α → Option Bracket
  | .opening => some .opening
  | .closing => some .closing
  | _ => none

end Bracket

/-- How parentheses match: the opening ones that are unclosed, and the closing ones that close none. -/
@[ext]
structure Matching where
  unclosed : Nat
  stray : Nat
  deriving DecidableEq

namespace Matching

/-- The matching with one more parenthesis. -/
def meet (m : Matching) : Bracket → Matching
  | .opening => { m with unclosed := m.unclosed + 1 }
  | .closing =>
    if m.unclosed = 0 then { m with stray := m.stray + 1 }
    else { m with unclosed := m.unclosed - 1 }

/-- The matching with more parentheses. -/
def after (m : Matching) (bs : List Bracket) : Matching := bs.foldl meet m

/-- The matching of all parentheses of a text. -/
def ofText (cs : List Char) : Matching := after ⟨0, 0⟩ (cs.filterMap Bracket.ofChar?)

theorem after_filterMap_cons {β : Type} (m : Matching) (f : β → Option Bracket) (x : β)
    (xs : List β) :
    m.after ((x :: xs).filterMap f) = (m.after (f x).toList).after (xs.filterMap f) := by
  cases h : f x with
  | none => rw [List.filterMap_cons_none h]; rfl
  | some b => rw [List.filterMap_cons_some h]; rfl

theorem after_append (m : Matching) (bs cs : List Bracket) :
    m.after (bs ++ cs) = (m.after bs).after cs := List.foldl_append

theorem stray_le_meet (m : Matching) (b : Bracket) : m.stray ≤ (m.meet b).stray := by
  cases b with
  | opening => exact Nat.le_refl _
  | closing =>
    rw [meet]
    split
    · exact Nat.le_succ _
    · exact Nat.le_refl _

theorem stray_le_after (m : Matching) (bs : List Bracket) : m.stray ≤ (m.after bs).stray := by
  induction bs generalizing m with
  | nil => exact Nat.le_refl _
  | cons b bs ih => exact Nat.le_trans (stray_le_meet m b) (ih (m.meet b))

end Matching

namespace Bracket

theorem ofChar?_of_isNumberChar {c : Char} (h : isNumberChar c = true) : ofChar? c = none := by
  unfold ofChar?
  split
  · exact absurd h (by decide)
  · exact absurd h (by decide)
  · rfl

theorem filterMap_literal {cs : List Char} (h : isLiteral cs = true) :
    cs.filterMap ofChar? = [] := by
  have hnum : ∀ ds, isNumeral ds = true → ds.filterMap ofChar? = [] := by
    intro ds hds
    rw [List.filterMap_eq_nil_iff]
    exact fun c hc => ofChar?_of_isNumberChar (isNumberChar_of_isNumeral hds c hc)
  rcases isLiteral_cases h with hn | ⟨ds, rfl, hn⟩
  · exact hnum cs hn
  · exact hnum ds hn

theorem text_brackets {l : Lexeme} (h : ∀ text, l = .number text → isLiteral text = true) :
    l.text.filterMap ofChar? = (ofLexeme? l).toList := by
  cases l with
  | number text => exact filterMap_literal (h text rfl)
  | operator op => cases op <;> rfl
  | opening => rfl
  | closing => rfl

theorem texts_brackets {ls : List Lexeme} (h : ∀ text, .number text ∈ ls → isLiteral text = true) :
    (Lexeme.texts ls).filterMap ofChar? = ls.filterMap ofLexeme? := by
  induction ls with
  | nil => rfl
  | cons l ls ih =>
    have hls := ih fun text ht => h text (List.mem_cons_of_mem _ ht)
    have hl := text_brackets fun text ht => h text (ht ▸ List.mem_cons_self)
    rw [Lexeme.texts_cons, List.filterMap_append, hls, hl]
    cases l <;> rfl

theorem ofSymbol?_symbolOf {α : Type} (A : Arithmetic α) (l : Lexeme) :
    ofSymbol? (A.symbolOf l) = ofLexeme? l := by
  cases l <;> rfl

theorem symbols_brackets {α : Type} (A : Arithmetic α) (ls : List Lexeme) :
    (ls.map A.symbolOf).filterMap ofSymbol? = ls.filterMap ofLexeme? := by
  rw [List.filterMap_map]
  congr 1
  funext l
  exact ofSymbol?_symbolOf A l

end Bracket

namespace Reading

theorem brackets_of_complete {cs : List Char} (h : (read cs).stoppedBy = none) :
    cs.filterMap Bracket.ofChar? = (read cs).lexemes.filterMap Bracket.ofLexeme? := by
  have hliterals : ∀ text, .number text ∈ (read cs).lexemes → isLiteral text = true := by
    intro text
    exact isLiteral_of_mem_lexemes
  have htexts := Bracket.texts_brackets hliterals
  rwa [texts_lexemes h] at htexts

end Reading

end Reckoner
