import Reckoner.Binary64.Decimal
import Reckoner.Expression.Error
/-!
Tokens of an expression.

A token is a number, an operator or a parenthesis. A number is a maximal run of digits and points; a
minus that begins the text or follows an opening parenthesis or an operator is the sign of the number
after it. What precedes a character is looked up in the text itself, not among the tokens.

What is shown here:
1. `scan_length_lt`: a scanned token uses at least one character;
2. `scan_append`: the token's text and the rest make up the text that was scanned;
3. `Reading.concat_tokens_append`: the tokens of a text, put together, are the part of it read before
   the first fault;
4. `Token.behind_scan`: what stands around the place where a token ends.
-/

namespace Reckoner

/-- A token apart from its place. A number keeps its text, sign included. -/
inductive Lexeme where
  | number (text : List Char)
  | operator (op : Operator)
  | opening
  | closing
  deriving DecidableEq, Repr

namespace Lexeme

def text : Lexeme → List Char
  | .number cs => cs
  | .operator op => [op.symbol]
  | .opening => ['(']
  | .closing => [')']

def kind : Lexeme → String
  | .number _ => "number"
  | .operator _ => "operator"
  | .opening => "lparen"
  | .closing => "rparen"

end Lexeme

/-- A token and the position of its first character. -/
structure Token where
  lexeme : Lexeme
  position : Nat
  deriving DecidableEq, Repr

/-- Whether a text is a literal: a numeral, possibly behind a minus. -/
def isLiteral : List Char → Bool
  | '-' :: cs => isNumeral cs
  | cs => isNumeral cs

/-- Whether a minus behind this character is a sign; a minus that begins the text is one. -/
def isSignPlace : Option Char → Bool
  | none => true
  | some c => c == '(' || (Operator.ofChar? c).isSome

/-- A literal from a sign, or none, and the run of digits and points at the start of the text. -/
def scanLiteral (sign cs : List Char) : Except EvalError (Lexeme × List Char) :=
  let literal := sign ++ cs.takeWhile isNumberChar
  if isLiteral literal then .ok (.number literal, cs.dropWhile isNumberChar)
  else .error (.numberFormat literal)

/-- The token that begins with `c` and goes on in `cs`, and what follows it. -/
def scan (previous : Option Char) (position : Nat) (c : Char) (cs : List Char) :
    Except EvalError (Lexeme × List Char) :=
  if isNumberChar c then scanLiteral [] (c :: cs)
  else if c = '(' then .ok (.opening, cs)
  else if c = ')' then .ok (.closing, cs)
  else
    match Operator.ofChar? c with
    | none => .error (.invalidCharacter c position)
    | some op =>
      if op = .sub ∧ isSignPlace previous = true then scanLiteral ['-'] cs
      else .ok (.operator op, cs)

theorem scanLiteral_append {sign cs rest : List Char} {lexeme : Lexeme}
    (h : scanLiteral sign cs = .ok (lexeme, rest)) : lexeme.text ++ rest = sign ++ cs := by
  simp only [scanLiteral] at h
  split at h
  · cases h
    simp [Lexeme.text, List.takeWhile_append_dropWhile]
  · cases h

theorem scan_append {previous : Option Char} {position : Nat} {c : Char} {cs rest : List Char}
    {lexeme : Lexeme} (h : scan previous position c cs = .ok (lexeme, rest)) :
    lexeme.text ++ rest = c :: cs := by
  unfold scan at h
  split at h
  · exact scanLiteral_append h
  split at h
  · rename_i hc
    cases h
    simp [Lexeme.text, hc]
  split at h
  · rename_i hc
    cases h
    simp [Lexeme.text, hc]
  split at h
  · cases h
  · rename_i op hop
    have hc : c = op.symbol := Operator.ofChar?_eq_some_iff.1 hop
    split at h
    · rename_i hsign
      have := scanLiteral_append h
      rw [this, hc, hsign.1]
      rfl
    · cases h
      simp [Lexeme.text, hc]

theorem scanLiteral_nonempty {sign cs rest : List Char} {lexeme : Lexeme}
    (h : scanLiteral sign cs = .ok (lexeme, rest)) : lexeme.text ≠ [] := by
  simp only [scanLiteral] at h
  split at h
  · rename_i hl
    cases h
    intro he
    simp only [Lexeme.text] at he
    rw [he] at hl
    exact absurd hl (by decide)
  · cases h

theorem scan_nonempty {previous : Option Char} {position : Nat} {c : Char} {cs rest : List Char}
    {lexeme : Lexeme} (h : scan previous position c cs = .ok (lexeme, rest)) :
    lexeme.text ≠ [] := by
  unfold scan at h
  split at h
  · exact scanLiteral_nonempty h
  split at h
  · cases h
    simp [Lexeme.text]
  split at h
  · cases h
    simp [Lexeme.text]
  split at h
  · cases h
  · split at h
    · exact scanLiteral_nonempty h
    · cases h
      simp [Lexeme.text]

theorem scan_length_lt {previous : Option Char} {position : Nat} {c : Char} {cs rest : List Char}
    {lexeme : Lexeme} (h : scan previous position c cs = .ok (lexeme, rest)) :
    rest.length < (c :: cs).length := by
  have happ := congrArg List.length (scan_append h)
  have hpos := List.length_pos_iff.2 (scan_nonempty h)
  rw [List.length_append] at happ
  omega

/-- What reading a text yields: the tokens before the first fault, and that fault. -/
structure Reading where
  tokens : List Token
  stoppedBy : Option EvalError
  deriving DecidableEq

namespace Reading

/-- The tokens of the rest of a text, behind a character and from a position on. -/
def readFrom (previous : Option Char) (position : Nat) : List Char → Reading
  | [] => ⟨[], none⟩
  | c :: cs =>
    match _h : scan previous position c cs with
    | .error e => ⟨[], some e⟩
    | .ok (lexeme, rest) =>
      let r := readFrom lexeme.text.getLast? (position + lexeme.text.length) rest
      ⟨⟨lexeme, position⟩ :: r.tokens, r.stoppedBy⟩
termination_by cs => cs.length
decreasing_by exact scan_length_lt _h

def read (cs : List Char) : Reading := readFrom none 0 cs

/-- Tokens put together again. -/
def concat (tokens : List Token) : List Char := tokens.flatMap (·.lexeme.text)

theorem readFrom_error {previous : Option Char} {position : Nat} {c : Char} {cs : List Char}
    {e : EvalError} (h : scan previous position c cs = .error e) :
    readFrom previous position (c :: cs) = ⟨[], some e⟩ := by
  rw [readFrom]
  split <;> simp_all

theorem readFrom_ok {previous : Option Char} {position : Nat} {c : Char} {cs rest : List Char}
    {lexeme : Lexeme} (h : scan previous position c cs = .ok (lexeme, rest)) :
    readFrom previous position (c :: cs) =
      let r := readFrom lexeme.text.getLast? (position + lexeme.text.length) rest
      ⟨⟨lexeme, position⟩ :: r.tokens, r.stoppedBy⟩ := by
  rw [readFrom]
  split <;> simp_all

/-- The tokens read are contiguous parts of the text, from its start to where reading stopped. -/
theorem concat_tokens_append (previous : Option Char) (position : Nat) (cs : List Char) :
    ∃ rest, concat (readFrom previous position cs).tokens ++ rest = cs ∧
      ((readFrom previous position cs).stoppedBy = none → rest = []) := by
  induction h : cs.length using Nat.strongRecOn generalizing previous position cs with
  | ind n ih =>
    subst h
    cases cs with
    | nil => exact ⟨[], by simp [readFrom, concat], fun _ => rfl⟩
    | cons c cs =>
      cases hs : scan previous position c cs with
      | error e => exact ⟨c :: cs, by simp [readFrom_error hs, concat], by simp [readFrom_error hs]⟩
      | ok p =>
        obtain ⟨lexeme, rest⟩ := p
        obtain ⟨r, hr, hstop⟩ := ih rest.length (scan_length_lt hs) lexeme.text.getLast?
          (position + lexeme.text.length) rest rfl
        refine ⟨r, ?_, ?_⟩
        · rw [readFrom_ok hs, concat, List.flatMap_cons, List.append_assoc]
          exact (congrArg (lexeme.text ++ ·) hr).trans (scan_append hs)
        · rw [readFrom_ok hs]
          exact hstop

end Reading

namespace Token

/-- The character before a position. -/
def characterBefore (cs : List Char) (position : Nat) : Option Char :=
  if position = 0 then none else cs[position - 1]?

/-- Behind a scanned token the scanner is at what follows it, and the character before that is the last
of the token. -/
theorem behind_scan {cs rest tail : List Char} {position : Nat} {c : Char} {l : Lexeme}
    (hdrop : cs.drop position = c :: tail)
    (h : scan (characterBefore cs position) position c tail = .ok (l, rest)) :
    cs.drop (position + l.text.length) = rest ∧
      characterBefore cs (position + l.text.length) = l.text.getLast? := by
  have htext : cs.drop position = l.text ++ rest := by rw [hdrop, scan_append h]
  have hpos : 0 < l.text.length := List.length_pos_iff.2 (scan_nonempty h)
  constructor
  · rw [← List.drop_drop, htext, List.drop_left]
  · rw [characterBefore, if_neg (by omega), List.getLast?_eq_getElem?,
      show position + l.text.length - 1 = position + (l.text.length - 1) by omega,
      ← List.getElem?_drop, htext, List.getElem?_append_left (by omega)]

/-- The token at a position, and the position behind it; `none` past the end of the text. -/
def at? (cs : List Char) (position : Nat) : Option (Except EvalError (Token × Nat)) :=
  match cs.drop position with
  | [] => none
  | c :: rest =>
    match scan (characterBefore cs position) position c rest with
    | .error e => some (.error e)
    | .ok (lexeme, _) => some (.ok (⟨lexeme, position⟩, position + lexeme.text.length))

/-- Whether the character at a position is a minus that is a sign; `none` past the end. -/
def isSignAt? (cs : List Char) (position : Nat) : Option Bool :=
  (cs[position]?).map fun c => c == '-' && isSignPlace (characterBefore cs position)

end Token

end Reckoner
