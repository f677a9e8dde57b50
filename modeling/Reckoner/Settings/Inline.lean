import Reckoner.Settings.Value
import Reckoner.Text.Hexadecimal
/-!
Nodes written on one line.

A node is a text in single or double quotes, a list between brackets, a map between braces, or a plain
word. A plain word goes on to a comment, to the colon behind a key, or, between brackets and braces, to
the next mark of those. Only spaces may stand between the parts; a tab may not.
-/

namespace Reckoner.Settings

def isTabOrSpace (c : Char) : Bool := c == ' ' || c == '\t'

/-- Whether a text is over or goes on with a blank. -/
def breaksHere : List Char → Bool
  | [] => true
  | c :: _ => isTabOrSpace c

def skipSpaces (cs : List Char) : List Char := cs.dropWhile (· == ' ')

/-- Whether nothing but a comment is left of a line. -/
def isRestBlank (cs : List Char) : Bool :=
  match skipSpaces cs with
  | [] => true
  | c :: _ => c == '#'

/-! ## Quoted texts -/

/-- A text up to its closing single quote, and what follows; a quote inside is written twice. -/
def readSingle : List Char → Option (List Char × List Char)
  | [] => none
  | '\'' :: '\'' :: cs => (readSingle cs).map fun r => ('\'' :: r.1, r.2)
  | '\'' :: cs => some ([], cs)
  | c :: cs => (readSingle cs).map fun r => (c :: r.1, r.2)

/-- What the letter behind a backslash stands for. -/
def escaped? : Char → Option Char
  | '0' => some '\x00'
  | 'a' => some '\x07'
  | 'b' => some '\x08'
  | 't' => some '\t'
  | '\t' => some '\t'
  | 'n' => some '\n'
  | 'v' => some '\x0b'
  | 'f' => some '\x0c'
  | 'r' => some '\r'
  | 'e' => some '\x1b'
  | ' ' => some ' '
  | '"' => some '"'
  | '\\' => some '\\'
  | '/' => some '/'
  | 'N' => some '\u0085'
  | '_' => some '\u00a0'
  | 'L' => some '\u2028'
  | 'P' => some '\u2029'
  | _ => none

/-- How many hexadecimal digits follow a letter behind a backslash. -/
def codeWidth : Char → Nat
  | 'x' => 2
  | 'u' => 4
  | 'U' => 8
  | _ => 0

/-- The character with a code in so many hexadecimal digits. -/
def charOfCode? (width : Nat) (cs : List Char) : Option Char :=
  if (cs.take width).length < width then none
  else
    match Text.hexNumber? (cs.take width) with
    | some n => if n.isValidChar then some (Char.ofNat n) else none
    | none => none

/-- A text up to its closing double quote, and what follows. -/
def readDouble : List Char → Option (List Char × List Char)
  | [] => none
  | '"' :: cs => some ([], cs)
  | '\\' :: c :: cs =>
    let width := codeWidth c
    let d := if width = 0 then escaped? c else charOfCode? width cs
    match d, readDouble (cs.drop width) with
    | some d, some (ds, rest) => some (d :: ds, rest)
    | _, _ => none
  | c :: cs =>
    if c = '\\' then none
    else (readDouble cs).map fun r => (c :: r.1, r.2)
termination_by cs => cs.length
decreasing_by
  all_goals simp only [List.length_cons, List.length_drop]
  all_goals omega

/-! ## Plain words -/

/-- The marks that structure what stands between brackets and braces. -/
def isMark (c : Char) : Bool := c == ',' || c == '[' || c == ']' || c == '{' || c == '}'

/-- The characters that begin something other than a plain word. -/
def indicators : List Char := " \t-?:,[]\x7b\x7d#&*!|>'\"%@\x60".toList

/-- Whether a plain word begins with `c` and goes on in `cs`. -/
def startsPlain (inside : Bool) (c : Char) (cs : List Char) : Bool :=
  !indicators.contains c ||
    (!breaksHere cs && (c == '-' || (!inside && (c == '?' || c == ':'))))

/-- Whether a colon is followed by what may stand behind a key. -/
def endsKey (inside : Bool) (cs : List Char) : Bool :=
  breaksHere cs || (inside && cs.head?.any isMark)

/-- Whether a plain word ends before `c`; a comment needs a space before it. -/
def endsPlain (inside afterSpace : Bool) (c : Char) (cs : List Char) : Bool :=
  c == '\t' || (c == '#' && afterSpace) || (c == ':' && endsKey inside cs) ||
    (inside && (isMark c || c == '?'))

/-- A plain word with the spaces behind it, and what follows. -/
def takePlain (inside afterSpace : Bool) : List Char → List Char × List Char
  | [] => ([], [])
  | c :: cs =>
    if endsPlain inside afterSpace c cs then ([], c :: cs)
    else
      let r := takePlain inside (c == ' ') cs
      (c :: r.1, r.2)

def trimSpaces (cs : List Char) : List Char := (cs.reverse.dropWhile (· == ' ')).reverse

/-! ## Nodes -/

/-- An entry between brackets: a node, or a pair, which is a map of one entry. -/
def Node.ofListEntry : Node × Option Node → Node
  | (n, none) => n
  | (n, some value) => .map [(n, value)]

/-- An entry between braces: a pair, or a key alone. -/
def Node.ofMapEntry : Node × Option Node → Node × Node
  | (n, none) => (n, .nothing)
  | (n, some value) => (n, value)

mutual

/-- A node at the start of the text. The fuel bounds nesting and the number of entries. -/
def readNode (inside : Bool) : Nat → List Char → Option (Node × List Char)
  | 0, _ => none
  | _ + 1, [] => none
  | fuel + 1, c :: cs =>
    if c = '\'' then (readSingle cs).map fun r => (.quoted r.1, r.2)
    else if c = '"' then (readDouble cs).map fun r => (.quoted r.1, r.2)
    else if c = '[' then
      (readEntries ']' fuel (skipSpaces cs)).map fun r => (.list (r.1.map Node.ofListEntry), r.2)
    else if c = '{' then
      (readEntries '}' fuel (skipSpaces cs)).map fun r => (.map (r.1.map Node.ofMapEntry), r.2)
    else if startsPlain inside c cs then
      let r := takePlain inside false (c :: cs)
      some (.plain (trimSpaces r.1), r.2)
    else none

/-- The entries up to a closing mark. -/
def readEntries (close : Char) : Nat → List Char → Option (List (Node × Option Node) × List Char)
  | 0, _ => none
  | fuel + 1, cs =>
    if cs.head? = some close then some ([], cs.tail)
    else
      match readNode true fuel cs with
      | none => none
      | some (n, r) =>
        match readPartner close fuel (skipSpaces r) with
        | none => none
        | some (partner, r) =>
          match skipSpaces r with
          | [] => none
          | c :: r =>
            if c = ',' then
              (readEntries close fuel (skipSpaces r)).map fun es => ((n, partner) :: es.1, es.2)
            else if c = close then some ([(n, partner)], r)
            else none

/-- What stands behind the colon of a pair, if there is a colon. -/
def readPartner (close : Char) : Nat → List Char → Option (Option Node × List Char)
  | 0, _ => none
  | fuel + 1, ':' :: cs =>
    match skipSpaces cs with
    | [] => none
    | c :: r =>
      if c = ',' ∨ c = close then some (some .nothing, c :: r)
      else (readNode true fuel (c :: r)).map fun r => (some r.1, r.2)
  | _ + 1, cs => some (none, cs)

end

/-- A node at the start of a line. -/
def Node.read (cs : List Char) : Option (Node × List Char) := readNode false (3 * cs.length + 3) cs

/-- The farthest that the colon of a key may stand from the beginning of the key. -/
def longestKey : Nat := 1024

/-- The key at the start of a line and what stands behind its colon, if the line has one. -/
def Node.readKey (cs : List Char) : Option (Node × List Char) :=
  match Node.read cs with
  | none => none
  | some (key, r) =>
    match skipSpaces r with
    | ':' :: r =>
      if breaksHere r ∧ cs.length - (r.length + 1) ≤ longestKey then some (key, r) else none
    | _ => none

end Reckoner.Settings
