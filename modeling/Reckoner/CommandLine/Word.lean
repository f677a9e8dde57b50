import Reckoner.CommandLine.Grammar
import Reckoner.CommandLine.Problem
import Reckoner.Text.Digit
/-!
Words of a command line.

Before any argument takes effect each is read by itself: it is an ordinary word, the first double dash,
a flag of the grammar, possibly with something attached, or a flag that the grammar does not have. A
negative number and a text with a space in it are ordinary words.

What is shown here: `Grammar.readWords_separator`, behind a double dash there are ordinary words only.
-/

namespace Reckoner.CommandLine

inductive Reading where
  | ordinary
  | separator
  /-- A flag by its name, possibly with a value behind an equals sign. -/
  | flag (flag : Flag) (attached : Option String)
  /-- A short flag with further characters behind its letter. -/
  | letters (flag : Flag) (rest : List Char)
  | unknown
  deriving DecidableEq, Repr

/-- An argument and what it is read as. -/
structure Word where
  text : String
  reading : Reading
  deriving DecidableEq, Repr

/-- A text before its first equals sign, and what stands behind it. -/
def splitEquals (cs : List Char) : List Char × Option (List Char) :=
  match cs.dropWhile (· ≠ '=') with
  | [] => (cs, none)
  | _ :: rest => (cs.takeWhile (· ≠ '='), some rest)

def isDigits (cs : List Char) : Bool := cs.all fun c => (Text.digit? c).isSome

/-- Whether a text is a minus before digits, possibly with a point that digits follow; a line feed at
the end does not count. -/
def isNegativeNumber : List Char → Bool
  | '-' :: cs =>
    let cs := if cs.getLast? = some '\n' then cs.dropLast else cs
    match cs.dropWhile (· ≠ '.') with
    | [] => !cs.isEmpty && isDigits cs
    | _ :: fraction => isDigits (cs.takeWhile (· ≠ '.')) && !fraction.isEmpty && isDigits fraction
  | _ => false

namespace Grammar

/-- The names that an argument may be short for: a long name by its beginning, and a short name by
itself and further characters. -/
def candidates (g : Grammar) (cs : List Char) : List (String × Reading) :=
  let isLong := cs.take 2 == ['-', '-']
  let (beginning, attached) := if isLong then splitEquals cs else (cs, none)
  g.names.filterMap fun (name, f) =>
    if !isLong && name.toList == cs.take 2 then
      some (name, .letters f (cs.drop 2))
    else if beginning.isPrefixOf name.toList then
      some (name, .flag f (attached.map String.ofList))
    else none

/-- What an argument that begins with a dash is read as. -/
def readDashed (g : Grammar) (s : String) : Except Problem Reading :=
  let (beginning, attached) := splitEquals s.toList
  let name := String.ofList beginning
  match g.named? s, attached, g.named? name with
  | some f, _, _ => .ok (.flag f none)
  | none, some value, some f => .ok (.flag f (some (String.ofList value)))
  | none, _, _ =>
    match g.candidates s.toList with
    | [] =>
      if isNegativeNumber s.toList || s.toList.contains ' ' then .ok .ordinary else .ok .unknown
    | [(_, reading)] => .ok reading
    | several => .error (.ambiguous s (several.map (·.1)))

/-- What an argument before the double dash is read as. -/
def readWord (g : Grammar) (s : String) : Except Problem Reading :=
  match s.toList with
  | '-' :: _ :: _ => g.readDashed s
  | _ => .ok .ordinary

/-- The words of a command line. -/
def readWords (g : Grammar) : List String → Except Problem (List Word)
  | [] => .ok []
  | s :: ss =>
    if s = "--" then .ok (⟨s, .separator⟩ :: ss.map fun t => ⟨t, .ordinary⟩)
    else
      match g.readWord s with
      | .error p => .error p
      | .ok reading =>
        match g.readWords ss with
        | .error p => .error p
        | .ok words => .ok (⟨s, reading⟩ :: words)

theorem readWords_separator (g : Grammar) (ss : List String) :
    g.readWords ("--" :: ss) = .ok (⟨"--", .separator⟩ :: ss.map fun t => ⟨t, .ordinary⟩) := by
  simp [readWords]

end Grammar

end Reckoner.CommandLine
