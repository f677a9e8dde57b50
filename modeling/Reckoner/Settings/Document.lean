import Reckoner.Settings.Inline
import Reckoner.Text.Line
/-!
Settings documents.

A document is a list, a map, or one node, laid out in lines: the items of a list stand behind dashes,
the entries of a map behind keys and colons, and what belongs to an item or an entry is indented more
than it. Lines that are blank or hold a comment do not count, a plain word may go on in further lines,
and the document may stand between the marks of its start and its end.
-/

namespace Reckoner.Settings

/-- A line: the spaces before it and what stands behind them. -/
structure Line where
  indent : Nat
  text : List Char
  deriving DecidableEq

namespace Line

def ofText (cs : List Char) : Line := ⟨(cs.takeWhile (· == ' ')).length, skipSpaces cs⟩

def isComment (l : Line) : Bool := l.text.head? == some '#'

/-- Whether a line counts: it is neither blank nor a comment. -/
def counts (l : Line) : Bool := !isRestBlank l.text

/-- Whether a line at the left edge begins with a mark of three characters. -/
def isMarkedBy (mark : List Char) (l : Line) : Bool :=
  l.indent == 0 && l.text.take 3 == mark && breaksHere (l.text.drop 3)

def isStart (l : Line) : Bool := l.isMarkedBy ['-', '-', '-']

def isEnd (l : Line) : Bool := l.isMarkedBy ['.', '.', '.']

/-- Whether a line begins with the dash of an item. -/
def isItem (l : Line) : Bool := l.text.head? == some '-' && breaksHere l.text.tail

end Line

/-- The lines from the first that counts. -/
def skipLines (ls : List Line) : List Line := ls.dropWhile fun l => !l.counts

/-! ## Single nodes -/

/-- What stands between the parts of a plain word on two lines: a space, or a line feed for each blank
line between them. -/
def fold (blanks : Nat) : List Char := if blanks = 0 then [' '] else List.replicate blanks '\n'

/-- A plain word continued on lines with at least the given indentation; `none` if one of them holds
more than words and a comment. -/
def continuePlain (least : Nat) (word : List Char) (blanks : Nat) :
    List Line → Option (List Char × List Line)
  | [] => some (word, [])
  | l :: ls =>
    if l.text.isEmpty then continuePlain least word (blanks + 1) ls
    else if l.isComment || l.indent < least then some (word, l :: ls)
    else
      let part := takePlain false false l.text
      let word := word ++ fold blanks ++ trimSpaces part.1
      if part.2.isEmpty then continuePlain least word 0 ls
      else if part.2.head? = some '#' then some (word, ls)
      else none

/-- The node that begins with a text and, if it is a plain word, goes on in the lines below. -/
def readSingleNode (least : Nat) (cs : List Char) (ls : List Line) : Option (Node × List Line) :=
  match Node.read cs with
  | none => none
  | some (.plain word, []) => (continuePlain least word 0 ls).map fun r => (.plain r.1, r.2)
  | some (n, rest) => if isRestBlank rest then some (n, ls) else none

/-! ## Lists and maps -/

mutual

/-- The node that begins on the first line that counts, which is indented by at least so much. -/
def readBlock : Nat → Nat → List Line → Option (Node × List Line)
  | 0, _, _ => none
  | fuel + 1, least, ls =>
    match skipLines ls with
    | [] => none
    | l :: ls =>
      if l.indent < least then none
      else if l.isItem then
        (readItemLines fuel l.indent (l :: ls)).map fun r => (.list r.1, r.2)
      else if (Node.readKey l.text).isSome then
        (readEntryLines fuel l.indent (l :: ls)).map fun r => (.map r.1, r.2)
      else readSingleNode least l.text ls

/-- The items at an indentation. What stands behind a dash counts as a line of its own. -/
def readItemLines : Nat → Nat → List Line → Option (List Node × List Line)
  | 0, _, _ => none
  | fuel + 1, indent, ls =>
    match skipLines ls with
    | [] => some ([], [])
    | l :: ls =>
      if l.indent = indent ∧ l.isItem = true then
        let item :=
          if isRestBlank l.text.tail then readBelow fuel indent ls
          else
            let inner := Line.ofText l.text.tail
            readBlock fuel (indent + 1) (⟨indent + 1 + inner.indent, inner.text⟩ :: ls)
        match item with
        | none => none
        | some (n, ls) => (readItemLines fuel indent ls).map fun r => (n :: r.1, r.2)
      else some ([], l :: ls)

/-- The entries at an indentation. A list below a key may stand at the indentation of the key. -/
def readEntryLines : Nat → Nat → List Line → Option (List (Node × Node) × List Line)
  | 0, _, _ => none
  | fuel + 1, indent, ls =>
    match skipLines ls with
    | [] => some ([], [])
    | l :: ls =>
      if l.indent = indent then
        match Node.readKey l.text with
        | none => some ([], l :: ls)
        | some (key, rest) =>
          let value :=
            if !isRestBlank rest then readSingleNode (indent + 1) (skipSpaces rest) ls
            else
              match skipLines ls with
              | m :: _ =>
                if m.indent = indent ∧ m.isItem = true then
                  (readItemLines fuel indent ls).map fun r => (.list r.1, r.2)
                else readBelow fuel indent ls
              | [] => some (.nothing, [])
          match value with
          | none => none
          | some (n, ls) => (readEntryLines fuel indent ls).map fun r => ((key, n) :: r.1, r.2)
      else some ([], l :: ls)

/-- The node in the lines below that are indented more than what it belongs to, if there is one. -/
def readBelow : Nat → Nat → List Line → Option (Node × List Line)
  | 0, _, _ => none
  | fuel + 1, indent, ls =>
    match skipLines ls with
    | [] => some (.nothing, [])
    | l :: ls =>
      if indent < l.indent then readBlock fuel (indent + 1) (l :: ls)
      else some (.nothing, l :: ls)

end

/-! ## Whole documents -/

/-- The characters a document may hold. -/
def isDocumentChar (c : Char) : Bool :=
  Text.inRanges [(0x09, 0x0A), (0x0D, 0x0D), (0x20, 0x7E), (0x85, 0x85), (0xA0, 0xD7FF),
    (0xE000, 0xFFFD), (0x10000, 0x10FFFF)] c.toNat

def isLineEnd (c : Char) : Bool := c == '\n' || c == '\u0085' || c == '\u2028' || c == '\u2029'

/-- The lines of a text, which may begin with a byte order mark. -/
def linesOf (cs : List Char) : List Line :=
  let cs := match cs with
    | '\uFEFF' :: rest => rest
    | _ => cs
  (Text.split isLineEnd (Text.unifyLineEnds cs)).map Line.ofText

/-- The node in lines without marks; no line that counts may be left over. -/
def readBody (fuel : Nat) (ls : List Line) : Option Node :=
  if (skipLines ls).isEmpty then some .nothing
  else
    match readBlock fuel 0 ls with
    | some (n, rest) => if (skipLines rest).isEmpty then some n else none
    | none => none

/-- The node behind a mark of the start, on the same line or below it. -/
def readMarked (fuel : Nat) (cs : List Char) (ls : List Line) : Option Node :=
  if isRestBlank cs then readBody fuel ls
  else
    match readSingleNode 0 (skipSpaces cs) ls with
    | some (n, rest) => if (skipLines rest).isEmpty then some n else none
    | none => none

/-- The node of a document: its lines up to the first mark of an end, with at most one mark of the
start, before all that counts. An end has to be the end of something.

Only a part of the language of such documents is read: lists and maps in indented lines, or between brackets
and braces on one line, of quoted texts on one line and of plain words, with comments. Tags, anchors and
references to them, keys behind a question mark, texts in blocks behind a bar or an angle bracket, directives,
and quoted texts, brackets and braces that go on in further lines are refused as malformed. -/
def Node.ofDocument? (cs : List Char) : Option Node :=
  if !cs.all isDocumentChar then none
  else
    let fuel := 6 * (cs.length + 2)
    let ls := linesOf cs
    let body := ls.takeWhile fun l => !l.isEnd
    let after := ls.dropWhile fun l => !l.isEnd
    if !after.all (fun l => !l.counts || (l.isEnd && isRestBlank (l.text.drop 3))) then none
    else
      match skipLines body with
      | [] => if after.isEmpty then some .nothing else none
      | l :: below =>
        if (if l.isStart then below else l :: below).any Line.isStart then none
        else if l.isStart then readMarked fuel (l.text.drop 3) below
        else readBody fuel (l :: below)

/-- What a document stands for. -/
def valueOf (document : String) : Except DocumentFault Value :=
  match Node.ofDocument? document.toList with
  | some n => Value.ofNode n
  | none => .error .malformed

end Reckoner.Settings
