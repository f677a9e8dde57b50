import Reckoner.Binary64.Layout
import Reckoner.Json.Basic
import Reckoner.Text.Quoted
/-!
Values as they are shown to a reader: the words True, False and None, quoted texts, and lists and
records with a blank after each comma and colon. A text that stands alone is shown without quotes.
-/

namespace Reckoner.Json

mutual

/-- The shown form of a value inside a list or a record. -/
def shown : Json → String
  | .null => "None"
  | .bool true => "True"
  | .bool false => "False"
  | .int n => Text.integerText n
  | .float x => x.text
  | .str s => Text.quoted s
  | .illFormed => Text.quoted "\uFFFD"
  | .arr [] => "[]"
  | .arr (v :: vs) => "[" ++ shown v ++ shownItems vs ++ "]"
  | .obj [] => "\x7b\x7d"
  | .obj (f :: fs) =>
    "\x7b" ++ Text.quoted f.1 ++ ": " ++ shown f.2 ++ shownFields fs ++ "\x7d"

def shownItems : List Json → String
  | [] => ""
  | v :: vs => ", " ++ shown v ++ shownItems vs

def shownFields : List (String × Json) → String
  | [] => ""
  | f :: fs => ", " ++ Text.quoted f.1 ++ ": " ++ shown f.2 ++ shownFields fs

end

/-- A value read as a text: a text is itself, and any other value is its shown form. -/
def asText : Json → String
  | .str s => s
  | v => shown v

end Reckoner.Json
