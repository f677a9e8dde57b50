import Reckoner.Settings.Document
import Reckoner.Settings.Rule
import Reckoner.Text.Blank
import Reckoner.Text.UpperCase
/-!
Settings.

Each of five keys takes its value from a variable of the environment, else from the entries of a
document, else from the defaults. A document may have no other keys, and each value has to keep the
rule of its key. Of several faults one is reported: a document that cannot be read, then a variable
that is no integer, then keys that do not exist, then the last key, by name, whose value breaks its
rule.

What is shown here: `merged_of_variable`, a variable that is set hides what the document says.
-/

namespace Reckoner

namespace Settings

inductive Key where
  | dbPath
  | maxExpressionLength
  | logLevel
  | host
  | port
  deriving DecidableEq

namespace Key

/-- The keys in the order in which variables are examined. -/
def all : List Key := [.dbPath, .maxExpressionLength, .logLevel, .host, .port]

def name : Key → String
  | .dbPath => "db_path"
  | .maxExpressionLength => "max_expression_length"
  | .logLevel => "log_level"
  | .host => "host"
  | .port => "port"

/-- The variable of the environment that sets a key. -/
def variableName (k : Key) : String := "CALCSERVE_" ++ Text.upper k.name

end Key

/-- The variable that says which document is read. -/
def documentVariable : String := "CALCSERVE_CONFIG"

/-- Why there are no settings. -/
inductive Failure where
  | malformed
  | numeral (fault : NumeralFault)
  | notAMapping
  | notAnInteger (key : Key) (text : String)
  | unknownKeys (shown : List String)
  | violation (cause : Violation)
  deriving DecidableEq

/-- What kind of failure a caller meets: the document cannot be read, or it has been and a value is bad. -/
inductive Failure.Kind where
  | unreadable
  | badValue
  deriving DecidableEq

def Failure.kind : Failure → Failure.Kind
  | .malformed => .unreadable
  | _ => .badValue

/-- A message about a document with the given name. The reader's own words about a document it cannot
read are not told. -/
def Failure.message (document : String) : Failure → String
  | .malformed => "Invalid settings in " ++ document ++ ": malformed document"
  | .numeral fault => fault.message
  | .notAMapping => "Invalid settings in " ++ document ++ ": expected a mapping"
  | .notAnInteger key text =>
    key.variableName ++ " must be an integer, got " ++ Text.quoted text
  | .unknownKeys shown =>
    "Invalid settings in " ++ document ++ ": Additional properties are not allowed (" ++
      ", ".intercalate shown ++ (if shown.length = 1 then " was" else " were") ++ " unexpected)"
  | .violation cause => "Invalid settings in " ++ document ++ ": " ++ cause.message

/-! ## The three sources -/

/-- Where nothing else is said. -/
def default : Key → Value
  | .dbPath => .scalar (.text ".calc/calc.db")
  | .maxExpressionLength => .scalar (.number (.whole 500))
  | .logLevel => .scalar (.text "INFO")
  | .host => .scalar (.text "0.0.0.0")
  | .port => .scalar (.number (.whole 8000))

/-- The entries of a document. One that says nothing has none. -/
def entriesOf (document : String) : Except Failure (List (Scalar × Value)) :=
  match valueOf document with
  | .error .malformed => .error .malformed
  | .error (.numeral fault) => .error (.numeral fault)
  | .ok v =>
    if v.isVoid then .ok []
    else
      match v with
      | .map entries => .ok entries
      | _ => .error .notAMapping

/-- What entries say for a key. -/
def fromDocument? (entries : List (Scalar × Value)) (k : Key) : Option Value :=
  (entries.find? fun e => e.1 == .text k.name).map (·.2)

/-- The keys of entries that are none of the five, as they are shown, in the order of their texts. -/
def unknownKeys (entries : List (Scalar × Value)) : List String :=
  let unknown := (entries.map (·.1)).filter fun s => Key.all.all fun k => s != .text k.name
  (unknown.mergeSort fun s t => !decide (t.bare < s.bare)).map Scalar.shown

/-- The variables of an environment by name. -/
abbrev Environment := String → Option String

/-- The text of a variable without the blanks around it, unless nothing is left. -/
def Environment.filled? (env : Environment) (name : String) : Option String :=
  match env name with
  | some s => if Text.isBlankText s then none else some (String.ofList (Text.trim s.toList))
  | none => none

/-- The value of a key as the text of a variable; `none` for a text that is no integer where one is
asked for. -/
def Key.valueOfText? (k : Key) (text : String) : Option Value :=
  match k with
  | .maxExpressionLength | .port =>
    (Text.wholeNumber? text.toList).map fun n => .scalar (.number (.whole n))
  | .logLevel => some (.scalar (.text (Text.upper text)))
  | .dbPath | .host => some (.scalar (.text text))

/-- What the environment says for a key. -/
def fromEnvironment? (env : Environment) (k : Key) : Option Value :=
  (env.filled? k.variableName).bind k.valueOfText?

/-- The first variable whose text is no value of its key. -/
def badVariable? (env : Environment) : Option (Key × String) :=
  Key.all.findSome? fun k =>
    match env.filled? k.variableName with
    | some text => if (k.valueOfText? text).isNone then some (k, text) else none
    | none => none

/-- The value that counts for a key. -/
def merged (entries : List (Scalar × Value)) (env : Environment) (k : Key) : Value :=
  match fromEnvironment? env k with
  | some v => v
  | none => (fromDocument? entries k).getD (default k)

theorem merged_of_variable {entries : List (Scalar × Value)} {env : Environment} {k : Key} {v : Value}
    (h : fromEnvironment? env k = some v) : merged entries env k = v := by
  simp [merged, h]

end Settings

/-- The settings of a service. A number keeps the form in which it was given. -/
structure Settings where
  dbPath : String
  maxExpressionLength : Quantity
  logLevel : String
  host : String
  port : Quantity
  deriving DecidableEq

namespace Settings

/-- The severities that may be set. -/
def logLevels : List String := ["DEBUG", "INFO", "WARNING", "ERROR", "CRITICAL"]

/-- Settings with every value checked by the rule of its key, the last key by name first. -/
def ofValues (value : Key → Value) : Except Violation Settings := do
  let port ← Rule.wholeNumber 1 (some 65535) (value .port)
  let maxExpressionLength ← Rule.wholeNumber 1 none (value .maxExpressionLength)
  let logLevel ← Rule.oneOf logLevels (value .logLevel)
  let host ← Rule.nonEmpty (value .host)
  let dbPath ← Rule.nonEmpty (value .dbPath)
  return ⟨dbPath, maxExpressionLength, logLevel, host, port⟩

/-- Settings from the entries of a document, an environment and the defaults. -/
def ofEntries (entries : List (Scalar × Value)) (env : Environment) : Except Failure Settings :=
  match badVariable? env with
  | some (key, text) => .error (.notAnInteger key text)
  | none =>
    match unknownKeys entries with
    | [] =>
      match ofValues (merged entries env) with
      | .ok settings => .ok settings
      | .error cause => .error (.violation cause)
    | shown => .error (.unknownKeys shown)

/-- Settings from a document, if there is one, an environment and the defaults. -/
def load (document : Option String) (env : Environment) : Except Failure Settings :=
  match document with
  | none => ofEntries [] env
  | some text =>
    match entriesOf text with
    | .ok entries => ofEntries entries env
    | .error e => .error e

def toJson (s : Settings) : Json :=
  .obj [("db_path", .str s.dbPath), ("max_expression_length", s.maxExpressionLength.toJson),
    ("log_level", .str s.logLevel), ("host", .str s.host), ("port", s.port.toJson)]

end Settings

end Reckoner
