import Reckoner.CommandLine.Word
import Reckoner.Text.WholeNumber
/-!
The arguments that a command line gives.

The words take effect in order. A flag that takes a value takes the one attached to it or the ordinary
word behind it. In a grammar with commands the first ordinary word is the command, and all words behind
it are left to that command. Whatever else there is is left over.

What is shown here: `Grammar.consume_ordinary`, without commands ordinary words are left over in order.
-/

namespace Reckoner.CommandLine

/-- What has been read of a command line: the flags in order with their values, the words left over,
and the command with the arguments left to it. -/
structure Arguments where
  given : List (Flag × Option String)
  extras : List String
  command : Option (String × List String)
  deriving DecidableEq, Repr

namespace Arguments

def empty : Arguments := ⟨[], [], none⟩

def leave (a : Arguments) (s : String) : Arguments := { a with extras := a.extras ++ [s] }

def give (a : Arguments) (f : Flag) (value : Option String) : Arguments :=
  { a with given := a.given ++ [(f, value)] }

/-- Whether a flag is given. -/
def has (a : Arguments) (name : String) : Bool := a.given.any fun e => e.1.names.contains name

/-- The value of a flag where it is given last. -/
def value? (a : Arguments) (name : String) : Option String :=
  (a.given.reverse.find? fun e => e.1.names.contains name).bind (·.2)

/-- The value of a flag as an integer. -/
def number? (a : Arguments) (name : String) : Option Int :=
  (a.value? name).bind fun s => Text.wholeNumber? s.toList

end Arguments

/-- Why a program ends over its command line. -/
inductive Stop where
  | help
  | problem (problem : Problem)
  deriving DecidableEq, Repr

namespace Grammar

/-- A flag without a value takes effect. -/
def act (a : Arguments) (f : Flag) : Except Stop Arguments :=
  if f.kind = .help then .error .help else .ok (a.give f none)

/-- A flag takes effect with a value. -/
def accept (a : Arguments) (f : Flag) (value : String) : Except Stop Arguments :=
  if f.kind = .number ∧ Text.wholeNumber? value.toList = none then
    .error (.problem (.notAnInteger f value))
  else .ok (a.give f (some value))

/-- Short flags without a value written together: the flags, and what is left over behind a letter that
is no such flag. -/
def together (g : Grammar) (f : Flag) : List Char → Except Problem (List Flag × Option String)
  | [] => .ok ([f], none)
  | '=' :: cs => .error (.ignoredValue f (String.ofList cs))
  | '-' :: cs => .error (.ignoredValue f (String.ofList ('-' :: cs)))
  | c :: cs =>
    match (g.named? (String.ofList ['-', c])).filter (!·.takesValue) with
    | none => .ok ([f], some (String.ofList ('-' :: c :: cs)))
    | some next => (g.together next cs).map fun r => (f :: r.1, r.2)

/-- A short flag takes effect with the characters behind its letter: its value, or further flags. -/
def actTogether (g : Grammar) (a : Arguments) (f : Flag) (rest : List Char) : Except Stop Arguments :=
  if f.takesValue then accept a f (String.ofList rest)
  else
    match g.together f rest with
    | .error p => .error (.problem p)
    | .ok (flags, left) => flags.foldlM act (left.elim a a.leave)

/-- The words take effect one after the other. -/
def consume (g : Grammar) (a : Arguments) : List Word → Except Stop Arguments
  | [] => .ok a
  | w :: ws =>
    match w.reading with
    | .ordinary =>
      if g.commands.isEmpty then g.consume (a.leave w.text) ws
      else if g.commands.contains w.text then
        .ok { a with command := some (w.text, ws.map (·.text)) }
      else .error (.problem (.noSuchCommand w.text g.commands))
    | .separator =>
      if g.commands.isEmpty || ws.isEmpty then g.consume (a.leave w.text) ws
      else .error (.problem (.noSuchCommand w.text g.commands))
    | .unknown => g.consume (a.leave w.text) ws
    | .letters f rest =>
      match g.actTogether a f rest with
      | .ok a => g.consume a ws
      | .error stop => .error stop
    | .flag f (some value) =>
      if f.takesValue then
        match accept a f value with
        | .ok a => g.consume a ws
        | .error stop => .error stop
      else .error (.problem (.ignoredValue f value))
    | .flag f none =>
      if f.takesValue then
        match ws with
        | ⟨value, .ordinary⟩ :: rest =>
          match accept a f value with
          | .ok a => g.consume a rest
          | .error stop => .error stop
        | _ => .error (.problem (.missingValue f))
      else
        match act a f with
        | .ok a => g.consume a ws
        | .error stop => .error stop

/-- The arguments of a command line. -/
def parse (g : Grammar) (arguments : List String) : Except Stop Arguments :=
  match g.readWords arguments with
  | .error p => .error (.problem p)
  | .ok words => g.consume .empty words

/-- The arguments of a command line that may leave nothing over. -/
def parseAll (g : Grammar) (arguments : List String) : Except Stop Arguments :=
  match g.parse arguments with
  | .error stop => .error stop
  | .ok a => if a.extras.isEmpty then .ok a else .error (.problem (.unrecognized a.extras))

theorem consume_ordinary {g : Grammar} (h : g.commands = []) (a : Arguments) (ss : List String) :
    g.consume a (ss.map fun s => ⟨s, .ordinary⟩) = .ok { a with extras := a.extras ++ ss } := by
  induction ss generalizing a with
  | nil => simp [consume]
  | cons s ss ih => simp [consume, h, ih, Arguments.leave]

end Grammar

end Reckoner.CommandLine
