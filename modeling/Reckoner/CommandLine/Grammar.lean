/-!
Grammars of command lines.

A grammar has flags, some of which take a value, and possibly commands. A flag is given by its name, by
an unambiguous beginning of a long name, or together with its value behind an equals sign. Behind a
double dash no argument is a flag.

What is shown here: `Grammar.named_mem`, a flag found by its name is one of the grammar and has that
name.
-/

namespace Reckoner.CommandLine

/-- What a flag does: it asks for help, it is a mark that is there or not, or it takes a value. -/
inductive FlagKind where
  | help
  | mark
  | text
  | number
  deriving DecidableEq, Repr

/-- A flag and its names, a short one being a dash and a letter. -/
structure Flag where
  names : List String
  kind : FlagKind
  deriving DecidableEq, Repr

namespace Flag

def takesValue (f : Flag) : Bool :=
  match f.kind with
  | .text | .number => true
  | .help | .mark => false

/-- All names of a flag, as it is called in messages. -/
def title (f : Flag) : String := "/".intercalate f.names

def askHelp : Flag := ⟨["-h", "--help"], .help⟩

end Flag

/-- What a program says of its command line: the line that shows its use, the description that follows
it in the help, its flags, and its commands if it has any. -/
structure Grammar where
  program : String
  usage : String
  description : String
  flags : List Flag
  commands : List String

namespace Grammar

/-- The flag with a name. -/
def named? (g : Grammar) (name : String) : Option Flag := g.flags.find? (·.names.contains name)

/-- Every name of a flag, with the flag. -/
def names (g : Grammar) : List (String × Flag) :=
  g.flags.flatMap fun f => f.names.map fun n => (n, f)

def help (g : Grammar) : String := g.usage ++ "\n" ++ g.description

theorem named_mem {g : Grammar} {name : String} {f : Flag} (h : g.named? name = some f) :
    f ∈ g.flags ∧ name ∈ f.names := by
  refine ⟨List.mem_of_find?_eq_some h, ?_⟩
  simpa using List.find?_some h

end Grammar

end Reckoner.CommandLine
