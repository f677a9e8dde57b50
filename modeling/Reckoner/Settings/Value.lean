import Reckoner.Settings.Scalar
/-!
Nodes of a settings document, and the values they stand for.

A node is what is written: a plain word, a quoted text, a list or a map of nodes. A value is what it
stands for: plain words have become scalars, and a map has scalar keys, each once.
-/

namespace Reckoner.Settings

inductive Node where
  | plain (word : List Char)
  | quoted (text : List Char)
  | list (items : List Node)
  | map (entries : List (Node × Node))

/-- Nothing written. -/
def Node.nothing : Node := .plain []

inductive Value where
  | scalar (s : Scalar)
  | list (items : List Value)
  | map (entries : List (Scalar × Value))

/-- Why a document has no value. -/
inductive DocumentFault where
  | malformed
  | numeral (fault : NumeralFault)
  deriving DecidableEq

namespace Value

mutual

/-- A value as it is shown to a reader. -/
def shown : Value → String
  | .scalar s => s.shown
  | .list [] => "[]"
  | .list (v :: vs) => "[" ++ shown v ++ shownItems vs ++ "]"
  | .map [] => "\x7b\x7d"
  | .map (e :: es) => "\x7b" ++ e.1.shown ++ ": " ++ shown e.2 ++ shownEntries es ++ "\x7d"

def shownItems : List Value → String
  | [] => ""
  | v :: vs => ", " ++ shown v ++ shownItems vs

def shownEntries : List (Scalar × Value) → String
  | [] => ""
  | e :: es => ", " ++ e.1.shown ++ ": " ++ shown e.2 ++ shownEntries es

end

/-- Whether a value says nothing, no, zero, or holds nothing. -/
def isVoid : Value → Bool
  | .scalar s => s.isVoid
  | .list vs => vs.isEmpty
  | .map es => es.isEmpty

/-- An entry put into a map: a key that is there keeps its place and takes the new value. -/
def put (key : Scalar) (value : Value) : List (Scalar × Value) → List (Scalar × Value)
  | [] => [(key, value)]
  | e :: es => if e.1.sameKey key then (e.1, value) :: es else e :: put key value es

/-- The words that a document may not use as plain scalars. -/
def reservedWords : List String := ["=", "<<"]

/-- What a plain word stands for. -/
def ofPlain (word : List Char) : Except DocumentFault Scalar :=
  if String.ofList word ∈ reservedWords then .error .malformed
  else
    match Scalar.ofPlain word with
    | .ok s => .ok s
    | .error e => .error (.numeral e)

/-- What a key stands for; only a scalar is one. -/
def keyOf : Node → Except DocumentFault Scalar
  | .plain ['='] => .ok (.text "=")
  | .plain word => ofPlain word
  | .quoted text => .ok (.text (String.ofList text))
  | _ => .error .malformed

mutual

/-- What a node stands for. -/
def ofNode : Node → Except DocumentFault Value
  | .plain word => (ofPlain word).map .scalar
  | .quoted text => .ok (.scalar (.text (String.ofList text)))
  | .list items => (ofItems items).map .list
  | .map entries => (ofEntries [] entries).map .map

def ofItems : List Node → Except DocumentFault (List Value)
  | [] => .ok []
  | n :: ns =>
    match ofNode n, ofItems ns with
    | .error e, _ => .error e
    | _, .error e => .error e
    | .ok v, .ok vs => .ok (v :: vs)

/-- The entries of a map put in one after the other, behind those given. -/
def ofEntries (done : List (Scalar × Value)) :
    List (Node × Node) → Except DocumentFault (List (Scalar × Value))
  | [] => .ok done
  | e :: es =>
    match keyOf e.1, ofNode e.2 with
    | .error e, _ => .error e
    | _, .error e => .error e
    | .ok key, .ok value => ofEntries (put key value done) es

end

end Value

end Reckoner.Settings
