import Reckoner.Json.Basic
import Reckoner.Service.Request
/-!
Answers as JSON values.

A record has two orders of fields: owner second where records are handed out directly, and owner last
where they are sent over HTTP.
-/

namespace Reckoner

def Timestamp.toJson (t : Timestamp) : Json := .str (String.ofList t.text)

namespace Record

def stampJson (r : Record) : Json :=
  match r.timestamp with
  | some t => t.toJson
  | none => .null

def toJson (r : Record) : Json :=
  .obj [("id", .int r.id), ("user_id", .int r.user), ("expression", .str r.expression),
    ("result", .str r.result), ("timestamp", r.stampJson), ("type", .str r.shelf.name)]

/-- What is told of a calculation to the user who asked for it. -/
def briefFields (r : Record) : List (String × Json) :=
  [("id", .int r.id), ("expression", .str r.expression), ("result", .str r.result),
    ("timestamp", r.stampJson)]

def toBriefJson (r : Record) : Json := .obj r.briefFields

/-- A record as it is sent: the brief fields first. -/
def toSentJson (r : Record) : Json :=
  .obj (r.briefFields ++ [("user_id", .int r.user), ("type", .str r.shelf.name)])

end Record

def Status.toJson (s : Status) : Json :=
  .obj [("status", .str "running"), ("timestamp", s.timestamp.toJson),
    ("database_path", .str s.location), ("calculations_stored", .int s.stored),
    ("max_expression_length", s.limit.toJson)]

/-- An answer handed out directly. -/
def Answer.toJson : Answer → Json
  | .calculated r => r.toBriefJson
  | .records rs => .arr (rs.map Record.toJson)
  | .archived r => r.toJson
  | .deleted => .null
  | .cleared n => .int n
  | .status s => s.toJson

end Reckoner
