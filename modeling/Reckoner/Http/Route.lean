import Reckoner.Http.Path
import Reckoner.Text.UpperCase
/-!
Routes: what can be done at which place.

Each place is a path, one of them with the number of a calculation as its last segment, and has some
methods. A path that leads nowhere but for slashes at its end leads where it leads without them.

What is shown here: `Action.place_of?`, an action is done at its own place.
-/

namespace Reckoner.Http

/-- The places on the site. -/
inductive Place where
  | evaluate
  | history
  | archive
  | archived (number : List Char)
  | status
  deriving DecidableEq, Repr

namespace Place

/-- Whether a segment is a word; a line feed at its end does not count. -/
def isWord (segment : List Char) (word : String) : Bool :=
  segment == word.toList || segment == word.toList ++ ['\n']

/-- The place of a path, given by its segments. -/
def ofSegments? : List (List Char) → Option Place
  | [a, b] =>
    if a = "v1".toList ∧ isWord b "status" = true then some .status else none
  | [a, b, c] =>
    if a = "api".toList ∧ b = "calculator".toList then
      if isWord c "evaluate" then some .evaluate
      else if isWord c "history" then some .history
      else if isWord c "archive" then some .archive
      else none
    else none
  | [a, b, c, number] =>
    if a = "api".toList ∧ b = "calculator".toList ∧ c = "archive".toList ∧ number ≠ [] then
      some (.archived number)
    else none
  | _ => none

/-- Segments without the empty ones that slashes at the end make. -/
def withoutSlashes (segments : List (List Char)) : List (List Char) :=
  (segments.reverse.dropWhile (·.isEmpty)).reverse

/-- The place of a path. -/
def ofPath? (path : String) : Option Place :=
  let segments := Path.segments path
  match ofSegments? segments with
  | some place => some place
  | none => if segments.getLast? = some [] then ofSegments? (withoutSlashes segments) else none

end Place

/-- What can be asked of the site. -/
inductive Action where
  | evaluate
  | history
  | clearHistory
  | archive
  | save
  | delete (number : List Char)
  | status
  deriving DecidableEq, Repr

namespace Action

/-- What a method does at a place. -/
def of? (place : Place) (method : String) : Option Action :=
  match place, Text.upper method with
  | .evaluate, "POST" => some .evaluate
  | .history, "GET" => some .history
  | .history, "DELETE" => some .clearHistory
  | .archive, "GET" => some .archive
  | .archive, "POST" => some .save
  | .archived number, "DELETE" => some (.delete number)
  | .status, "GET" => some .status
  | _, _ => none

/-- Where an action is done. -/
def place : Action → Place
  | .evaluate => .evaluate
  | .history | .clearHistory => .history
  | .archive | .save => .archive
  | .delete number => .archived number
  | .status => .status

theorem place_of? {place : Place} {method : String} {action : Action}
    (h : of? place method = some action) : action.place = place := by
  unfold of? at h
  split at h <;> cases h <;> rfl

end Action

end Reckoner.Http
