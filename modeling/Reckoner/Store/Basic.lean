import Reckoner.Calendar.Timestamp
/-!
The store of calculations.

A store keeps rows in a table and the last number it has given out; a new row takes the next number,
which is never given out again. Each access is atomic: it looks at the table or changes it as a whole,
or fails and changes nothing.

What is shown here:
1. `Store.insert_rows`: a save adds one row, with the next number, and changes no other;
2. `Store.remove_subset`: a deletion only takes rows away.
-/

namespace Reckoner

/-- Where a saved calculation lives. -/
inductive Shelf where
  | history
  | archive
  deriving DecidableEq, Repr

namespace Shelf

def name : Shelf → String
  | .history => "HISTORY"
  | .archive => "ARCHIVE"

def ofName? (s : String) : Option Shelf :=
  if s = "HISTORY" then some .history else if s = "ARCHIVE" then some .archive else none

theorem ofName?_name (s : Shelf) : ofName? s.name = some s := by cases s <;> decide

end Shelf

/-- The columns that must not be empty. -/
inductive Column where
  | user
  | expression
  | result
  deriving DecidableEq, Repr

def Column.name : Column → String
  | .user => "user_id"
  | .expression => "expression"
  | .result => "result"

/-- Why an access to the store fails. -/
inductive StoreError where
  | closed
  | integerTooLarge
  | missing (column : Column)
  | dateOutOfRange
  | notAStore
  deriving DecidableEq, Repr

def StoreError.message : StoreError → String
  | .closed => "Cannot operate on a closed database."
  | .integerTooLarge => "Python int too large to convert to SQLite INTEGER"
  | .missing column => "NOT NULL constraint failed: calculation." ++ column.name
  | .dateOutOfRange => "date value out of range"
  | .notAStore => "file is not a database"

/-- A row of the table. The timestamp is kept as text. -/
structure Row where
  id : Nat
  user : Int
  expression : String
  result : String
  stamp : List Char
  shelf : Shelf
  deriving DecidableEq

/-- A saved calculation, as it is handed out. -/
structure Record where
  id : Nat
  user : Int
  expression : String
  result : String
  timestamp : Option Timestamp
  shelf : Shelf
  deriving DecidableEq

/-- A row as a record, its timestamp read back. -/
def Row.record (r : Row) : Record :=
  ⟨r.id, r.user, r.expression, r.result, Timestamp.ofText? r.stamp, r.shelf⟩

/-- Whether a row comes before another in a listing: later stamps first, compared as texts, and of
equal stamps greater numbers first. -/
def Row.notAfter (r s : Row) : Bool :=
  decide (s.stamp < r.stamp) || (decide (r.stamp = s.stamp) && decide (s.id ≤ r.id))

/-- The integers a column can hold: 64 bits with a sign. -/
def fitsColumn (n : Int) : Bool := decide (-9223372036854775808 ≤ n ∧ n ≤ 9223372036854775807)

/-- What a store holds. A durable store keeps its rows when it is closed and opened again. -/
structure Store where
  rows : List Row
  lastId : Nat
  isOpen : Bool
  durable : Bool
  deriving DecidableEq

/-- What is to be saved; a field that is not given is left empty. -/
structure Draft where
  user : Option Int
  expression : Option String
  result : Option String
  shelf : Shelf
  deriving DecidableEq

namespace Store

def new (durable : Bool) : Store := ⟨[], 0, true, durable⟩

/-- A durable store on a file that is not there yet or holds the given text, which only an empty text
can become. -/
def onFile : Option String → Except StoreError Store
  | none => .ok (new true)
  | some content => if content = "" then .ok (new true) else .error .notAStore

def close (s : Store) : Store := { s with isOpen := false }

/-- Closes the store if need be, and opens it again. -/
def reopen (s : Store) : Store := if s.durable then { s with isOpen := true } else new false

/-- Refuses integers that no column holds; an integer that is not given is held. -/
def checkIntegers (ns : List (Option Int)) : Except StoreError Unit :=
  if ns.all (fun n => n.all fitsColumn) then .ok () else .error .integerTooLarge

/-- Refuses every access to a closed store. -/
def checkOpen (s : Store) : Except StoreError Unit :=
  if s.isOpen then .ok () else .error .closed

/-- The row of a draft, if no column is left empty; the first empty column is reported. -/
def draftRow (id : Nat) (d : Draft) (t : Timestamp) : Except StoreError Row :=
  match d.user, d.expression, d.result with
  | none, _, _ => .error (.missing .user)
  | _, none, _ => .error (.missing .expression)
  | _, _, none => .error (.missing .result)
  | some user, some expression, some result =>
    .ok ⟨id, user, expression, result, t.storedText, d.shelf⟩

/-- Inserts a draft with the next number. -/
def insert (s : Store) (d : Draft) (t : Timestamp) : Except StoreError (Row × Store) := do
  s.checkOpen
  checkIntegers [d.user]
  let row ← draftRow (s.lastId + 1) d t
  .ok (row, { s with rows := s.rows ++ [row], lastId := s.lastId + 1 })

/-- The rows of a user on a shelf, newest first. An unnamed user has none. -/
def list (s : Store) (user : Option Int) (shelf : Shelf) : Except StoreError (List Row) := do
  s.checkOpen
  checkIntegers [user]
  .ok ((s.rows.filter fun r => some r.user == user && r.shelf == shelf).mergeSort Row.notAfter)

/-- The row with a number, if it belongs to the user. -/
def get? (s : Store) (id user : Option Int) : Except StoreError (Option Row) := do
  s.checkOpen
  checkIntegers [id, user]
  .ok (s.rows.find? fun r => some (r.id : Int) == id && some r.user == user)

/-- Removes the rows of a kind and tells how many there were. -/
def remove (s : Store) (p : Row → Bool) : Nat × Store :=
  ((s.rows.filter p).length, { s with rows := s.rows.filter fun r => !p r })

/-- Removes the row with a number, if there is one. -/
def delete (s : Store) (id : Option Int) : Except StoreError Store := do
  s.checkOpen
  checkIntegers [id]
  .ok (s.remove fun r => some (r.id : Int) == id).2

/-- Removes the rows of a user on a shelf and tells how many there were. -/
def deleteAll (s : Store) (user : Option Int) (shelf : Shelf) : Except StoreError (Nat × Store) := do
  s.checkOpen
  checkIntegers [user]
  .ok (s.remove fun r => some r.user == user && r.shelf == shelf)

def count (s : Store) : Except StoreError Nat := do
  s.checkOpen
  .ok s.rows.length

theorem insert_rows {s t : Store} {d : Draft} {stamp : Timestamp} {row : Row}
    (h : s.insert d stamp = .ok (row, t)) :
    t.rows = s.rows ++ [row] ∧ row.id = s.lastId + 1 ∧ t.lastId = s.lastId + 1 := by
  simp only [insert, checkOpen, checkIntegers, bind, Except.bind] at h
  split at h
  · cases h
  split at h
  · cases h
  split at h
  · cases h
  rename_i hrow
  cases h
  refine ⟨rfl, ?_, rfl⟩
  unfold draftRow at hrow
  split at hrow <;> cases hrow
  rfl

theorem remove_subset (s : Store) (p : Row → Bool) : ∀ r ∈ (s.remove p).2.rows, r ∈ s.rows :=
  fun _ h => (List.mem_filter.1 h).1

end Store

end Reckoner
