import Reckoner.Calendar.Clock
import Reckoner.Store.Basic
/-!
Tasks: what is done with a store, one atomic call after the other.

A task is a finished result, or a call and what to do with its answer. Running a task makes its calls
one after the other; between two calls of one task other tasks may make theirs, so a task says exactly
what may be interleaved.

What is shown here: `Session.perform_error_store`, a call that fails leaves the store as it was.
-/

namespace Reckoner

/-- An access to the store, or a look at the clock. -/
inductive Call where
  /-- A save; without a timestamp the clock is read. -/
  | save (draft : Draft) (dated : Option Timestamp)
  | list (user : Option Int) (shelf : Shelf)
  | find (id user : Option Int)
  | delete (id : Option Int)
  | deleteAll (user : Option Int) (shelf : Shelf)
  | count
  | now
  deriving DecidableEq

/-- What a call answers. -/
abbrev Call.Answer : Call → Type
  | .save _ _ => Record
  | .list _ _ => List Record
  | .find _ _ => Option Record
  | .delete _ => Unit
  | .deleteAll _ _ => Nat
  | .count => Nat
  | .now => Timestamp

/-- A store and the clock that dates what is saved. -/
structure Session where
  store : Store
  clock : Clock
  deriving DecidableEq

namespace Session

/-- The session after its clock has been read. -/
def tick (s : Session) : Session := { s with clock := s.clock.tick }

/-- Saves a draft with a timestamp; the record handed out carries that timestamp. -/
def saveAt (s : Session) (d : Draft) (t : Timestamp) : Except StoreError Record × Session :=
  match s.store.insert d t with
  | .ok (row, store) => (.ok { row.record with timestamp := some t }, { s with store := store })
  | .error e => (.error e, s)

/-- A call and the session after it. -/
def perform (s : Session) : (c : Call) → Except StoreError c.Answer × Session
  | .save d (some t) => s.saveAt d t
  | .save d none =>
    match s.clock.reading? with
    | some t => s.tick.saveAt d t
    | none => (.error .dateOutOfRange, s.tick)
  | .list user shelf => ((s.store.list user shelf).map (·.map Row.record), s)
  | .find id user => ((s.store.get? id user).map (·.map Row.record), s)
  | .delete id =>
    match s.store.delete id with
    | .ok store => (.ok (), { s with store := store })
    | .error e => (.error e, s)
  | .deleteAll user shelf =>
    match s.store.deleteAll user shelf with
    | .ok (n, store) => (.ok n, { s with store := store })
    | .error e => (.error e, s)
  | .count => (s.store.count, s)
  | .now =>
    match s.clock.reading? with
    | some t => (.ok t, s.tick)
    | none => (.error .dateOutOfRange, s.tick)

def close (s : Session) : Session := { s with store := s.store.close }

def reopen (s : Session) : Session := { s with store := s.store.reopen }

theorem saveAt_error_store {s t : Session} {d : Draft} {stamp : Timestamp} {e : StoreError}
    (h : s.saveAt d stamp = (.error e, t)) : t.store = s.store := by
  unfold saveAt at h
  split at h
  · cases h
  · cases h
    rfl

theorem perform_error_store {s t : Session} {c : Call} {e : StoreError}
    (h : s.perform c = (.error e, t)) : t.store = s.store := by
  cases c with
  | save d dated =>
    cases dated with
    | some stamp => exact saveAt_error_store h
    | none =>
      simp only [perform] at h
      split at h
      · have htick := saveAt_error_store h
        exact htick
      · cases h
        rfl
  | list user shelf =>
    have := congrArg Prod.snd h
    exact congrArg Session.store this.symm
  | find id user =>
    have := congrArg Prod.snd h
    exact congrArg Session.store this.symm
  | delete id =>
    simp only [perform] at h
    split at h
    · cases h
    · cases h
      rfl
  | deleteAll user shelf =>
    simp only [perform] at h
    split at h
    · cases h
    · cases h
      rfl
  | count =>
    have := congrArg Prod.snd h
    exact congrArg Session.store this.symm
  | now =>
    simp only [perform] at h
    split at h
    · cases h
    · cases h
      rfl

end Session

/-- A finished result, or a call and what follows from its answer. -/
inductive Task (ρ : Type) where
  | done (result : ρ)
  | call (c : Call) (next : Except StoreError c.Answer → Task ρ)

namespace Task

/-- Makes the calls of a task one after the other. -/
def run {ρ : Type} : Task ρ → Session → ρ × Session
  | .done r, s => (r, s)
  | .call c next, s => (next (s.perform c).1).run (s.perform c).2

/-- The calls of a task in a session, in order. -/
def calls {ρ : Type} : Task ρ → Session → List Call
  | .done _, _ => []
  | .call c next, s => c :: (next (s.perform c).1).calls (s.perform c).2

end Task

end Reckoner
