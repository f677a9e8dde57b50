import Reckoner.Proofs.Calendar.StoredText
import Reckoner.Proofs.Store.Table
import Reckoner.Store.Task
/-!
Saves.

A save puts a row into the table and hands out a record. The row keeps the timestamp as a text and the
record has it as it was given, or as the clock showed it; the two tell the same, since the text reads back.

What is shown here:
1. `Row.record_of_storedText`: a row whose stamp was written from a timestamp has that timestamp;
2. `Session.save_cases`: a save fails and leaves the store as it was, or adds one row and hands out its
   record;
3. `Session.perform_save_eq`: what a save to an open store puts in and hands out.
-/

namespace Reckoner

theorem Row.record_of_storedText {r : Row} {t : Timestamp} (h : r.stamp = t.storedText) :
    r.record = ⟨r.id, r.user, r.expression, r.result, some t, r.shelf⟩ := by
  rw [Row.record, h, Timestamp.ofText?_storedText]

namespace Session

/-- The timestamp of what is saved: the one that is given, or what the clock shows. -/
def stamp? (s : Session) (dated : Option Timestamp) : Option Timestamp := dated <|> s.clock.reading?

/-- The clock after a save: it is read where no timestamp is given. -/
def clockBehind (s : Session) (dated : Option Timestamp) : Clock :=
  if dated.isSome then s.clock else s.clock.tick

theorem perform_save_of_stamp {s : Session} {dated : Option Timestamp} {t : Timestamp}
    (h : s.stamp? dated = some t) (d : Draft) :
    s.perform (.save d dated) = ({ s with clock := s.clockBehind dated } : Session).saveAt d t := by
  cases dated with
  | some given =>
    obtain rfl : given = t := Option.some_inj.1 h
    rfl
  | none =>
    have hclock : s.clock.reading? = some t := h
    rw [perform, hclock]
    rfl

theorem perform_save_of_no_stamp {s : Session} {dated : Option Timestamp}
    (h : s.stamp? dated = none) (d : Draft) :
    s.perform (.save d dated) = (.error .dateOutOfRange, s.tick) := by
  cases dated with
  | some given => cases h
  | none =>
    have hclock : s.clock.reading? = none := h
    rw [perform, hclock]

theorem saveAt_cases (s : Session) (d : Draft) (t : Timestamp) :
    (∃ e, s.saveAt d t = (.error e, s)) ∨
      ∃ row : Row, d.user = some row.user ∧ d.expression = some row.expression ∧
        d.result = some row.result ∧ row.shelf = d.shelf ∧ row.id = s.store.lastId + 1 ∧
        s.saveAt d t = (.ok row.record, { s with store := s.store.add row }) := by
  rw [saveAt]
  rcases s.store.insert_cases d t with
    ⟨e, he⟩ | ⟨row, huser, hexpression, hresult, hshelf, hstamp, hid, hrow⟩
  · rw [he]
    exact .inl ⟨e, rfl⟩
  · have hrecord : ({ row.record with timestamp := some t } : Record) = row.record := by
      rw [row.record_of_storedText hstamp]
    rw [hrow]
    refine .inr ⟨row, huser, hexpression, hresult, hshelf, hid, ?_⟩
    simp only [hrecord]

/-- A save fails and leaves the store as it was, or adds one row and hands out its record. -/
theorem save_cases (s : Session) (d : Draft) (dated : Option Timestamp) :
    (∃ e t, s.perform (.save d dated) = (.error e, t) ∧ t.store = s.store) ∨
      ∃ row : Row, d.user = some row.user ∧ d.expression = some row.expression ∧
        d.result = some row.result ∧ row.shelf = d.shelf ∧ row.id = s.store.lastId + 1 ∧
        s.perform (.save d dated) = (.ok row.record, ⟨s.store.add row, s.clockBehind dated⟩) := by
  cases hstamp : s.stamp? dated with
  | none => exact .inl ⟨_, _, perform_save_of_no_stamp hstamp d, rfl⟩
  | some t =>
    rw [perform_save_of_stamp hstamp d]
    rcases saveAt_cases ({ s with clock := s.clockBehind dated } : Session) d t with
      ⟨e, he⟩ | ⟨row, huser, hexpression, hresult, hshelf, hid, hrow⟩
    · exact .inl ⟨e, _, he, rfl⟩
    · exact .inr ⟨row, huser, hexpression, hresult, hshelf, hid, hrow⟩

theorem saveAt_eq {s : Session} (hopen : s.store.isOpen = true) {user : Int}
    (huser : fitsColumn user = true) (expression result : String) (shelf : Shelf) (t : Timestamp) :
    s.saveAt ⟨user, expression, result, shelf⟩ t =
      (.ok ⟨s.store.lastId + 1, user, expression, result, some t, shelf⟩,
        { s with store :=
            s.store.add ⟨s.store.lastId + 1, user, expression, result, t.storedText, shelf⟩ }) := by
  have hinsert : s.store.insert ⟨user, expression, result, shelf⟩ t =
      .ok (⟨s.store.lastId + 1, user, expression, result, t.storedText, shelf⟩,
        s.store.add ⟨s.store.lastId + 1, user, expression, result, t.storedText, shelf⟩) := by
    rw [Store.insert, Store.checkOpen_eq hopen, Store.checkIntegers_eq (by simp [huser])]
    rfl
  rw [saveAt, hinsert]
  rfl

theorem perform_save_eq {s : Session} (hopen : s.store.isOpen = true) {user : Int}
    (huser : fitsColumn user = true) (expression result : String) (shelf : Shelf)
    {dated : Option Timestamp} {t : Timestamp} (ht : s.stamp? dated = some t) :
    s.perform (.save ⟨user, expression, result, shelf⟩ dated) =
      (.ok ⟨s.store.lastId + 1, user, expression, result, some t, shelf⟩,
        ⟨s.store.add ⟨s.store.lastId + 1, user, expression, result, t.storedText, shelf⟩,
          s.clockBehind dated⟩) := by
  rw [perform_save_of_stamp ht]
  have hstill : ({ s with clock := s.clockBehind dated } : Session).store.isOpen = true := hopen
  exact saveAt_eq hstill huser expression result shelf t

end Session

end Reckoner
