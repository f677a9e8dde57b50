import Reckoner.Proofs.Store.Saving
import Reckoner.Service.Request
/-!
What a service does with a session, request by request.

A request is a task, and a task makes its calls one after the other. Here each request is carried out as
a whole: one equation tells its answer and the session after it by the accesses to the store.

What is shown here:
1. `Session.perform_save_cases`: a save fails and leaves the store as it was, or adds one row and hands
   out its record;
2. `Service.handle_calculate`, `Service.handle_archiveCalculation`, `Service.handle_listing`,
   `Service.handle_deleteArchived`, `Service.handle_clearHistory`, `Service.handle_status`: the requests;
3. `Service.handle_calculate_cases`, `Service.handle_archiveCalculation_cases`,
   `Service.handle_deleteArchived_cases`, `Service.handle_clearHistory_cases`: everything that a request
   which changes the table can do to it.
-/

namespace Reckoner

namespace Session

/-- A save dated by the clock fails and leaves the store as it was, or adds one row and hands out its
record. -/
theorem perform_save_cases (s : Session) (d : Draft) :
    (∃ e t, s.perform (.save d none) = (.error e, t) ∧ t.store = s.store) ∨
      ∃ row : Row, d.user = some row.user ∧ d.expression = some row.expression ∧
        d.result = some row.result ∧ row.shelf = d.shelf ∧ row.id = s.store.lastId + 1 ∧
        s.perform (.save d none) = (.ok row.record, ⟨s.store.add row, s.clock.tick⟩) :=
  s.save_cases d none

end Session

/-- The request for a user's records on a shelf. -/
def Request.listing (user : Option Int) : Shelf → Request
  | .history => .history user
  | .archive => .archive user

namespace Service
variable (service : Service) (s : Session)

theorem handle_calculate (user : Option Int) (expression : Option String) :
    service.handle s (.calculate user expression) =
      match service.evaluate expression with
      | .error e => (.error e, s)
      | .ok result =>
        match s.perform (.save ⟨user, expression, some result, .history⟩ none) with
        | (.ok record, t) => (.ok (.calculated record), t)
        | (.error e, t) => (.error (.store e), t) := by
  rw [handle, Request.task, calculate, Task.run_map]
  cases service.evaluate expression with
  | error e => rfl
  | ok result =>
    simp only [Errand.ask, Task.run]
    cases s.perform (.save ⟨user, expression, some result, .history⟩ none) with
    | mk outcome t => cases outcome <;> rfl

theorem handle_archiveCalculation (user : Option Int) (expression result : Option String) :
    service.handle s (.archiveCalculation user expression result) =
      match s.perform (.save ⟨user, expression, result, .archive⟩ none) with
      | (.ok record, t) => (.ok (.archived record), t)
      | (.error e, t) => (.error (.store e), t) := by
  rw [handle, Request.task]
  simp only [Errand.ask, Task.run]
  cases s.perform (.save ⟨user, expression, result, .archive⟩ none) with
  | mk outcome t => cases outcome <;> rfl

/-- A calculation is refused and leaves the store as it was, or adds one row to the history and answers
with its record. -/
theorem handle_calculate_cases (user : Option Int) (expression : Option String) :
    (∃ e t, service.handle s (.calculate user expression) = (.error e, t) ∧ t.store = s.store) ∨
      ∃ row : Row, user = some row.user ∧ expression = some row.expression ∧
        service.evaluate expression = .ok row.result ∧ row.shelf = .history ∧
        row.id = s.store.lastId + 1 ∧
        service.handle s (.calculate user expression) =
          (.ok (.calculated row.record), ⟨s.store.add row, s.clock.tick⟩) := by
  rw [handle_calculate]
  cases hvalue : service.evaluate expression with
  | error e => exact .inl ⟨e, s, rfl, rfl⟩
  | ok result =>
    rcases s.perform_save_cases ⟨user, expression, some result, .history⟩ with
      ⟨e, t, hsave, hstore⟩ | ⟨row, huser, hexpression, hresult, hshelf, hid, hsave⟩
    · refine .inl ⟨.store e, t, ?_, hstore⟩
      simp only [hsave]
    · obtain rfl : result = row.result := Option.some_inj.1 hresult
      refine .inr ⟨row, huser, hexpression, rfl, hshelf, hid, ?_⟩
      simp only [hsave]

theorem handle_archiveCalculation_cases (user : Option Int) (expression result : Option String) :
    (∃ e t, service.handle s (.archiveCalculation user expression result) = (.error e, t) ∧
        t.store = s.store) ∨
      ∃ row : Row, user = some row.user ∧ expression = some row.expression ∧
        result = some row.result ∧ row.shelf = .archive ∧ row.id = s.store.lastId + 1 ∧
        service.handle s (.archiveCalculation user expression result) =
          (.ok (.archived row.record), ⟨s.store.add row, s.clock.tick⟩) := by
  rw [handle_archiveCalculation]
  rcases s.perform_save_cases ⟨user, expression, result, .archive⟩ with
    ⟨e, t, hsave, hstore⟩ | ⟨row, huser, hexpression, hresult, hshelf, hid, hsave⟩
  · refine .inl ⟨.store e, t, ?_, hstore⟩
    simp only [hsave]
  · refine .inr ⟨row, huser, hexpression, hresult, hshelf, hid, ?_⟩
    simp only [hsave]

theorem run_list (user : Option Int) (shelf : Shelf) :
    (Errand.ask (.list user shelf) fun rs => .grant (.records rs) : Errand Answer).run s =
      match s.store.list user shelf with
      | .ok rows => (.ok (.records (rows.map Row.record)), s)
      | .error e => (.error (.store e), s) := by
  simp only [Errand.ask, Task.run, Session.perform]
  cases s.store.list user shelf <;> rfl

theorem handle_listing (user : Option Int) (shelf : Shelf) :
    service.handle s (.listing user shelf) =
      match s.store.list user shelf with
      | .ok rows => (.ok (.records (rows.map Row.record)), s)
      | .error e => (.error (.store e), s) := by
  cases shelf with
  | history => exact run_list s user .history
  | archive => exact run_list s user .archive

theorem handle_listing_session (user : Option Int) (shelf : Shelf) :
    (service.handle s (.listing user shelf)).2 = s := by
  rw [handle_listing]
  cases s.store.list user shelf <;> rfl

theorem handle_deleteArchived (user id : Option Int) :
    service.handle s (.deleteArchived user id) =
      match s.store.get? id user with
      | .error e => (.error (.store e), s)
      | .ok none => (.error .notFound, s)
      | .ok (some row) =>
        match row.shelf with
        | .history => (.error .notArchived, s)
        | .archive =>
          match s.store.delete id with
          | .ok store => (.ok .deleted, { s with store := store })
          | .error e => (.error (.store e), s) := by
  rw [handle, Request.task, deleteArchived, Task.run_map]
  simp only [Errand.ask, Task.run, Session.perform]
  cases s.store.get? id user with
  | error e => rfl
  | ok found =>
    cases found with
    | none => rfl
    | some row =>
      obtain ⟨_, _, _, _, _, shelf⟩ := row
      cases shelf with
      | history => rfl
      | archive =>
        simp only [Except.map, Option.map_some, Row.record, Task.run, Session.perform]
        cases s.store.delete id <;> rfl

/-- A deletion is refused and leaves the session as it was, or takes out the row that it has found in the
archive of the user. -/
theorem handle_deleteArchived_cases (user id : Option Int) :
    (∃ e, service.handle s (.deleteArchived user id) = (.error e, s)) ∨
      ∃ row ∈ s.store.rows, user = some row.user ∧ id = some (row.id : Int) ∧ row.shelf = .archive ∧
        service.handle s (.deleteArchived user id) =
          (.ok .deleted, { s with store := (s.store.remove (Row.hasId row.id)).2 }) := by
  rw [handle_deleteArchived]
  cases hfind : s.store.get? id user with
  | error e => exact .inl ⟨.store e, rfl⟩
  | ok found =>
    cases found with
    | none => exact .inl ⟨.notFound, rfl⟩
    | some row =>
      cases hshelf : row.shelf with
      | history =>
        refine .inl ⟨.notArchived, ?_⟩
        simp only [hshelf]
      | archive =>
        simp only [hshelf]
        cases hdelete : s.store.delete id with
        | error e => exact .inl ⟨.store e, rfl⟩
        | ok t =>
          obtain ⟨hrow, rfl, rfl⟩ := Store.mem_of_get? hfind
          obtain rfl := Store.eq_of_delete hdelete
          exact .inr ⟨row, hrow, rfl, rfl, hshelf, rfl⟩

theorem handle_deleteArchived_error {s : Session} {user id : Option Int} {e : ServiceError}
    (h : (service.handle s (.deleteArchived user id)).1 = .error e) :
    (service.handle s (.deleteArchived user id)).2 = s := by
  rcases service.handle_deleteArchived_cases s user id with
    ⟨d, hhandle⟩ | ⟨row, -, -, -, -, hhandle⟩
  · rw [hhandle]
  · rw [hhandle] at h
    cases h

theorem handle_clearHistory (user : Option Int) :
    service.handle s (.clearHistory user) =
      match s.store.deleteAll user .history with
      | .ok (n, store) => (.ok (.cleared n), { s with store := store })
      | .error e => (.error (.store e), s) := by
  rw [handle, Request.task]
  simp only [Errand.ask, Task.run, Session.perform]
  cases s.store.deleteAll user .history <;> rfl

/-- A history is not cleared and the session is left as it was, or the rows of the user on that shelf are
taken out; an unnamed user has none. -/
theorem handle_clearHistory_cases (user : Option Int) :
    (∃ e, service.handle s (.clearHistory user) = (.error e, s)) ∨
      (∃ n, user = none ∧ service.handle s (.clearHistory user) = (.ok (.cleared n), s)) ∨
      ∃ n u, user = some u ∧ service.handle s (.clearHistory user) =
        (.ok (.cleared n), { s with store := (s.store.remove (Row.isOf u .history)).2 }) := by
  rw [handle_clearHistory]
  cases hclear : s.store.deleteAll user .history with
  | error e => exact .inl ⟨.store e, rfl⟩
  | ok cleared =>
    obtain ⟨n, t⟩ := cleared
    cases user with
    | none =>
      obtain rfl := Store.eq_of_deleteAll_none hclear
      exact .inr (.inl ⟨n, rfl, rfl⟩)
    | some u =>
      obtain rfl := Store.eq_of_deleteAll hclear
      exact .inr (.inr ⟨n, u, rfl, rfl⟩)

theorem handle_status :
    service.handle s .status =
      match s.clock.reading? with
      | none => (.error (.store .dateOutOfRange), s.tick)
      | some t =>
        match s.store.count with
        | .ok n => (.ok (.status ⟨t, service.location, n, service.limit⟩), s.tick)
        | .error e => (.error (.store e), s.tick) := by
  rw [handle, Request.task, report, Task.run_map]
  simp only [Errand.ask, Task.run, Session.perform]
  cases s.clock.reading? with
  | none => rfl
  | some t =>
    simp only [Task.run, Session.perform, Session.tick]
    cases s.store.count <;> rfl

theorem handle_status_store : (service.handle s .status).2.store = s.store := by
  rw [handle_status]
  cases s.clock.reading? with
  | none => rfl
  | some t =>
    simp only
    cases s.store.count <;> rfl

end Service

end Reckoner
