import Reckoner.Proofs.Service.Handling
/-!
One table, and a ledger for each user.

All users share the table of the store. Someone who only watches the requests and their answers can keep
a ledger for each user: what was calculated since the history was last cleared, and what was put into
the archive and not taken out again. The table and the ledgers stay in step.

What is shown here:
1. `Course.Kept.next`: a request keeps the table and the ledgers in step, whether it is granted or not;
2. `Service.course_kept`: so do any requests of any users in any order, from an empty store on.
-/

namespace Reckoner

/-- A request and its outcome. -/
structure Event where
  request : Request
  outcome : Except ServiceError Answer

/-- A granted request that saves answers with a record of what was asked for; one that deletes names a
user and a number. -/
def Event.Faithful (service : Service) (e : Event) : Prop :=
  match e.request, e.outcome with
  | .calculate user expression, .ok (.calculated r) =>
    user = some r.user ∧ expression = some r.expression ∧
      service.evaluate expression = .ok r.result ∧ r.shelf = .history
  | .calculate _ _, .ok _ => False
  | .archiveCalculation user expression result, .ok (.archived r) =>
    user = some r.user ∧ expression = some r.expression ∧ result = some r.result ∧
      r.shelf = .archive
  | .archiveCalculation _ _ _, .ok _ => False
  | .deleteArchived user id, .ok _ => user.isSome = true ∧ id.isSome = true
  | _, _ => True

/-- What is kept for one user: the records of the history and of the archive, oldest first. -/
structure Ledger where
  history : List Record
  archive : List Record

namespace Ledger

/-- The ledger of a user after an event. Only what is granted to that user changes it. -/
def after (user : Int) (l : Ledger) (e : Event) : Ledger :=
  match e.request, e.outcome with
  | .calculate (some v) _, .ok (.calculated r) =>
    if v = user then { l with history := l.history ++ [r] } else l
  | .archiveCalculation (some v) _ _, .ok (.archived r) =>
    if v = user then { l with archive := l.archive ++ [r] } else l
  | .deleteArchived (some v) (some id), .ok _ =>
    if v = user then { l with archive := l.archive.filter fun r => (r.id : Int) ≠ id } else l
  | .clearHistory (some v), .ok _ => if v = user then { l with history := [] } else l
  | _, _ => l

/-- The ledger of a user after some events. -/
def of (user : Int) (events : List Event) : Ledger := events.foldl (after user) ⟨[], []⟩

/-- The records on a shelf. -/
def on (l : Ledger) : Shelf → List Record
  | .history => l.history
  | .archive => l.archive

theorem of_append_singleton (user : Int) (events : List Event) (e : Event) :
    of user (events ++ [e]) = (of user events).after user e := by
  rw [of, List.foldl_append]
  rfl

theorem after_error (user : Int) (l : Ledger) (r : Request) (e : ServiceError) :
    l.after user ⟨r, .error e⟩ = l := by
  cases r with
  | calculate v _ => cases v <;> rfl
  | archiveCalculation v _ _ => cases v <;> rfl
  | deleteArchived v id => cases v <;> cases id <;> rfl
  | clearHistory v => cases v <;> rfl
  | history _ => rfl
  | archive _ => rfl
  | status => rfl

theorem after_calculated (user : Int) (l : Ledger) (expression : Option String) (row : Row)
    (hshelf : row.shelf = .history) (shelf : Shelf) :
    (l.after user ⟨.calculate (some row.user) expression, .ok (.calculated row.record)⟩).on shelf =
      l.on shelf ++ if row.isOf user shelf = true then [row.record] else [] := by
  simp only [Row.isOf_iff, hshelf]
  by_cases huser : row.user = user
  · cases shelf with
    | history => simp [after, on, huser]
    | archive => simp [after, on, huser]
  · simp [after, huser]

theorem after_archived (user : Int) (l : Ledger) (expression result : Option String) (row : Row)
    (hshelf : row.shelf = .archive) (shelf : Shelf) :
    (l.after user ⟨.archiveCalculation (some row.user) expression result,
        .ok (.archived row.record)⟩).on shelf =
      l.on shelf ++ if row.isOf user shelf = true then [row.record] else [] := by
  simp only [Row.isOf_iff, hshelf]
  by_cases huser : row.user = user
  · cases shelf with
    | history => simp [after, on, huser]
    | archive => simp [after, on, huser]
  · simp [after, huser]

end Ledger

/-- A run so far: what happened, and the session. -/
structure Course where
  events : List Event
  session : Session

namespace Course

/-- One more request. -/
def next (service : Service) (c : Course) (r : Request) : Course :=
  ⟨c.events ++ [⟨r, (service.handle c.session r).1⟩], (service.handle c.session r).2⟩

/-- The table of the store and the ledgers are in step. -/
structure Kept (service : Service) (c : Course) : Prop where
  isOpen : c.session.store.isOpen = true
  sound : c.session.store.Sound
  faithful : ∀ e ∈ c.events, e.Faithful service
  rows : ∀ user shelf,
    (c.session.store.onShelf user shelf).map Row.record = (Ledger.of user c.events).on shelf

end Course

/-- The course of some requests from a session on. -/
def Service.course (service : Service) (s : Session) (requests : List Request) : Course :=
  requests.foldl (Course.next service) ⟨[], s⟩

/-! ## One request -/

namespace Course.Kept
variable {service : Service} {c : Course} (h : c.Kept service)
include h

theorem faithful_append {e : Event} (he : e.Faithful service) :
    ∀ d ∈ c.events ++ [e], d.Faithful service := by
  intro d hd
  rcases List.mem_append.1 hd with hd | hd
  · exact h.faithful d hd
  · rw [List.mem_singleton.1 hd]
    exact he

theorem same {e : Event} {t : Session} (hstore : t.store = c.session.store)
    (he : e.Faithful service) (hafter : ∀ user l, Ledger.after user l e = l) :
    Kept service ⟨c.events ++ [e], t⟩ := by
  constructor
  · rw [hstore]
    exact h.isOpen
  · rw [hstore]
    exact h.sound
  · exact h.faithful_append he
  · intro user shelf
    rw [hstore, Ledger.of_append_singleton, hafter]
    exact h.rows user shelf

theorem refused {r : Request} {e : ServiceError} {t : Session}
    (hstore : t.store = c.session.store) : Kept service ⟨c.events ++ [⟨r, .error e⟩], t⟩ := by
  refine h.same hstore ?_ fun user l => Ledger.after_error user l r e
  cases r <;> trivial

theorem added {e : Event} {row : Row} {clock : Clock} (hid : row.id = c.session.store.lastId + 1)
    (he : e.Faithful service)
    (hafter : ∀ user l shelf, (Ledger.after user l e).on shelf =
      l.on shelf ++ if row.isOf user shelf = true then [row.record] else []) :
    Kept service ⟨c.events ++ [e], ⟨c.session.store.add row, clock⟩⟩ := by
  constructor
  · exact h.isOpen
  · exact h.sound.add hid
  · exact h.faithful_append he
  · intro user shelf
    rw [Store.onShelf_add, List.map_append, h.rows, Ledger.of_append_singleton, hafter]
    congr 1
    split <;> rfl

theorem removed {e : Event} {p : Row → Bool} (he : e.Faithful service)
    (hafter : ∀ user shelf, (Ledger.after user (Ledger.of user c.events) e).on shelf =
      ((c.session.store.onShelf user shelf).filter fun r => !p r).map Row.record) :
    Kept service ⟨c.events ++ [e], { c.session with store := (c.session.store.remove p).2 }⟩ := by
  constructor
  · exact h.isOpen
  · exact h.sound.remove p
  · exact h.faithful_append he
  · intro user shelf
    rw [Store.onShelf_remove, Ledger.of_append_singleton, hafter]

theorem next_calculate (user : Option Int) (expression : Option String) :
    (c.next service (.calculate user expression)).Kept service := by
  rw [Course.next, service.handle_calculate]
  cases hvalue : service.evaluate expression with
  | error e => exact h.refused rfl
  | ok result =>
    rcases c.session.perform_save_cases ⟨user, expression, some result, .history⟩ with
      ⟨e, t, hsave, hstore⟩ | ⟨row, huser, hexpression, hresult, hshelf, hid, hsave⟩
    · simp only [hsave]
      exact h.refused hstore
    · obtain rfl : user = some row.user := huser
      obtain rfl : result = row.result := Option.some_inj.1 hresult
      simp only [hsave]
      refine h.added hid ⟨rfl, hexpression, hvalue, hshelf⟩ fun user l shelf => ?_
      exact Ledger.after_calculated user l expression row hshelf shelf

theorem next_archiveCalculation (user : Option Int) (expression result : Option String) :
    (c.next service (.archiveCalculation user expression result)).Kept service := by
  rw [Course.next, service.handle_archiveCalculation]
  rcases c.session.perform_save_cases ⟨user, expression, result, .archive⟩ with
    ⟨e, t, hsave, hstore⟩ | ⟨row, huser, hexpression, hresult, hshelf, hid, hsave⟩
  · simp only [hsave]
    exact h.refused hstore
  · obtain rfl : user = some row.user := huser
    simp only [hsave]
    refine h.added hid ⟨rfl, hexpression, hresult, hshelf⟩ fun user l shelf => ?_
    exact Ledger.after_archived user l expression result row hshelf shelf

theorem next_listing (user : Option Int) (shelf : Shelf) :
    (c.next service (.listing user shelf)).Kept service := by
  rw [Course.next, service.handle_listing]
  cases c.session.store.list user shelf with
  | error e => exact h.refused rfl
  | ok rows => cases shelf <;> exact h.same rfl trivial fun _ _ => rfl

theorem next_status : (c.next service .status).Kept service := by
  rw [Course.next, service.handle_status]
  cases c.session.clock.reading? with
  | none => exact h.refused rfl
  | some t =>
    cases c.session.store.count with
    | error e => exact h.refused rfl
    | ok n => exact h.same rfl trivial fun _ _ => rfl

theorem rows_without {row : Row} (hrow : row ∈ c.session.store.rows) (user : Int) (shelf : Shelf) :
    ((c.session.store.onShelf user shelf).filter fun r => !r.hasId row.id).map Row.record =
      if row.user = user ∧ row.shelf = shelf then
        ((Ledger.of user c.events).on shelf).filter fun r => (r.id : Int) ≠ row.id
      else (Ledger.of user c.events).on shelf := by
  rw [← h.rows]
  by_cases hof : row.user = user ∧ row.shelf = shelf
  · rw [if_pos hof, List.filter_map]
    congr 2
    funext r
    rw [Function.comp_apply, Bool.eq_iff_iff, Bool.not_eq_true', ← Bool.not_eq_true, Row.hasId_iff,
      decide_eq_true_iff]
    rfl
  · rw [if_neg hof]
    congr 1
    refine List.filter_eq_self.2 fun r hr => ?_
    rw [Bool.not_eq_true', ← Bool.not_eq_true, Row.hasId_iff]
    intro hid
    -- a row with that number is the deleted one, and that belongs to another list
    obtain ⟨hmem, huser, hshelf⟩ := Store.mem_onShelf.1 hr
    obtain rfl := h.sound.eq_of_id hmem hrow (by omega)
    exact hof ⟨huser, hshelf⟩

theorem rows_without_shelf (v user : Int) (cleared shelf : Shelf) :
    ((c.session.store.onShelf user shelf).filter fun r => !r.isOf v cleared).map Row.record =
      if v = user ∧ cleared = shelf then [] else (Ledger.of user c.events).on shelf := by
  by_cases hof : v = user ∧ cleared = shelf
  · obtain ⟨rfl, rfl⟩ := hof
    rw [if_pos ⟨rfl, rfl⟩, List.map_eq_nil_iff, List.filter_eq_nil_iff]
    intro r hr
    rw [Bool.not_eq_true', Bool.not_eq_false, Row.isOf_iff]
    exact (Store.mem_onShelf.1 hr).2
  · rw [if_neg hof, ← h.rows]
    congr 1
    refine List.filter_eq_self.2 fun r hr => ?_
    rw [Bool.not_eq_true', ← Bool.not_eq_true, Row.isOf_iff]
    rintro ⟨rfl, rfl⟩
    exact hof (Store.mem_onShelf.1 hr).2

theorem next_deleteArchived (user id : Option Int) :
    (c.next service (.deleteArchived user id)).Kept service := by
  rw [Course.next, service.handle_deleteArchived]
  cases hfind : c.session.store.get? id user with
  | error e => exact h.refused rfl
  | ok found =>
    cases found with
    | none => exact h.refused rfl
    | some row =>
      obtain ⟨hrow, hid, huser⟩ := Store.mem_of_get? hfind
      subst hid huser
      cases hshelf : row.shelf with
      | history =>
        simp only [hshelf]
        exact h.refused rfl
      | archive =>
        simp only [hshelf]
        cases hdelete : c.session.store.delete (some row.id) with
        | error e => exact h.refused rfl
        | ok store =>
          obtain rfl := Store.eq_of_delete hdelete
          refine h.removed ⟨rfl, rfl⟩ fun user shelf => ?_
          rw [h.rows_without hrow]
          by_cases huser : row.user = user
          · cases shelf with
            | history => simp [Ledger.after, Ledger.on, huser, hshelf]
            | archive => simp [Ledger.after, Ledger.on, huser, hshelf]
          · simp [Ledger.after, huser]

theorem next_clearHistory (user : Option Int) :
    (c.next service (.clearHistory user)).Kept service := by
  rw [Course.next, service.handle_clearHistory]
  cases hclear : c.session.store.deleteAll user .history with
  | error e => exact h.refused rfl
  | ok cleared =>
    obtain ⟨n, store⟩ := cleared
    cases user with
    -- no row belongs to a user that is not named, so nothing is taken
    | none =>
      obtain rfl := Store.eq_of_deleteAll_none hclear
      exact h.same rfl trivial fun _ _ => rfl
    | some v =>
      obtain rfl := Store.eq_of_deleteAll hclear
      refine h.removed trivial fun user shelf => ?_
      rw [h.rows_without_shelf]
      by_cases huser : v = user
      · cases shelf with
        | history => simp [Ledger.after, Ledger.on, huser]
        | archive => simp [Ledger.after, Ledger.on, huser]
      · simp [Ledger.after, huser]

/-- A request keeps the table and the ledgers in step. -/
theorem next (r : Request) : (c.next service r).Kept service := by
  cases r with
  | calculate user expression => exact h.next_calculate user expression
  | archiveCalculation user expression result => exact h.next_archiveCalculation user expression result
  | history user => exact h.next_listing user .history
  | archive user => exact h.next_listing user .archive
  | deleteArchived user id => exact h.next_deleteArchived user id
  | clearHistory user => exact h.next_clearHistory user
  | status => exact h.next_status

theorem run (requests : List Request) : (requests.foldl (Course.next service) c).Kept service := by
  induction requests generalizing c with
  | nil => exact h
  | cons r requests ih => exact ih (h.next r)

end Course.Kept

theorem Service.course_kept (service : Service) {s : Session} (hopen : s.store.isOpen = true)
    (hempty : s.store.rows = []) (requests : List Request) :
    (service.course s requests).Kept service := by
  have hstart : Course.Kept service ⟨[], s⟩ := by
    constructor
    · exact hopen
    · exact .of_rows_nil hempty
    · intro e he
      cases he
    · intro user shelf
      have hnone : s.store.onShelf user shelf = [] := by
        rw [Store.onShelf, hempty, List.filter_nil]
      rw [hnone]
      cases shelf <;> rfl
  exact hstart.run requests

end Reckoner
