import Reckoner.Proofs.Service.Ledger
/-!
The service answers as the ledgers say.

Whatever was asked before, a listing shows the ledger of its user, a deletion takes one row or is refused
for a reason that the table shows, clearing a history tells how long it was, and the rows that are
counted are those of all ledgers together.

What is shown here:
1. `Course.Kept.handle_listing`, `Course.Kept.handle_deleteArchived_archive`,
   `Course.Kept.handle_clearHistory`, `Course.Kept.handle_status`: the answers while table and ledgers
   are in step;
2. `Service.course_honours`: the answers after every course from an empty store.
-/

namespace Reckoner

/-! ## One answer -/

namespace Course.Kept
variable {service : Service} {c : Course} (h : c.Kept service)
include h

theorem handle_listing {user : Int} (shelf : Shelf) (huser : fitsColumn user = true) :
    ∃ records, service.handle c.session (.listing (some user) shelf) =
        (.ok (.records records), c.session) ∧
      records.Perm ((Ledger.of user c.events).on shelf) ∧ (records.map Record.id).Nodup := by
  have hperm := List.mergeSort_perm (c.session.store.onShelf user shelf) Row.notAfter
  refine ⟨((c.session.store.onShelf user shelf).mergeSort Row.notAfter).map Row.record, ?_, ?_, ?_⟩
  · rw [service.handle_listing, Store.list_eq h.isOpen shelf huser]
  · rw [← h.rows]
    exact hperm.map Row.record
  · exact h.sound.nodup_listing user shelf

theorem handle_clearHistory {user : Int} (huser : fitsColumn user = true) :
    service.handle c.session (.clearHistory (some user)) =
      (.ok (.cleared (Ledger.of user c.events).history.length),
        { c.session with store := (c.session.store.remove (Row.isOf user .history)).2 }) := by
  have hlength := congrArg List.length (h.rows user .history)
  rw [List.length_map] at hlength
  rw [service.handle_clearHistory, Store.deleteAll_eq h.isOpen .history huser]
  simp only [hlength, Ledger.on]

section Deletion
variable {user id : Int} (huser : fitsColumn user = true) (hid : fitsColumn id = true)
include huser hid

theorem handle_deleteArchived_absent
    (habsent : ¬∃ row ∈ c.session.store.rows, (row.id : Int) = id ∧ row.user = user) :
    service.handle c.session (.deleteArchived (some user) (some id)) =
      (.error .notFound, c.session) := by
  have hfind : c.session.store.rows.find?
      (fun r => r.hasId id && some r.user == some user) = none := by
    refine List.find?_eq_none.2 fun r hr => ?_
    rw [Bool.and_eq_true, Row.hasId_iff, beq_iff_eq, Option.some_inj]
    intro hboth
    exact habsent ⟨r, hr, hboth⟩
  rw [service.handle_deleteArchived, Store.get?_eq h.isOpen hid huser, hfind]

section Present
variable {row : Row} (hrow : row ∈ c.session.store.rows) (hrowId : (row.id : Int) = id)
  (hrowUser : row.user = user)
include hrow hrowId hrowUser

theorem handle_deleteArchived_history (hshelf : row.shelf = .history) :
    service.handle c.session (.deleteArchived (some user) (some id)) =
      (.error .notArchived, c.session) := by
  have hfind := h.sound.find?_eq_some_iff.2 ⟨hrow, hrowId, hrowUser⟩
  rw [service.handle_deleteArchived, Store.get?_eq h.isOpen hid huser, hfind]
  simp only [hshelf]

theorem handle_deleteArchived_archive (hshelf : row.shelf = .archive) :
    service.handle c.session (.deleteArchived (some user) (some id)) =
      (.ok .deleted,
        { c.session with store := (c.session.store.remove (Row.hasId id)).2 }) := by
  have hfind := h.sound.find?_eq_some_iff.2 ⟨hrow, hrowId, hrowUser⟩
  rw [service.handle_deleteArchived, Store.get?_eq h.isOpen hid huser, hfind]
  simp only [hshelf, Store.delete_eq h.isOpen hid]

end Present

end Deletion

theorem finsum_ledgers :
    (Function.support fun user => (Ledger.of user c.events).history.length +
        (Ledger.of user c.events).archive.length).Finite ∧
      ∑ᶠ user, ((Ledger.of user c.events).history.length +
        (Ledger.of user c.events).archive.length) = c.session.store.rows.length := by
  have hlength : ∀ user shelf, ((Ledger.of user c.events).on shelf).length =
      (c.session.store.onShelf user shelf).length := by
    intro user shelf
    rw [← h.rows, List.length_map]
  have hledgers : (fun user => (Ledger.of user c.events).history.length +
        (Ledger.of user c.events).archive.length) =
      fun user => (c.session.store.onShelf user .history).length +
        (c.session.store.onShelf user .archive).length := by
    funext user
    exact congrArg₂ (· + ·) (hlength user .history) (hlength user .archive)
  rw [hledgers]
  exact c.session.store.finsum_length_onShelf

theorem handle_status :
    service.handle c.session .status =
      match c.session.clock.reading? with
      | none => (.error (.store .dateOutOfRange), c.session.tick)
      | some t =>
        (.ok (.status ⟨t, service.location,
          ∑ᶠ user, ((Ledger.of user c.events).history.length +
            (Ledger.of user c.events).archive.length), service.limit⟩), c.session.tick) := by
  rw [service.handle_status]
  cases c.session.clock.reading? with
  | none => rfl
  | some t => simp only [Store.count_eq h.isOpen, h.finsum_ledgers.2]

end Course.Kept

/-! ## Every answer -/

/-- The service answers every request by the ledgers of the users and the rows of the table. -/
structure Service.Honours (service : Service) (c : Course) : Prop where
  /-- A ledger is made of what was asked for and granted. -/
  faithful : ∀ e ∈ c.events, e.Faithful service
  /-- The rows of a user on a shelf are the records of the ledger. -/
  rows : ∀ user shelf,
    (c.session.store.onShelf user shelf).map Row.record = (Ledger.of user c.events).on shelf
  history : ∀ user, fitsColumn user = true →
    ∃ records, service.handle c.session (.history (some user)) =
        (.ok (.records records), c.session) ∧
      records.Perm (Ledger.of user c.events).history ∧ (records.map Record.id).Nodup
  archive : ∀ user, fitsColumn user = true →
    ∃ records, service.handle c.session (.archive (some user)) =
        (.ok (.records records), c.session) ∧
      records.Perm (Ledger.of user c.events).archive ∧ (records.map Record.id).Nodup
  notFound : ∀ user id, fitsColumn user = true → fitsColumn id = true →
    ((service.handle c.session (.deleteArchived (some user) (some id))).1 = .error .notFound ↔
      ¬∃ row ∈ c.session.store.rows, (row.id : Int) = id ∧ row.user = user)
  notArchived : ∀ user id, fitsColumn user = true → fitsColumn id = true →
    ((service.handle c.session (.deleteArchived (some user) (some id))).1 = .error .notArchived ↔
      ∃ row ∈ c.session.store.rows, (row.id : Int) = id ∧ row.user = user ∧ row.shelf = .history)
  /-- A deletion that is refused changes nothing. -/
  refused : ∀ user id e, (service.handle c.session (.deleteArchived user id)).1 = .error e →
    (service.handle c.session (.deleteArchived user id)).2 = c.session
  /-- One row is taken and all others stay, in all other cases. -/
  deleted : ∀ user id, fitsColumn user = true → fitsColumn id = true →
    ∀ row ∈ c.session.store.rows, (row.id : Int) = id → row.user = user → row.shelf = .archive →
      ∃ before after, c.session.store.rows = before ++ row :: after ∧
        service.handle c.session (.deleteArchived (some user) (some id)) =
          (.ok .deleted,
            { c.session with store := { c.session.store with rows := before ++ after } })
  cleared : ∀ user, fitsColumn user = true →
    ∃ t, service.handle c.session (.clearHistory (some user)) =
        (.ok (.cleared (Ledger.of user c.events).history.length), t) ∧
      ∀ v, (service.handle t (.archive v)).1 = (service.handle c.session (.archive v)).1
  /-- The stored calculations are those of all users together. -/
  status : (Function.support fun user => (Ledger.of user c.events).history.length +
      (Ledger.of user c.events).archive.length).Finite ∧
    service.handle c.session .status =
      match c.session.clock.reading? with
      | none => (.error (.store .dateOutOfRange), c.session.tick)
      | some t =>
        (.ok (.status ⟨t, service.location,
          ∑ᶠ user, ((Ledger.of user c.events).history.length +
            (Ledger.of user c.events).archive.length), service.limit⟩), c.session.tick)

theorem Course.Kept.honours {service : Service} {c : Course} (h : c.Kept service) :
    service.Honours c where
  faithful := h.faithful
  rows := h.rows
  history _ huser := h.handle_listing .history huser
  archive _ huser := h.handle_listing .archive huser
  notFound user id huser hid := by
    constructor
    · rintro hanswer ⟨row, hrow, hrowId, hrowUser⟩
      cases hshelf : row.shelf with
      | history =>
        rw [h.handle_deleteArchived_history huser hid hrow hrowId hrowUser hshelf] at hanswer
        cases hanswer
      | archive =>
        rw [h.handle_deleteArchived_archive huser hid hrow hrowId hrowUser hshelf] at hanswer
        cases hanswer
    · intro hrow
      rw [h.handle_deleteArchived_absent huser hid hrow]
  notArchived user id huser hid := by
    constructor
    · intro hanswer
      by_cases hrow : ∃ row ∈ c.session.store.rows, (row.id : Int) = id ∧ row.user = user
      · obtain ⟨row, hrow, hrowId, hrowUser⟩ := hrow
        cases hshelf : row.shelf with
        | history => exact ⟨row, hrow, hrowId, hrowUser, hshelf⟩
        | archive =>
          rw [h.handle_deleteArchived_archive huser hid hrow hrowId hrowUser hshelf] at hanswer
          cases hanswer
      · rw [h.handle_deleteArchived_absent huser hid hrow] at hanswer
        cases hanswer
    · rintro ⟨row, hrow, hrowId, hrowUser, hshelf⟩
      rw [h.handle_deleteArchived_history huser hid hrow hrowId hrowUser hshelf]
  refused user id e hanswer := service.handle_deleteArchived_error hanswer
  deleted user id huser hid row hrow hrowId hrowUser hshelf := by
    obtain ⟨before, after, hrows, hremove⟩ := h.sound.exists_remove_id hrow
    refine ⟨before, after, hrows, ?_⟩
    rw [h.handle_deleteArchived_archive huser hid hrow hrowId hrowUser hshelf, ← hrowId, hremove]
  cleared user huser := by
    refine ⟨_, h.handle_clearHistory huser, fun v => ?_⟩
    show (service.handle _ (.listing v .archive)).1 = (service.handle _ (.listing v .archive)).1
    rw [service.handle_listing, service.handle_listing, Store.list_archive_remove]
    cases c.session.store.list v .archive <;> rfl
  status := ⟨h.finsum_ledgers.1, h.handle_status⟩

/-- After any requests of any users in any order, from an open store without rows on, the requests are
answered as the ledgers say. -/
theorem Service.course_honours (service : Service) {s : Session} (hopen : s.store.isOpen = true)
    (hempty : s.store.rows = []) (requests : List Request) :
    service.Honours (service.course s requests) :=
  (service.course_kept hopen hempty requests).honours

/-- Two users fill their archives, and each asks for the first row to be deleted: its owner is granted
it, the other is not. -/
theorem course_honours_of_two_users :
    let service : Service := ⟨.whole 500, ":memory:"⟩
    let s : Session := ⟨.new false, ⟨0, 1⟩⟩
    let requests : List Request :=
      [.archiveCalculation (some 1) (some "2+3") (some "5"),
        .archiveCalculation (some 2) (some "1/2") (some "0.5"),
        .deleteArchived (some 2) (some 1), .deleteArchived (some 1) (some 1)]
    s.store.isOpen = true ∧ s.store.rows = [] ∧ service.Honours (service.course s requests) ∧
      (Ledger.of 1 (service.course s requests).events).archive = [] ∧
      (Ledger.of 2 (service.course s requests).events).archive.map Record.expression = ["1/2"] := by
  refine ⟨rfl, rfl, Service.course_honours _ rfl rfl _, ?_, ?_⟩
  · decide +kernel
  · decide +kernel

end Reckoner
