import Reckoner.Proofs.Service.Handling
import Reckoner.Proofs.Store.Numbering
/-!
What users notice of each other.

All users share one table and one sequence of numbers. Two stores are the same to a user when they hold the
same rows of the user, whatever else they hold. A request of anybody else leaves the store the same to the
user; and stores that are the same to the user answer the user the same, and stay so.

What is shown here:
1. `Store.SameTo.list_eq`, `Store.SameTo.get?_eq`, `Store.SameTo.delete`, `Store.SameTo.deleteAll`: the
   accesses to stores that are the same to a user;
2. `Service.sameTo_handle`: a request of anybody else leaves the store the same to the user;
3. `Service.handle_sameTo`: a user is answered the same from stores that are the same to the user;
4. `Service.isolates`: so no user notices anything of the others, in any session that can come about.
-/

namespace Reckoner

namespace Store

/-- Two stores are the same to a user: both are open or both closed, and they hold the same rows of the
user. -/
structure SameTo (user : Option Int) (s t : Store) : Prop where
  isOpen : s.isOpen = t.isOpen
  rows : ∀ r : Row, some r.user = user → (r ∈ s.rows ↔ r ∈ t.rows)

namespace SameTo
variable {user : Option Int} {s t : Store}

theorem refl (user : Option Int) (s : Store) : s.SameTo user s := ⟨rfl, fun _ _ => Iff.rfl⟩

theorem of_add (s : Store) {row : Row} (h : some row.user ≠ user) : s.SameTo user (s.add row) := by
  refine ⟨rfl, fun r hr => ⟨List.mem_append_left _, ?_⟩⟩
  intro hmem
  rcases List.mem_append.1 hmem with hmem | hmem
  · exact hmem
  · obtain rfl := List.mem_singleton.1 hmem
    exact absurd hr h

theorem of_remove (s : Store) {p : Row → Bool}
    (h : ∀ r ∈ s.rows, p r = true → some r.user ≠ user) : s.SameTo user (s.remove p).2 := by
  refine ⟨rfl, fun r hr => ⟨?_, s.remove_subset p r⟩⟩
  intro hmem
  refine List.mem_filter.2 ⟨hmem, ?_⟩
  cases hp : p r with
  | true => exact absurd hr (h r hmem hp)
  | false => rfl

theorem remove (h : s.SameTo user t) (p : Row → Bool) :
    (s.remove p).2.SameTo user (t.remove p).2 := by
  refine ⟨h.isOpen, fun r hr => ?_⟩
  simp only [Store.remove, List.mem_filter, h.rows r hr]

theorem checkOpen_eq (h : s.SameTo user t) : s.checkOpen = t.checkOpen := by
  rw [checkOpen, checkOpen, h.isOpen]

section Numbered
variable (h : s.SameTo user t) (hs : s.Numbered) (ht : t.Numbered)
include h hs ht

theorem filter_shelf_eq (shelf : Shelf) :
    (s.rows.filter fun r => some r.user == user && r.shelf == shelf) =
      t.rows.filter fun r => some r.user == user && r.shelf == shelf :=
  hs.filter_eq ht fun r hr => h.rows r (eq_of_beq (Bool.and_eq_true_iff.1 hr).1)

theorem filter_id_eq (id : Option Int) :
    (s.rows.filter fun r => some (r.id : Int) == id && some r.user == user) =
      t.rows.filter fun r => some (r.id : Int) == id && some r.user == user :=
  hs.filter_eq ht fun r hr => h.rows r (eq_of_beq (Bool.and_eq_true_iff.1 hr).2)

theorem list_eq (shelf : Shelf) : s.list user shelf = t.list user shelf := by
  rw [list, list, h.checkOpen_eq, h.filter_shelf_eq hs ht]

theorem get?_eq (id : Option Int) : s.get? id user = t.get? id user := by
  rw [get?, get?, h.checkOpen_eq, ← List.head?_filter, ← List.head?_filter, h.filter_id_eq hs ht]

omit hs ht in
/-- A deletion by number fails in both stores, or leaves both the same to the user. -/
theorem delete (id : Option Int) :
    (∃ e, s.delete id = .error e ∧ t.delete id = .error e) ∨
      ∃ s' t', s.delete id = .ok s' ∧ t.delete id = .ok t' ∧ s'.SameTo user t' := by
  rw [Store.delete, Store.delete, h.checkOpen_eq]
  cases t.checkOpen with
  | error e => exact .inl ⟨e, rfl, rfl⟩
  | ok opened =>
    cases checkIntegers [id] with
    | error e => exact .inl ⟨e, rfl, rfl⟩
    | ok held => exact .inr ⟨_, _, rfl, rfl, h.remove _⟩

/-- So does a deletion of all rows of the user on a shelf, which takes as many from both. -/
theorem deleteAll (shelf : Shelf) :
    (∃ e, s.deleteAll user shelf = .error e ∧ t.deleteAll user shelf = .error e) ∨
      ∃ n s' t', s.deleteAll user shelf = .ok (n, s') ∧ t.deleteAll user shelf = .ok (n, t') ∧
        s'.SameTo user t' := by
  rw [Store.deleteAll, Store.deleteAll, h.checkOpen_eq]
  cases t.checkOpen with
  | error e => exact .inl ⟨e, rfl, rfl⟩
  | ok opened =>
    cases checkIntegers [user] with
    | error e => exact .inl ⟨e, rfl, rfl⟩
    | ok held =>
      refine .inr ⟨_, _, _, rfl, ?_, h.remove _⟩
      rw [h.filter_shelf_eq hs ht]
      rfl

end Numbered

end SameTo

end Store

/-! ## Requests by their users -/

namespace Request

/-- Whether a request is made in the name of a user. A report is in nobody's. -/
def IsOf (user : Option Int) : Request → Prop
  | .calculate u _ | .history u | .archive u | .archiveCalculation u _ _ | .deleteArchived u _
  | .clearHistory u => u = user
  | .status => False

/-- What a user may ask about rows that are there already. -/
inductive Inquiry (user : Option Int) : Request → Prop
  | listing (shelf : Shelf) : Inquiry user (.listing user shelf)
  | deleteArchived (id : Option Int) : Inquiry user (.deleteArchived user id)
  | clearHistory : Inquiry user (.clearHistory user)

end Request

namespace Service
variable (service : Service)

/-- A request of anybody else leaves the store the same to a user. -/
theorem sameTo_handle {s : Session} (hs : s.store.Numbered) {user : Option Int} {r : Request}
    (hr : ¬ r.IsOf user) : s.store.SameTo user (service.handle s r).2.store := by
  cases r with
  | calculate u expression =>
    rcases service.handle_calculate_cases s u expression with
      ⟨e, t, hhandle, hstore⟩ | ⟨row, rfl, -, -, -, -, hhandle⟩
    · rw [hhandle, hstore]
      exact .refl user s.store
    · rw [hhandle]
      exact .of_add s.store hr
  | archiveCalculation u expression result =>
    rcases service.handle_archiveCalculation_cases s u expression result with
      ⟨e, t, hhandle, hstore⟩ | ⟨row, rfl, -, -, -, -, hhandle⟩
    · rw [hhandle, hstore]
      exact .refl user s.store
    · rw [hhandle]
      exact .of_add s.store hr
  | history u =>
    have hsame : (service.handle s (.history u)).2 = s := service.handle_listing_session s u .history
    rw [hsame]
    exact .refl user s.store
  | archive u =>
    have hsame : (service.handle s (.archive u)).2 = s := service.handle_listing_session s u .archive
    rw [hsame]
    exact .refl user s.store
  | deleteArchived u id =>
    rcases service.handle_deleteArchived_cases s u id with
      ⟨e, hhandle⟩ | ⟨row, hrow, rfl, rfl, -, hhandle⟩
    · rw [hhandle]
      exact .refl user s.store
    · rw [hhandle]
      apply Store.SameTo.of_remove
      intro q hq hid
      -- only the row that was found has that number, and it is of the other user
      have hnumber := Row.hasId_iff.1 hid
      obtain rfl := hs.sound.eq_of_id hq hrow (by omega)
      exact hr
  | clearHistory u =>
    rcases service.handle_clearHistory_cases s u with
      ⟨e, hhandle⟩ | ⟨n, -, hhandle⟩ | ⟨n, v, rfl, hhandle⟩
    · rw [hhandle]
      exact .refl user s.store
    · rw [hhandle]
      exact .refl user s.store
    · rw [hhandle]
      apply Store.SameTo.of_remove
      intro q hq hof
      rw [(Row.isOf_iff.1 hof).1]
      exact hr
  | status =>
    rw [handle_status_store]
    exact .refl user s.store

/-- A user is answered the same from stores that are the same to the user, and they stay so. -/
theorem handle_sameTo {s t : Session} {user : Option Int} (h : s.store.SameTo user t.store)
    (hs : s.store.Numbered) (ht : t.store.Numbered) {q : Request} (hq : q.Inquiry user) :
    (service.handle s q).1 = (service.handle t q).1 ∧
      (service.handle s q).2.store.SameTo user (service.handle t q).2.store := by
  cases hq with
  | listing shelf =>
    rw [handle_listing, handle_listing, h.list_eq hs ht]
    cases t.store.list user shelf <;> exact ⟨rfl, h⟩
  | deleteArchived id =>
    rw [handle_deleteArchived, handle_deleteArchived, h.get?_eq hs ht]
    cases t.store.get? id user with
    | error e => exact ⟨rfl, h⟩
    | ok found =>
      cases found with
      | none => exact ⟨rfl, h⟩
      | some row =>
        cases hshelf : row.shelf with
        | history =>
          simp only [hshelf, true_and]
          exact h
        | archive =>
          simp only [hshelf]
          rcases h.delete id with ⟨e, hse, hte⟩ | ⟨s', t', hs', ht', hsame⟩
          · rw [hse, hte]
            exact ⟨rfl, h⟩
          · rw [hs', ht']
            exact ⟨rfl, hsame⟩
  | clearHistory =>
    rw [handle_clearHistory, handle_clearHistory]
    rcases h.deleteAll hs ht .history with ⟨e, hse, hte⟩ | ⟨n, s', t', hs', ht', hsame⟩
    · rw [hse, hte]
      exact ⟨rfl, h⟩
    · rw [hs', ht']
      exact ⟨rfl, hsame⟩

theorem handle_deleteArchived_foreign {s : Session} (hopen : s.store.isOpen = true)
    {user id : Option Int} (huser : user.all fitsColumn = true) (hid : id.all fitsColumn = true)
    (hrow : ∀ row ∈ s.store.rows, some (row.id : Int) = id → some row.user ≠ user) :
    service.handle s (.deleteArchived user id) = (.error .notFound, s) := by
  have hnone : s.store.rows.find? (fun r => some (r.id : Int) == id && some r.user == user) = none := by
    apply List.find?_eq_none.2
    intro row hmem hp
    obtain ⟨hrowId, hrowUser⟩ := Bool.and_eq_true_iff.1 hp
    exact hrow row hmem (eq_of_beq hrowId) (eq_of_beq hrowUser)
  have hheld : Store.checkIntegers [id, user] = .ok () := Store.checkIntegers_eq (by simp [huser, hid])
  have hfind : s.store.get? id user = .ok none := by
    rw [Store.get?, Store.checkOpen_eq hopen, hheld, hnone]
    rfl
  rw [handle_deleteArchived, hfind]

/-! ## Any session -/

/-- What a user does not notice of others. -/
structure Isolates (s : Session) (user : Option Int) : Prop where
  /-- A request of anybody else, whether granted or not, changes none of the user's rows and none of the
  answers that the user would be given. -/
  unmoved : ∀ r : Request, ¬ r.IsOf user →
    s.store.SameTo user (service.handle s r).2.store ∧
      ∀ q : Request, q.Inquiry user →
        (service.handle (service.handle s r).2 q).1 = (service.handle s q).1
  /-- Whatever rows there are of others, the user is answered the same, and left the same rows. -/
  blind : ∀ t : Session, t.Reachable → s.store.SameTo user t.store →
    ∀ q : Request, q.Inquiry user →
      (service.handle s q).1 = (service.handle t q).1 ∧
        (service.handle s q).2.store.SameTo user (service.handle t q).2.store
  /-- A row of somebody else is not found, like one that is not there. -/
  foreign : s.store.isOpen = true → user.all fitsColumn = true →
    ∀ id : Option Int, id.all fitsColumn = true →
      (∀ row ∈ s.store.rows, some (row.id : Int) = id → some row.user ≠ user) →
        service.handle s (.deleteArchived user id) = (.error .notFound, s)

/-- In every session that can come about, every user is on its own. -/
theorem isolates {s : Session} (hs : s.Reachable) (user : Option Int) :
    service.Isolates s user := by
  constructor
  · intro r hr
    have hsame := service.sameTo_handle hs.numbered hr
    refine ⟨hsame, fun q hq => ?_⟩
    have hafter : (service.handle s r).2.Reachable := hs.run (r.task service)
    exact (service.handle_sameTo hsame hs.numbered hafter.numbered hq).1.symm
  · intro t ht hsame q hq
    exact service.handle_sameTo hsame hs.numbered ht.numbered hq
  · intro hopen huser id hid hrow
    exact service.handle_deleteArchived_foreign hopen huser hid hrow

end Service

/-- Two users have filled their archives. The second one knows the number of the first one's row, and is told
the same as for a number that was never given out; the first one has not noticed the second one. -/
theorem isolates_of_two_users :
    let service : Service := ⟨.whole 500, ":memory:"⟩
    let first : Session :=
      ((⟨.new false, ⟨0, 1⟩⟩ : Session).perform (.save ⟨some 1, some "2+3", some "5", .archive⟩ none)).2
    let second : Session :=
      (service.handle first (.archiveCalculation (some 2) (some "1/2") (some "0.5"))).2
    second.Reachable ∧ service.Isolates second (some 2) ∧
      (second.store.rows.map fun row => (row.id, row.user)) = [(1, 1), (2, 2)] ∧
      service.handle second (.deleteArchived (some 2) (some 1)) = (.error .notFound, second) ∧
      service.handle second (.deleteArchived (some 2) (some 7)) = (.error .notFound, second) ∧
      (service.handle second (.archive (some 1))).1 = (service.handle first (.archive (some 1))).1 := by
  intro service first second
  have hfirst : first.Reachable := .called (.made false ⟨0, 1⟩) _
  have hsecond : second.Reachable := hfirst.run _
  have hopen : second.store.isOpen = true := by decide +kernel
  have hisolates := Service.isolates service hsecond (some 2)
  refine ⟨hsecond, hisolates, ?_, ?_, ?_, ?_⟩
  · decide +kernel
  · apply hisolates.foreign hopen rfl _ rfl
    decide +kernel
  · apply hisolates.foreign hopen rfl _ rfl
    decide +kernel
  · have hother : ¬ Request.IsOf (some 1) (.archiveCalculation (some 2) (some "1/2") (some "0.5")) :=
      show ¬ (some 2 : Option Int) = some 1 by decide
    exact ((Service.isolates service hfirst (some 1)).unmoved _ hother).2 _ (.listing .archive)

end Reckoner
