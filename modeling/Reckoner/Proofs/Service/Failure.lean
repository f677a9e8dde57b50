import Reckoner.Proofs.Service.Handling
/-!
Why the store fails a request.

A store that is open fails an access for one of three reasons only: an integer is given that no column
holds, a column would be left empty, or the clock is beyond the calendar when it has to date something.
A request hands its integers and its texts to the store as they are, so each failure can be told from
the request and the clock.

What is shown here:
1. `Store.insert_error` and `Session.perform_save_error`: why a save fails;
2. `Service.storeFault_of_error`: why a request fails;
3. `Service.handle_of_unheld`: an integer that no column holds does fail a request.
-/

namespace Reckoner

/-- A column that a draft leaves empty. -/
def Draft.Lacks (d : Draft) : Column → Prop
  | .user => d.user = none
  | .expression => d.expression = none
  | .result => d.result = none

namespace Request

/-- The integers that a request hands to the store. -/
def integers : Request → List (Option Int)
  | .calculate user _ | .history user | .archive user | .clearHistory user => [user]
  | .archiveCalculation user _ _ => [user]
  | .deleteArchived user id => [id, user]
  | .status => []

/-- A column that a request to save leaves empty. -/
def Lacks : Request → Column → Prop
  | .calculate user _, .user => user = none
  | .calculate _ expression, .expression => expression = none
  | .archiveCalculation user expression result, column =>
    Draft.Lacks ⟨user, expression, result, .archive⟩ column
  | _, _ => False

/-- Whether the clock is read for a request. -/
def readsClock : Request → Bool
  | .calculate _ _ | .archiveCalculation _ _ _ | .status => true
  | _ => false

end Request

/-- Why an open store fails a request. -/
inductive StoreFault (clock : Clock) (r : Request) : StoreError → Prop
  | integer (n : Int) (hmem : some n ∈ r.integers) (hfits : fitsColumn n = false) :
    StoreFault clock r .integerTooLarge
  | empty (column : Column) (hlacks : r.Lacks column) : StoreFault clock r (.missing column)
  | calendar (hreads : r.readsClock = true) (hclock : clock.reading? = none) :
    StoreFault clock r .dateOutOfRange

theorem exists_not_fits {ns : List (Option Int)} (h : ns.all (fun n => n.all fitsColumn) = false) :
    ∃ n, some n ∈ ns ∧ fitsColumn n = false := by
  obtain ⟨x, hx, hfalse⟩ := List.all_eq_false.1 h
  cases x with
  | none => exact absurd rfl hfalse
  | some n => exact ⟨n, hx, Bool.eq_false_iff.2 hfalse⟩

theorem Store.refused_of_unheld {β : Type} {s : Store} (hopen : s.isOpen = true) {ns : List (Option Int)}
    {n : Int} (hmem : some n ∈ ns) (hfits : fitsColumn n = false) {x : β} :
    (do s.checkOpen; checkIntegers ns; .ok x : Except StoreError β) = .error .integerTooLarge := by
  have hunheld : ¬ns.all (fun n => n.all fitsColumn) = true := by
    intro hall
    have hheld : fitsColumn n = true := List.all_eq_true.1 hall (some n) hmem
    rw [hfits] at hheld
    cases hheld
  have hrefused : checkIntegers ns = .error .integerTooLarge := if_neg hunheld
  rw [checkOpen_eq hopen, hrefused]
  rfl

/-! ## Saves -/

theorem Store.insert_error {s : Store} (hopen : s.isOpen = true) {d : Draft} {t : Timestamp}
    {e : StoreError} (h : s.insert d t = .error e) :
    (e = .integerTooLarge ∧ ∃ n, d.user = some n ∧ fitsColumn n = false) ∨
      ∃ column, e = .missing column ∧ d.Lacks column := by
  obtain ⟨user, expression, result, shelf⟩ := d
  rw [insert, checkOpen_eq hopen] at h
  by_cases hheld : [user].all (fun n => n.all fitsColumn) = true
  · rw [checkIntegers_eq hheld] at h
    refine .inr ?_
    cases user with
    | none =>
      cases h
      exact ⟨.user, rfl, rfl⟩
    | some user =>
      cases expression with
      | none =>
        cases h
        exact ⟨.expression, rfl, rfl⟩
      | some expression =>
        cases result with
        | none =>
          cases h
          exact ⟨.result, rfl, rfl⟩
        | some result => cases h
  · have hrefused : checkIntegers [user] = .error .integerTooLarge := if_neg hheld
    rw [hrefused] at h
    cases h
    obtain ⟨n, hmem, hfits⟩ := exists_not_fits (Bool.eq_false_iff.2 hheld)
    exact .inl ⟨rfl, n, (List.mem_singleton.1 hmem).symm, hfits⟩

theorem Session.perform_save_error {s : Session} (hopen : s.store.isOpen = true) {d : Draft}
    {e : StoreError} (h : (s.perform (.save d none)).1 = .error e) :
    (e = .integerTooLarge ∧ ∃ n, d.user = some n ∧ fitsColumn n = false) ∨
      (∃ column, e = .missing column ∧ d.Lacks column) ∨
        (e = .dateOutOfRange ∧ s.clock.reading? = none) := by
  cases hclock : s.clock.reading? with
  | none =>
    simp only [perform, hclock] at h
    cases h
    exact .inr (.inr ⟨rfl, rfl⟩)
  | some t =>
    simp only [perform, hclock, saveAt] at h
    have hticked : s.tick.store.isOpen = true := hopen
    cases hinsert : s.tick.store.insert d t with
    | ok saved =>
      rw [hinsert] at h
      cases h
    | error d =>
      rw [hinsert] at h
      cases h
      rcases Store.insert_error hticked hinsert with hinteger | hempty
      · exact .inl hinteger
      · exact .inr (.inl hempty)

/-! ## Requests -/

namespace StoreFault
variable {s : Session} (hopen : s.store.isOpen = true) {clock : Clock} {r : Request} {e : StoreError}
include hopen

theorem of_checked {β : Type} {ns : List (Option Int)} (hns : ns ⊆ r.integers) {x : β}
    (h : (do s.store.checkOpen; Store.checkIntegers ns; .ok x : Except StoreError β) = .error e) :
    StoreFault clock r e := by
  obtain ⟨rfl, hunheld⟩ := Store.error_of_checked hopen h
  obtain ⟨n, hmem, hfits⟩ := exists_not_fits hunheld
  exact .integer n (hns hmem) hfits

theorem of_save {d : Draft} (huser : r.integers = [d.user])
    (hlacks : ∀ column, d.Lacks column → r.Lacks column) (hreads : r.readsClock = true)
    (h : (s.perform (.save d none)).1 = .error e) : StoreFault s.clock r e := by
  rcases Session.perform_save_error hopen h with
    ⟨rfl, n, hn, hfits⟩ | ⟨column, rfl, hempty⟩ | ⟨rfl, hclock⟩
  · refine .integer n ?_ hfits
    rw [huser, hn]
    exact List.mem_singleton_self _
  · exact .empty column (hlacks column hempty)
  · exact .calendar hreads hclock

end StoreFault

namespace Service
variable (service : Service) {s : Session}

theorem evaluate_ne_store (expression : Option String) (e : StoreError) :
    service.evaluate expression ≠ .error (.store e) := by
  rw [evaluate]
  split
  · exact nofun
  · cases Reckoner.evaluate (expression.getD "") <;> exact nofun

theorem storeFault_of_listing (hopen : s.store.isOpen = true) (user : Option Int) (shelf : Shelf)
    {e : StoreError} (h : (service.handle s (.listing user shelf)).1 = .error (.store e)) :
    StoreFault s.clock (.listing user shelf) e := by
  rw [handle_listing] at h
  cases hlist : s.store.list user shelf with
  | ok rows =>
    rw [hlist] at h
    cases h
  | error d =>
    rw [hlist] at h
    cases h
    refine .of_checked hopen ?_ hlist
    cases shelf <;> exact List.Subset.refl _

/-- A request fails in an open store for a reason that shows in the request and in the clock. -/
theorem storeFault_of_error (hopen : s.store.isOpen = true) {r : Request} {e : StoreError}
    (h : (service.handle s r).1 = .error (.store e)) : StoreFault s.clock r e := by
  cases r with
  | calculate user expression =>
    rw [handle_calculate] at h
    cases hvalue : service.evaluate expression with
    | error d =>
      rw [hvalue] at h
      cases h
      exact absurd hvalue (service.evaluate_ne_store expression e)
    | ok result =>
      rw [hvalue] at h
      refine StoreFault.of_save hopen (d := ⟨user, expression, some result, .history⟩) rfl ?_ rfl ?_
      · intro column hlacks
        cases column with
        | user => exact hlacks
        | expression => exact hlacks
        | result => cases hlacks
      · cases hsave : s.perform (.save ⟨user, expression, some result, .history⟩ none) with
        | mk outcome t =>
          simp only [hsave] at h
          cases outcome <;> cases h
          rfl
  | archiveCalculation user expression result =>
    rw [handle_archiveCalculation] at h
    refine StoreFault.of_save hopen (d := ⟨user, expression, result, .archive⟩) rfl
      (fun column hlacks => hlacks) rfl ?_
    cases hsave : s.perform (.save ⟨user, expression, result, .archive⟩ none) with
    | mk outcome t =>
      simp only [hsave] at h
      cases outcome <;> cases h
      rfl
  | history user => exact storeFault_of_listing service hopen user .history h
  | archive user => exact storeFault_of_listing service hopen user .archive h
  | deleteArchived user id =>
    rw [handle_deleteArchived] at h
    cases hfind : s.store.get? id user with
    | error d =>
      rw [hfind] at h
      cases h
      exact .of_checked hopen (List.Subset.refl _) hfind
    | ok found =>
      cases found with
      | none =>
        rw [hfind] at h
        cases h
      | some row =>
        cases hshelf : row.shelf with
        | history =>
          simp only [hfind, hshelf] at h
          cases h
        | archive =>
          simp only [hfind, hshelf] at h
          cases hdelete : s.store.delete id with
          | ok t =>
            rw [hdelete] at h
            cases h
          | error d =>
            rw [hdelete] at h
            cases h
            exact .of_checked hopen (List.cons_subset_cons _ (List.nil_subset _)) hdelete
  | clearHistory user =>
    rw [handle_clearHistory] at h
    cases hclear : s.store.deleteAll user .history with
    | ok cleared =>
      rw [hclear] at h
      cases h
    | error d =>
      rw [hclear] at h
      cases h
      exact .of_checked hopen (List.Subset.refl _) hclear
  | status =>
    rw [handle_status] at h
    cases hclock : s.clock.reading? with
    | none =>
      rw [hclock] at h
      cases h
      exact .calendar rfl hclock
    | some t =>
      rw [hclock] at h
      simp only [Store.count_eq hopen] at h
      cases h

/-- An integer that no column holds fails a request that saves nothing and reads no clock, whatever the
store holds. -/
theorem handle_of_unheld (hopen : s.store.isOpen = true) {r : Request} (hreads : r.readsClock = false)
    {n : Int} (hmem : some n ∈ r.integers) (hfits : fitsColumn n = false) :
    (service.handle s r).1 = .error (.store .integerTooLarge) := by
  have hlisting : ∀ user shelf, some n ∈ [user] →
      (service.handle s (.listing user shelf)).1 = .error (.store .integerTooLarge) := by
    intro user shelf huser
    have hlist : s.store.list user shelf = .error .integerTooLarge :=
      Store.refused_of_unheld hopen huser hfits
    rw [handle_listing, hlist]
  cases r with
  | calculate user expression => cases hreads
  | archiveCalculation user expression result => cases hreads
  | status => cases hreads
  | history user => exact hlisting user .history hmem
  | archive user => exact hlisting user .archive hmem
  | deleteArchived user id =>
    have hfind : s.store.get? id user = .error .integerTooLarge :=
      Store.refused_of_unheld hopen hmem hfits
    rw [handle_deleteArchived, hfind]
  | clearHistory user =>
    have hclear : s.store.deleteAll user .history = .error .integerTooLarge :=
      Store.refused_of_unheld hopen hmem hfits
    rw [handle_clearHistory, hclear]

end Service

end Reckoner
