import Reckoner.Proofs.Expression.Settling
import Reckoner.Proofs.Http.Refusal
import Reckoner.Proofs.Service.Failure
import Reckoner.Proofs.Store.Numbering
/-!
The statuses of responses.

Five statuses are provided for: what is granted, what is wrong with a request, who does not say who he is,
what is not there, and what a body or a path should not be. A request at a place of the site is answered
by one of them as long as the store has room for its integers, the clock is within the calendar, and what
is wrong with a body can be told. The user and the number of a calculation are whole numbers of any size,
and no step asks whether a column holds them, so the failure of the store goes past all that is
provided for.

What is shown here:
1. `status_of_stopped`: how a request is answered that does not come to the service;
2. `asks_of_request`: what an action asks of the service, and with it the integers that come there;
3. `respond_status`: the statuses of all responses at the places of the site, and why another one is met.
-/

namespace Reckoner.Http

/-- The statuses that are provided for. -/
def providedFor : List Nat := [200, 400, 401, 404, 422]

/-- Whether an action reads the clock. -/
def Action.readsClock : Action → Bool
  | .evaluate | .save | .status => true
  | _ => false

/-- What is not provided for. -/
inductive Unforeseen (clock : Clock) (web : Request) (action : Action) : Prop
  /-- The header names a user whom no column holds. -/
  | user (n : Int) (haction : action ≠ .status) (hnamed : userOf web.user = .ok n)
    (hfits : fitsColumn n = false)
  /-- The path has a number that no column holds. -/
  | number (cs : List Char) (n : Int) (haction : action = .delete cs) (hnumber : pathNumber? cs = some n)
    (hfits : fitsColumn n = false)
  /-- The clock is beyond the calendar. -/
  | calendar (hreads : action.readsClock = true) (hclock : clock.reading? = none)
  /-- What is wrong with the body cannot be sent back. -/
  | body (value : Option Json) (faults : List Fault) (hreads : action.readsBody = true)
    (hbody : readBody web.body = .ok value) (hfaults : submission value = .error faults)
    (hsent : (faults.all fun f => f.value.sendable) = false)

/-! ## Requests that do not come to the service -/

theorem status_of_faults (faults : List Fault) :
    (Faults.response faults).status = 422 ∨
      ((Faults.response faults).status = 500 ∧ (faults.all fun f => f.value.sendable) = false) := by
  cases hsent : faults.all fun f => f.value.sendable with
  | true =>
    rw [Faults.response, if_pos hsent]
    exact .inl rfl
  | false =>
    rw [Faults.response, if_neg (Bool.eq_false_iff.1 hsent)]
    exact .inr ⟨rfl, rfl⟩

theorem faults_of_orFaults {α : Type} {x : Except (List Fault) α} {response : Response}
    (h : orFaults x = .error response) :
    ∃ faults, x = .error faults ∧ response = Faults.response faults := by
  cases x with
  | ok a => cases h
  | error faults =>
    cases h
    exact ⟨faults, rfl, rfl⟩

theorem status_of_submission {value : Option Json} {response : Response}
    (h : orFaults (submission value) = .error response) :
    response.status ∈ providedFor ∨
      (response.status = 500 ∧ ∃ faults, submission value = .error faults ∧
        (faults.all fun f => f.value.sendable) = false) := by
  obtain ⟨faults, hfaults, rfl⟩ := faults_of_orFaults h
  rcases status_of_faults faults with hstatus | ⟨hstatus, hsent⟩
  · rw [hstatus]
    exact .inl (by decide)
  · exact .inr ⟨hstatus, faults, hfaults, hsent⟩

theorem status_of_calculationNumber {cs : List Char} {response : Response}
    (h : orFaults (calculationNumber cs) = .error response) : response.status ∈ providedFor := by
  obtain ⟨faults, hfaults, rfl⟩ := faults_of_orFaults h
  rw [calculationNumber] at hfaults
  split at hfaults
  · cases hfaults
  · cases hfaults
    show (422 : Nat) ∈ providedFor
    decide

/-- What is wrong with a path or a body is told, unless it is in a body and cannot be sent. -/
theorem status_of_request {action : Action} {user : Int} {value : Option Json} {response : Response}
    (h : action.request user value = .error response) :
    response.status ∈ providedFor ∨
      (response.status = 500 ∧ action.readsBody = true ∧ ∃ faults, submission value = .error faults ∧
        (faults.all fun f => f.value.sendable) = false) := by
  cases action with
  | evaluate =>
    rcases bind_eq_error.1 h with hfaults | ⟨submitted, -, hnothing⟩
    · exact (status_of_submission hfaults).imp_right fun ⟨hstatus, hcause⟩ => ⟨hstatus, rfl, hcause⟩
    · cases hnothing
  | save =>
    rcases bind_eq_error.1 h with hfaults | ⟨submitted, -, hresult⟩
    · exact (status_of_submission hfaults).imp_right fun ⟨hstatus, hcause⟩ => ⟨hstatus, rfl, hcause⟩
    · cases hgiven : submitted.result with
      | some result =>
        simp only [hgiven] at hresult
        cases hresult
      | none =>
        simp only [hgiven] at hresult
        cases hresult
        exact .inl (by decide)
  | delete cs =>
    rcases bind_eq_error.1 h with hfault | ⟨id, -, hnothing⟩
    · exact .inl (status_of_calculationNumber hfault)
    · cases hnothing
  | history => cases h
  | clearHistory => cases h
  | archive => cases h
  | status => cases h

/-! ## Requests that come to the service -/

/-- What an action asks of the service, for a user. -/
inductive Asks (user : Int) : Action → Reckoner.Request → Prop
  | evaluate (expression : String) : Asks user .evaluate (.calculate user expression)
  | save (expression result : String) : Asks user .save (.archiveCalculation user expression result)
  | delete (cs : List Char) (id : Int) (h : pathNumber? cs = some id) :
    Asks user (.delete cs) (.deleteArchived user id)
  | history : Asks user .history (.history user)
  | clearHistory : Asks user .clearHistory (.clearHistory user)
  | archive : Asks user .archive (.archive user)
  | status : Asks user .status .status

theorem ok_of_orFaults {α : Type} {x : Except (List Fault) α} {a : α} (h : orFaults x = .ok a) :
    x = .ok a := by
  cases x with
  | ok b =>
    cases h
    rfl
  | error faults => cases h

theorem asks_of_request {action : Action} {user : Int} {value : Option Json} {r : Reckoner.Request}
    (h : action.request user value = .ok r) : Asks user action r := by
  cases action with
  | evaluate =>
    obtain ⟨submitted, -, h⟩ := bind_eq_ok.1 h
    cases h
    exact .evaluate _
  | save =>
    obtain ⟨submitted, -, h⟩ := bind_eq_ok.1 h
    cases hgiven : submitted.result with
    | none =>
      simp only [hgiven] at h
      cases h
    | some result =>
      simp only [hgiven] at h
      cases h
      exact .save _ _
  | delete cs =>
    obtain ⟨id, hid, h⟩ := bind_eq_ok.1 h
    cases h
    have hnumber := ok_of_orFaults hid
    rw [calculationNumber] at hnumber
    split at hnumber
    · rename_i n hn
      cases hnumber
      exact .delete cs _ hn
    · cases hnumber
  | history =>
    cases h
    exact .history
  | clearHistory =>
    cases h
    exact .clearHistory
  | archive =>
    cases h
    exact .archive
  | status =>
    cases h
    exact .status

namespace Asks
variable {user : Int} {action : Action} {r : Reckoner.Request}

theorem integer (h : Asks user action r) {n : Int} (hn : some n ∈ r.integers) :
    (action ≠ .status ∧ n = user) ∨ ∃ cs, action = .delete cs ∧ pathNumber? cs = some n := by
  cases h with
  | delete cs id hid =>
    rcases List.mem_cons.1 hn with heq | hn
    · cases heq
      exact .inr ⟨cs, rfl, hid⟩
    · cases List.mem_singleton.1 hn
      exact .inl ⟨nofun, rfl⟩
  | status => cases hn
  | _ =>
    -- everything else names the user alone
    cases List.mem_singleton.1 hn
    exact .inl ⟨nofun, rfl⟩

theorem not_lacks (h : Asks user action r) (column : Column) : ¬r.Lacks column := by
  cases h <;> cases column <;> exact nofun

theorem readsClock_eq (h : Asks user action r) : action.readsClock = r.readsClock := by
  cases h <;> rfl

theorem unforeseen (h : Asks user action r) {web : Request}
    (hnamed : action ≠ .status → userOf web.user = .ok user) {clock : Clock} {e : StoreError}
    (hfault : StoreFault clock r e) : Unforeseen clock web action := by
  cases hfault with
  | integer n hmem hfits =>
    rcases h.integer hmem with ⟨haction, rfl⟩ | ⟨cs, haction, hnumber⟩
    · exact .user _ haction (hnamed haction) hfits
    · exact .number cs n haction hnumber hfits
  | empty column hlacks => exact absurd hlacks (h.not_lacks column)
  | calendar hreads hclock => exact .calendar (h.readsClock_eq.trans hreads) hclock

end Asks

/-- A refusal is answered by a status that is provided for, unless the store has failed. -/
theorem status_of_refusal (e : ServiceError) :
    (responseTo e).status ∈ providedFor ∨
      ((responseTo e).status = 500 ∧ ∃ cause, e = .store cause) := by
  cases e with
  | evaluation cause => exact .inl (show (400 : Nat) ∈ providedFor by decide)
  | tooLong length limit => exact .inl (show (400 : Nat) ∈ providedFor by decide)
  | notFound => exact .inl (show (404 : Nat) ∈ providedFor by decide)
  | notArchived => exact .inl (show (400 : Nat) ∈ providedFor by decide)
  | store cause => exact .inr ⟨rfl, cause, rfl⟩

theorem status_of_unheld {site : Except Settings.Failure Service} {s : Session} {web : Request}
    {service : Service} {r : Reckoner.Request} (hrequest : requestOf site web = .ok (service, r))
    (hopen : s.store.isOpen = true) (hreads : r.readsClock = false) {n : Int}
    (hmem : some n ∈ r.integers) (hfits : fitsColumn n = false) :
    (respond site s web).1.status = 500 := by
  have hfailed := service.handle_of_unheld hopen hreads hmem hfits
  rw [respond_of_ok hrequest]
  cases hhandle : service.handle s r with
  | mk outcome t =>
    rw [hhandle] at hfailed
    cases hfailed
    rfl

/-! ## All requests at a place of the site -/

section Place
variable {service : Service} {web : Request} {place : Place} {action : Action}
  (hplace : Place.ofPath? web.path = some place) (haction : Action.of? place web.method = some action)
include hplace haction

/-- A request that does not come to the service is answered by a status that is provided for, unless what
is wrong with its body cannot be sent. -/
theorem status_of_stopped {response : Response} (h : requestOf (.ok service) web = .error response)
    (clock : Clock) :
    response.status ∈ providedFor ∨ (response.status = 500 ∧ Unforeseen clock web action) := by
  rw [requestOf_of_action hplace haction] at h
  -- the body is read first, then the user, and what the path and the body say comes last
  rcases bind_eq_error.1 h with hbody | ⟨value, hvalue, h⟩
  · split at hbody
    · refine .inl ?_
      rcases status_of_readBody hbody with hstatus | hstatus <;> rw [hstatus] <;> decide
    · cases hbody
  rcases bind_eq_error.1 h with huser | ⟨user, -, h⟩
  · split at huser
    · cases huser
    · refine .inl ?_
      rw [status_of_userOf huser]
      decide
  rcases bind_eq_error.1 h with hservice | ⟨asked, -, h⟩
  · cases hservice
  rcases bind_eq_error.1 h with hrequest | ⟨r, -, hnothing⟩
  · rcases status_of_request hrequest with hstatus | ⟨hstatus, hreads, faults, hfaults, hsent⟩
    · exact .inl hstatus
    · rw [if_pos hreads] at hvalue
      exact .inr ⟨hstatus, .body value faults hreads hvalue hfaults hsent⟩
  · cases hnothing

theorem asks_of_requestOf {asked : Service} {r : Reckoner.Request}
    (h : requestOf (.ok service) web = .ok (asked, r)) :
    ∃ user, (action ≠ .status → userOf web.user = .ok user) ∧ Asks user action r := by
  rw [requestOf_of_action hplace haction] at h
  obtain ⟨value, -, h⟩ := bind_eq_ok.1 h
  obtain ⟨user, huser, h⟩ := bind_eq_ok.1 h
  obtain ⟨other, -, h⟩ := bind_eq_ok.1 h
  obtain ⟨request, hrequest, h⟩ := bind_eq_ok.1 h
  cases h
  refine ⟨user, fun hstatus => ?_, asks_of_request hrequest⟩
  rw [if_neg hstatus] at huser
  exact huser

section Open
variable {s : Session} (hopen : s.store.isOpen = true)
include hopen

theorem status_or_unforeseen :
    (respond (.ok service) s web).1.status ∈ providedFor ∨
      ((respond (.ok service) s web).1.status = 500 ∧ Unforeseen s.clock web action) := by
  cases hrequest : requestOf (.ok service) web with
  | error response =>
    rw [respond_of_error hrequest, status_forMethod]
    exact status_of_stopped hplace haction hrequest s.clock
  | ok asked =>
    obtain ⟨asked, r⟩ := asked
    rw [respond_of_ok hrequest]
    cases hhandle : asked.handle s r with
    | mk outcome t =>
      cases outcome with
      | ok answer =>
        refine .inl ?_
        rw [status_ofAnswer]
        decide
      | error e =>
        refine (status_of_refusal e).imp_right fun ⟨hstatus, cause, hcause⟩ => ⟨hstatus, ?_⟩
        have hfailed : (asked.handle s r).1 = .error (.store cause) := by rw [hhandle, hcause]
        obtain ⟨user, hnamed, hasks⟩ := asks_of_requestOf hplace haction hrequest
        exact hasks.unforeseen hnamed (asked.storeFault_of_error hopen hfailed)

theorem status_of_unheld_user (hlist : action = .history ∨ action = .archive ∨ action = .clearHistory)
    {n : Int} (hnamed : userOf web.user = .ok n) (hfits : fitsColumn n = false) :
    (respond (.ok service) s web).1.status = 500 := by
  obtain ⟨r, hrequest, hreads, hmem⟩ : ∃ r, requestOf (.ok service) web = .ok (service, r) ∧
      r.readsClock = false ∧ some n ∈ r.integers := by
    rw [requestOf_of_action hplace haction, hnamed]
    rcases hlist with rfl | rfl | rfl
    · exact ⟨.history n, rfl, rfl, List.mem_singleton_self _⟩
    · exact ⟨.archive n, rfl, rfl, List.mem_singleton_self _⟩
    · exact ⟨.clearHistory n, rfl, rfl, List.mem_singleton_self _⟩
  exact status_of_unheld hrequest hopen hreads hmem hfits

/-- A request at a place of the site, to a service whose store is open, is answered by a status that is
provided for, or by 500 for one of four reasons; and a user whom no column holds is always answered by
500 where there is only a list to be sent or cleared. -/
theorem respond_status :
    ((respond (.ok service) s web).1.status ∈ providedFor ∨
        ((respond (.ok service) s web).1.status = 500 ∧ Unforeseen s.clock web action)) ∧
      ((action = .history ∨ action = .archive ∨ action = .clearHistory) →
        ∀ n, userOf web.user = .ok n → fitsColumn n = false →
          (respond (.ok service) s web).1.status = 500) :=
  ⟨status_or_unforeseen hplace haction hopen, fun hlist _ hnamed hfits =>
    status_of_unheld_user hplace haction hopen hlist hnamed hfits⟩

end Open

end Place

/-- A deletion from the archive by the first number that no column holds. -/
def unheldDeletion : Request :=
  ⟨"DELETE", "/api/calculator/archive/9223372036854775808", some "1", none⟩

theorem place_unheldDeletion :
    Place.ofPath? unheldDeletion.path = some (.archived "9223372036854775808".toList) := by
  decide +kernel

theorem action_unheldDeletion :
    Action.of? (.archived "9223372036854775808".toList) unheldDeletion.method =
      some (.delete "9223372036854775808".toList) := by
  decide +kernel

theorem status_unheldDeletion :
    (respond (.ok ⟨.whole 500, ":memory:"⟩) ⟨.new false, ⟨0, 1⟩⟩ unheldDeletion).1.status = 500 := by
  have hrequest : requestOf (.ok ⟨.whole 500, ":memory:"⟩) unheldDeletion =
      .ok (⟨.whole 500, ":memory:"⟩, .deleteArchived (some 1) (some 9223372036854775808)) := by
    rw [requestOf_of_action place_unheldDeletion action_unheldDeletion]
    rfl
  exact status_of_unheld hrequest rfl rfl List.mem_cons_self (by decide)

/-- The deletion is answered by 500, and it is the number that is not provided for. -/
theorem respond_status_of_unheldDeletion :
    (Store.new false).isOpen = true ∧
      Place.ofPath? unheldDeletion.path = some (.archived "9223372036854775808".toList) ∧
      Action.of? (.archived "9223372036854775808".toList) unheldDeletion.method =
        some (.delete "9223372036854775808".toList) ∧
      Unforeseen ⟨0, 1⟩ unheldDeletion (.delete "9223372036854775808".toList) := by
  have hopen : (⟨.new false, ⟨0, 1⟩⟩ : Session).store.isOpen = true := rfl
  refine ⟨rfl, place_unheldDeletion, action_unheldDeletion, ?_⟩
  have hstatus := status_unheldDeletion
  rcases (respond_status place_unheldDeletion action_unheldDeletion hopen).1 with hprovided | ⟨-, hcause⟩
  · rw [hstatus] at hprovided
    exact absurd hprovided (by decide)
  · exact hcause

/-- Not every request at a place of the site is answered by a status that is provided for. -/
theorem not_providedFor :
    ¬∀ (service : Service) (s : Session) (web : Request) (place : Place) (action : Action),
      s.Reachable → s.store.isOpen = true → Place.ofPath? web.path = some place →
        Action.of? place web.method = some action →
          (respond (.ok service) s web).1.status ∈ providedFor := by
  intro h
  have hprovided := h ⟨.whole 500, ":memory:"⟩ ⟨.new false, ⟨0, 1⟩⟩ unheldDeletion _ _
    (.made false ⟨0, 1⟩) rfl place_unheldDeletion action_unheldDeletion
  rw [status_unheldDeletion] at hprovided
  exact absurd hprovided (by decide)

end Reckoner.Http
