import Reckoner.Http.Site
import Reckoner.Proofs.Service.Handling
/-!
What fails leaves no trace.

An access to the store, a request to a service or a request to the site may fail in many ways: a header
that names no user, a body that cannot be read, an expression without a value, a row that is not there, an
integer that no column holds. However it fails, the store holds the rows that it held, and will give out the
number that it would have given out. What is granted to be saved is one row, with that number.

What is shown here:
1. `Service.handle_error_store`: a request that is refused leaves the store as it was;
2. `Service.handle_save`: a request to save that is granted adds one row;
3. `Http.fails_requestOf`: whatever stops a request before it comes to the service is not answered by 200;
4. `Http.respond_status_eq_iff`: the site answers by 200 exactly what the service grants;
5. `Http.leavesNoTrace`: nothing that fails leaves a trace, and what is saved adds one row.
-/

namespace Reckoner

namespace Request

/-- Whether a request asks for something to be saved. -/
def saves : Request → Bool
  | .calculate _ _ | .archiveCalculation _ _ _ => true
  | _ => false

/-- The row that a request to save puts into the table, and its answer. -/
def Puts (service : Service) : Request → Row → Answer → Prop
  | .calculate user expression, row, answer =>
    user = some row.user ∧ expression = some row.expression ∧
      service.evaluate expression = .ok row.result ∧ row.shelf = .history ∧
      answer = .calculated row.record
  | .archiveCalculation user expression result, row, answer =>
    user = some row.user ∧ expression = some row.expression ∧ result = some row.result ∧
      row.shelf = .archive ∧ answer = .archived row.record
  | _, _, _ => False

end Request

/-! ## Requests to the service -/

namespace Service
variable (service : Service) {s : Session}

theorem handle_error_store {r : Request} {e : ServiceError}
    (h : (service.handle s r).1 = .error e) : (service.handle s r).2.store = s.store := by
  cases r with
  | calculate user expression =>
    rcases service.handle_calculate_cases s user expression with
      ⟨d, t, hhandle, hstore⟩ | ⟨row, -, -, -, -, -, hhandle⟩
    · rw [hhandle, hstore]
    · rw [hhandle] at h
      cases h
  | archiveCalculation user expression result =>
    rcases service.handle_archiveCalculation_cases s user expression result with
      ⟨d, t, hhandle, hstore⟩ | ⟨row, -, -, -, -, -, hhandle⟩
    · rw [hhandle, hstore]
    · rw [hhandle] at h
      cases h
  | history user => exact congrArg Session.store (service.handle_listing_session s user .history)
  | archive user => exact congrArg Session.store (service.handle_listing_session s user .archive)
  | deleteArchived user id => exact congrArg Session.store (service.handle_deleteArchived_error h)
  | clearHistory user =>
    rcases service.handle_clearHistory_cases s user with
      ⟨d, hhandle⟩ | ⟨n, -, hhandle⟩ | ⟨n, v, -, hhandle⟩
    · rw [hhandle]
    · rw [hhandle]
    · rw [hhandle] at h
      cases h
  | status => exact service.handle_status_store s

theorem handle_save {r : Request} (hsaves : r.saves = true) {answer : Answer}
    (h : (service.handle s r).1 = .ok answer) :
    ∃ row : Row, row.id = s.store.lastId + 1 ∧ r.Puts service row answer ∧
      (service.handle s r).2.store = s.store.add row := by
  cases r with
  | calculate user expression =>
    rcases service.handle_calculate_cases s user expression with
      ⟨d, t, hhandle, -⟩ | ⟨row, huser, hexpression, hvalue, hshelf, hid, hhandle⟩
    · rw [hhandle] at h
      cases h
    · rw [hhandle] at h ⊢
      exact ⟨row, hid, ⟨huser, hexpression, hvalue, hshelf, (Except.ok.inj h).symm⟩, rfl⟩
  | archiveCalculation user expression result =>
    rcases service.handle_archiveCalculation_cases s user expression result with
      ⟨d, t, hhandle, -⟩ | ⟨row, huser, hexpression, hresult, hshelf, hid, hhandle⟩
    · rw [hhandle] at h
      cases h
    · rw [hhandle] at h ⊢
      exact ⟨row, hid, ⟨huser, hexpression, hresult, hshelf, (Except.ok.inj h).symm⟩, rfl⟩
  | history user => cases hsaves
  | archive user => cases hsaves
  | deleteArchived user id => cases hsaves
  | clearHistory user => cases hsaves
  | status => cases hsaves

end Service

namespace Http

/-! ## Requests that do not come to the service -/

/-- A step that, when it fails, is answered by a status other than 200. -/
def Fails {α : Type} (x : Except Response α) : Prop :=
  ∀ response, x = .error response → response.status ≠ 200

namespace Fails

theorem of_ok {α : Type} (a : α) : Fails (.ok a) := by
  intro response h
  cases h

theorem of_error {α : Type} {response : Response} (h : response.status ≠ 200) :
    Fails (.error response : Except Response α) := by
  intro other he
  cases he
  exact h

theorem bind {α β : Type} {x : Except Response α} {f : α → Except Response β} (hx : Fails x)
    (hf : ∀ a, Fails (f a)) : Fails (x >>= f) := by
  cases x with
  | error response => exact of_error (hx response rfl)
  | ok a => exact hf a

end Fails

theorem Faults.status_ne (faults : List Fault) : (Faults.response faults).status ≠ 200 := by
  rcases Faults.response_status faults with h | h <;> rw [h] <;> decide

theorem fails_orFaults {α : Type} (x : Except (List Fault) α) : Fails (orFaults x) := by
  cases x with
  | ok a => exact .of_ok a
  | error faults => exact .of_error (Faults.status_ne faults)

theorem status_of_readBody {body : Option String} {response : Response}
    (h : readBody body = .error response) : response.status = 400 ∨ response.status = 422 := by
  cases body with
  | none => cases h
  | some text =>
    rw [readBody] at h
    split at h
    · cases h
    · split at h
      · cases h
      · cases h
        exact .inr rfl
      · cases h
        exact .inl rfl

theorem fails_readBody (body : Option String) : Fails (readBody body) := by
  intro response h
  rcases status_of_readBody h with hstatus | hstatus <;> rw [hstatus] <;> decide

theorem status_of_userOf {header : Option String} {response : Response}
    (h : userOf header = .error response) : response.status = 401 := by
  cases header with
  | none =>
    cases h
    rfl
  | some text =>
    rw [userOf] at h
    split at h
    · cases h
      rfl
    · split at h
      · cases h
      · cases h
        rfl

theorem fails_userOf (header : Option String) : Fails (userOf header) := by
  intro response h
  rw [status_of_userOf h]
  decide

theorem fails_request (action : Action) (user : Int) (body : Option Json) :
    Fails (action.request user body) := by
  cases action with
  | evaluate => exact (fails_orFaults _).bind fun s => .of_ok _
  | save =>
    refine (fails_orFaults _).bind fun s => ?_
    cases s.result with
    | some result => exact .of_ok _
    | none => exact .of_error (by decide)
  | delete number => exact (fails_orFaults _).bind fun id => .of_ok _
  | history => exact .of_ok _
  | clearHistory => exact .of_ok _
  | archive => exact .of_ok _
  | status => exact .of_ok _

/-- What is asked of the service where a method does something, as one step after the other. -/
theorem requestOf_of_action {site : Except Settings.Failure Service} {web : Request} {place : Place}
    {action : Action} (hplace : Place.ofPath? web.path = some place)
    (haction : Action.of? place web.method = some action) :
    requestOf site web =
      (if action.readsBody then readBody web.body else .ok none) >>= fun body =>
        (if action = .status then .ok 0 else userOf web.user) >>= fun user =>
          (site.mapError fun _ => .internalError) >>= fun service =>
            action.request user body >>= fun r => .ok (service, r) := by
  rw [requestOf]
  simp only [hplace, haction]
  split <;> split <;> cases site <;> rfl

theorem fails_requestOf (site : Except Settings.Failure Service) (web : Request) :
    Fails (requestOf site web) := by
  cases hplace : Place.ofPath? web.path with
  | none =>
    rw [requestOf, hplace]
    exact .of_error (by decide)
  | some place =>
    cases haction : Action.of? place web.method with
    | none =>
      rw [requestOf, hplace]
      simp only [haction]
      exact .of_error (by decide)
    | some action =>
      have hbody : Fails (if action.readsBody then readBody web.body else .ok none) := by
        split
        · exact fails_readBody _
        · exact .of_ok none
      have huser : Fails (if action = .status then .ok 0 else userOf web.user) := by
        split
        · exact .of_ok 0
        · exact fails_userOf _
      have hservice : Fails (site.mapError fun _ => .internalError) := by
        cases site with
        | ok service => exact .of_ok service
        | error e => exact .of_error (show (500 : Nat) ≠ 200 by decide)
      -- the first step that fails answers, so it is enough that each one fails as it should
      rw [requestOf_of_action hplace haction]
      exact hbody.bind fun body => huser.bind fun user => hservice.bind fun service =>
        (fails_request action user body).bind fun r => .of_ok (service, r)

/-! ## Responses -/

theorem status_ofAnswer (answer : Answer) : (Response.ofAnswer answer).status = 200 := by
  cases answer <;> rfl

/-- The response to a request that is refused; a failure of the store is an internal error. -/
def responseTo (e : ServiceError) : Response :=
  match Response.ofError e with
  | .ok response => response
  | .error _ => .internalError

theorem status_responseTo (e : ServiceError) : (responseTo e).status ≠ 200 := by
  cases e with
  | evaluation cause => exact (show (400 : Nat) ≠ 200 by decide)
  | tooLong length limit => exact (show (400 : Nat) ≠ 200 by decide)
  | notFound => exact (show (404 : Nat) ≠ 200 by decide)
  | notArchived => exact (show (400 : Nat) ≠ 200 by decide)
  | store cause => exact (show (500 : Nat) ≠ 200 by decide)

theorem status_forMethod (method : String) (response : Response) :
    (response.forMethod method).status = response.status := by
  rw [Response.forMethod]
  split <;> rfl

section Respond
variable {site : Except Settings.Failure Service} {s : Session} {web : Request}

theorem respond_of_error {response : Response} (h : requestOf site web = .error response) :
    respond site s web = (response.forMethod web.method, s) := by
  rw [respond, attempt, h]

theorem respond_of_ok {service : Service} {r : Reckoner.Request}
    (h : requestOf site web = .ok (service, r)) :
    respond site s web =
      match service.handle s r with
      | (.ok answer, t) => (.ofAnswer answer, t)
      | (.error e, t) => (responseTo e, t) := by
  rw [respond, attempt, h]
  simp only
  cases service.handle s r with
  | mk outcome t =>
    cases outcome with
    | ok answer => rfl
    | error e =>
      simp only [responseTo]
      cases Response.ofError e <;> rfl

theorem respond_of_stopped {response : Response} (h : requestOf site web = .error response) :
    (respond site s web).1.status ≠ 200 ∧ (respond site s web).2 = s := by
  rw [respond_of_error h]
  refine ⟨?_, rfl⟩
  rw [status_forMethod]
  exact fails_requestOf site web response h

theorem respond_of_refused {service : Service} {r : Reckoner.Request} {e : ServiceError}
    (h : requestOf site web = .ok (service, r)) (he : (service.handle s r).1 = .error e) :
    (respond site s web).1.status ≠ 200 ∧ (respond site s web).2 = (service.handle s r).2 := by
  rw [respond_of_ok h]
  rcases hhandle : service.handle s r with ⟨outcome, t⟩
  rw [hhandle] at he
  obtain rfl : outcome = .error e := he
  exact ⟨status_responseTo e, rfl⟩

theorem respond_of_granted {service : Service} {r : Reckoner.Request} {answer : Answer}
    (h : requestOf site web = .ok (service, r)) (ha : (service.handle s r).1 = .ok answer) :
    respond site s web = (.ofAnswer answer, (service.handle s r).2) := by
  rw [respond_of_ok h]
  rcases hhandle : service.handle s r with ⟨outcome, t⟩
  rw [hhandle] at ha
  obtain rfl : outcome = .ok answer := ha
  rfl

/-- The site answers by 200 exactly what comes to the service and is granted. -/
theorem respond_status_eq_iff : (respond site s web).1.status = 200 ↔ ∃ service r answer,
    requestOf site web = .ok (service, r) ∧ (service.handle s r).1 = .ok answer := by
  constructor
  · intro hstatus
    cases hrequest : requestOf site web with
    | error response => exact absurd hstatus (respond_of_stopped hrequest).1
    | ok asked =>
      obtain ⟨service, r⟩ := asked
      cases houtcome : (service.handle s r).1 with
      | error e => exact absurd hstatus (respond_of_refused hrequest houtcome).1
      | ok answer => exact ⟨service, r, answer, rfl, houtcome⟩
  · rintro ⟨service, r, answer, hrequest, houtcome⟩
    rw [respond_of_granted hrequest houtcome]
    exact status_ofAnswer answer

theorem respond_store_of_status (hstatus : (respond site s web).1.status ≠ 200) :
    (respond site s web).2.store = s.store := by
  cases hrequest : requestOf site web with
  | error response => rw [(respond_of_stopped hrequest).2]
  | ok asked =>
    obtain ⟨service, r⟩ := asked
    cases houtcome : (service.handle s r).1 with
    | error e =>
      rw [(respond_of_refused hrequest houtcome).2]
      exact service.handle_error_store houtcome
    | ok answer =>
      exact absurd (respond_status_eq_iff.2 ⟨service, r, answer, hrequest, houtcome⟩) hstatus

end Respond

/-! ## All that fails -/

/-- Whatever fails leaves no trace in the store, and whatever is granted to be saved adds one row. -/
structure LeavesNoTrace (s : Session) : Prop where
  /-- An access to the store that fails. -/
  access : ∀ (c : Call) (e : StoreError), (s.perform c).1 = .error e → (s.perform c).2.store = s.store
  /-- A request to a service that is refused. -/
  refused : ∀ (service : Service) (r : Reckoner.Request) (e : ServiceError),
    (service.handle s r).1 = .error e → (service.handle s r).2.store = s.store
  /-- A request to the site that is not answered by 200. -/
  answered : ∀ (site : Except Settings.Failure Service) (web : Request),
    (respond site s web).1.status ≠ 200 → (respond site s web).2.store = s.store
  /-- The site answers by 200 exactly what comes to the service and is granted. -/
  granted : ∀ (site : Except Settings.Failure Service) (web : Request),
    (respond site s web).1.status = 200 ↔ ∃ service r answer,
      requestOf site web = .ok (service, r) ∧ (service.handle s r).1 = .ok answer
  /-- A request to save that is granted adds one row, with the next number. -/
  saved : ∀ (service : Service) (r : Reckoner.Request) (answer : Answer), r.saves = true →
    (service.handle s r).1 = .ok answer →
      ∃ row : Row, row.id = s.store.lastId + 1 ∧ r.Puts service row answer ∧
        (service.handle s r).2.store = s.store.add row
  /-- So does a request to the site that asks the service to save, and its row is sent back. -/
  posted : ∀ (site : Except Settings.Failure Service) (web : Request) (service : Service)
    (r : Reckoner.Request), requestOf site web = .ok (service, r) → r.saves = true →
      (respond site s web).1.status = 200 →
        ∃ (row : Row) (answer : Answer), row.id = s.store.lastId + 1 ∧ r.Puts service row answer ∧
          (respond site s web).1 = .ofAnswer answer ∧
          (respond site s web).2.store = s.store.add row

/-- Whatever the session is, and whatever is asked of it. -/
theorem leavesNoTrace (s : Session) : LeavesNoTrace s where
  access c e h := by
    rcases hperform : s.perform c with ⟨outcome, t⟩
    rw [hperform] at h
    obtain rfl : outcome = .error e := h
    exact Session.perform_error_store hperform
  refused service r e h := service.handle_error_store h
  answered site web h := respond_store_of_status h
  granted site web := respond_status_eq_iff
  saved service r answer hsaves h := service.handle_save hsaves h
  posted site web service r hrequest hsaves hstatus := by
    obtain ⟨service', r', answer, hrequest', houtcome⟩ := respond_status_eq_iff.1 hstatus
    cases hrequest.symm.trans hrequest'
    obtain ⟨row, hid, hputs, hstore⟩ := service.handle_save hsaves houtcome
    have hresponse : respond site s web = (.ofAnswer answer, (service.handle s r).2) :=
      respond_of_granted hrequest houtcome
    refine ⟨row, answer, hid, hputs, ?_, ?_⟩
    · rw [hresponse]
    · rw [hresponse, hstore]

end Http

end Reckoner
