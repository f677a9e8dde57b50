import Reckoner.Proofs.Expression.Settling
import Reckoner.Proofs.Http.Refusal
import Reckoner.Proofs.Quantity
import Reckoner.Proofs.Service.Ledger
/-!
Where the rows of the table come from.

A service is asked directly and over HTTP, by any users and in any order, while the clock may show
anything and the store may be closed and opened again. Whatever happens, a row that stands in the table
was put there by a request to save that was granted, and it holds what that request said. What is known
of a row is therefore what its request was checked for: a calculation has been evaluated and is not
longer than the limit, and nothing at all has been asked of what was put into the archive.

What is shown here:
1. `Service.mem_rows_handle`: what one request can do to the table;
2. `Course.Run.accounted`: in every run each row is put by a granted request of the run;
3. `Course.Run.history_row`: a row of the history is a calculation as it was entered, within the limit,
   with the value of its expression;
4. `Course.Run.long_row`: a row beyond the limit was put into the archive.
-/

namespace Reckoner

/-! ## One request -/

namespace Service

theorem evaluate_eq_ok_iff {service : Service} {expression result : String} :
    service.evaluate (some expression) = .ok result ↔
      service.limit.isBelow expression.length = false ∧ Reckoner.evaluate expression = .ok result := by
  simp only [evaluate, Option.getD_some]
  by_cases hbelow : service.limit.isBelow expression.length = true
  · simp [hbelow]
  · cases hvalue : Reckoner.evaluate expression <;> simp [hbelow]

theorem length_le_of_evaluate {service : Service} {limit : Int} (hlimit : service.limit.IsInteger limit)
    {expression result : String} (h : service.evaluate (some expression) = .ok result) :
    expression.length ≤ limit := by
  have hbelow := (evaluate_eq_ok_iff.1 h).1
  refine Int.not_lt.1 fun hlong => ?_
  rw [(Quantity.isBelow_iff hlimit _).2 hlong] at hbelow
  cases hbelow

theorem mem_rows_of_not_saves {service : Service} {s : Session} {r : Request} (hsaves : r.saves = false)
    {row : Row} (hrow : row ∈ (service.handle s r).2.store.rows) : row ∈ s.store.rows := by
  cases r with
  | calculate user expression => cases hsaves
  | archiveCalculation user expression result => cases hsaves
  | history user => exact (service.handle_listing_session s user .history) ▸ hrow
  | archive user => exact (service.handle_listing_session s user .archive) ▸ hrow
  | deleteArchived user id =>
    rcases service.handle_deleteArchived_cases s user id with
      ⟨e, hhandle⟩ | ⟨taken, -, -, -, -, hhandle⟩
    · rw [hhandle] at hrow
      exact hrow
    · rw [hhandle] at hrow
      exact s.store.remove_subset _ row hrow
  | clearHistory user =>
    rcases service.handle_clearHistory_cases s user with
      ⟨e, hhandle⟩ | ⟨n, -, hhandle⟩ | ⟨n, u, -, hhandle⟩
    · rw [hhandle] at hrow
      exact hrow
    · rw [hhandle] at hrow
      exact hrow
    · rw [hhandle] at hrow
      exact s.store.remove_subset _ row hrow
  | status =>
    rw [service.handle_status_store] at hrow
    exact hrow

/-- After a request a row of the table was there before, or the request put it there and was granted. -/
theorem mem_rows_handle {service : Service} {s : Session} {r : Request} {row : Row}
    (hrow : row ∈ (service.handle s r).2.store.rows) :
    row ∈ s.store.rows ∨
      ∃ answer, (service.handle s r).1 = .ok answer ∧ r.Puts service row answer := by
  cases hsaves : r.saves with
  | false => exact .inl (mem_rows_of_not_saves hsaves hrow)
  | true =>
    cases houtcome : (service.handle s r).1 with
    | error e =>
      rw [service.handle_error_store houtcome] at hrow
      exact .inl hrow
    | ok answer =>
      obtain ⟨saved, -, hputs, hstore⟩ := service.handle_save hsaves houtcome
      rw [hstore] at hrow
      rcases List.mem_append.1 hrow with hold | hnew
      · exact .inl hold
      · obtain rfl := List.mem_singleton.1 hnew
        exact .inr ⟨answer, rfl, hputs⟩

end Service

namespace Http

/-- What a request to the site of a service asks of it, if it comes to the service. -/
def asked? (service : Service) (web : Request) : Option Reckoner.Request :=
  match requestOf (.ok service) web with
  | .ok (_, r) => some r
  | .error _ => none

theorem service_of_requestOf {service asked : Service} {web : Request} {r : Reckoner.Request}
    (h : requestOf (.ok service) web = .ok (asked, r)) : asked = service := by
  -- only where a method does something at a place is anything asked at all
  cases hplace : Place.ofPath? web.path with
  | none =>
    rw [requestOf, hplace] at h
    cases h
  | some place =>
    cases haction : Action.of? place web.method with
    | none =>
      rw [requestOf, hplace] at h
      simp only [haction] at h
      cases h
    | some action =>
      rw [requestOf_of_action hplace haction] at h
      obtain ⟨body, -, h⟩ := bind_eq_ok.1 h
      obtain ⟨user, -, h⟩ := bind_eq_ok.1 h
      obtain ⟨asking, hasking, h⟩ := bind_eq_ok.1 h
      obtain ⟨request, -, h⟩ := bind_eq_ok.1 h
      cases hasking
      cases h
      rfl

theorem respond_session (service : Service) (s : Session) (web : Request) :
    (respond (.ok service) s web).2 =
      match asked? service web with
      | some r => (service.handle s r).2
      | none => s := by
  rw [asked?]
  cases hrequest : requestOf (.ok service) web with
  | error response => rw [respond_of_error hrequest]
  | ok asked =>
    obtain ⟨other, r⟩ := asked
    obtain rfl := service_of_requestOf hrequest
    rw [respond_of_ok hrequest]
    cases hhandle : other.handle s r with
    | mk outcome t =>
      simp only [hhandle]
      cases outcome <;> rfl

end Http

/-! ## Runs -/

namespace Course

/-- One more request, over HTTP. -/
def sent (service : Service) (c : Course) (web : Http.Request) : Course :=
  ⟨c.events ++ (Http.asked? service web).toList.map fun r => ⟨r, (service.handle c.session r).1⟩,
    (Http.respond (.ok service) c.session web).2⟩

/-- The runs of a service from an empty store on. -/
inductive Run (service : Service) : Course → Prop
  | begun (durable : Bool) (clock : Clock) : Run service ⟨[], ⟨.new durable, clock⟩⟩
  | asked {c : Course} (h : Run service c) (r : Request) : Run service (c.next service r)
  | sent {c : Course} (h : Run service c) (web : Http.Request) : Run service (c.sent service web)
  | timed {c : Course} (h : Run service c) (clock : Clock) :
    Run service ⟨c.events, { c.session with clock := clock }⟩
  | closed {c : Course} (h : Run service c) : Run service ⟨c.events, c.session.close⟩
  | reopened {c : Course} (h : Run service c) : Run service ⟨c.events, c.session.reopen⟩

/-- A request of the run was granted and put a row into the table. -/
def Accounts (service : Service) (events : List Event) (row : Row) : Prop :=
  ∃ r answer, ⟨r, .ok answer⟩ ∈ events ∧ r.Puts service row answer

/-- Every row of the table is put by a granted request. -/
def Accounted (service : Service) (c : Course) : Prop :=
  ∀ row ∈ c.session.store.rows, Accounts service c.events row

variable {service : Service} {c : Course}

theorem Accounts.append {events : List Event} {row : Row} (h : Accounts service events row)
    (more : List Event) : Accounts service (events ++ more) row := by
  obtain ⟨r, answer, hmem, hputs⟩ := h
  exact ⟨r, answer, List.mem_append_left _ hmem, hputs⟩

theorem Accounted.next (h : c.Accounted service) (r : Request) : (c.next service r).Accounted service := by
  intro row hrow
  rcases Service.mem_rows_handle hrow with hold | ⟨answer, houtcome, hputs⟩
  · exact (h row hold).append _
  · refine ⟨r, answer, ?_, hputs⟩
    rw [← houtcome]
    exact List.mem_append_right _ List.mem_cons_self

/-- Over HTTP a request comes to the service as it does otherwise, or nothing happens. -/
theorem sent_eq (service : Service) (c : Course) (web : Http.Request) :
    c.sent service web =
      match Http.asked? service web with
      | some r => c.next service r
      | none => c := by
  rw [sent, Http.respond_session]
  cases Http.asked? service web with
  | none => simp
  | some r => rfl

namespace Run

/-- In every run each row of the table is put by a granted request of the run. -/
theorem accounted (h : c.Run service) : c.Accounted service := by
  -- the rows of a run are those of the run before it, but for what a request adds to them
  induction h with
  | begun durable clock => exact nofun
  | asked _ r ih => exact ih.next r
  | @sent c _ web ih =>
    rw [sent_eq]
    cases Http.asked? service web with
    | none => exact ih
    | some r => exact ih.next r
  | timed _ clock ih => exact ih
  | closed _ ih => exact ih
  | @reopened c _ ih =>
    intro row hrow
    simp only [Session.reopen, Store.reopen] at hrow
    split at hrow
    · exact ih row hrow
    · cases hrow

/-- In every run a row of the history was put by a calculation that was granted, and a row of the archive
by a request that said all that it holds. -/
theorem row_cases (h : c.Run service) {row : Row} (hrow : row ∈ c.session.store.rows) :
    (row.shelf = .history ∧ service.evaluate (some row.expression) = .ok row.result ∧
        ⟨.calculate (some row.user) (some row.expression), .ok (.calculated row.record)⟩ ∈ c.events) ∨
      (row.shelf = .archive ∧
        ⟨.archiveCalculation (some row.user) (some row.expression) (some row.result),
          .ok (.archived row.record)⟩ ∈ c.events) := by
  obtain ⟨r, answer, hevent, hputs⟩ := h.accounted row hrow
  cases r with
  | calculate user expression =>
    obtain ⟨rfl, rfl, hvalue, hshelf, rfl⟩ := hputs
    exact .inl ⟨hshelf, hvalue, hevent⟩
  | archiveCalculation user expression result =>
    obtain ⟨rfl, rfl, rfl, hshelf, rfl⟩ := hputs
    exact .inr ⟨hshelf, hevent⟩
  | history user => cases hputs
  | archive user => cases hputs
  | deleteArchived user id => cases hputs
  | clearHistory user => cases hputs
  | status => cases hputs

/-- A row of the history is a calculation that was granted: its expression is the one that was entered,
within the limit, and its result is the value of that expression. -/
theorem history_row (h : c.Run service) {row : Row} (hrow : row ∈ c.session.store.rows)
    (hshelf : row.shelf = .history) :
    service.limit.isBelow row.expression.length = false ∧
      (∀ limit, service.limit.IsInteger limit → row.expression.length ≤ limit) ∧
      Reckoner.evaluate row.expression = .ok row.result ∧
      ⟨.calculate (some row.user) (some row.expression), .ok (.calculated row.record)⟩ ∈ c.events := by
  rcases h.row_cases hrow with ⟨-, hvalue, hevent⟩ | ⟨harchive, -⟩
  · obtain ⟨hbelow, hresult⟩ := Service.evaluate_eq_ok_iff.1 hvalue
    exact ⟨hbelow, fun limit hlimit => Service.length_le_of_evaluate hlimit hvalue, hresult, hevent⟩
  · rw [hshelf] at harchive
    cases harchive

/-- An eighth, entered with white space, stands in the history as it was entered. -/
theorem history_row_of_eighth :
    let service : Service := ⟨.whole 500, ":memory:"⟩
    let start : Course := ⟨[], ⟨.new false, ⟨0, 1⟩⟩⟩
    let c := start.next service (.calculate (some 1) (some "1 / 8"))
    c.Run service ∧ ∃ row ∈ c.session.store.rows, row.shelf = .history ∧ row.expression = "1 / 8" ∧
      row.result = "0.125" ∧ row.expression.length ≤ (500 : Int) ∧
        Reckoner.evaluate row.expression = .ok row.result := by
  intro service start c
  have hrun : c.Run service := (Run.begun false ⟨0, 1⟩).asked _
  have hrows : ∃ row ∈ c.session.store.rows, row.shelf = .history ∧ row.expression = "1 / 8" ∧
      row.result = "0.125" := by decide +kernel
  obtain ⟨row, hrow, hshelf, hexpression, hresult⟩ := hrows
  obtain ⟨-, hlength, hvalue, -⟩ := hrun.history_row hrow hshelf
  exact ⟨hrun, row, hrow, hshelf, hexpression, hresult, hlength 500 rfl, hvalue⟩

/-- A row beyond the limit was put into the archive, where no length is asked for, by a request that said
all that it holds. -/
theorem long_row (h : c.Run service) {limit : Int} (hlimit : service.limit.IsInteger limit) {row : Row}
    (hrow : row ∈ c.session.store.rows) :
    row.expression.length ≤ limit ∨
      (row.shelf = .archive ∧
        ⟨.archiveCalculation (some row.user) (some row.expression) (some row.result),
          .ok (.archived row.record)⟩ ∈ c.events) := by
  rcases h.row_cases hrow with ⟨-, hvalue, -⟩ | harchived
  · exact .inl (Service.length_le_of_evaluate hlimit hvalue)
  · exact .inr harchived

/-- The run in which 501 digits are put into the archive of a user. -/
def overlong : Course :=
  next ⟨.whole 500, ":memory:"⟩ ⟨[], ⟨.new false, ⟨0, 1⟩⟩⟩
    (.archiveCalculation (some 1) (some (String.ofList (List.replicate 501 '1'))) (some "1"))

theorem run_overlong : overlong.Run ⟨.whole 500, ":memory:"⟩ := (Run.begun false ⟨0, 1⟩).asked _

theorem exists_row_overlong : ∃ row ∈ overlong.session.store.rows, row.expression.length = 501 := by
  have hrows : overlong.session.store.rows.map (·.expression) =
      [String.ofList (List.replicate 501 '1')] := rfl
  have hmem : String.ofList (List.replicate 501 '1') ∈
      overlong.session.store.rows.map (·.expression) := by
    rw [hrows]
    exact List.mem_singleton_self _
  obtain ⟨row, hrow, hexpression⟩ := List.mem_map.1 hmem
  refine ⟨row, hrow, ?_⟩
  rw [hexpression, String.length_ofList, List.length_replicate]

/-- So it is with a row of 501 characters where 500 are allowed. -/
theorem long_row_of_overlong :
    (Quantity.whole 500).IsInteger 500 ∧ ∃ row ∈ overlong.session.store.rows,
      ⟨.archiveCalculation (some row.user) (some row.expression) (some row.result),
        .ok (.archived row.record)⟩ ∈ overlong.events := by
  obtain ⟨row, hrow, hlength⟩ := exists_row_overlong
  have hlimit : (Quantity.whole 500).IsInteger 500 := rfl
  refine ⟨hlimit, row, hrow, ?_⟩
  rcases run_overlong.long_row hlimit hrow with hshort | ⟨-, hevent⟩
  · omega
  · exact hevent

/-- Not every row is within the limit. -/
theorem not_within_limit :
    ¬∀ (service : Service) (limit : Int) (c : Course), service.limit.IsInteger limit →
      c.Run service → ∀ row ∈ c.session.store.rows, row.expression.length ≤ limit := by
  intro h
  obtain ⟨row, hrow, hlength⟩ := exists_row_overlong
  have hlimit : (Quantity.whole 500).IsInteger 500 := rfl
  have hshort := h _ _ _ hlimit run_overlong row hrow
  omega

end Run

end Course

end Reckoner
