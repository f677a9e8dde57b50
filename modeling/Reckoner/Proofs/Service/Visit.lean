import Reckoner.Proofs.Service.Handling
import Reckoner.Proofs.Store.Numbering
/-!
Requests under way.

A visit is a request that is being carried out: what was asked, and what is left of its task. It makes one
call at a time, and other visits may make theirs in between. A deletion makes two calls, one that looks
the row up and one that deletes it; a report makes two as well; any other request makes one at most.

What is shown here:
1. `Visit.step_deleteArchived_cases`, `Visit.step_deleting_ending`: how far a deletion comes by a call;
2. `Visit.step_effect`: what a call of a visit does to the table, by the kind of the request;
3. `Visit.eq_deleting_of_step`: a visit comes to delete a row only after it has found it in the archive of
   its user;
4. `Visit.step_step`: two calls without a break are what the service does with the request.
-/

namespace Reckoner

namespace Task

/-- The next call of a task, if there is one left. -/
def step {ρ : Type} : Task ρ → Session → Task ρ × Session
  | .done r, s => (.done r, s)
  | .call c next, s => (next (s.perform c).1, (s.perform c).2)

/-- A task that makes one call at most. -/
def Brief {ρ : Type} : Task ρ → Prop
  | .done _ => True
  | .call _ next => ∀ answer, ∃ r, next answer = .done r

theorem Brief.step_eq {ρ : Type} {t : Task ρ} (h : t.Brief) (s : Session) :
    t.step s = (.done (t.run s).1, (t.run s).2) := by
  cases t with
  | done r => rfl
  | call c next =>
    obtain ⟨r, hr⟩ := h (s.perform c).1
    rw [step, run, hr]
    rfl

end Task

namespace Errand

theorem map_ask {ρ σ : Type} (f : ρ → σ) (c : Call) (next : c.Answer → Errand ρ) :
    (ask c next).map (·.map f) = ask c fun answer => (next answer).map (·.map f) := by
  simp only [ask, Task.map]
  congr 1
  funext answer
  cases answer <;> rfl

theorem step_ask {ρ : Type} (c : Call) (next : c.Answer → Errand ρ) (s : Session) :
    (ask c next).step s =
      match s.perform c with
      | (.ok answer, t) => (next answer, t)
      | (.error e, t) => (refuse (.store e), t) := by
  simp only [ask, Task.step]
  cases s.perform c with
  | mk outcome t => cases outcome <;> rfl

end Errand

/-! ## Tasks by the calls they make -/

theorem Errand.brief_ask {ρ : Type} {c : Call} {next : c.Answer → Errand ρ}
    (h : ∀ answer, ∃ r, next answer = .done r) : (ask c next).Brief := by
  intro outcome
  cases outcome with
  | ok answer => exact h answer
  | error e => exact ⟨_, rfl⟩

namespace Service

/-- What is left of a deletion when the row has been found in the archive. -/
def removal (id : Option Int) : Errand Answer := .ask (.delete id) fun _ => .grant .deleted

/-- What is left of a report when the clock has been read. -/
def counting (service : Service) (t : Timestamp) : Errand Answer :=
  .ask .count fun n => .grant (.status ⟨t, service.location, n, service.limit⟩)

end Service

namespace Request
variable (service : Service)

theorem task_calculate (user : Option Int) (expression : Option String) :
    (calculate user expression).task service =
      match service.evaluate expression with
      | .error e => .refuse e
      | .ok result =>
        .ask (.save ⟨user, expression, some result, .history⟩ none) fun r =>
          .grant (.calculated r) := by
  rw [task, Service.calculate]
  cases service.evaluate expression with
  | error e => rfl
  | ok result => exact Errand.map_ask _ _ _

theorem task_deleteArchived (user id : Option Int) :
    (deleteArchived user id).task service =
      .ask (.find id user) fun
        | none => .refuse .notFound
        | some record =>
          match record.shelf with
          | .history => .refuse .notArchived
          | .archive => Service.removal id := by
  rw [task, Service.deleteArchived, Errand.map_ask]
  congr 1
  funext found
  cases found with
  | none => rfl
  | some record =>
    cases hshelf : record.shelf with
    | history => simp only [hshelf, Errand.refuse, Task.map, Except.map]
    | archive =>
      simp only [hshelf, Errand.map_ask]
      rfl

theorem task_status :
    status.task service = .ask .now fun t => service.counting t := by
  rw [task, Service.report, Errand.map_ask]
  congr 1
  funext t
  exact Errand.map_ask _ _ _

theorem brief_calculate (user : Option Int) (expression : Option String) :
    ((calculate user expression).task service).Brief := by
  rw [task_calculate]
  cases service.evaluate expression with
  | error e => trivial
  | ok result => exact Errand.brief_ask fun _ => ⟨_, rfl⟩

theorem brief_archiveCalculation (user : Option Int) (expression result : Option String) :
    ((archiveCalculation user expression result).task service).Brief :=
  Errand.brief_ask fun _ => ⟨_, rfl⟩

theorem brief_listing (user : Option Int) (shelf : Shelf) :
    ((listing user shelf).task service).Brief := by
  cases shelf <;> exact Errand.brief_ask fun _ => ⟨_, rfl⟩

theorem brief_clearHistory (user : Option Int) : ((clearHistory user).task service).Brief :=
  Errand.brief_ask fun _ => ⟨_, rfl⟩

theorem task_cases (r : Request) :
    (r.task service).Brief ∨ (∃ user id, r = .deleteArchived user id) ∨ r = .status := by
  cases r with
  | calculate user expression => exact .inl (brief_calculate service user expression)
  | history user => exact .inl (brief_listing service user .history)
  | archive user => exact .inl (brief_listing service user .archive)
  | archiveCalculation user expression result =>
    exact .inl (brief_archiveCalculation service user expression result)
  | deleteArchived user id => exact .inr (.inl ⟨user, id, rfl⟩)
  | clearHistory user => exact .inl (brief_clearHistory service user)
  | status => exact .inr (.inr rfl)

end Request

/-! ## Visits -/

/-- A request under way: what was asked, and what is left of its task. -/
structure Visit where
  request : Request
  task : Errand Answer

namespace Visit

/-- A visit that has made no call yet. -/
def arriving (service : Service) (r : Request) : Visit := ⟨r, r.task service⟩

/-- A visit whose request has been answered. -/
def ended (r : Request) (outcome : Except ServiceError Answer) : Visit := ⟨r, .done outcome⟩

/-- A visit that is about to delete what it has found. -/
def deleting (user id : Option Int) : Visit := ⟨.deleteArchived user id, Service.removal id⟩

/-- A visit and the session after its next call. -/
def step (v : Visit) (s : Session) : Visit × Session :=
  (⟨v.request, (v.task.step s).1⟩, (v.task.step s).2)

/-- The record that a visit has been answered with, if it was one that saves. -/
def record? (v : Visit) : Option Record :=
  match v.task with
  | .done (.ok (.calculated r)) => some r
  | .done (.ok (.archived r)) => some r
  | _ => none

/-- How far a visit can have come. -/
inductive Stage (service : Service) : Visit → Prop
  | arriving (r : Request) : Stage service (.arriving service r)
  | deleting (user id : Option Int) : Stage service (.deleting user id)
  | counting (t : Timestamp) : Stage service ⟨.status, service.counting t⟩
  | ended (r : Request) (outcome : Except ServiceError Answer) : Stage service (.ended r outcome)

/-- What the turn of a visit does to the table: nothing; a save adds the row whose record it answers with;
clearing takes a history, and deleting the row with a number. -/
inductive Effect (v : Visit) (s : Store) : Visit → Store → Prop
  | rested : Effect v s v s
  | read (w : Visit) (hrecord : w.record? = none) : Effect v s w s
  | saved (w : Visit) (row : Row) (hid : row.id = s.lastId + 1)
      (hrecord : w.record? = some row.record) : Effect v s w (s.add row)
  | cleared (w : Visit) (user : Int) (hrequest : v.request = .clearHistory (some user))
      (hrecord : w.record? = none) : Effect v s w (s.remove (Row.isOf user .history)).2
  | deleted (w : Visit) (user : Option Int) (id : Int) (hv : v = .deleting user (some id))
      (hrecord : w.record? = none) : Effect v s w (s.remove (Row.hasId id)).2

/-- How a deletion comes to its end, by the visit before its last call, the table then, and the answer. -/
inductive Ending (service : Service) (s : Store) (user id : Option Int) :
    Visit → Except ServiceError Answer → Prop
  | unread (e : StoreError) (h : s.get? id user = .error e) :
    Ending service s user id (.arriving service (.deleteArchived user id)) (.error (.store e))
  | missing (h : s.get? id user = .ok none) :
    Ending service s user id (.arriving service (.deleteArchived user id)) (.error .notFound)
  | shelved (row : Row) (h : s.get? id user = .ok (some row)) (hshelf : row.shelf = .history) :
    Ending service s user id (.arriving service (.deleteArchived user id)) (.error .notArchived)
  | unwritten (e : StoreError) (h : s.delete id = .error e) :
    Ending service s user id (.deleting user id) (.error (.store e))
  | deleted (t : Store) (h : s.delete id = .ok t) :
    Ending service s user id (.deleting user id) (.ok .deleted)

theorem ended_injective {q r : Request} {o p : Except ServiceError Answer}
    (h : ended q o = ended r p) : q = r ∧ o = p := by
  cases h
  exact ⟨rfl, rfl⟩

theorem ended_ne_deleting (r : Request) (outcome : Except ServiceError Answer)
    (user id : Option Int) : ended r outcome ≠ deleting user id := by
  intro h
  cases congrArg Visit.task h

section Steps
variable (service : Service) (s : Session)

theorem step_ended (r : Request) (outcome : Except ServiceError Answer) :
    (ended r outcome).step s = (ended r outcome, s) := rfl

theorem step_of_brief {r : Request} (h : (r.task service).Brief) :
    (arriving service r).step s = (ended r (service.handle s r).1, (service.handle s r).2) := by
  rw [step, arriving, h.step_eq s]
  rfl

theorem step_deleteArchived (user id : Option Int) :
    (arriving service (.deleteArchived user id)).step s =
      match s.store.get? id user with
      | .error e => (ended (.deleteArchived user id) (.error (.store e)), s)
      | .ok none => (ended (.deleteArchived user id) (.error .notFound), s)
      | .ok (some row) =>
        match row.shelf with
        | .history => (ended (.deleteArchived user id) (.error .notArchived), s)
        | .archive => (deleting user id, s) := by
  rw [step, arriving, Request.task_deleteArchived, Errand.step_ask, Session.perform]
  cases s.store.get? id user with
  | error e => rfl
  | ok found =>
    cases found with
    | none => rfl
    | some row =>
      obtain ⟨_, _, _, _, _, shelf⟩ := row
      cases shelf <;> rfl

theorem step_deleting (user id : Option Int) :
    (deleting user id).step s =
      match s.store.delete id with
      | .error e => (ended (.deleteArchived user id) (.error (.store e)), s)
      | .ok store => (ended (.deleteArchived user id) (.ok .deleted), { s with store := store }) := by
  rw [step, deleting, Service.removal, Errand.step_ask, Session.perform]
  cases s.store.delete id <;> rfl

/-- The first call of a deletion ends it, or finds a row in the archive of the user. -/
theorem step_deleteArchived_cases (user id : Option Int) :
    (∃ outcome, Ending service s.store user id (arriving service (.deleteArchived user id)) outcome ∧
        (arriving service (.deleteArchived user id)).step s =
          (ended (.deleteArchived user id) outcome, s)) ∨
      ∃ row ∈ s.store.rows, user = some row.user ∧ id = some (row.id : Int) ∧ row.shelf = .archive ∧
        (arriving service (.deleteArchived user id)).step s = (deleting user id, s) := by
  rw [step_deleteArchived]
  cases hfind : s.store.get? id user with
  | error e => exact .inl ⟨_, .unread e hfind, rfl⟩
  | ok found =>
    cases found with
    | none => exact .inl ⟨_, .missing hfind, rfl⟩
    | some row =>
      cases hshelf : row.shelf with
      | history =>
        refine .inl ⟨_, .shelved row hfind hshelf, ?_⟩
        simp only [hshelf]
      | archive =>
        obtain ⟨hrow, huser, hid⟩ := Store.mem_of_get? hfind
        refine .inr ⟨row, hrow, hid, huser, hshelf, ?_⟩
        simp only [hshelf]

theorem step_deleting_ending (user id : Option Int) :
    ∃ outcome t, Ending service s.store user id (deleting user id) outcome ∧
      (deleting user id).step s = (ended (.deleteArchived user id) outcome, t) := by
  rw [step_deleting]
  cases hdelete : s.store.delete id with
  | error e => exact ⟨_, _, .unwritten e hdelete, rfl⟩
  | ok t => exact ⟨_, _, .deleted t hdelete, rfl⟩

theorem step_status :
    (arriving service .status).step s =
      match s.clock.reading? with
      | none => (ended .status (.error (.store .dateOutOfRange)), s.tick)
      | some t => (⟨.status, service.counting t⟩, s.tick) := by
  rw [step, arriving, Request.task_status, Errand.step_ask, Session.perform]
  cases s.clock.reading? <;> rfl

theorem step_counting (t : Timestamp) :
    (⟨.status, service.counting t⟩ : Visit).step s =
      match s.store.count with
      | .error e => (ended .status (.error (.store e)), s)
      | .ok n => (ended .status (.ok (.status ⟨t, service.location, n, service.limit⟩)), s) := by
  rw [step, Service.counting, Errand.step_ask, Session.perform]
  cases s.store.count <;> rfl

end Steps

/-! ## What one turn does -/

section Effects
variable (service : Service) (s : Session)

theorem effect_calculate (user : Option Int) (expression : Option String) :
    let v := arriving service (.calculate user expression)
    Effect v s.store (v.step s).1 (v.step s).2.store := by
  intro v
  rw [step_of_brief service s (Request.brief_calculate service user expression)]
  rcases service.handle_calculate_cases s user expression with
    ⟨e, t, hhandle, hstore⟩ | ⟨row, -, -, -, -, hid, hhandle⟩
  · rw [hhandle, hstore]
    exact .read _ rfl
  · rw [hhandle]
    exact .saved _ row hid rfl

theorem effect_archiveCalculation (user : Option Int) (expression result : Option String) :
    let v := arriving service (.archiveCalculation user expression result)
    Effect v s.store (v.step s).1 (v.step s).2.store := by
  intro v
  rw [step_of_brief service s (Request.brief_archiveCalculation service user expression result)]
  rcases service.handle_archiveCalculation_cases s user expression result with
    ⟨e, t, hhandle, hstore⟩ | ⟨row, -, -, -, -, hid, hhandle⟩
  · rw [hhandle, hstore]
    exact .read _ rfl
  · rw [hhandle]
    exact .saved _ row hid rfl

theorem effect_listing (user : Option Int) (shelf : Shelf) :
    let v := arriving service (.listing user shelf)
    Effect v s.store (v.step s).1 (v.step s).2.store := by
  intro v
  rw [step_of_brief service s (Request.brief_listing service user shelf), service.handle_listing]
  cases s.store.list user shelf <;> exact .read _ rfl

theorem effect_clearHistory (user : Option Int) :
    let v := arriving service (.clearHistory user)
    Effect v s.store (v.step s).1 (v.step s).2.store := by
  intro v
  rw [step_of_brief service s (Request.brief_clearHistory service user)]
  rcases service.handle_clearHistory_cases s user with
    ⟨e, hhandle⟩ | ⟨n, -, hhandle⟩ | ⟨n, u, rfl, hhandle⟩
  · rw [hhandle]
    exact .read _ rfl
  · rw [hhandle]
    exact .read _ rfl
  · rw [hhandle]
    exact .cleared _ u rfl rfl

theorem effect_deleteArchived (user id : Option Int) :
    let v := arriving service (.deleteArchived user id)
    Effect v s.store (v.step s).1 (v.step s).2.store := by
  intro v
  rcases step_deleteArchived_cases service s user id with
    ⟨outcome, hending, hended⟩ | ⟨row, -, -, -, -, hdeleting⟩
  · rw [hended]
    cases hending <;> exact .read _ rfl
  · rw [hdeleting]
    exact .read _ rfl

theorem effect_deleting (user id : Option Int) :
    let v := deleting user id
    Effect v s.store (v.step s).1 (v.step s).2.store := by
  intro v
  rw [step_deleting]
  cases hdelete : s.store.delete id with
  | error e => exact .read _ rfl
  | ok store =>
    cases id with
    | none =>
      obtain rfl := Store.eq_of_delete_none hdelete
      exact .read _ rfl
    | some id =>
      obtain rfl := Store.eq_of_delete hdelete
      exact .deleted _ user id rfl rfl

theorem step_effect {v : Visit} (h : v.Stage service) :
    Effect v s.store (v.step s).1 (v.step s).2.store := by
  cases h with
  | ended r outcome => exact .rested
  | deleting user id => exact effect_deleting s user id
  | counting t =>
    rw [step_counting]
    cases s.store.count <;> exact .read _ rfl
  | arriving r =>
    cases r with
    | calculate user expression => exact effect_calculate service s user expression
    | archiveCalculation user expression result =>
      exact effect_archiveCalculation service s user expression result
    | history user => exact effect_listing service s user .history
    | archive user => exact effect_listing service s user .archive
    | clearHistory user => exact effect_clearHistory service s user
    | deleteArchived user id => exact effect_deleteArchived service s user id
    | status =>
      rw [step_status]
      cases s.clock.reading? <;> exact .read _ rfl

theorem Stage.step {v : Visit} (h : v.Stage service) : (v.step s).1.Stage service := by
  cases h with
  | ended r outcome => exact .ended _ _
  | deleting user id =>
    obtain ⟨outcome, t, -, hended⟩ := step_deleting_ending service s user id
    rw [hended]
    exact .ended _ _
  | counting t =>
    rw [step_counting]
    cases s.store.count <;> exact .ended _ _
  | arriving r =>
    rcases r.task_cases service with hbrief | ⟨user, id, rfl⟩ | rfl
    · rw [step_of_brief service s hbrief]
      exact .ended _ _
    · rcases step_deleteArchived_cases service s user id with
        ⟨outcome, -, hended⟩ | ⟨row, -, -, -, -, hdeleting⟩
      · rw [hended]
        exact .ended _ _
      · rw [hdeleting]
        exact .deleting _ _
    · rw [step_status]
      cases s.clock.reading? with
      | none => exact .ended _ _
      | some t => exact .counting t

/-- Two calls are as many as any request makes. -/
theorem step_step (r : Request) :
    ((arriving service r).step s).1.step ((arriving service r).step s).2 =
      (ended r (service.handle s r).1, (service.handle s r).2) := by
  rcases r.task_cases service with hbrief | ⟨user, id, rfl⟩ | rfl
  · rw [step_of_brief service s hbrief]
    rfl
  · rw [step_deleteArchived, service.handle_deleteArchived]
    cases s.store.get? id user with
    | error e => rfl
    | ok found =>
      cases found with
      | none => rfl
      | some row =>
        cases hshelf : row.shelf with
        | history => simp only [hshelf, step_ended]
        | archive =>
          simp only [hshelf, step_deleting]
          cases s.store.delete id <;> rfl
  · rw [step_status, service.handle_status]
    cases s.clock.reading? with
    | none => rfl
    | some t =>
      simp only [step_counting, Session.tick]
      cases s.store.count <;> rfl

/-- A visit comes to delete a row only after it has found it in the archive of its user. -/
theorem eq_deleting_of_step {v : Visit} (h : v.Stage service) {user id : Option Int}
    (hstep : (v.step s).1 = .deleting user id) :
    v = .arriving service (.deleteArchived user id) ∧
      ∃ row ∈ s.store.rows, user = some row.user ∧ id = some (row.id : Int) ∧
        row.shelf = .archive := by
  -- the request of a visit stays the same, so only a deletion can have come here
  have hrequest : v.request = .deleteArchived user id := congrArg Visit.request hstep
  cases h with
  | ended r outcome => exact absurd hstep (ended_ne_deleting _ _ _ _)
  | counting t => cases hrequest
  | deleting u i =>
    obtain ⟨outcome, t, -, hended⟩ := step_deleting_ending service s u i
    rw [hended] at hstep
    exact absurd hstep (ended_ne_deleting _ _ _ _)
  | arriving r =>
    obtain rfl : r = .deleteArchived user id := hrequest
    rcases step_deleteArchived_cases service s user id with
      ⟨outcome, -, hended⟩ | ⟨row, hrow, huser, hid, hshelf, -⟩
    · rw [hended] at hstep
      exact absurd hstep (ended_ne_deleting _ _ _ _)
    · exact ⟨rfl, row, hrow, huser, hid, hshelf⟩

end Effects

end Visit

end Reckoner
