import Reckoner.Proofs.Service.Crowd
/-!
What is saved stays until its owner takes it out.

Any number of requests are under way and their calls are mixed in any order. A deletion looks its row up
and deletes by number later, without looking again; in between anything may happen. Still no row leaves the
table but by the will of its owner: the number of a row is never given to another row, so the row that is
deleted is the one that was looked up.

What is shown here:
1. `Service.lookedUp_of_deleting`: a visit that is about to delete has looked up a row of its user;
2. `Service.dismissal_of_leaving`: a turn that takes a row from the table is one of its owner;
3. `Service.crowd_keeps`: so every row that was ever saved is in the table, unchanged, or its owner has
   taken it out.
-/

namespace Reckoner

namespace Service
variable (service : Service) (s : Session)

/-- A visit to delete a row from the archive of its owner has made its first call at a moment when the row
was in the table. -/
def LookedUp (turns : List Turn) (i : Nat) (row : Row) : Prop :=
  ∃ before between, turns = before ++ .proceed i :: between ∧
    (service.crowd s before).visits[i]? =
      some (.arriving service (.deleteArchived (some row.user) (some row.id))) ∧
    row ∈ (service.crowd s before).store.rows

/-- After some turns, the next call of a visit takes a row from the table, as its owner wants it: the visit
clears the history in which the row is, or it deletes the row from the archive by its number, and has
looked it up before. -/
structure Dismissal (turns : List Turn) (i : Nat) (row : Row) : Prop where
  present : row ∈ (service.crowd s turns).store.rows
  absent : row ∉ (service.crowd s (turns ++ [.proceed i])).store.rows
  cause : ∃ v, (service.crowd s turns).visits[i]? = some v ∧
    (v.request = .clearHistory (some row.user) ∧ row.shelf = .history ∨
      v.request = .deleteArchived (some row.user) (some row.id) ∧ row.shelf = .archive ∧
        service.LookedUp s turns i row)

/-- What the table owes to the rows that were ever saved. -/
structure Keeps (turns : List Turn) : Prop where
  /-- A visit that answers with a record has put the row of that record into the table, with the next
  number. -/
  saved : ∀ i v record, (service.crowd s turns).visits[i]? = some v → v.record? = some record →
    ∃ earlier later row, turns = earlier ++ .proceed i :: later ∧ row.record = record ∧
      row.id = (service.crowd s earlier).store.lastId + 1 ∧
      row ∈ (service.crowd s (earlier ++ [.proceed i])).store.rows
  /-- A row keeps all that it consists of, and no other row ever has its number. -/
  unchanged : ∀ earlier later, turns = earlier ++ later →
    ∀ q ∈ (service.crowd s earlier).store.rows, ∀ r ∈ (service.crowd s turns).store.rows,
      q.id = r.id → q = r
  /-- A row stays in the table, or a visit of its owner has taken it out for ever. -/
  kept : ∀ earlier later, turns = earlier ++ later →
    ∀ row ∈ (service.crowd s earlier).store.rows,
      row ∈ (service.crowd s turns).store.rows ∨
        row ∉ (service.crowd s turns).store.rows ∧
          ∃ middle i rest, later = middle ++ .proceed i :: rest ∧
            service.Dismissal s (earlier ++ middle) i row

end Service

namespace Visit

theorem arriving_ne_deleting (service : Service) (r : Request) (user id : Option Int) :
    arriving service r ≠ deleting user id := by
  intro h
  obtain rfl : r = .deleteArchived user id := congrArg Visit.request h
  have htask : (Request.deleteArchived user id).task service = Service.removal id :=
    congrArg Visit.task h
  rw [Request.task_deleteArchived] at htask
  cases htask

theorem record?_arriving (service : Service) (r : Request) : (arriving service r).record? = none := by
  cases r with
  | calculate user expression =>
    rw [record?, arriving, Request.task_calculate]
    cases service.evaluate expression <;> rfl
  | history user => rfl
  | archive user => rfl
  | archiveCalculation user expression result => rfl
  | deleteArchived user id => rfl
  | clearHistory user => rfl
  | status => rfl

end Visit

/-! ## Looking up -/

namespace Service
variable {service : Service} {s : Session}

theorem LookedUp.append {turns : List Turn} {i : Nat} {row : Row}
    (h : service.LookedUp s turns i row) (more : List Turn) :
    service.LookedUp s (turns ++ more) i row := by
  obtain ⟨before, between, rfl, hv, hrow⟩ := h
  refine ⟨before, between ++ more, ?_, hv, hrow⟩
  rw [List.append_assoc, List.cons_append]

/-- A visit that is about to delete was so at an earlier moment, or has looked its row up since. -/
theorem deleting_of_append {earlier later : List Turn} {i : Nat} {user id : Option Int}
    (h : (service.crowd s (earlier ++ later)).visits[i]? = some (.deleting user id)) :
    (service.crowd s earlier).visits[i]? = some (.deleting user id) ∨
      ∃ between rest, later = between ++ .proceed i :: rest ∧
        (service.crowd s (earlier ++ between)).visits[i]? =
          some (.arriving service (.deleteArchived user id)) ∧
        ∃ row ∈ (service.crowd s (earlier ++ between)).store.rows,
          user = some row.user ∧ id = some (row.id : Int) ∧ row.shelf = .archive := by
  -- by the last turn: only the visit itself can have brought it about, by looking the row up
  induction later using List.reverseRecOn with
  | nil =>
    rw [List.append_nil] at h
    exact .inl h
  | append_singleton later turn ih =>
    rw [← List.append_assoc, crowd_append_singleton] at h
    rcases Crowd.visit_of_next h with hv | ⟨r, -, hw⟩ | ⟨v, rfl, hv, hw⟩
    · rcases ih hv with hearlier | ⟨between, rest, rfl, hlook⟩
      · exact .inl hearlier
      · refine .inr ⟨between, rest ++ [turn], ?_, hlook⟩
        rw [List.append_assoc, List.cons_append]
    · exact absurd hw.symm (Visit.arriving_ne_deleting service r user id)
    · have hstage := service.stage_of_crowd s (earlier ++ later) hv
      obtain ⟨rfl, row, hrow⟩ := Visit.eq_deleting_of_step service _ hstage hw.symm
      exact .inr ⟨later, [], rfl, hv, row, hrow⟩

theorem lookedUp_of_deleting {turns : List Turn} {i : Nat} {user id : Option Int}
    (h : (service.crowd s turns).visits[i]? = some (.deleting user id)) :
    ∃ row : Row, user = some row.user ∧ id = some (row.id : Int) ∧ row.shelf = .archive ∧
      service.LookedUp s turns i row := by
  -- nobody is there before the first turn, so the row was looked up since
  have hsince : (service.crowd s ([] ++ turns)).visits[i]? = some (.deleting user id) := h
  rcases deleting_of_append hsince with
    hnobody | ⟨before, between, rfl, hv, row, hrow, rfl, rfl, hshelf⟩
  · cases hnobody
  · exact ⟨row, rfl, rfl, hshelf, before, between, rfl, hv, hrow⟩

theorem LookedUp.eq_of_id (hempty : s.store.rows = []) {turns : List Turn} {i : Nat} {row r : Row}
    (h : service.LookedUp s turns i row) (hr : r ∈ (service.crowd s turns).store.rows)
    (hid : row.id = r.id) : row = r := by
  obtain ⟨before, between, rfl, -, hrow⟩ := h
  exact service.crowd_eq_of_id hempty (List.prefix_append _ _) List.prefix_rfl hrow hr hid

/-! ## Leaving -/

theorem dismissal_of_leaving (hempty : s.store.rows = []) {turns : List Turn} {turn : Turn} {row : Row}
    (hrow : row ∈ (service.crowd s turns).store.rows)
    (hgone : row ∉ (service.crowd s (turns ++ [turn])).store.rows) :
    ∃ i, turn = .proceed i ∧ service.Dismissal s turns i row := by
  have hnext := hgone
  rw [crowd_append_singleton] at hnext
  rcases (service.crowd s turns).store_of_next service turn with
    hstore | ⟨i, v, rfl, hv, hstore⟩
  · rw [hstore] at hnext
    exact absurd hrow hnext
  · refine ⟨i, rfl, hrow, hgone, v, hv, ?_⟩
    have heffect := Visit.step_effect service (service.crowd s turns).session
      (service.stage_of_crowd s turns hv)
    rw [← hstore] at heffect
    generalize (v.step (service.crowd s turns).session).1 = w at heffect
    generalize ((service.crowd s turns).next service (.proceed i)).store = after at heffect hnext
    cases heffect with
    | rested => exact absurd hrow hnext
    | read => exact absurd hrow hnext
    | saved w q => exact absurd (List.mem_append_left _ hrow) hnext
    | cleared w user hrequest =>
      left
      have hof : row.isOf user .history = true := by
        by_contra hnot
        exact hnext (List.mem_filter.2 ⟨hrow, by simp [hnot]⟩)
      obtain ⟨rfl, hshelf⟩ := Row.isOf_iff.1 hof
      exact ⟨hrequest, hshelf⟩
    | deleted w user id hdeleting =>
      right
      have hhas : row.hasId id = true := by
        by_contra hnot
        exact hnext (List.mem_filter.2 ⟨hrow, by simp [hnot]⟩)
      subst hdeleting
      obtain ⟨found, rfl, hid, hshelf, hlook⟩ := lookedUp_of_deleting hv
      have hsame : found.id = row.id := by
        have hrowId := Row.hasId_iff.1 hhas
        have hfoundId := Option.some_inj.1 hid
        omega
      -- what was found then and what goes now have one number, so they are one row
      obtain rfl := hlook.eq_of_id hempty hrow hsame
      rw [hid]
      exact ⟨rfl, hshelf, hlook⟩

theorem Dismissal.not_mem (hempty : s.store.rows = []) {turns : List Turn} {i : Nat} {row : Row}
    (h : service.Dismissal s turns i row) (later : List Turn) :
    row ∉ (service.crowd s (turns ++ .proceed i :: later)).store.rows := by
  have hfresh := (service.crowd_numbered hempty turns).fresh row h.present
  have hle := (service.crowd_precedes s turns [.proceed i]).lastId_le
  rw [List.append_cons]
  exact (service.crowd_precedes s _ later).not_mem (Nat.le_trans hfresh hle) h.absent

theorem kept_or_dismissed (hempty : s.store.rows = []) (earlier later : List Turn) {row : Row}
    (hrow : row ∈ (service.crowd s earlier).store.rows) :
    row ∈ (service.crowd s (earlier ++ later)).store.rows ∨
      row ∉ (service.crowd s (earlier ++ later)).store.rows ∧
        ∃ middle i rest, later = middle ++ .proceed i :: rest ∧
          service.Dismissal s (earlier ++ middle) i row := by
  induction later using List.reverseRecOn with
  | nil =>
    left
    rw [List.append_nil]
    exact hrow
  | append_singleton later turn ih =>
    rw [← List.append_assoc]
    rcases ih with hstill | ⟨-, middle, i, rest, rfl, hdismissal⟩
    · -- it was there until the last turn, which either leaves it or takes it out
      by_cases hstays : row ∈ (service.crowd s (earlier ++ later ++ [turn])).store.rows
      · exact .inl hstays
      · obtain ⟨i, rfl, hdismissal⟩ := dismissal_of_leaving hempty hstill hstays
        exact .inr ⟨hstays, later, i, [], rfl, hdismissal⟩
    · right
      have hgone := hdismissal.not_mem hempty (rest ++ [turn])
      rw [List.append_assoc] at hgone
      refine ⟨?_, middle, i, rest ++ [turn], ?_, hdismissal⟩
      · rw [List.append_assoc, List.append_assoc, List.cons_append]
        exact hgone
      · rw [List.append_assoc, List.cons_append]

/-! ## Saving -/

theorem saved_of_record? {turns : List Turn} {i : Nat} {v : Visit} {record : Record}
    (hv : (service.crowd s turns).visits[i]? = some v) (hrecord : v.record? = some record) :
    ∃ earlier later row, turns = earlier ++ .proceed i :: later ∧ row.record = record ∧
      row.id = (service.crowd s earlier).store.lastId + 1 ∧
      row ∈ (service.crowd s (earlier ++ [.proceed i])).store.rows := by
  induction turns using List.reverseRecOn generalizing v with
  | nil => cases hv
  | append_singleton turns turn ih =>
    have hbefore : ∀ w : Visit, (service.crowd s turns).visits[i]? = some w →
        w.record? = some record → ∃ earlier later row,
          turns ++ [turn] = earlier ++ .proceed i :: later ∧ row.record = record ∧
            row.id = (service.crowd s earlier).store.lastId + 1 ∧
            row ∈ (service.crowd s (earlier ++ [.proceed i])).store.rows := by
      intro w hw hwrecord
      obtain ⟨earlier, later, row, rfl, hrow⟩ := ih hw hwrecord
      refine ⟨earlier, later ++ [turn], row, ?_, hrow⟩
      rw [List.append_assoc, List.cons_append]
    rw [crowd_append_singleton] at hv
    rcases Crowd.visit_of_next hv with hold | ⟨r, -, rfl⟩ | ⟨w, rfl, hw, rfl⟩
    · exact hbefore v hold hrecord
    · rw [Visit.record?_arriving] at hrecord
      cases hrecord
    · have heffect := Visit.step_effect service (service.crowd s turns).session
        (service.stage_of_crowd s turns hw)
      have hstore : (service.crowd s (turns ++ [.proceed i])).store =
          (w.step (service.crowd s turns).session).2.store := by
        rw [crowd_append_singleton, Crowd.next_proceed hw]
        rfl
      rw [← hstore] at heffect
      generalize (w.step (service.crowd s turns).session).1 = u at heffect hrecord
      generalize hafter : (service.crowd s (turns ++ [.proceed i])).store = after at heffect
      cases heffect with
      | rested => exact hbefore w hw hrecord
      | read _ hnone =>
        rw [hnone] at hrecord
        cases hrecord
      | saved _ row hid hsome =>
        refine ⟨turns, [], row, rfl, Option.some_inj.1 (hsome.symm.trans hrecord), hid, ?_⟩
        rw [hafter]
        exact List.mem_append_right _ (List.mem_singleton_self row)
      | cleared _ user hrequest hnone =>
        rw [hnone] at hrecord
        cases hrecord
      | deleted _ user id hdeleting hnone =>
        rw [hnone] at hrecord
        cases hrecord

/-! ## The whole run -/

/-- Whatever requests come, and however their calls are mixed, from a store without rows on. -/
theorem crowd_keeps (service : Service) {s : Session} (hempty : s.store.rows = [])
    (turns : List Turn) : service.Keeps s turns := by
  constructor
  · intro i v record hv hrecord
    exact saved_of_record? hv hrecord
  · intro earlier later hturns q hq r hr hid
    subst hturns
    exact service.crowd_eq_of_id hempty (List.prefix_append _ _) List.prefix_rfl hq hr hid
  · intro earlier later hturns row hrow
    subst hturns
    exact kept_or_dismissed hempty earlier later hrow

end Service

/-- Between the two calls of a deletion another user asks for the same row, more rows are saved and the
history is cleared; then the row that was looked up goes, and the row of the other user stays. -/
theorem crowd_keeps_of_two_users :
    let service : Service := ⟨.whole 500, ":memory:"⟩
    let s : Session := ⟨.new false, ⟨0, 1⟩⟩
    let turns : List Turn :=
      [.arrive (.archiveCalculation (some 1) (some "2+3") (some "5")), .proceed 0,
        .arrive (.deleteArchived (some 1) (some 1)), .proceed 1,
        .arrive (.deleteArchived (some 2) (some 1)), .proceed 2,
        .arrive (.calculate (some 1) (some "1+1")), .proceed 3,
        .arrive (.archiveCalculation (some 2) (some "1/2") (some "0.5")), .proceed 4,
        .arrive (.clearHistory (some 1)), .proceed 5, .proceed 1]
    s.store.rows = [] ∧ service.Keeps s turns ∧
      (service.crowd s (turns.take 10)).store.rows.map Row.id = [1, 2, 3] ∧
      (service.crowd s turns).store.rows.map Row.id = [3] := by
  refine ⟨rfl, Service.crowd_keeps _ rfl _, ?_, ?_⟩
  · decide +kernel
  · decide +kernel

end Reckoner
