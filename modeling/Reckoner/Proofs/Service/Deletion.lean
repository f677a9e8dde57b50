import Reckoner.Proofs.Service.Custody
/-!
Deletions of one row at the same time.

A deletion is granted when its second call has been made, whether or not the row was still there. So two
visits that have both looked the row up are both granted it, though only one of them takes it out. This is
the only way, though: visits that are not about to delete the row at one moment are answered as if they had
come one after the other.

What is shown here:
1. `not_deletesOnce`: two visits are granted the deletion of one row;
2. `Service.removal_of_granted`: what a granted deletion has done;
3. `Service.Removal.deleting_of_deleting`: whoever deletes the row later had looked it up before;
4. `Service.crowd_deletesOnceApart`: a row leaves once, and apart from the visits that overlap one at most
   is granted its deletion.
-/

namespace Reckoner

namespace Service
variable (service : Service) (s : Session)

/-- Of the visits that ask for the row with a number to be deleted, one at most is granted it, and the
others do not find it. -/
def DeletesOnce (turns : List Turn) : Prop :=
  ∀ (i j : Nat) (user v id : Option Int) (outcome : Except ServiceError Answer), i ≠ j →
    (service.crowd s turns).visits[i]? = some (.ended (.deleteArchived user id) (.ok .deleted)) →
    (service.crowd s turns).visits[j]? = some (.ended (.deleteArchived v id) outcome) →
    outcome = .error .notFound

end Service

/-- Not so, when two visits look the row up before either deletes it. -/
theorem not_deletesOnce :
    let service : Service := ⟨.whole 500, ":memory:"⟩
    let s : Session := ⟨.new false, ⟨0, 1⟩⟩
    let turns : List Turn :=
      [.arrive (.archiveCalculation (some 1) (some "2+3") (some "5")), .proceed 0,
        .arrive (.deleteArchived (some 1) (some 1)), .arrive (.deleteArchived (some 1) (some 1)),
        .proceed 1, .proceed 2, .proceed 1, .proceed 2]
    s.store.isOpen = true ∧ s.store.rows = [] ∧ ¬ service.DeletesOnce s turns := by
  refine ⟨rfl, rfl, ?_⟩
  intro h
  have hanswer := h 1 2 (some 1) (some 1) (some 1) (.ok .deleted) (by decide) rfl rfl
  cases hanswer

/-! ## The end of a deletion -/

namespace Visit

theorem ending_of_step (service : Service) (s : Session) {v : Visit} (h : v.Stage service)
    {user id : Option Int} {outcome : Except ServiceError Answer}
    (hstep : (v.step s).1 = .ended (.deleteArchived user id) outcome) :
    v = .ended (.deleteArchived user id) outcome ∨ Ending service s.store user id v outcome := by
  have hrequest : v.request = .deleteArchived user id := congrArg Visit.request hstep
  cases h with
  | counting t => cases hrequest
  | ended r o => exact .inl hstep
  | deleting u n =>
    cases hrequest
    obtain ⟨o, t, hending, hended⟩ := step_deleting_ending service s user id
    rw [hended] at hstep
    obtain ⟨-, rfl⟩ := ended_injective hstep
    exact .inr hending
  | arriving r =>
    obtain rfl : r = .deleteArchived user id := hrequest
    rcases step_deleteArchived_cases service s user id with
      ⟨o, hending, hended⟩ | ⟨row, -, -, -, -, hdeleting⟩
    · rw [hended] at hstep
      obtain ⟨-, rfl⟩ := ended_injective hstep
      exact .inr hending
    · rw [hdeleting] at hstep
      exact absurd hstep.symm (ended_ne_deleting _ _ _ _)

end Visit

namespace Service
variable {service : Service} {s : Session}

theorem ending_of_ended {turns : List Turn} {i : Nat} {user id : Option Int}
    {outcome : Except ServiceError Answer}
    (h : (service.crowd s turns).visits[i]? = some (.ended (.deleteArchived user id) outcome)) :
    ∃ before rest v, turns = before ++ .proceed i :: rest ∧
      (service.crowd s before).visits[i]? = some v ∧
      v.Ending service (service.crowd s before).store user id outcome := by
  induction turns using List.reverseRecOn with
  | nil => cases h
  | append_singleton turns turn ih =>
    have hsince : (service.crowd s turns).visits[i]? =
          some (.ended (.deleteArchived user id) outcome) →
        ∃ before rest v, turns ++ [turn] = before ++ .proceed i :: rest ∧
          (service.crowd s before).visits[i]? = some v ∧
          v.Ending service (service.crowd s before).store user id outcome := by
      intro hv
      obtain ⟨before, rest, v, rfl, hending⟩ := ih hv
      refine ⟨before, rest ++ [turn], v, ?_, hending⟩
      rw [List.append_assoc, List.cons_append]
    rw [crowd_append_singleton] at h
    rcases Crowd.visit_of_next h with hv | ⟨r, -, hw⟩ | ⟨v, rfl, hv, hw⟩
    · exact hsince hv
    · -- who has just come to delete has not been answered
      obtain rfl : Request.deleteArchived user id = r := congrArg Visit.request hw
      have htask : (Request.deleteArchived user id).task service = .done outcome :=
        (congrArg Visit.task hw).symm
      rw [Request.task_deleteArchived] at htask
      cases htask
    · rcases Visit.ending_of_step service _ (service.stage_of_crowd s turns hv) hw.symm with
        rfl | hending
      · exact hsince hv
      · exact ⟨turns, [], v, rfl, hv, hending⟩

/-! ## Deleting by number -/

/-- After some turns, the next call of a visit deletes a row by its number, which it has looked up in the
archive of its user. -/
structure Removal (service : Service) (s : Session) (turns : List Turn) (i : Nat) (row : Row) :
    Prop where
  deleting : (service.crowd s turns).visits[i]? =
    some (.deleting (some row.user) (some (row.id : Int)))
  archived : row.shelf = .archive
  held : fitsColumn row.id = true
  lookedUp : service.LookedUp s turns i row
  taken : (service.crowd s (turns ++ [.proceed i])).store =
    ((service.crowd s turns).store.remove (Row.hasId row.id)).2

theorem removal_of_deleting {turns : List Turn} {i : Nat} {user id : Option Int} {t : Store}
    (hv : (service.crowd s turns).visits[i]? = some (.deleting user id))
    (hdelete : (service.crowd s turns).store.delete id = .ok t) :
    ∃ row, user = some row.user ∧ id = some (row.id : Int) ∧ service.Removal s turns i row := by
  obtain ⟨row, rfl, rfl, harchived, hlook⟩ := lookedUp_of_deleting hv
  refine ⟨row, rfl, rfl, hv, harchived, ?_, hlook, ?_⟩
  · have hheld := Store.held_of_checked hdelete
    simpa using hheld
  · have hsession : (service.crowd s turns).session.store.delete (some (row.id : Int)) = .ok t := hdelete
    rw [crowd_append_singleton, Crowd.next_proceed hv, Visit.step_deleting, hsession,
      Store.eq_of_delete hdelete]
    rfl

/-- Who has been granted a deletion has looked the row up in the archive of its user, and deleted it by its
number. -/
theorem removal_of_granted {turns : List Turn} {i : Nat} {user id : Option Int}
    (h : (service.crowd s turns).visits[i]? =
      some (.ended (.deleteArchived user id) (.ok .deleted))) :
    ∃ before rest row, turns = before ++ .proceed i :: rest ∧ user = some row.user ∧
      id = some (row.id : Int) ∧ service.Removal s before i row := by
  obtain ⟨before, rest, v, hturns, hv, hending⟩ := ending_of_ended h
  cases hending with
  | deleted t hdelete =>
    obtain ⟨row, huser, hid, hremoval⟩ := removal_of_deleting hv hdelete
    exact ⟨before, rest, row, hturns, huser, hid, hremoval⟩

namespace Removal

theorem id_ne (hempty : s.store.rows = []) {turns : List Turn} {i : Nat} {row : Row}
    (h : service.Removal s turns i row) (later : List Turn) :
    ∀ r ∈ (service.crowd s (turns ++ .proceed i :: later)).store.rows, r.id ≠ row.id := by
  intro r hr hid
  obtain ⟨before, between, rfl, -, hrow⟩ := h.lookedUp
  have hle : row.id ≤ (service.crowd s (before ++ .proceed i :: between)).store.lastId :=
    Nat.le_trans ((service.crowd_numbered hempty before).fresh row hrow)
      (service.crowd_precedes s before (.proceed i :: between)).lastId_le
  rw [List.append_cons] at hr
  have hlater := service.crowd_precedes s (before ++ .proceed i :: between ++ [.proceed i]) later
  have hlast : (service.crowd s (before ++ .proceed i :: between ++ [.proceed i])).store.lastId =
      (service.crowd s (before ++ .proceed i :: between)).store.lastId := by
    rw [h.taken]
    rfl
  -- the row itself was taken out, and rows that are new have greater numbers
  rcases hlater.mem r hr with hmem | hlt
  · rw [h.taken] at hmem
    have hkept := (List.mem_filter.1 hmem).2
    rw [Row.hasId_iff.2 (by omega)] at hkept
    cases hkept
  · omega

/-- Whoever is about to delete the same row later was so before it was gone. -/
theorem deleting_of_deleting (hempty : s.store.rows = []) {turns later : List Turn} {i j : Nat}
    (hij : i ≠ j) {row : Row} (h : service.Removal s turns i row) {user : Option Int}
    (hj : (service.crowd s (turns ++ .proceed i :: later)).visits[j]? =
      some (.deleting user (some (row.id : Int)))) :
    (service.crowd s turns).visits[j]? = some (.deleting user (some (row.id : Int))) := by
  rcases deleting_of_append hj with hthen | ⟨between, rest, hsince, -, r, hr, -, hid, -⟩
  · exact hthen
  · -- it looks the row up after the turn that has taken the row out
    cases between with
    | nil =>
      injection hsince with hturn
      injection hturn with hsame
      exact absurd hsame hij
    | cons turn between =>
      injection hsince with hturn
      subst hturn
      have hne := h.id_ne hempty between r hr
      have hnumber := Option.some_inj.1 hid
      exact absurd (by omega) hne

end Removal

end Service

/-! ## Deletions that overlap -/

theorem Turn.eq_or_lt_or_lt {turns a b c d : List Turn} {t u : Turn} (ha : turns = a ++ t :: c)
    (hb : turns = b ++ u :: d) :
    a = b ∧ t = u ∨ (∃ between, b = a ++ t :: between) ∨ ∃ between, a = b ++ u :: between := by
  rcases List.append_eq_append_iff.1 (ha.symm.trans hb) with ⟨between, rfl, heq⟩ | ⟨between, rfl, heq⟩
  · cases between with
    | nil =>
      injection heq with hturn
      exact .inl ⟨(List.append_nil a).symm, hturn⟩
    | cons turn between =>
      injection heq with hturn
      subst hturn
      exact .inr (.inl ⟨between, rfl⟩)
  · cases between with
    | nil =>
      injection heq with hturn
      exact .inl ⟨List.append_nil b, hturn.symm⟩
    | cons turn between =>
      injection heq with hturn
      subst hturn
      exact .inr (.inr ⟨between, rfl⟩)

namespace Service
variable {service : Service} {s : Session}

/-- Two visits of one user are about to delete the row with one number at the same moment. -/
def Overlap (service : Service) (s : Session) (turns : List Turn) (i j : Nat) (user id : Option Int) :
    Prop :=
  ∃ earlier, earlier <+: turns ∧ (service.crowd s earlier).visits[i]? = some (.deleting user id) ∧
    (service.crowd s earlier).visits[j]? = some (.deleting user id)

/-- Two visits that both delete a row by its number were about to do so at the same moment: when the
first one does it, the second one has looked the row up, since it would not find it later. -/
theorem overlap_of_removals (hempty : s.store.rows = []) {turns a b c d : List Turn} {i j : Nat}
    (hij : i ≠ j) {row : Row} (hi : service.Removal s a i row) (hj : service.Removal s b j row)
    (ha : turns = a ++ .proceed i :: c) (hb : turns = b ++ .proceed j :: d) :
    service.Overlap s turns i j (some row.user) (some (row.id : Int)) := by
  rcases Turn.eq_or_lt_or_lt ha hb with ⟨-, hturn⟩ | ⟨between, rfl⟩ | ⟨between, rfl⟩
  · injection hturn with hsame
    exact absurd hsame hij
  · exact ⟨a, ⟨_, ha.symm⟩, hi.deleting, hi.deleting_of_deleting hempty hij hj.deleting⟩
  · exact ⟨b, ⟨_, hb.symm⟩, hj.deleting_of_deleting hempty (Ne.symm hij) hi.deleting, hj.deleting⟩

theorem Dismissal.unique (hempty : s.store.rows = []) {turns a b c d : List Turn} {i j : Nat}
    {row : Row} (hi : service.Dismissal s a i row) (hj : service.Dismissal s b j row)
    (ha : turns = a ++ .proceed i :: c) (hb : turns = b ++ .proceed j :: d) : a = b ∧ i = j := by
  rcases Turn.eq_or_lt_or_lt ha hb with ⟨hsame, hturn⟩ | ⟨between, rfl⟩ | ⟨between, rfl⟩
  · injection hturn with hvisit
    exact ⟨hsame, hvisit⟩
  · exact absurd hj.present (hi.not_mem hempty between)
  · exact absurd hi.present (hj.not_mem hempty between)

theorem outcome_of_removal (hopen : s.store.isOpen = true) (hempty : s.store.rows = [])
    {turns a c : List Turn} {i j : Nat} (hij : i ≠ j) {row : Row} (hi : service.Removal s a i row)
    (ha : turns = a ++ .proceed i :: c) {v : Option Int} {outcome : Except ServiceError Answer}
    (h : (service.crowd s turns).visits[j]? =
      some (.ended (.deleteArchived v (some (row.id : Int))) outcome)) :
    outcome = .error .notFound ∨
      outcome = .error (.store .integerTooLarge) ∧ v.all fitsColumn = false ∨
      outcome = .ok .deleted ∧ v = some row.user ∧
        service.Overlap s turns i j v (some (row.id : Int)) := by
  have hheld := hi.held
  obtain ⟨b, d, w, hb, hw, hending⟩ := ending_of_ended h
  have hstore : (service.crowd s b).store.isOpen = true := by
    rw [service.crowd_isOpen b, hopen]
  obtain ⟨before, between, rfl, -, hrow⟩ := hi.lookedUp
  have hbefore : before <+: turns := by
    rw [ha, List.append_assoc]
    exact List.prefix_append _ _
  cases hending with
  | missing hfind => exact .inl rfl
  | unread e hfind =>
    obtain ⟨rfl, hunheld⟩ := Store.error_of_checked hstore hfind
    refine .inr (.inl ⟨rfl, ?_⟩)
    simpa [hheld] using hunheld
  | shelved found hfind hshelf =>
    -- the row lies in the archive, so it is not the one in the history
    obtain ⟨hmem, hid, -⟩ := Store.mem_of_get? hfind
    have hnumber := Option.some_inj.1 hid
    obtain rfl := service.crowd_eq_of_id hempty hbefore ⟨_, hb.symm⟩ hrow hmem (by omega)
    rw [hi.archived] at hshelf
    cases hshelf
  | unwritten e hdelete =>
    -- the other visit was let delete by the same number
    have hunheld := (Store.error_of_checked hstore hdelete).2
    simp [hheld] at hunheld
  | deleted t hdelete =>
    obtain ⟨r, rfl, hid, hj⟩ := removal_of_deleting hw hdelete
    have hnumber := Option.some_inj.1 hid
    obtain ⟨moment, since, rfl, -, hr⟩ := hj.lookedUp
    have hmoment : moment <+: turns := by
      rw [hb, List.append_assoc]
      exact List.prefix_append _ _
    obtain rfl := service.crowd_eq_of_id hempty hbefore hmoment hrow hr (by omega)
    exact .inr (.inr ⟨rfl, rfl, overlap_of_removals hempty hij hi hj ha hb⟩)

/-! ## The whole run -/

/-- What the visits that ask for rows to be deleted owe to each other. -/
structure DeletesOnceApart (service : Service) (s : Session) (turns : List Turn) : Prop where
  /-- A row leaves the table at one turn at most. -/
  once : ∀ a b c d i j row, turns = a ++ .proceed i :: c → turns = b ++ .proceed j :: d →
    service.Dismissal s a i row → service.Dismissal s b j row → a = b ∧ i = j
  /-- Who is granted a deletion has looked the row up in an archive of its own, and the row is gone. -/
  granted : ∀ i user id,
    (service.crowd s turns).visits[i]? = some (.ended (.deleteArchived user id) (.ok .deleted)) →
      ∃ row : Row, user = some row.user ∧ id = some (row.id : Int) ∧ row.shelf = .archive ∧
        service.LookedUp s turns i row ∧ row ∉ (service.crowd s turns).store.rows
  /-- Nobody else finds the row, but a user out of range, who may not ask, and a visit of the same user
  that overlaps with the one that is granted the deletion, which is granted it too. -/
  others : ∀ i j user v id outcome, i ≠ j →
    (service.crowd s turns).visits[i]? = some (.ended (.deleteArchived user id) (.ok .deleted)) →
    (service.crowd s turns).visits[j]? = some (.ended (.deleteArchived v id) outcome) →
      outcome = .error .notFound ∨
        outcome = .error (.store .integerTooLarge) ∧ v.all fitsColumn = false ∨
        outcome = .ok .deleted ∧ v = user ∧ service.Overlap s turns i j user id

/-- Whatever requests come, and however their calls are mixed, from an open store without rows on. -/
theorem crowd_deletesOnceApart (service : Service) {s : Session} (hopen : s.store.isOpen = true)
    (hempty : s.store.rows = []) (turns : List Turn) : service.DeletesOnceApart s turns := by
  constructor
  · intro a b c d i j row ha hb hi hj
    exact hi.unique hempty hj ha hb
  · intro i user id hi
    obtain ⟨a, c, row, rfl, rfl, rfl, hremoval⟩ := removal_of_granted hi
    refine ⟨row, rfl, rfl, hremoval.archived, hremoval.lookedUp.append _, ?_⟩
    intro hrow
    exact hremoval.id_ne hempty c row hrow rfl
  · intro i j user v id outcome hij hi hj
    obtain ⟨a, c, row, ha, rfl, rfl, hremoval⟩ := removal_of_granted hi
    rcases outcome_of_removal hopen hempty hij hremoval ha hj with
      hmissing | hrefused | ⟨hgranted, rfl, hoverlap⟩
    · exact .inl hmissing
    · exact .inr (.inl hrefused)
    · exact .inr (.inr ⟨hgranted, rfl, hoverlap⟩)

end Service

/-- While a deletion is under way another user asks for the same row, and when it is over its owner asks
again; neither finds it. -/
theorem crowd_deletesOnceApart_of_three_visits :
    let service : Service := ⟨.whole 500, ":memory:"⟩
    let s : Session := ⟨.new false, ⟨0, 1⟩⟩
    let turns : List Turn :=
      [.arrive (.archiveCalculation (some 1) (some "2+3") (some "5")), .proceed 0,
        .arrive (.deleteArchived (some 1) (some 1)), .proceed 1,
        .arrive (.deleteArchived (some 2) (some 1)), .proceed 2, .proceed 1,
        .arrive (.deleteArchived (some 1) (some 1)), .proceed 3]
    let visits := (service.crowd s turns).visits
    s.store.isOpen = true ∧ s.store.rows = [] ∧ service.DeletesOnceApart s turns ∧
      visits[1]? = some (.ended (.deleteArchived (some 1) (some 1)) (.ok .deleted)) ∧
      visits[2]? = some (.ended (.deleteArchived (some 2) (some 1)) (.error .notFound)) ∧
      visits[3]? = some (.ended (.deleteArchived (some 1) (some 1)) (.error .notFound)) := by
  refine ⟨rfl, rfl, Service.crowd_deletesOnceApart _ rfl rfl _, ?_, ?_, ?_⟩
  · rfl
  · rfl
  · rfl

end Reckoner
