import Reckoner.Proofs.Service.Visit
/-!
Requests at the same time.

A crowd is a session in which any number of requests are under way. A turn lets a new request come in, lets
one visit make its next call, or lets the clock show something else; any list of turns is a way in which
the calls of any requests may be mixed.

What is shown here:
1. `Crowd.visit_of_next`, `Crowd.store_of_next`: what a turn does to the visits and to the table;
2. `Crowd.undisturbed`: a visit that makes its calls without a break is handled as by the service;
3. `Service.crowd_precedes`: whatever the turns are, the table at one moment precedes the table at any
   later one.
-/

namespace Reckoner

/-- A session and the visits that have come, in the order in which they came. -/
structure Crowd where
  session : Session
  visits : List Visit

/-- What may happen next. -/
inductive Turn where
  | arrive (request : Request)
  | proceed (visit : Nat)
  | wait (clock : Clock)

namespace Crowd

def store (c : Crowd) : Store := c.session.store

/-- A crowd after one turn. A visit that has not come yet makes no call. -/
def next (service : Service) (c : Crowd) : Turn → Crowd
  | .arrive r => { c with visits := c.visits ++ [.arriving service r] }
  | .proceed i =>
    match c.visits[i]? with
    | none => c
    | some v => ⟨(v.step c.session).2, c.visits.set i (v.step c.session).1⟩
  | .wait clock => { c with session := { c.session with clock := clock } }

end Crowd

/-- The crowd after some turns, with no request under way at the beginning. -/
def Service.crowd (service : Service) (s : Session) (turns : List Turn) : Crowd :=
  turns.foldl (Crowd.next service) ⟨s, []⟩

namespace Crowd
variable {service : Service} {c : Crowd}

theorem next_proceed {i : Nat} {v : Visit} (hv : c.visits[i]? = some v) :
    c.next service (.proceed i) =
      ⟨(v.step c.session).2, c.visits.set i (v.step c.session).1⟩ := by
  rw [next, hv]

/-- A visit after a turn is as it was, has just come, or has made its next call. -/
theorem visit_of_next {turn : Turn} {i : Nat} {w : Visit}
    (h : (c.next service turn).visits[i]? = some w) :
    c.visits[i]? = some w ∨ (∃ r, turn = .arrive r ∧ w = .arriving service r) ∨
      ∃ v, turn = .proceed i ∧ c.visits[i]? = some v ∧ w = (v.step c.session).1 := by
  cases turn with
  | wait clock => exact .inl h
  | arrive r =>
    have happend : (c.visits ++ [.arriving service r])[i]? = some w := h
    rw [List.getElem?_append] at happend
    split at happend
    · exact .inl happend
    · rw [List.getElem?_singleton] at happend
      split at happend
      · exact .inr (.inl ⟨r, rfl, (Option.some_inj.1 happend).symm⟩)
      · cases happend
  | proceed j =>
    cases hj : c.visits[j]? with
    | none =>
      rw [next, hj] at h
      exact .inl h
    | some v =>
      rw [next_proceed hj] at h
      by_cases hij : j = i
      · subst hij
        rw [List.getElem?_set_self (List.getElem?_eq_some_iff.1 hj).1] at h
        exact .inr (.inr ⟨v, rfl, hj, (Option.some_inj.1 h).symm⟩)
      · rw [List.getElem?_set_ne hij] at h
        exact .inl h

/-- The table after a turn is as it was, unless a visit has made a call. -/
theorem store_of_next (service : Service) (c : Crowd) (turn : Turn) :
    (c.next service turn).store = c.store ∨
      ∃ i v, turn = .proceed i ∧ c.visits[i]? = some v ∧
        (c.next service turn).store = (v.step c.session).2.store := by
  cases turn with
  | wait clock => exact .inl rfl
  | arrive r => exact .inl rfl
  | proceed i =>
    cases hv : c.visits[i]? with
    | none =>
      left
      rw [next, hv]
    | some v =>
      right
      refine ⟨i, v, rfl, hv, ?_⟩
      rw [next_proceed hv]
      rfl

theorem next_change (turn : Turn) : c.store.Change (c.next service turn).store := by
  rcases c.store_of_next service turn with hstore | ⟨i, v, -, -, hstore⟩
  · rw [hstore]
    exact .nothing
  · rw [hstore]
    obtain ⟨r, task⟩ := v
    cases task with
    | done outcome => exact .nothing
    | call call next => exact c.session.perform_change call

/-- A visit that makes its calls without a break is handled as by the service. -/
theorem undisturbed (service : Service) (c : Crowd) (r : Request) :
    [.arrive r, .proceed c.visits.length, .proceed c.visits.length].foldl (next service) c =
      ⟨(service.handle c.session r).2, c.visits ++ [.ended r (service.handle c.session r).1]⟩ := by
  have hset : ∀ v w : Visit, (c.visits ++ [v]).set c.visits.length w = c.visits ++ [w] := by
    intro v w
    rw [List.set_append_right _ _ (Nat.le_refl _), Nat.sub_self]
    rfl
  have hproceed : ∀ (s : Session) (v : Visit),
      next service ⟨s, c.visits ++ [v]⟩ (.proceed c.visits.length) =
        ⟨(v.step s).2, c.visits ++ [(v.step s).1]⟩ := by
    intro s v
    have hv : (c.visits ++ [v])[c.visits.length]? = some v := List.getElem?_concat_length
    rw [next_proceed hv, hset]
  have harrive : next service c (.arrive r) = ⟨c.session, c.visits ++ [.arriving service r]⟩ := rfl
  rw [List.foldl_cons, List.foldl_cons, List.foldl_cons, List.foldl_nil, harrive, hproceed, hproceed,
    Visit.step_step]

end Crowd

/-! ## Whole runs -/

namespace Service
variable (service : Service) (s : Session)

theorem crowd_append_singleton (turns : List Turn) (turn : Turn) :
    service.crowd s (turns ++ [turn]) = (service.crowd s turns).next service turn := by
  rw [crowd, List.foldl_append]
  rfl

theorem stage_of_crowd (turns : List Turn) {i : Nat} {v : Visit}
    (h : (service.crowd s turns).visits[i]? = some v) : v.Stage service := by
  induction turns using List.reverseRecOn generalizing v with
  | nil => cases h
  | append_singleton turns turn ih =>
    rw [crowd_append_singleton] at h
    rcases Crowd.visit_of_next h with hv | ⟨r, -, rfl⟩ | ⟨w, -, hw, rfl⟩
    · exact ih hv
    · exact .arriving r
    · exact (ih hw).step service _

/-- Whatever the turns are, an earlier table precedes a later one. -/
theorem crowd_precedes (earlier later : List Turn) :
    (service.crowd s earlier).store.Precedes (service.crowd s (earlier ++ later)).store := by
  induction later using List.reverseRecOn with
  | nil =>
    rw [List.append_nil]
    exact .refl _
  | append_singleton later turn ih =>
    rw [← List.append_assoc, crowd_append_singleton]
    exact ih.trans (Crowd.next_change turn).precedes

variable {s}

theorem crowd_numbered (hempty : s.store.rows = []) (turns : List Turn) :
    (service.crowd s turns).store.Numbered := by
  induction turns using List.reverseRecOn with
  | nil => exact .of_rows_nil hempty
  | append_singleton turns turn ih =>
    rw [crowd_append_singleton]
    exact (Crowd.next_change turn).numbered ih

theorem crowd_eq_of_id (hempty : s.store.rows = []) {turns a b : List Turn} (ha : a <+: turns)
    (hb : b <+: turns) {q r : Row} (hq : q ∈ (service.crowd s a).store.rows)
    (hr : r ∈ (service.crowd s b).store.rows) (hid : q.id = r.id) : q = r := by
  rcases List.prefix_or_prefix_of_prefix ha hb with ⟨later, rfl⟩ | ⟨later, rfl⟩
  · have hprecedes := service.crowd_precedes s a later
    exact hprecedes.eq_of_id (service.crowd_numbered hempty a) hq hr hid
  · have hprecedes := service.crowd_precedes s b later
    exact (hprecedes.eq_of_id (service.crowd_numbered hempty b) hr hq hid.symm).symm

theorem crowd_isOpen (turns : List Turn) :
    (service.crowd s turns).store.isOpen = s.store.isOpen := by
  induction turns using List.reverseRecOn with
  | nil => rfl
  | append_singleton turns turn ih =>
    rw [crowd_append_singleton, ← ih]
    exact (Crowd.next_change turn).isOpen

end Service

end Reckoner
