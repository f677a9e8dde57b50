import Mathlib.Data.List.Sort
import Reckoner.Proofs.Store.Saving
/-!
Numbers are given out once.

A call leaves the table as it is, adds one row with the next number, or takes rows away. So the rows stand
in the order of their numbers, and a row that is new in a later table has a number above all those given
out before. From this everything follows that is said about rows over time: a number never passes from one
row to another, and what is gone does not come back.

What is shown here:
1. `Session.perform_change`: what a call can do to the table;
2. `Store.Change.numbered`, `Store.Change.precedes`: what every such change keeps;
3. `Store.Precedes.eq_of_id`: rows with one number, seen at two times, are one row;
4. `Session.Reachable.numbered`: in every session that can come about the rows stand in order.
-/

namespace Reckoner

namespace Store

/-- The rows stand in the order of their numbers, and none of these is yet to be given out. -/
structure Numbered (s : Store) : Prop where
  fresh : ∀ r ∈ s.rows, r.id ≤ s.lastId
  increasing : s.rows.Pairwise fun q r => q.id < r.id

/-- What an access can do to a store. -/
inductive Change (s : Store) : Store → Prop
  | nothing : Change s s
  | addition (row : Row) (hid : row.id = s.lastId + 1) : Change s (s.add row)
  | removal (p : Row → Bool) : Change s (s.remove p).2

/-- One store is earlier than another: numbers are only given out, and a row that is new has a new
number. -/
structure Precedes (s t : Store) : Prop where
  lastId_le : s.lastId ≤ t.lastId
  mem : ∀ r ∈ t.rows, r ∈ s.rows ∨ s.lastId < r.id

namespace Numbered

theorem sound {s : Store} (h : s.Numbered) : s.Sound := by
  constructor
  · exact h.fresh
  · exact List.pairwise_map.2 (h.increasing.imp fun hlt => Nat.ne_of_lt hlt)

theorem of_rows_nil {s : Store} (h : s.rows = []) : s.Numbered := by
  constructor
  · rw [h]
    intro r hr
    cases hr
  · rw [h]
    exact List.Pairwise.nil

theorem add {s : Store} (h : s.Numbered) {row : Row} (hid : row.id = s.lastId + 1) :
    (s.add row).Numbered := by
  constructor
  · exact (h.sound.add hid).fresh
  · apply List.pairwise_append.2
    refine ⟨h.increasing, List.pairwise_singleton _ _, ?_⟩
    intro q hq r hr
    obtain rfl := List.mem_singleton.1 hr
    have hle := h.fresh q hq
    omega

theorem remove {s : Store} (h : s.Numbered) (p : Row → Bool) : (s.remove p).2.Numbered := by
  constructor
  · exact (h.sound.remove p).fresh
  · exact h.increasing.sublist List.filter_sublist

theorem filter_eq {s t : Store} (hs : s.Numbered) (ht : t.Numbered) {p : Row → Bool}
    (h : ∀ r, p r = true → (r ∈ s.rows ↔ r ∈ t.rows)) : s.rows.filter p = t.rows.filter p := by
  have hirrefl : Std.Irrefl fun q r : Row => q.id < r.id := ⟨fun r => Nat.lt_irrefl r.id⟩
  have hantisymm : Std.Antisymm fun q r : Row => q.id < r.id :=
    ⟨fun q r hqr hrq => absurd hrq (Nat.lt_asymm hqr)⟩
  have hsorted := hs.increasing.sublist (List.filter_sublist (p := p))
  have htsorted := ht.increasing.sublist (List.filter_sublist (p := p))
  -- both lists are increasing, so their members determine them
  apply List.Pairwise.eq_of_mem_iff hsorted htsorted
  intro r
  rw [List.mem_filter, List.mem_filter]
  constructor
  · rintro ⟨hr, hp⟩
    exact ⟨(h r hp).1 hr, hp⟩
  · rintro ⟨hr, hp⟩
    exact ⟨(h r hp).2 hr, hp⟩

end Numbered

/-! ## Earlier and later -/

namespace Precedes

theorem refl (s : Store) : s.Precedes s := ⟨Nat.le_refl _, fun _ hr => .inl hr⟩

theorem trans {s t u : Store} (hst : s.Precedes t) (htu : t.Precedes u) : s.Precedes u := by
  constructor
  · exact Nat.le_trans hst.lastId_le htu.lastId_le
  · intro r hr
    rcases htu.mem r hr with hr | hlt
    · exact hst.mem r hr
    · exact .inr (Nat.lt_of_le_of_lt hst.lastId_le hlt)

theorem eq_of_id {s t : Store} (h : s.Precedes t) (hs : s.Numbered) {q r : Row} (hq : q ∈ s.rows)
    (hr : r ∈ t.rows) (hid : q.id = r.id) : q = r := by
  rcases h.mem r hr with hr | hlt
  · exact hs.sound.eq_of_id hq hr hid
  · have hle := hs.fresh q hq
    omega

theorem not_mem {s t : Store} (h : s.Precedes t) {r : Row} (hle : r.id ≤ s.lastId)
    (hr : r ∉ s.rows) : r ∉ t.rows := by
  intro hmem
  rcases h.mem r hmem with hmem | hlt
  · exact hr hmem
  · omega

end Precedes

namespace Change

theorem numbered {s t : Store} (h : s.Change t) (hs : s.Numbered) : t.Numbered := by
  cases h with
  | nothing => exact hs
  | addition row hid => exact hs.add hid
  | removal p => exact hs.remove p

theorem precedes {s t : Store} (h : s.Change t) : s.Precedes t := by
  cases h with
  | nothing => exact .refl s
  | addition row hid =>
    constructor
    · exact Nat.le_succ _
    · intro r hr
      rcases List.mem_append.1 hr with hr | hr
      · exact .inl hr
      · obtain rfl := List.mem_singleton.1 hr
        right
        omega
  | removal p =>
    constructor
    · exact Nat.le_refl _
    · intro r hr
      exact .inl (s.remove_subset p r hr)

theorem isOpen {s t : Store} (h : s.Change t) : t.isOpen = s.isOpen := by
  cases h <;> rfl

theorem durable {s t : Store} (h : s.Change t) : t.durable = s.durable := by
  cases h <;> rfl

end Change

theorem eq_of_delete_none {s t : Store} (h : s.delete none = .ok t) : t = s := by
  have hremove := eq_of_checked h
  have hkept : s.rows.filter (fun r => !(some (r.id : Int) == none)) = s.rows :=
    List.filter_eq_self.2 fun r _ => rfl
  rw [remove, hkept] at hremove
  exact hremove.symm

end Store

namespace Session

theorem perform_change (s : Session) (c : Call) : s.store.Change (s.perform c).2.store := by
  cases c with
  | save d dated =>
    rcases s.save_cases d dated with ⟨e, t, hsave, hstore⟩ | ⟨row, -, -, -, -, hid, hsave⟩
    · rw [hsave, hstore]
      exact .nothing
    · rw [hsave]
      exact .addition row hid
  | list user shelf => exact .nothing
  | find id user => exact .nothing
  | delete id =>
    rw [perform]
    cases hdelete : s.store.delete id with
    | error e => exact .nothing
    | ok store =>
      cases id with
      | none =>
        obtain rfl := Store.eq_of_delete_none hdelete
        exact .nothing
      | some id =>
        obtain rfl := Store.eq_of_delete hdelete
        exact .removal _
  | deleteAll user shelf =>
    rw [perform]
    cases hclear : s.store.deleteAll user shelf with
    | error e => exact .nothing
    | ok cleared =>
      obtain ⟨n, store⟩ := cleared
      cases user with
      | none =>
        obtain rfl := Store.eq_of_deleteAll_none hclear
        exact .nothing
      | some user =>
        obtain rfl := Store.eq_of_deleteAll hclear
        exact .removal _
  | count => exact .nothing
  | now =>
    rw [perform]
    cases s.clock.reading? <;> exact .nothing

/-- The sessions that can come about: a store is made without rows, calls of all kinds are made, the
store may be closed and opened again, and the clock may show anything at any time. -/
inductive Reachable : Session → Prop
  | made (durable : Bool) (clock : Clock) : Reachable ⟨.new durable, clock⟩
  | called {s : Session} (h : Reachable s) (c : Call) : Reachable (s.perform c).2
  | timed {s : Session} (h : Reachable s) (clock : Clock) : Reachable { s with clock := clock }
  | closed {s : Session} (h : Reachable s) : Reachable s.close
  | reopened {s : Session} (h : Reachable s) : Reachable s.reopen

namespace Reachable

theorem numbered {s : Session} (h : s.Reachable) : s.store.Numbered := by
  induction h with
  | made durable clock => exact .of_rows_nil rfl
  | called _ c ih => exact (perform_change _ c).numbered ih
  | timed _ clock ih => exact ih
  | closed _ ih => exact ⟨ih.fresh, ih.increasing⟩
  | @reopened s _ ih =>
    simp only [reopen, Store.reopen]
    split
    · exact ⟨ih.fresh, ih.increasing⟩
    · exact .of_rows_nil rfl

theorem run {ρ : Type} (t : Task ρ) {s : Session} (h : s.Reachable) : (t.run s).2.Reachable := by
  induction t generalizing s with
  | done r => exact h
  | call c next ih => exact ih _ (h.called c)

end Reachable

end Session

end Reckoner
