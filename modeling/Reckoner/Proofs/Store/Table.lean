import Mathlib.Algebra.BigOperators.Finprod
import Mathlib.Data.List.Nodup
import Reckoner.Store.Basic
/-!
The table of a store.

Every row has a number of its own, at most the last one given out. So a number finds one row at most,
and a deletion by number takes that row and no other.

What is shown here:
1. `Store.Sound.add` and `Store.Sound.remove`: an added row with the next number, and any removal, keep
   the numbers apart;
2. `Store.Sound.exists_remove_id`: removing by the number of a row removes exactly that row;
3. `Store.finsum_length_onShelf`: the rows are counted by users and shelves;
4. `Store.eq_of_checked`, `Store.held_of_checked`, `Store.error_of_checked`: what the checks of an access
   let through, and why they do not;
5. `Store.list_eq`, `Store.get?_eq`, `Store.delete_eq`, `Store.deleteAll_eq`, `Store.count_eq`: what the
   accesses to an open store do with integers that a column holds.
-/

namespace Reckoner

namespace Row

/-- Whether a row belongs to a user and lies on a shelf. -/
def isOf (user : Int) (shelf : Shelf) (r : Row) : Bool := some r.user == some user && r.shelf == shelf

theorem isOf_iff {user : Int} {shelf : Shelf} {r : Row} :
    r.isOf user shelf = true ↔ r.user = user ∧ r.shelf = shelf := by
  rw [isOf, Bool.and_eq_true, beq_iff_eq, beq_iff_eq, Option.some_inj]

/-- Whether a row has a number. -/
def hasId (id : Int) (r : Row) : Bool := some (r.id : Int) == some id

theorem hasId_iff {id : Int} {r : Row} : r.hasId id = true ↔ (r.id : Int) = id := by
  rw [hasId, beq_iff_eq, Option.some_inj]

end Row

namespace Store

/-- The numbers of the rows are apart from each other, and none is yet to be given out. -/
structure Sound (s : Store) : Prop where
  fresh : ∀ r ∈ s.rows, r.id ≤ s.lastId
  distinct : (s.rows.map Row.id).Nodup

/-- A store with one more row, which takes the next number. -/
def add (s : Store) (row : Row) : Store :=
  { s with rows := s.rows ++ [row], lastId := s.lastId + 1 }

/-- The rows of a user on a shelf, oldest first. -/
def onShelf (s : Store) (user : Int) (shelf : Shelf) : List Row := s.rows.filter (Row.isOf user shelf)

theorem mem_onShelf {s : Store} {user : Int} {shelf : Shelf} {r : Row} :
    r ∈ s.onShelf user shelf ↔ r ∈ s.rows ∧ r.user = user ∧ r.shelf = shelf := by
  rw [onShelf, List.mem_filter, Row.isOf_iff]

theorem onShelf_add (s : Store) (row : Row) (user : Int) (shelf : Shelf) :
    (s.add row).onShelf user shelf =
      s.onShelf user shelf ++ if row.isOf user shelf = true then [row] else [] := by
  rw [onShelf, add, List.filter_append, List.filter_cons, List.filter_nil]
  rfl

theorem onShelf_remove (s : Store) (p : Row → Bool) (user : Int) (shelf : Shelf) :
    (s.remove p).2.onShelf user shelf = (s.onShelf user shelf).filter fun r => !p r := by
  rw [onShelf, remove, onShelf, List.filter_filter, List.filter_filter]
  congr 1
  funext r
  exact Bool.and_comm _ _

theorem length_onShelf (s : Store) (user : Int) :
    (s.onShelf user .history).length + (s.onShelf user .archive).length =
      (s.rows.map Row.user).count user := by
  rw [onShelf, onShelf]
  induction s.rows with
  | nil => rfl
  | cons r rows ih =>
    have hone : ∀ shelf, r.isOf user shelf = (decide (r.user = user) && decide (r.shelf = shelf)) := by
      intro shelf
      rw [Bool.eq_iff_iff, Row.isOf_iff, Bool.and_eq_true, decide_eq_true_iff, decide_eq_true_iff]
    rw [List.map_cons, List.count_cons, ← ih]
    simp only [List.filter_cons, hone, beq_eq_decide]
    by_cases huser : r.user = user
    · cases r.shelf <;> simp [huser] <;> omega
    · simp [huser]

/-- The rows are those of all users; only finitely many users have any. -/
theorem finsum_length_onShelf (s : Store) :
    (Function.support fun user =>
        (s.onShelf user .history).length + (s.onShelf user .archive).length).Finite ∧
      ∑ᶠ user, ((s.onShelf user .history).length + (s.onShelf user .archive).length) =
        s.rows.length := by
  have hcount : (fun user => (s.onShelf user .history).length + (s.onShelf user .archive).length) =
      fun user => (s.rows.map Row.user).count user := funext s.length_onShelf
  have hsupport : (Function.support fun user => (s.rows.map Row.user).count user) ⊆
      ((s.rows.map Row.user).toFinset : Set Int) := by
    intro user huser
    rw [List.coe_toFinset]
    exact List.count_pos_iff.1 (Nat.pos_of_ne_zero huser)
  rw [hcount]
  constructor
  · exact (Finset.finite_toSet _).subset hsupport
  · rw [finsum_eq_sum_of_support_subset _ hsupport, List.sum_toFinset_count_eq_length,
      List.length_map]

namespace Sound

theorem of_rows_nil {s : Store} (h : s.rows = []) : s.Sound := by
  constructor
  · rw [h]
    intro r hr
    cases hr
  · rw [h]
    exact List.nodup_nil

theorem add {s : Store} (h : s.Sound) {row : Row} (hid : row.id = s.lastId + 1) :
    (s.add row).Sound := by
  constructor
  · intro r hr
    rcases List.mem_append.1 hr with hr | hr
    · exact Nat.le_succ_of_le (h.fresh r hr)
    · obtain rfl := List.mem_singleton.1 hr
      exact Nat.le_of_eq hid
  · rw [Store.add, List.map_append, List.nodup_append]
    refine ⟨h.distinct, List.nodup_singleton _, ?_⟩
    intro a ha b hb
    obtain ⟨r, hr, rfl⟩ := List.mem_map.1 ha
    obtain rfl := List.mem_singleton.1 hb
    have := h.fresh r hr
    omega

theorem remove {s : Store} (h : s.Sound) (p : Row → Bool) : (s.remove p).2.Sound := by
  constructor
  · intro r hr
    exact h.fresh r (s.remove_subset p r hr)
  · exact h.distinct.sublist (List.filter_sublist.map Row.id)

theorem eq_of_id {s : Store} (h : s.Sound) {q r : Row} (hq : q ∈ s.rows) (hr : r ∈ s.rows)
    (hid : q.id = r.id) : q = r :=
  List.inj_on_of_nodup_map h.distinct hq hr hid

theorem nodup_listing {s : Store} (h : s.Sound) (user : Int) (shelf : Shelf) :
    ((((s.onShelf user shelf).mergeSort Row.notAfter).map Row.record).map Record.id).Nodup := by
  have hperm := List.mergeSort_perm (s.onShelf user shelf) Row.notAfter
  have hids : ((s.onShelf user shelf).map Row.id).Nodup :=
    h.distinct.sublist (List.filter_sublist.map Row.id)
  rw [List.map_map]
  exact (hperm.map Row.id).nodup_iff.2 hids

theorem exists_remove_id {s : Store} (h : s.Sound) {r : Row} (hr : r ∈ s.rows) :
    ∃ before after, s.rows = before ++ r :: after ∧
      (s.remove (Row.hasId r.id)).2 = { s with rows := before ++ after } := by
  obtain ⟨before, after, hrows⟩ := List.append_of_mem hr
  have hnodup := h.distinct
  rw [hrows, List.map_append, List.map_cons, List.nodup_append] at hnodup
  obtain ⟨-, hafter, happart⟩ := hnodup
  -- numbers are distinct, so no row on either side has this one
  have hbefore : ∀ q ∈ before, (!q.hasId r.id) = true := by
    intro q hq
    have hne := happart q.id (List.mem_map_of_mem hq) r.id (List.mem_cons_self ..)
    rw [Bool.not_eq_true', ← Bool.not_eq_true, Row.hasId_iff]
    omega
  have hlater : ∀ q ∈ after, (!q.hasId r.id) = true := by
    intro q hq
    have hne : q.id ≠ r.id := fun he =>
      (List.nodup_cons.1 hafter).1 (he ▸ List.mem_map_of_mem hq)
    rw [Bool.not_eq_true', ← Bool.not_eq_true, Row.hasId_iff]
    omega
  have hself : r.hasId r.id = true := Row.hasId_iff.2 rfl
  have hkept : s.rows.filter (fun q => !q.hasId r.id) = before ++ after := by
    rw [hrows, List.filter_append, List.filter_eq_self.2 hbefore, List.filter_cons, hself,
      List.filter_eq_self.2 hlater]
    rfl
  refine ⟨before, after, hrows, ?_⟩
  rw [Store.remove, hkept]

theorem find?_eq_some_iff {s : Store} (h : s.Sound) {id user : Int} {r : Row} :
    s.rows.find? (fun r => r.hasId id && some r.user == some user) = some r ↔
      r ∈ s.rows ∧ (r.id : Int) = id ∧ r.user = user := by
  constructor
  · intro hfind
    have hp := List.find?_some hfind
    rw [Bool.and_eq_true, Row.hasId_iff, beq_iff_eq, Option.some_inj] at hp
    exact ⟨List.mem_of_find?_eq_some hfind, hp⟩
  · rintro ⟨hr, hid, huser⟩
    cases hfind : s.rows.find? (fun r => r.hasId id && some r.user == some user) with
    | none =>
      refine absurd (List.find?_eq_none.1 hfind r hr) (not_not.2 ?_)
      rw [Bool.and_eq_true, Row.hasId_iff, beq_iff_eq, Option.some_inj]
      exact ⟨hid, huser⟩
    | some q =>
      have hp := List.find?_some hfind
      rw [Bool.and_eq_true, Row.hasId_iff] at hp
      rw [h.eq_of_id (List.mem_of_find?_eq_some hfind) hr (by omega)]

end Sound

theorem insert_cases (s : Store) (d : Draft) (t : Timestamp) :
    (∃ e, s.insert d t = .error e) ∨
      ∃ row : Row, d.user = some row.user ∧ d.expression = some row.expression ∧
        d.result = some row.result ∧ row.shelf = d.shelf ∧ row.stamp = t.storedText ∧
        row.id = s.lastId + 1 ∧ s.insert d t = .ok (row, s.add row) := by
  rw [insert]
  cases s.checkOpen with
  | error e => exact .inl ⟨e, rfl⟩
  | ok opened =>
    cases checkIntegers [d.user] with
    | error e => exact .inl ⟨e, rfl⟩
    | ok held =>
      obtain ⟨user, expression, result, shelf⟩ := d
      cases user with
      | none => exact .inl ⟨_, rfl⟩
      | some user =>
        cases expression with
        | none => exact .inl ⟨_, rfl⟩
        | some expression =>
          cases result with
          | none => exact .inl ⟨_, rfl⟩
          | some result => exact .inr ⟨_, rfl, rfl, rfl, rfl, rfl, rfl, rfl⟩

theorem eq_of_checked {β : Type} {s : Store} {ns : List (Option Int)} {x y : β}
    (h : (do s.checkOpen; checkIntegers ns; .ok x : Except StoreError β) = .ok y) : x = y := by
  cases hopen : s.checkOpen with
  | error e =>
    rw [hopen] at h
    cases h
  | ok opened =>
    cases hheld : checkIntegers ns with
    | error e =>
      rw [hopen, hheld] at h
      cases h
    | ok held =>
      rw [hopen, hheld] at h
      exact Except.ok.inj h

theorem held_of_checked {β : Type} {s : Store} {ns : List (Option Int)} {x y : β}
    (h : (do s.checkOpen; checkIntegers ns; .ok x : Except StoreError β) = .ok y) :
    ns.all (fun n => n.all fitsColumn) = true := by
  cases hopen : s.checkOpen with
  | error e =>
    rw [hopen] at h
    cases h
  | ok opened =>
    by_cases hheld : ns.all (fun n => n.all fitsColumn) = true
    · exact hheld
    · have hrefused : checkIntegers ns = .error .integerTooLarge := if_neg hheld
      rw [hopen, hrefused] at h
      cases h

theorem mem_of_get? {s : Store} {id user : Option Int} {row : Row}
    (h : s.get? id user = .ok (some row)) :
    row ∈ s.rows ∧ id = some (row.id : Int) ∧ user = some row.user := by
  have hfind := eq_of_checked h
  have hp := List.find?_some hfind
  rw [Bool.and_eq_true, beq_iff_eq, beq_iff_eq] at hp
  exact ⟨List.mem_of_find?_eq_some hfind, hp.1.symm, hp.2.symm⟩

theorem eq_of_delete {s t : Store} {id : Int} (h : s.delete (some id) = .ok t) :
    (s.remove (Row.hasId id)).2 = t := eq_of_checked h

theorem eq_of_deleteAll {s t : Store} {user : Int} {shelf : Shelf} {n : Nat}
    (h : s.deleteAll (some user) shelf = .ok (n, t)) : (s.remove (Row.isOf user shelf)).2 = t :=
  congrArg Prod.snd (eq_of_checked h)

theorem eq_of_deleteAll_none {s t : Store} {shelf : Shelf} {n : Nat}
    (h : s.deleteAll none shelf = .ok (n, t)) : t = s := by
  have hremove := congrArg Prod.snd (eq_of_checked h)
  have hkept : s.rows.filter (fun r => !(some r.user == none && r.shelf == shelf)) = s.rows :=
    List.filter_eq_self.2 fun r _ => rfl
  rw [remove, hkept] at hremove
  exact hremove.symm

theorem list_archive_remove (s : Store) (user : Int) (v : Option Int) :
    (s.remove (Row.isOf user .history)).2.list v .archive = s.list v .archive := by
  have hkept : (s.rows.filter fun r => !r.isOf user .history).filter
        (fun r => some r.user == v && r.shelf == .archive) =
      s.rows.filter fun r => some r.user == v && r.shelf == .archive := by
    rw [List.filter_filter]
    congr 1
    funext r
    cases hshelf : r.shelf <;> simp [Row.isOf, hshelf]
  rw [list, list]
  simp only [remove, hkept]
  rfl

/-! ## Accesses to an open store -/

theorem checkIntegers_eq {ns : List (Option Int)}
    (h : ns.all (fun n => n.all fitsColumn) = true) : checkIntegers ns = .ok () := if_pos h

section Open
variable {s : Store} (hopen : s.isOpen = true)
include hopen

theorem checkOpen_eq : s.checkOpen = .ok () := if_pos hopen

theorem list_eq {user : Int} (shelf : Shelf) (huser : fitsColumn user = true) :
    s.list (some user) shelf = .ok ((s.onShelf user shelf).mergeSort Row.notAfter) := by
  have hchecked : checkIntegers [some user] = .ok () := checkIntegers_eq (by simp [huser])
  rw [list, checkOpen_eq hopen, hchecked]
  rfl

theorem get?_eq {id user : Int} (hid : fitsColumn id = true) (huser : fitsColumn user = true) :
    s.get? (some id) (some user) =
      .ok (s.rows.find? fun r => r.hasId id && some r.user == some user) := by
  have hchecked : checkIntegers [some id, some user] = .ok () := checkIntegers_eq (by simp [hid, huser])
  rw [get?, checkOpen_eq hopen, hchecked]
  rfl

theorem delete_eq {id : Int} (hid : fitsColumn id = true) :
    s.delete (some id) = .ok (s.remove (Row.hasId id)).2 := by
  have hchecked : checkIntegers [some id] = .ok () := checkIntegers_eq (by simp [hid])
  rw [delete, checkOpen_eq hopen, hchecked]
  rfl

theorem deleteAll_eq {user : Int} (shelf : Shelf) (huser : fitsColumn user = true) :
    s.deleteAll (some user) shelf =
      .ok ((s.onShelf user shelf).length, (s.remove (Row.isOf user shelf)).2) := by
  have hchecked : checkIntegers [some user] = .ok () := checkIntegers_eq (by simp [huser])
  rw [deleteAll, checkOpen_eq hopen, hchecked]
  rfl

theorem count_eq : s.count = .ok s.rows.length := by
  rw [count, checkOpen_eq hopen]
  rfl

/-- An access to an open store that fails has been given an integer that no column holds. -/
theorem error_of_checked {β : Type} {ns : List (Option Int)} {x : β} {e : StoreError}
    (h : (do s.checkOpen; checkIntegers ns; .ok x : Except StoreError β) = .error e) :
    e = .integerTooLarge ∧ ns.all (fun n => n.all fitsColumn) = false := by
  rw [checkOpen_eq hopen] at h
  by_cases hheld : ns.all (fun n => n.all fitsColumn) = true
  · rw [checkIntegers_eq hheld] at h
    cases h
  · have hrefused : checkIntegers ns = .error .integerTooLarge := if_neg hheld
    rw [hrefused] at h
    cases h
    exact ⟨rfl, Bool.eq_false_iff.2 hheld⟩

end Open

end Store

end Reckoner
