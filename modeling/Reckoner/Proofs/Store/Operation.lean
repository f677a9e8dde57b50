import Reckoner.Proofs.Store.Numbering
/-!
A store over time.

A session goes through operations: calls of all kinds, which may fail, changes of the clock, and that the
store is closed, or closed and opened again. Each save that succeeds hands out a record. No two of all the
records that are ever handed out have the same number, and what the store holds at any time are those that
nothing has taken out since.

What is shown here:
1. `Session.records_after`: what one operation does to the records;
2. `Session.mem_records_afterAll`: the records after any operations;
3. `Session.saved_increasing`: later saves hand out greater numbers;
4. `Session.remembers`: what is found at any time by number and user is the record that was saved with
   that number for that user, as long as it has not been taken out, and nothing else.
-/

namespace Reckoner

/-- What can happen to a session. -/
inductive Operation where
  | call (c : Call)
  /-- The clock is set. -/
  | timed (clock : Clock)
  | close
  | reopen
  deriving DecidableEq

/-- Whether a call deletes by a number or a shelf that is that of a record. -/
def Call.names (x : Record) : Call → Bool
  | .delete id => some (x.id : Int) == id
  | .deleteAll user shelf => some x.user == user && x.shelf == shelf
  | _ => false

/-- The records of a store, oldest first. -/
def Store.records (s : Store) : List Record := s.rows.map Row.record

namespace Session

/-! ## Operations -/

def after (s : Session) : Operation → Session
  | .call c => (s.perform c).2
  | .timed clock => { s with clock := clock }
  | .close => s.close
  | .reopen => s.reopen

def afterAll (s : Session) (os : List Operation) : Session := os.foldl after s

/-- The record that an operation hands out as saved. -/
def saved? (s : Session) : Operation → Option Record
  | .call (.save d dated) => (s.perform (.save d dated)).1.toOption
  | _ => none

/-- The records that operations hand out as saved, one after the other. -/
def saved (s : Session) : List Operation → List Record
  | [] => []
  | o :: os => (s.saved? o).toList ++ (s.after o).saved os

/-- Whether an operation takes out a record: a deletion that names it and succeeds, or that a store which
is not durable is opened anew. -/
def takes (s : Session) (x : Record) : Operation → Bool
  | .call c => c.names x && (s.perform c).1.isOk
  | .reopen => !s.store.durable
  | _ => false

/-- Whether none of the operations takes out a record. -/
def spares (s : Session) (x : Record) : List Operation → Bool
  | [] => true
  | o :: os => !s.takes x o && (s.after o).spares x os

/-- One of the operations hands out a record and none of the later ones takes it out. -/
def Keeps (s : Session) (os : List Operation) (x : Record) : Prop :=
  ∃ before o later, os = before ++ o :: later ∧ (s.afterAll before).saved? o = some x ∧
    ((s.afterAll before).after o).spares x later = true

variable (s : Session)

theorem keeps_nil (x : Record) : ¬s.Keeps [] x := by
  rintro ⟨before, o, later, hsplit, -⟩
  simp at hsplit

theorem keeps_cons (o : Operation) (os : List Operation) (x : Record) :
    s.Keeps (o :: os) x ↔
      s.saved? o = some x ∧ (s.after o).spares x os = true ∨ (s.after o).Keeps os x := by
  constructor
  · rintro ⟨before, p, later, hsplit, hsaved, hspares⟩
    cases before with
    | nil =>
      obtain ⟨rfl, rfl⟩ := List.cons.inj hsplit
      exact .inl ⟨hsaved, hspares⟩
    | cons q before =>
      obtain ⟨rfl, rfl⟩ := List.cons.inj hsplit
      exact .inr ⟨before, p, later, rfl, hsaved, hspares⟩
  · rintro (⟨hsaved, hspares⟩ | ⟨before, p, later, rfl, hsaved, hspares⟩)
    · exact ⟨[], o, os, rfl, hsaved, hspares⟩
    · exact ⟨o :: before, p, later, rfl, hsaved, hspares⟩

theorem mem_saved_of_keeps {s : Session} {os : List Operation} {x : Record} (h : s.Keeps os x) :
    x ∈ s.saved os := by
  induction os generalizing s with
  | nil => exact absurd h (s.keeps_nil x)
  | cons o os ih =>
    rw [saved, List.mem_append, Option.mem_toList]
    rcases (s.keeps_cons o os x).1 h with ⟨hsaved, -⟩ | hkeeps
    · exact .inl hsaved
    · exact .inr (ih hkeeps)

/-! ## What an operation does to the records -/

/-- An operation that takes out nothing and saves nothing leaves the records as they are. -/
theorem records_eq_of_idle {xs : List Record} {p : Record → Bool} {saved : Option Record}
    (hp : ∀ x, p x = false) (hsaved : saved = none) :
    xs = (xs.filter fun x => !p x) ++ saved.toList := by
  have hkept : xs.filter (fun x => !p x) = xs :=
    List.filter_eq_self.2 fun x _ => by rw [hp x, Bool.not_false]
  rw [hkept, hsaved, Option.toList_none, List.append_nil]

theorem records_remove (t : Store) (p : Record → Bool) :
    (t.remove fun r => p r.record).2.records = t.records.filter fun x => !p x := by
  rw [Store.records, Store.records, List.filter_map]
  rfl

theorem records_save (d : Draft) (dated : Option Timestamp) :
    (s.perform (.save d dated)).2.store.records =
      s.store.records ++ (s.perform (.save d dated)).1.toOption.toList := by
  rcases s.save_cases d dated with ⟨e, t, hsave, hstore⟩ | ⟨row, -, -, -, -, -, hsave⟩
  · rw [hsave, hstore]
    exact (List.append_nil _).symm
  · rw [hsave]
    exact List.map_append

theorem records_of_removal {s : Session} {c : Call}
    (h : (s.perform c).2.store =
      if (s.perform c).1.isOk then (s.store.remove fun r => c.names r.record).2 else s.store) :
    (s.perform c).2.store.records = s.store.records.filter fun x => !s.takes x (.call c) := by
  have htakes : ∀ x, s.takes x (.call c) = (c.names x && (s.perform c).1.isOk) := fun _ => rfl
  simp only [htakes]
  rw [h]
  cases (s.perform c).1.isOk with
  | true =>
    simp only [Bool.and_true]
    exact records_remove s.store fun x => c.names x
  | false => simp

theorem records_delete (id : Option Int) :
    (s.perform (.delete id)).2.store.records =
      s.store.records.filter fun x => !s.takes x (.call (.delete id)) := by
  apply records_of_removal
  rw [perform]
  cases hdelete : s.store.delete id with
  | error e => rfl
  | ok t => exact (Store.eq_of_checked hdelete).symm

theorem records_deleteAll (user : Option Int) (shelf : Shelf) :
    (s.perform (.deleteAll user shelf)).2.store.records =
      s.store.records.filter fun x => !s.takes x (.call (.deleteAll user shelf)) := by
  apply records_of_removal
  rw [perform]
  cases hclear : s.store.deleteAll user shelf with
  | error e => rfl
  | ok cleared => exact congrArg Prod.snd (Store.eq_of_checked hclear).symm

/-- What an operation takes out is gone, what it saves comes last, and the rest is as it was. -/
theorem records_after (o : Operation) :
    (s.after o).store.records =
      (s.store.records.filter fun x => !s.takes x o) ++ (s.saved? o).toList := by
  cases o with
  | timed clock => exact records_eq_of_idle (fun _ => rfl) rfl
  | close => exact records_eq_of_idle (fun _ => rfl) rfl
  | reopen =>
    simp only [after, reopen, Store.reopen, takes]
    cases s.store.durable with
    | true => exact records_eq_of_idle (fun _ => rfl) rfl
    | false => simp [saved?, Store.records, Store.new]
  | call c =>
    cases c with
    | save d dated =>
      have htakes : ∀ x, s.takes x (.call (.save d dated)) = false := fun _ => rfl
      simp only [htakes, Bool.not_false, List.filter_true]
      exact s.records_save d dated
    | list user shelf => exact records_eq_of_idle (fun _ => rfl) rfl
    | find id user => exact records_eq_of_idle (fun _ => rfl) rfl
    | delete id =>
      have hnone : s.saved? (.call (.delete id)) = none := rfl
      rw [hnone, Option.toList_none, List.append_nil]
      exact s.records_delete id
    | deleteAll user shelf =>
      have hnone : s.saved? (.call (.deleteAll user shelf)) = none := rfl
      rw [hnone, Option.toList_none, List.append_nil]
      exact s.records_deleteAll user shelf
    | count => exact records_eq_of_idle (fun _ => rfl) rfl
    | now =>
      have hstore : (s.after (.call .now)).store = s.store := by
        simp only [after, perform]
        cases s.clock.reading? <;> rfl
      rw [hstore]
      exact records_eq_of_idle (fun _ => rfl) rfl

theorem mem_records_after (o : Operation) (x : Record) :
    x ∈ (s.after o).store.records ↔
      x ∈ s.store.records ∧ s.takes x o = false ∨ s.saved? o = some x := by
  rw [records_after, List.mem_append, List.mem_filter, Bool.not_eq_true', Option.mem_toList]

/-- After any operations the records are those that were there before or were saved on the way, without
those that have been taken out since. -/
theorem mem_records_afterAll (os : List Operation) (x : Record) :
    x ∈ (s.afterAll os).store.records ↔
      x ∈ s.store.records ∧ s.spares x os = true ∨ s.Keeps os x := by
  induction os generalizing s with
  | nil =>
    have hnone := s.keeps_nil x
    simp [afterAll, spares, hnone]
  | cons o os ih =>
    have hrun : (s.afterAll (o :: os)) = (s.after o).afterAll os := rfl
    have hspares : s.spares x (o :: os) = true ↔
        s.takes x o = false ∧ (s.after o).spares x os = true := by
      rw [spares, Bool.and_eq_true, Bool.not_eq_true']
    rw [hrun, ih, mem_records_after, keeps_cons, hspares]
    tauto

/-! ## Numbers -/

theorem durable_after (o : Operation) : (s.after o).store.durable = s.store.durable := by
  cases o with
  | call c => exact (s.perform_change c).durable
  | timed clock => rfl
  | close => rfl
  | reopen =>
    simp only [after, reopen, Store.reopen]
    cases s.store.durable <;> rfl

/-- The numbers that have been given out are never forgotten: the store is durable, or it is not opened
anew. -/
def Lasts (s : Session) (os : List Operation) : Prop := s.store.durable = true ∨ .reopen ∉ os

theorem Lasts.tail {s : Session} {o : Operation} {os : List Operation} (h : s.Lasts (o :: os)) :
    (s.after o).Lasts os := by
  rw [Lasts, durable_after]
  exact h.imp_right fun hno hmem => hno (List.mem_cons_of_mem _ hmem)

theorem Lasts.lastId_le_after {s : Session} {o : Operation} {os : List Operation}
    (h : s.Lasts (o :: os)) : s.store.lastId ≤ (s.after o).store.lastId := by
  cases o with
  | call c => exact (s.perform_change c).precedes.lastId_le
  | timed clock => exact Nat.le_refl _
  | close => exact Nat.le_refl _
  | reopen =>
    have hdurable := h.resolve_right fun hno => hno (List.mem_cons_self ..)
    simp only [after, reopen, Store.reopen, hdurable]
    exact Nat.le_refl _

theorem Lasts.lastId_le_afterAll {s : Session} {os : List Operation} (h : s.Lasts os) :
    s.store.lastId ≤ (s.afterAll os).store.lastId := by
  induction os generalizing s with
  | nil => exact Nat.le_refl _
  | cons o os ih => exact Nat.le_trans h.lastId_le_after (ih h.tail)

/-- A save takes the next number, whatever has become of the records with the numbers before. -/
theorem id_of_saved {s : Session} {o : Operation} {x : Record} (h : s.saved? o = some x) :
    x.id = s.store.lastId + 1 ∧ (s.after o).store.lastId = x.id := by
  cases o with
  | call c =>
    cases c with
    | save d dated =>
      rw [after]
      rw [saved?] at h
      rcases s.save_cases d dated with ⟨e, t, hsave, -⟩ | ⟨row, -, -, -, -, hid, hsave⟩
      · rw [hsave] at h
        cases h
      · rw [hsave] at h ⊢
        obtain rfl : row.record = x := Option.some_inj.1 h
        exact ⟨hid, hid.symm⟩
    | _ => cases h
  | _ => cases h

theorem lastId_lt_of_mem_saved {s : Session} {os : List Operation} (h : s.Lasts os) {x : Record}
    (hx : x ∈ s.saved os) : s.store.lastId < x.id := by
  induction os generalizing s with
  | nil => cases hx
  | cons o os ih =>
    rw [saved, List.mem_append, Option.mem_toList] at hx
    rcases hx with hx | hx
    · have hid := (id_of_saved hx).1
      omega
    · have hle := h.lastId_le_after
      have hlt := ih h.tail hx
      omega

theorem id_le_of_mem_saved {s : Session} {os : List Operation} (h : s.Lasts os) {x : Record}
    (hx : x ∈ s.saved os) : x.id ≤ (s.afterAll os).store.lastId := by
  induction os generalizing s with
  | nil => cases hx
  | cons o os ih =>
    rw [saved, List.mem_append, Option.mem_toList] at hx
    rcases hx with hx | hx
    · rw [← (id_of_saved hx).2]
      exact h.tail.lastId_le_afterAll
    · exact ih h.tail hx

/-- Later saves hand out greater numbers: the last number given out is kept with the rows, and no deletion
sets it back. -/
theorem saved_increasing {s : Session} {os : List Operation} (h : s.Lasts os) :
    (s.saved os).Pairwise fun x y => x.id < y.id := by
  induction os generalizing s with
  | nil => exact List.Pairwise.nil
  | cons o os ih =>
    rw [saved]
    cases hsaved : s.saved? o with
    | none => exact ih h.tail
    | some x =>
      refine List.pairwise_cons.2 ⟨?_, ih h.tail⟩
      intro y hy
      have hid := (id_of_saved hsaved).2
      have hlt := lastId_lt_of_mem_saved h.tail hy
      omega

/-! ## What is found -/

theorem Reachable.after {s : Session} (h : s.Reachable) (o : Operation) : (s.after o).Reachable := by
  cases o with
  | call c => exact h.called c
  | timed clock => exact h.timed clock
  | close => exact h.closed
  | reopen => exact h.reopened

theorem Reachable.afterAll {s : Session} (h : s.Reachable) (os : List Operation) :
    (s.afterAll os).Reachable := by
  induction os generalizing s with
  | nil => exact h
  | cons o os ih => exact ih (h.after o)

theorem exists_find {s : Session} (hs : s.Reachable) (hopen : s.store.isOpen = true) {id user : Int}
    (hid : fitsColumn id = true) (huser : fitsColumn user = true) :
    ∃ found, (s.perform (.find (some id) (some user))).1 = .ok found ∧
      ∀ x, found = some x ↔ x ∈ s.store.records ∧ (x.id : Int) = id ∧ x.user = user := by
  have hfind : (s.perform (.find (some id) (some user))).1 =
      .ok ((s.store.rows.find? fun r => r.hasId id && some r.user == some user).map Row.record) := by
    rw [perform, Store.get?_eq hopen hid huser]
    rfl
  refine ⟨_, hfind, ?_⟩
  intro x
  rw [Option.map_eq_some_iff, Store.records, List.mem_map]
  constructor
  · rintro ⟨r, hr, rfl⟩
    obtain ⟨hmem, hrow⟩ := hs.numbered.sound.find?_eq_some_iff.1 hr
    exact ⟨⟨r, hmem, rfl⟩, hrow⟩
  · rintro ⟨⟨r, hmem, rfl⟩, hrow⟩
    exact ⟨r, hs.numbered.sound.find?_eq_some_iff.2 ⟨hmem, hrow⟩, rfl⟩

/-- What a session knows, after some operations, of what was saved in them. -/
structure Remembers (s : Session) (os : List Operation) : Prop where
  /-- Every save that succeeds has a greater number than all saves before it. -/
  increasing : (s.saved os).Pairwise fun x y => x.id < y.id
  /-- While the store is open a complete draft is saved, with a greater number than all before it. -/
  next : (s.afterAll os).store.isOpen = true → ∀ user : Int, fitsColumn user = true →
    ∀ (expression result : String) shelf dated t, (s.afterAll os).stamp? dated = some t →
    ∃ x, ((s.afterAll os).perform (.save ⟨user, expression, result, shelf⟩ dated)).1 = .ok x ∧
      ∀ y ∈ s.saved os, y.id < x.id
  /-- What is kept was saved. -/
  saved : ∀ x, s.Keeps os x → x ∈ s.saved os
  /-- A number and a user find the record that was saved with that number for that user, if it is still
  kept, or nothing. -/
  found : (s.afterAll os).store.isOpen = true → ∀ id user, fitsColumn id = true →
    fitsColumn user = true →
    ∃ found, ((s.afterAll os).perform (.find (some id) (some user))).1 = .ok found ∧
      ∀ x, found = some x ↔ s.Keeps os x ∧ (x.id : Int) = id ∧ x.user = user

/-- Numbers are unique for ever. -/
theorem remembers (durable : Bool) (clock : Clock) (os : List Operation)
    (h : Session.Lasts ⟨.new durable, clock⟩ os) : Session.Remembers ⟨.new durable, clock⟩ os := by
  constructor
  · exact saved_increasing h
  · intro hopen user huser expression result shelf dated t ht
    rw [perform_save_eq hopen huser expression result shelf ht]
    refine ⟨_, rfl, ?_⟩
    intro y hy
    exact Nat.lt_succ_of_le (id_le_of_mem_saved h hy)
  · intro x hx
    exact mem_saved_of_keeps hx
  · intro hopen id user hid huser
    have hreachable := (Reachable.made durable clock).afterAll os
    obtain ⟨found, hfind, hfound⟩ := exists_find hreachable hopen hid huser
    refine ⟨found, hfind, ?_⟩
    intro x
    have hempty : x ∉ (Store.new durable).records := List.not_mem_nil
    rw [hfound, mem_records_afterAll]
    simp only [hempty, false_and, false_or]

end Session

/-- No number is given out again: not when its record was the last and is deleted, not when the table has
been emptied, not when the store has been closed and opened again. Saves that fail take none. -/
theorem remembers_of_emptied_table :
    let s : Session := ⟨.new true, ⟨0, 1⟩⟩
    let os : List Operation :=
      [.call (.save ⟨some 1, some "1+1", some "2", .history⟩ none),
        .call (.save ⟨some 1, some "1+1", none, .history⟩ none),
        .call (.save ⟨some 2, some "2*3", some "6", .archive⟩ none),
        .call (.delete (some 2)), .call (.deleteAll (some 1) .history), .close,
        .call (.save ⟨some 1, some "1+1", some "2", .history⟩ none), .reopen,
        .call (.save ⟨some 1, some "5-2", some "3", .history⟩ none)]
    s.Lasts os ∧ (s.saved os).map Record.id = [1, 2, 3] ∧
      (s.afterAll os).store.records.map Record.id = [3] ∧ s.Remembers os := by
  intro s os
  have hlasts : s.Lasts os := .inl rfl
  refine ⟨hlasts, by decide +kernel, by decide +kernel, ?_⟩
  exact Session.remembers true ⟨0, 1⟩ os hlasts

end Reckoner
