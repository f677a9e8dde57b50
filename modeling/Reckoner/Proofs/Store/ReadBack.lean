import Reckoner.Proofs.Store.Operation
import Reckoner.Service.Answer
/-!
Records read back unchanged.

What a save hands out has never been in the table: there the timestamp is a text, with six digits for the
microseconds whatever they are. Yet what is found and listed later is the same record, and so is shown
the same, since the text tells the timestamp.

What is shown here:
1. `Session.exists_list`: a listing holds the records of a user on a shelf, each once;
2. `Session.shows_of_mem`: what an open store holds is found and listed as it is;
3. `Session.reads_back`: so it is with what was saved, after any operations that do not take it out.
-/

namespace Reckoner

theorem Record.filter_id_eq {xs : List Record} (hdistinct : (xs.map Record.id).Nodup) {x : Record}
    (hx : x ∈ xs) : xs.filter (fun y => y.id == x.id) = [x] := by
  have hnodup : (xs.filter fun y => y.id == x.id).Nodup := hdistinct.of_map.filter _
  apply List.perm_singleton.1
  apply (List.perm_ext_iff_of_nodup hnodup (List.nodup_singleton x)).2
  intro y
  rw [List.mem_filter, beq_iff_eq, List.mem_singleton]
  constructor
  · rintro ⟨hy, hid⟩
    exact List.inj_on_of_nodup_map hdistinct hy hx hid
  · rintro rfl
    exact ⟨hx, rfl⟩

namespace Session

/-- A listing by an open store holds the records of the user on the shelf, each once. -/
theorem exists_list {s : Session} (hs : s.Reachable) (hopen : s.store.isOpen = true) {user : Int}
    (huser : fitsColumn user = true) (shelf : Shelf) :
    ∃ xs, (s.perform (.list (some user) shelf)).1 = .ok xs ∧ (xs.map Record.id).Nodup ∧
      ∀ x, x ∈ xs ↔ x ∈ s.store.records ∧ x.user = user ∧ x.shelf = shelf := by
  have hperm := List.mergeSort_perm (s.store.onShelf user shelf) Row.notAfter
  have hlist : (s.perform (.list (some user) shelf)).1 =
      .ok (((s.store.onShelf user shelf).mergeSort Row.notAfter).map Row.record) := by
    rw [perform, Store.list_eq hopen shelf huser]
    rfl
  refine ⟨_, hlist, hs.numbered.sound.nodup_listing user shelf, ?_⟩
  intro x
  rw [(hperm.map Row.record).mem_iff, List.mem_map, Store.records, List.mem_map]
  constructor
  · rintro ⟨r, hr, rfl⟩
    obtain ⟨hmem, hrow⟩ := Store.mem_onShelf.1 hr
    exact ⟨⟨r, hmem, rfl⟩, hrow⟩
  · rintro ⟨⟨r, hmem, rfl⟩, hrow⟩
    exact ⟨r, Store.mem_onShelf.2 ⟨hmem, hrow⟩, rfl⟩

/-- A session answers with a record where it is asked for it. A number that no column holds cannot be
asked for; no table has room for a row with one. -/
structure Shows (s : Session) (x : Record) : Prop where
  found : fitsColumn x.id = true →
    (s.perform (.find (some x.id) (some x.user))).1 = .ok (some x)
  listed : ∃ xs, (s.perform (.list (some x.user) x.shelf)).1 = .ok xs ∧
    xs.filter (fun y => y.id == x.id) = [x]

theorem shows_of_mem {s : Session} (hs : s.Reachable) (hopen : s.store.isOpen = true) {x : Record}
    (hx : x ∈ s.store.records) (huser : fitsColumn x.user = true) : s.Shows x := by
  constructor
  · intro hid
    obtain ⟨found, hfind, hfound⟩ := exists_find hs hopen hid huser
    rw [hfind, (hfound x).2 ⟨hx, rfl, rfl⟩]
  · obtain ⟨xs, hlist, hdistinct, hmem⟩ := exists_list hs hopen huser x.shelf
    exact ⟨xs, hlist, Record.filter_id_eq hdistinct ((hmem x).2 ⟨hx, rfl, rfl⟩)⟩

/-- A save to an open store hands out a record with the timestamp that was given, or that the clock shows,
and it is shown in the short form. The table keeps the timestamp as a text with all six digits, from which
it is read back; and the record is found and listed as it was handed out, after any operations that do not
take it out. -/
theorem reads_back {s : Session} (hs : s.Reachable) (hopen : s.store.isOpen = true) {user : Int}
    (huser : fitsColumn user = true) (expression result : String) (shelf : Shelf)
    {dated : Option Timestamp} {t : Timestamp} (ht : s.stamp? dated = some t) :
    let x : Record := ⟨s.store.lastId + 1, user, expression, result, some t, shelf⟩
    let answer := s.perform (.save ⟨user, expression, result, shelf⟩ dated)
    answer.1 = .ok x ∧
      x.toJson = .obj [("id", .int x.id), ("user_id", .int user), ("expression", .str expression),
        ("result", .str result), ("timestamp", .str (String.ofList t.text)),
        ("type", .str shelf.name)] ∧
      (∃ row, answer.2.store.rows = s.store.rows ++ [row] ∧ row.stamp = t.storedText ∧
        Timestamp.ofText? row.stamp = some t) ∧
      ∀ later, answer.2.spares x later = true → (answer.2.afterAll later).store.isOpen = true →
        (answer.2.afterAll later).Shows x := by
  intro x answer
  have hsave : answer = (.ok x, _) := perform_save_eq hopen huser expression result shelf ht
  refine ⟨?_, rfl, ?_, ?_⟩
  · rw [hsave]
  · rw [hsave]
    exact ⟨_, rfl, rfl, t.ofText?_storedText⟩
  · intro later hspares hlater
    have hreachable : (answer.2.afterAll later).Reachable := (hs.called _).afterAll later
    have hmem : x ∈ answer.2.store.records := by
      rw [hsave]
      refine List.mem_map.2 ⟨_, List.mem_append_right _ (List.mem_singleton_self _), ?_⟩
      exact Row.record_of_storedText rfl
    have hkept := (answer.2.mem_records_afterAll later x).2 (.inl ⟨hmem, hspares⟩)
    exact shows_of_mem hreachable hlater hkept huser

end Session

/-- A record of the first moment of the calendar, by a clock with the greatest offset, outlasts a deletion
of another record, one of a number that no column holds, one of the other shelf of its user, and one of its
own shelf while the store is closed. -/
theorem reads_back_of_first_moment :
    let s : Session := ⟨.new true, ⟨0, 1⟩⟩
    let user : Int := 9223372036854775807
    let t : Timestamp :=
      ⟨⟨1, 1, 1, 0, 0, 0, 0, by decide, by decide, by decide, by decide⟩, some (-86399999999), by decide⟩
    let x : Record := ⟨1, user, "1/8", "0.125", some t, .archive⟩
    let answer := s.perform (.save ⟨user, "1/8", "0.125", .archive⟩ (some t))
    let later : List Operation :=
      [.call (.save ⟨user, some "2*3", some "6", .archive⟩ (some t)), .call (.delete (some 2)),
        .call (.delete (some 9223372036854775808)), .call (.deleteAll (some user) .history), .close,
        .call (.deleteAll (some user) .archive), .reopen]
    s.Reachable ∧ s.store.isOpen = true ∧ fitsColumn user = true ∧ s.stamp? (some t) = some t ∧
      t.storedText = "0001-01-01T00:00:00.000000-23:59:59.999999".toList ∧
      t.text = "0001-01-01T00:00:00-23:59:59.999999".toList ∧
      answer.2.spares x later = true ∧ (answer.2.afterAll later).store.isOpen = true ∧
      (answer.2.afterAll later).Shows x := by
  intro s user t x answer later
  have hreachable : s.Reachable := .made true ⟨0, 1⟩
  have hopen : s.store.isOpen = true := rfl
  have huser : fitsColumn user = true := by decide
  have hspares : answer.2.spares x later = true := by decide +kernel
  have hlater : (answer.2.afterAll later).store.isOpen = true := by decide +kernel
  have hstamp : s.stamp? (some t) = some t := rfl
  obtain ⟨-, -, -, hshows⟩ :=
    Session.reads_back hreachable hopen huser "1/8" "0.125" .archive hstamp
  exact ⟨hreachable, hopen, huser, hstamp, by decide +kernel, by decide +kernel, hspares, hlater,
    hshows later hspares hlater⟩

end Reckoner
