import Reckoner.Proofs.Calendar.Chronology
import Reckoner.Proofs.Store.ReadBack
/-!
Listings.

A listing is sorted by texts: by the stamps of the rows, and by their numbers where two stamps are the
same. Every stamp has been written by a save, so it is the text of a timestamp, and numbers are all
different, so that each row of a listing stands strictly above those behind it. As long as the timestamps
have one offset, or none, the order of the texts is that of time, and the newest records come first.

What is shown here:
1. `Session.Reachable.written`: every row of a session that can come about has been written by a save;
2. `Session.exists_listing`: a listing has the records of a user on a shelf, each above those behind it;
3. `Session.newestFirst_of_offset`: with one offset, or none, this is newest first;
4. `Session.lists_newest_first`: so it is in every session whose timestamps have no offsets.
-/

namespace Reckoner

/-! ## What is in a row -/

/-- A row as a save writes it: its user is one that a column holds, and its stamp is the text of a
timestamp. -/
def Row.Written (r : Row) : Prop := fitsColumn r.user = true ∧ ∃ t : Timestamp, r.stamp = t.storedText

theorem Store.written_of_insert {s u : Store} {d : Draft} {t : Timestamp} {row : Row}
    (h : s.insert d t = .ok (row, u)) : row.Written := by
  rcases s.insert_cases d t with ⟨e, he⟩ | ⟨saved, huser, -, -, -, hstamp, -, hsaved⟩
  · rw [he] at h
    cases h
  · obtain ⟨rfl, -⟩ : saved = row ∧ s.add saved = u := by
      rw [hsaved] at h
      cases h
      exact ⟨rfl, rfl⟩
    refine ⟨?_, t, hstamp⟩
    by_contra hnot
    have hrefused : checkIntegers [d.user] = .error .integerTooLarge := if_neg (by simp [huser, hnot])
    rw [insert, hrefused] at h
    cases hopen : s.checkOpen <;> rw [hopen] at h <;> cases h

namespace Session

theorem mem_rows_saveAt {s : Session} {d : Draft} {t : Timestamp} {r : Row}
    (hr : r ∈ (s.saveAt d t).2.store.rows) : r ∈ s.store.rows ∨ r.Written := by
  rw [saveAt] at hr
  cases hinsert : s.store.insert d t with
  | error e =>
    rw [hinsert] at hr
    exact .inl hr
  | ok saved =>
    obtain ⟨row, u⟩ := saved
    rw [hinsert] at hr
    have hrows : u.rows = s.store.rows ++ [row] := (Store.insert_rows hinsert).1
    have hmem : r ∈ u.rows := hr
    rw [hrows, List.mem_append, List.mem_singleton] at hmem
    rcases hmem with hold | rfl
    · exact .inl hold
    · exact .inr (Store.written_of_insert hinsert)

theorem mem_rows_perform {s : Session} {c : Call} {r : Row} (hr : r ∈ (s.perform c).2.store.rows) :
    r ∈ s.store.rows ∨ r.Written := by
  cases c with
  | save d dated =>
    cases hstamp : s.stamp? dated with
    | none =>
      rw [perform_save_of_no_stamp hstamp] at hr
      exact .inl hr
    | some t =>
      rw [perform_save_of_stamp hstamp] at hr
      exact mem_rows_saveAt (s := { s with clock := s.clockBehind dated }) hr
  | list user shelf => exact .inl hr
  | find id user => exact .inl hr
  | delete id =>
    rw [perform] at hr
    cases hdelete : s.store.delete id with
    | error e =>
      rw [hdelete] at hr
      exact .inl hr
    | ok t =>
      rw [hdelete] at hr
      obtain rfl := Store.eq_of_checked hdelete
      exact .inl (s.store.remove_subset _ r hr)
  | deleteAll user shelf =>
    rw [perform] at hr
    cases hclear : s.store.deleteAll user shelf with
    | error e =>
      rw [hclear] at hr
      exact .inl hr
    | ok cleared =>
      obtain ⟨n, t⟩ := cleared
      rw [hclear] at hr
      obtain rfl : _ = t := congrArg Prod.snd (Store.eq_of_checked hclear)
      exact .inl (s.store.remove_subset _ r hr)
  | count => exact .inl hr
  | now =>
    rw [perform] at hr
    cases hclock : s.clock.reading? <;> rw [hclock] at hr <;> exact .inl hr

/-- Every row of a session that can come about has been written by a save. -/
theorem Reachable.written {s : Session} (h : s.Reachable) : ∀ r ∈ s.store.rows, r.Written := by
  induction h with
  | made durable clock => exact fun r hr => absurd hr List.not_mem_nil
  | called _ c ih =>
    intro r hr
    rcases mem_rows_perform hr with hold | hnew
    · exact ih r hold
    · exact hnew
  | timed _ clock ih => exact ih
  | closed _ ih => exact ih
  | @reopened s _ ih =>
    simp only [reopen, Store.reopen]
    cases s.store.durable with
    | true => exact ih
    | false => exact fun r hr => absurd hr List.not_mem_nil

end Session

/-! ## The order of a listing -/

/-- A row stands before another in a listing: its stamp is the greater text, or the same and its number
is the greater. -/
def Row.Above (r s : Row) : Prop := s.stamp < r.stamp ∨ s.stamp = r.stamp ∧ s.id < r.id

namespace Row

theorem notAfter_iff {r s : Row} :
    r.notAfter s = true ↔ s.stamp < r.stamp ∨ r.stamp = s.stamp ∧ s.id ≤ r.id := by
  rw [notAfter, Bool.or_eq_true, Bool.and_eq_true, decide_eq_true_iff, decide_eq_true_iff,
    decide_eq_true_iff]

theorem notAfter_trans (q r s : Row) (hqr : q.notAfter r = true) (hrs : r.notAfter s = true) :
    q.notAfter s = true := by
  rw [notAfter_iff] at hqr hrs ⊢
  rcases hqr with hqr | ⟨hqr, hidqr⟩
  · rcases hrs with hrs | ⟨hrs, -⟩
    · exact .inl (List.lt_trans hrs hqr)
    · exact .inl (hrs ▸ hqr)
  · rw [hqr]
    rcases hrs with hrs | ⟨hrs, hidrs⟩
    · exact .inl hrs
    · exact .inr ⟨hrs, Nat.le_trans hidrs hidqr⟩

theorem notAfter_total (r s : Row) : (r.notAfter s || s.notAfter r) = true := by
  rw [Bool.or_eq_true, notAfter_iff, notAfter_iff]
  by_cases hlt : s.stamp < r.stamp
  · exact .inl (.inl hlt)
  by_cases hgt : r.stamp < s.stamp
  · exact .inr (.inl hgt)
  · have heq : r.stamp = s.stamp := List.le_antisymm hlt hgt
    rcases Nat.le_total s.id r.id with hid | hid
    · exact .inl (.inr ⟨heq, hid⟩)
    · exact .inr (.inr ⟨heq.symm, hid⟩)

end Row

theorem Store.Sound.pairwise_listing {s : Store} (h : s.Sound) (user : Int) (shelf : Shelf) :
    ((s.onShelf user shelf).mergeSort Row.notAfter).Pairwise Row.Above := by
  have hsorted := List.pairwise_mergeSort Row.notAfter_trans Row.notAfter_total (s.onShelf user shelf)
  have hids : ((s.onShelf user shelf).mergeSort Row.notAfter).Pairwise fun q r => q.id ≠ r.id := by
    have hdistinct := h.nodup_listing user shelf
    rw [List.map_map] at hdistinct
    exact List.pairwise_map.1 hdistinct
  refine (hsorted.and hids).imp fun ⟨hnotAfter, hne⟩ => ?_
  rcases Row.notAfter_iff.1 hnotAfter with hlt | ⟨heq, hid⟩
  · exact .inl hlt
  · exact .inr ⟨heq.symm, Nat.lt_of_le_of_ne hid hne.symm⟩

/-! ## Points in time -/

/-- The point in time that a timestamp tells, in microseconds; one without an offset is taken as it
stands. -/
def Timestamp.instant (t : Timestamp) : Int := t.wall.microseconds - t.offset.getD 0

namespace Record

/-- A record is newer than another: its point in time is later, or the same and its number is the
greater. -/
def Newer (x y : Record) : Prop :=
  ∃ t u, x.timestamp = some t ∧ y.timestamp = some u ∧
    (u.instant < t.instant ∨ u.instant = t.instant ∧ y.id < x.id)

/-- A record is not older than another. -/
def NotOlder (x y : Record) : Prop :=
  ∃ t u, x.timestamp = some t ∧ y.timestamp = some u ∧ u.instant ≤ t.instant

/-- A record stands above another in a listing: its timestamp is the greater as a text, or the same and
its number is the greater. -/
def Above (x y : Record) : Prop :=
  ∃ t u, x.timestamp = some t ∧ y.timestamp = some u ∧
    (u.storedText < t.storedText ∨ u = t ∧ y.id < x.id)

theorem Newer.irrefl (x : Record) : ¬x.Newer x := by
  rintro ⟨t, u, ht, hu, hlater⟩
  obtain rfl := Option.some_inj.1 (ht.symm.trans hu)
  omega

theorem Newer.asymm {x y : Record} (hxy : x.Newer y) : ¬y.Newer x := by
  rintro ⟨u', t', hu', ht', hyx⟩
  obtain ⟨t, u, ht, hu, hlater⟩ := hxy
  obtain rfl := Option.some_inj.1 (ht.symm.trans ht')
  obtain rfl := Option.some_inj.1 (hu.symm.trans hu')
  omega

end Record

theorem Row.Above.record {q r : Row} (h : q.Above r) (hq : q.Written) (hr : r.Written) :
    q.record.Above r.record := by
  obtain ⟨-, t, ht⟩ := hq
  obtain ⟨-, u, hu⟩ := hr
  rw [Row.record_of_storedText ht, Row.record_of_storedText hu]
  refine ⟨t, u, rfl, rfl, ?_⟩
  rw [Row.Above, ht, hu, Timestamp.storedText_injective.eq_iff] at h
  exact h

namespace Session

/-- A record is one of those of a user on a shelf. -/
def IsOn (s : Session) (user : Int) (shelf : Shelf) (x : Record) : Prop :=
  x ∈ s.store.records ∧ x.user = user ∧ x.shelf = shelf

theorem Reachable.fits_user {s : Session} (hs : s.Reachable) {user : Int} {shelf : Shelf} {x : Record}
    (hx : s.IsOn user shelf x) : fitsColumn user = true := by
  obtain ⟨hmem, rfl, -⟩ := hx
  obtain ⟨r, hr, rfl⟩ := List.mem_map.1 hmem
  exact (hs.written r hr).1

/-- An open store lists the records of a user on a shelf, each above those behind it. -/
theorem exists_listing {s : Session} (hs : s.Reachable) (hopen : s.store.isOpen = true) {user : Int}
    (huser : fitsColumn user = true) (shelf : Shelf) :
    ∃ xs, (s.perform (.list (some user) shelf)).1 = .ok xs ∧ (∀ x, x ∈ xs ↔ s.IsOn user shelf x) ∧
      xs.Pairwise Record.Above := by
  obtain ⟨xs, hlist, -, hmem⟩ := exists_list hs hopen huser shelf
  refine ⟨xs, hlist, hmem, ?_⟩
  have hrows : xs = ((s.store.onShelf user shelf).mergeSort Row.notAfter).map Row.record := by
    rw [perform, Store.list_eq hopen shelf huser] at hlist
    exact (Except.ok.inj hlist).symm
  rw [hrows, List.pairwise_map]
  refine (hs.numbered.sound.pairwise_listing user shelf).imp_of_mem fun hq hr habove => ?_
  have hwritten : ∀ r ∈ (s.store.onShelf user shelf).mergeSort Row.notAfter, r.Written := fun r hr =>
    hs.written r (Store.mem_onShelf.1 ((List.mergeSort_perm _ _).mem_iff.1 hr)).1
  exact habove.record (hwritten _ hq) (hwritten _ hr)

end Session

/-! ## With one offset, or none -/

theorem Timestamp.storedText_lt_iff_of_offset {t u : Timestamp} (h : t.offset = u.offset) :
    t.storedText < u.storedText ↔ t.instant < u.instant := by
  have hirrefl : ¬offsetText u.offset < offsetText u.offset := List.lt_irrefl _
  rw [storedText_lt_iff, instant, instant, h]
  simp only [hirrefl, and_false, or_false]
  omega

namespace Session

/-- A list has all records of a user on a shelf, each newer than those behind it. -/
structure NewestFirst (s : Session) (user : Int) (shelf : Shelf) (xs : List Record) : Prop where
  mem : ∀ x, x ∈ xs ↔ s.IsOn user shelf x
  newer : xs.Pairwise Record.Newer

theorem NewestFirst.unique {s s' : Session} {user : Int} {shelf : Shelf} {xs ys : List Record}
    (hxs : s.NewestFirst user shelf xs) (hys : s'.NewestFirst user shelf ys)
    (h : ∀ x, s.IsOn user shelf x ↔ s'.IsOn user shelf x) : xs = ys := by
  have hirrefl : Std.Irrefl Record.Newer := ⟨Record.Newer.irrefl⟩
  have hantisymm : Std.Antisymm Record.Newer := ⟨fun x y hxy hyx => absurd hyx hxy.asymm⟩
  refine List.Pairwise.eq_of_mem_iff hxs.newer hys.newer fun x => ?_
  rw [hxs.mem, hys.mem, h]

/-- What is known of the order of the records of a user on a shelf. -/
structure KeepsOrder (s : Session) (user : Int) (shelf : Shelf) : Prop where
  /-- Only a user that a column holds has records. -/
  held : ∀ x, s.IsOn user shelf x → fitsColumn user = true
  /-- The stamps in the table compare as texts as the times do that they tell. -/
  stamps : ∀ q ∈ s.store.onShelf user shelf, ∀ r ∈ s.store.onShelf user shelf,
    ∃ t u, q.record.timestamp = some t ∧ r.record.timestamp = some u ∧
      (q.stamp < r.stamp ↔ t.instant < u.instant)
  /-- A listing has the newest first, and it is the same for every session with the same records. -/
  listed : fitsColumn user = true →
    ∃ xs, (s.perform (.list (some user) shelf)).1 = .ok xs ∧ s.NewestFirst user shelf xs ∧
      ∀ s' : Session, s'.Reachable → s'.store.isOpen = true →
        (∀ x, s'.IsOn user shelf x ↔ s.IsOn user shelf x) →
        (s'.perform (.list (some user) shelf)).1 = .ok xs

section OneOffset
variable {s : Session} {user : Int} {shelf : Shelf}

/-- In the order of texts the newest records come first if their timestamps have one offset, or none. -/
theorem newestFirst_of_offset {xs : List Record} (hmem : ∀ x, x ∈ xs ↔ s.IsOn user shelf x)
    (habove : xs.Pairwise Record.Above) {offset : Option Int}
    (h : ∀ x, s.IsOn user shelf x → ∃ t, x.timestamp = some t ∧ t.offset = offset) :
    s.NewestFirst user shelf xs := by
  refine ⟨hmem, habove.imp_of_mem ?_⟩
  rintro x y hx hy ⟨t, u, ht, hu, horder⟩
  obtain ⟨t', ht', htoffset⟩ := h x ((hmem x).1 hx)
  obtain ⟨u', hu', huoffset⟩ := h y ((hmem y).1 hy)
  obtain rfl := Option.some_inj.1 (ht.symm.trans ht')
  obtain rfl := Option.some_inj.1 (hu.symm.trans hu')
  rw [Timestamp.storedText_lt_iff_of_offset (huoffset.trans htoffset.symm)] at horder
  refine ⟨t, u, ht, hu, horder.imp_right ?_⟩
  rintro ⟨rfl, hid⟩
  exact ⟨rfl, hid⟩

/-- The records of a user on a shelf are listed newest first if their timestamps have no offsets: the
order of the stored texts is the order of time, and records of one time are told apart by their numbers. -/
theorem lists_newest_first (hs : s.Reachable) (hopen : s.store.isOpen = true)
    (h : ∀ x, s.IsOn user shelf x → ∃ t, x.timestamp = some t ∧ t.offset = none) :
    s.KeepsOrder user shelf where
  held x hx := hs.fits_user hx
  stamps := by
    have hstamp : ∀ r ∈ s.store.onShelf user shelf,
        ∃ t, r.stamp = t.storedText ∧ r.record.timestamp = some t ∧ t.offset = none := by
      intro r hr
      obtain ⟨hmem, hon⟩ := Store.mem_onShelf.1 hr
      obtain ⟨-, t, ht⟩ := hs.written r hmem
      have hrecord := Row.record_of_storedText ht
      obtain ⟨t', ht', hnaive⟩ := h r.record ⟨List.mem_map_of_mem hmem, hon⟩
      rw [hrecord] at ht'
      obtain rfl : t = t' := Option.some_inj.1 ht'
      exact ⟨t, ht, by rw [hrecord], hnaive⟩
    intro q hq r hr
    obtain ⟨t, ht, htrecord, htnaive⟩ := hstamp q hq
    obtain ⟨u, hu, hurecord, hunaive⟩ := hstamp r hr
    refine ⟨t, u, htrecord, hurecord, ?_⟩
    rw [ht, hu, Timestamp.storedText_lt_iff_of_offset (htnaive.trans hunaive.symm)]
  listed huser := by
    obtain ⟨xs, hlist, hmem, habove⟩ := exists_listing hs hopen huser shelf
    have hnewest := newestFirst_of_offset hmem habove h
    refine ⟨xs, hlist, hnewest, fun s' hs' hopen' hsame => ?_⟩
    obtain ⟨ys, hlist', hmem', habove'⟩ := exists_listing hs' hopen' huser shelf
    have hnewest' := newestFirst_of_offset hmem' habove' fun x hx => h x ((hsame x).1 hx)
    rw [hlist', hnewest'.unique hnewest hsame]

end OneOffset

end Session

/-- A clock that runs backwards by a microsecond, and then stands still at the last moment of the calendar. -/
theorem lists_newest_first_of_ties :
    let save : Operation := .call (.save ⟨some 1, some "1+1", some "2", .history⟩ none)
    let s : Session := Session.afterAll ⟨.new false, ⟨1, -1⟩⟩
      [save, save, .timed ⟨315537897599999999, 0⟩, save, save]
    s.Reachable ∧ s.store.isOpen = true ∧
      (∀ x, s.IsOn 1 .history x → ∃ t, x.timestamp = some t ∧ t.offset = none) ∧
      s.store.records.map Record.id = [1, 2, 3, 4] ∧ s.KeepsOrder 1 .history := by
  intro save s
  have hreachable : s.Reachable := (Session.Reachable.made false ⟨1, -1⟩).afterAll _
  have hopen : s.store.isOpen = true := by decide +kernel
  have hoffsets : ∀ x ∈ s.store.records, x.timestamp.map Timestamp.offset = some none := by decide +kernel
  have hnaive : ∀ x, s.IsOn 1 .history x → ∃ t, x.timestamp = some t ∧ t.offset = none :=
    fun x hx => Option.map_eq_some_iff.1 (hoffsets x hx.1)
  have hids : s.store.records.map Record.id = [1, 2, 3, 4] := by decide +kernel
  exact ⟨hreachable, hopen, hnaive, hids, Session.lists_newest_first hreachable hopen hnaive⟩

end Reckoner
