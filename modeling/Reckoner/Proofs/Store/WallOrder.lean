import Reckoner.Proofs.Store.Listing
/-!
Listings of timestamps with offsets.

An offset stands at the end of a stored text, so a listing is sorted by the times that clocks on the walls
showed, wherever these were. A clock ahead of another shows the later time at the same moment, and may
still do so a little earlier. Such a timestamp overtakes the other, and its record is listed above it.

What is shown here:
1. `Timestamp.storedText_lt_iff_of_offsets`: how stored texts with offsets compare;
2. `Timestamp.overtakes_iff`: what overtakes another is the greater text and the earlier moment;
3. `Session.pairwise_notOlder_iff`: a listing is in the order of time exactly if nothing overtakes;
4. `Session.lists_by_wall`: in what order records are listed whose timestamps have offsets;
5. `Session.not_lists_in_time`: not always in the order of time.
-/

namespace Reckoner

/-! ## Overtaking -/

namespace Timestamp

/-- A timestamp overtakes another: its wall shows the later time though it is the earlier point in time, or
both walls show the same and both are ahead of universal time, this one by more. -/
def Overtakes (t u : Timestamp) : Prop :=
  u.wall.microseconds < t.wall.microseconds ∧ t.instant < u.instant ∨
    t.wall = u.wall ∧ 0 ≤ u.offset.getD 0 ∧ u.offset.getD 0 < t.offset.getD 0

section Offsets
variable {t u : Timestamp} {m n : Int} (ht : t.offset = some m) (hu : u.offset = some n)
include ht hu

/-- With offsets, stored texts compare as the times on the walls, and at one time by the offsets. -/
theorem storedText_lt_iff_of_offsets : t.storedText < u.storedText ↔
    t.wall.microseconds < u.wall.microseconds ∨
      t.wall = u.wall ∧ (0 ≤ m ∧ n < 0 ∨ (m < 0 ↔ n < 0) ∧ m.natAbs < n.natAbs) := by
  rw [storedText_lt_iff, ht, hu, offsetText_lt_iff (t.offset_range m ht) (u.offset_range n hu)]

/-- What overtakes another is the greater as a text and the earlier point in time. -/
theorem overtakes_iff : t.Overtakes u ↔ u.storedText < t.storedText ∧ t.instant < u.instant := by
  rw [storedText_lt_iff_of_offsets hu ht, Overtakes, instant, instant, ht, hu, Option.getD_some,
    Option.getD_some]
  by_cases hwall : t.wall = u.wall
  · simp only [hwall, Nat.lt_irrefl, true_and, false_and, false_or]
    omega
  · simp only [hwall, Ne.symm hwall, false_and, or_false]

end Offsets

end Timestamp

/-- A record stands above another where timestamps have offsets: its wall shows the later time, or both show
the same and the offsets or the numbers tell. -/
def Record.WallAbove (x y : Record) : Prop :=
  ∃ t u m n, x.timestamp = some t ∧ y.timestamp = some u ∧ t.offset = some m ∧ u.offset = some n ∧
    (u.wall.microseconds < t.wall.microseconds ∨
      t.wall = u.wall ∧ (m < 0 ∧ 0 ≤ n ∨ (m < 0 ↔ n < 0) ∧ n.natAbs < m.natAbs ∨
        m = n ∧ y.id < x.id))

namespace Session

/-- What is known of a list of the records of a user on a shelf whose timestamps have offsets. -/
structure ByWall (s : Session) (user : Int) (shelf : Shelf) (xs : List Record) : Prop where
  mem : ∀ x, x ∈ xs ↔ s.IsOn user shelf x
  above : xs.Pairwise Record.WallAbove
  /-- They stand in the order of time exactly if none overtakes another. -/
  inTime : xs.Pairwise Record.NotOlder ↔ ∀ x y t u, s.IsOn user shelf x → s.IsOn user shelf y →
    x.timestamp = some t → y.timestamp = some u → ¬t.Overtakes u
  /-- So they do if all have one offset. -/
  oneOffset : ∀ m, (∀ x, s.IsOn user shelf x → ∃ t, x.timestamp = some t ∧ t.offset = some m) →
    s.NewestFirst user shelf xs

theorem rel_or_rel_of_pairwise {R : Record → Record → Prop} {xs : List Record} (hR : xs.Pairwise R)
    {x y : Record} (hx : x ∈ xs) (hy : y ∈ xs) (hne : x ≠ y) : R x y ∨ R y x := by
  have hsymm : Std.Symm fun a b => R a b ∨ R b a := ⟨fun _ _ => Or.symm⟩
  exact (hR.imp Or.inl : xs.Pairwise fun a b => R a b ∨ R b a).forall hx hy hne

section Offsets
variable {s : Session} {user : Int} {shelf : Shelf}
  (h : ∀ x, s.IsOn user shelf x → ∃ t m, x.timestamp = some t ∧ t.offset = some m)
include h

theorem wallAbove_of_above {x y : Record} (hx : s.IsOn user shelf x) (hy : s.IsOn user shelf y)
    (habove : x.Above y) : x.WallAbove y := by
  obtain ⟨t, u, ht, hu, horder⟩ := habove
  obtain ⟨t', m, ht', hm⟩ := h x hx
  obtain ⟨u', n, hu', hn⟩ := h y hy
  obtain rfl := Option.some_inj.1 (ht.symm.trans ht')
  obtain rfl := Option.some_inj.1 (hu.symm.trans hu')
  refine ⟨t, u, m, n, ht, hu, hm, hn, ?_⟩
  rw [Timestamp.storedText_lt_iff_of_offsets hn hm] at horder
  rcases horder with (hwall | ⟨hwall, hsign | ⟨hsign, hsize⟩⟩) | ⟨rfl, hid⟩
  · exact .inl hwall
  · exact .inr ⟨hwall.symm, .inl hsign.symm⟩
  · exact .inr ⟨hwall.symm, .inr (.inl ⟨hsign.symm, hsize⟩)⟩
  · exact .inr ⟨rfl, .inr (.inr ⟨Option.some_inj.1 (hm.symm.trans hn), hid⟩)⟩

theorem overtakes_iff_of_isOn {x y : Record} {t u : Timestamp} (hx : s.IsOn user shelf x)
    (hy : s.IsOn user shelf y) (ht : x.timestamp = some t) (hu : y.timestamp = some u) :
    t.Overtakes u ↔ u.storedText < t.storedText ∧ t.instant < u.instant := by
  obtain ⟨t', m, ht', hm⟩ := h x hx
  obtain ⟨u', n, hu', hn⟩ := h y hy
  obtain rfl := Option.some_inj.1 (ht.symm.trans ht')
  obtain rfl := Option.some_inj.1 (hu.symm.trans hu')
  exact Timestamp.overtakes_iff hm hn

/-- In the order of texts records stand in the order of time exactly if none overtakes another. -/
theorem pairwise_notOlder_iff {xs : List Record} (hmem : ∀ x, x ∈ xs ↔ s.IsOn user shelf x)
    (habove : xs.Pairwise Record.Above) :
    xs.Pairwise Record.NotOlder ↔ ∀ x y t u, s.IsOn user shelf x → s.IsOn user shelf y →
      x.timestamp = some t → y.timestamp = some u → ¬t.Overtakes u := by
  constructor
  · intro hinTime x y t u hx hy ht hu hover
    obtain ⟨htext, hinstant⟩ := (overtakes_iff_of_isOn h hx hy ht hu).1 hover
    have hne : x ≠ y := by
      rintro rfl
      obtain rfl := Option.some_inj.1 (ht.symm.trans hu)
      exact List.lt_irrefl _ htext
    have hpairs := habove.and hinTime
    rcases rel_or_rel_of_pairwise hpairs ((hmem x).2 hx) ((hmem y).2 hy) hne with
      ⟨-, t', u', ht', hu', hle⟩ | ⟨⟨u', t', hu', ht', horder⟩, -⟩
    · obtain rfl := Option.some_inj.1 (ht.symm.trans ht')
      obtain rfl := Option.some_inj.1 (hu.symm.trans hu')
      omega
    · obtain rfl := Option.some_inj.1 (ht.symm.trans ht')
      obtain rfl := Option.some_inj.1 (hu.symm.trans hu')
      rcases horder with htext' | ⟨rfl, -⟩
      · exact List.lt_asymm htext htext'
      · exact List.lt_irrefl _ htext
  · intro hnone
    refine habove.imp_of_mem ?_
    rintro x y hx hy ⟨t, u, ht, hu, horder⟩
    refine ⟨t, u, ht, hu, ?_⟩
    rcases horder with htext | ⟨rfl, -⟩
    · have hx' := (hmem x).1 hx
      have hy' := (hmem y).1 hy
      refine Int.not_lt.1 fun hlt => hnone x y t u hx' hy' ht hu ?_
      exact (overtakes_iff_of_isOn h hx' hy' ht hu).2 ⟨htext, hlt⟩
    · exact Int.le_refl _

/-- Where all timestamps have offsets the records are listed by the times that the walls showed. That is
the order of time if all offsets are the same, and whenever none overtakes another. -/
theorem lists_by_wall (hs : s.Reachable) (hopen : s.store.isOpen = true) :
    (∀ x, s.IsOn user shelf x → fitsColumn user = true) ∧
      (fitsColumn user = true →
        ∃ xs, (s.perform (.list (some user) shelf)).1 = .ok xs ∧ s.ByWall user shelf xs) := by
  refine ⟨fun x hx => hs.fits_user hx, fun huser => ?_⟩
  obtain ⟨xs, hlist, hmem, habove⟩ := exists_listing hs hopen huser shelf
  refine ⟨xs, hlist, hmem, ?_, pairwise_notOlder_iff h hmem habove, fun m hm => ?_⟩
  · exact habove.imp_of_mem fun hx hy => wallAbove_of_above h ((hmem _).1 hx) ((hmem _).1 hy)
  · exact newestFirst_of_offset hmem habove hm

end Offsets

end Session

/-! ## Two offsets -/

/-- Eleven o'clock by a clock five hours ahead of universal time. -/
def Timestamp.elevenAhead : Timestamp :=
  ⟨⟨2026, 1, 1, 11, 0, 0, 0, by decide, by decide, by decide, by decide⟩, some 18000000000, by decide⟩

/-- Ten o'clock of universal time. -/
def Timestamp.tenUniversal : Timestamp :=
  ⟨⟨2026, 1, 1, 10, 0, 0, 0, by decide, by decide, by decide, by decide⟩, some 0, by decide⟩

namespace Session

/-- A session in which one record has been saved with each of them. -/
def twoOffsets : Session :=
  Session.afterAll ⟨.new false, ⟨0, 1⟩⟩
    [.call (.save ⟨some 1, some "1+1", some "2", .history⟩ (some .elevenAhead)),
      .call (.save ⟨some 1, some "2*3", some "6", .history⟩ (some .tenUniversal))]

theorem reachable_twoOffsets : twoOffsets.Reachable := (Reachable.made false ⟨0, 1⟩).afterAll _

theorem offset_twoOffsets (x : Record) (hx : twoOffsets.IsOn 1 .history x) :
    ∃ t m, x.timestamp = some t ∧ t.offset = some m := by
  have hoffsets : ∀ x ∈ twoOffsets.store.records, (x.timestamp.bind Timestamp.offset).isSome = true := by
    decide +kernel
  obtain ⟨m, hm⟩ := Option.isSome_iff_exists.1 (hoffsets x hx.1)
  obtain ⟨t, ht, htm⟩ := Option.bind_eq_some_iff.1 hm
  exact ⟨t, m, ht, htm⟩

theorem isOn_twoOffsets :
    twoOffsets.IsOn 1 .history ⟨1, 1, "1+1", "2", some .elevenAhead, .history⟩ ∧
      twoOffsets.IsOn 1 .history ⟨2, 1, "2*3", "6", some .tenUniversal, .history⟩ := by
  unfold IsOn
  decide +kernel

theorem elevenAhead_overtakes : Timestamp.elevenAhead.Overtakes .tenUniversal :=
  .inl (by decide +kernel)

/-- The two records are listed by the times on the walls, and so not in the order of time. -/
theorem lists_by_wall_of_two_offsets :
    twoOffsets.Reachable ∧ twoOffsets.store.isOpen = true ∧
      (∀ x, twoOffsets.IsOn 1 .history x → ∃ t m, x.timestamp = some t ∧ t.offset = some m) ∧
      ∃ xs, (twoOffsets.perform (.list (some 1) .history)).1 = .ok xs ∧ twoOffsets.ByWall 1 .history xs ∧
        ¬xs.Pairwise Record.NotOlder := by
  have hopen : twoOffsets.store.isOpen = true := by decide +kernel
  obtain ⟨xs, hlist, hxs⟩ := (lists_by_wall offset_twoOffsets reachable_twoOffsets hopen).2 (by decide)
  refine ⟨reachable_twoOffsets, hopen, offset_twoOffsets, xs, hlist, hxs, fun hinTime => ?_⟩
  obtain ⟨heleven, hten⟩ := isOn_twoOffsets
  exact hxs.inTime.1 hinTime _ _ _ _ heleven hten rfl rfl elevenAhead_overtakes

/-- Records whose timestamps have offsets are not always listed in the order of time. -/
theorem not_lists_in_time :
    ¬∀ (s : Session) (user : Int) (shelf : Shelf), s.Reachable → s.store.isOpen = true →
      fitsColumn user = true →
      (∀ x, s.IsOn user shelf x → ∃ t m, x.timestamp = some t ∧ t.offset = some m) →
      ∃ xs, (s.perform (.list (some user) shelf)).1 = .ok xs ∧ xs.Pairwise Record.NotOlder := by
  intro h
  have hopen : twoOffsets.store.isOpen = true := by decide +kernel
  have huser : fitsColumn 1 = true := by decide
  obtain ⟨xs, hlist, hinTime⟩ := h twoOffsets 1 .history reachable_twoOffsets hopen huser offset_twoOffsets
  obtain ⟨ys, hlist', hmem, habove⟩ := exists_listing reachable_twoOffsets hopen huser .history
  obtain rfl : xs = ys := Except.ok.inj (hlist.symm.trans hlist')
  obtain ⟨heleven, hten⟩ := isOn_twoOffsets
  exact (pairwise_notOlder_iff offset_twoOffsets hmem habove).1 hinTime _ _ _ _ heleven hten rfl rfl
    elevenAhead_overtakes

end Session

end Reckoner
