import Mathlib
import Reckoner.Proofs.Settings.Rules
import Reckoner.Proofs.Settings.Sources
/-!
The three layers of settings.

A key takes its value from its variable, else from its entry in the document, else from the defaults, and
only then is the value put to the rule of the key. A variable hides the entry of its key altogether, an
entry that breaks the rule included, and what is said for one key is never asked for another.

What is shown here:
1. `counts_iff_eq_merged`: the value that counts, described layer by layer, is the merged one;
2. `ofEntries_visible`: the entries that variables hide might as well not be there;
3. `load_layered`: what comes of a document and an environment, in terms of the values that count.
-/

namespace Reckoner.Settings

variable {entries others : List (Scalar × Value)} {env env' : Environment} {k : Key}

/-! ## The value that counts -/

/-- What counts for a key: what its variable says, else its entry, else the default. -/
inductive Counts (entries : List (Scalar × Value)) (env : Environment) (k : Key) : Value → Prop
  | said {text : String} {v : Value} (htells : env.Says k text) (hreads : k.Reads text v) :
    Counts entries env k v
  | entered {v : Value} (hsilent : env.Silent k) (hentry : (.text k.name, v) ∈ entries) :
    Counts entries env k v
  | default (hsilent : env.Silent k) (hnone : ∀ e ∈ entries, e.1 ≠ .text k.name) :
    Counts entries env k (default k)

theorem counts_iff_of_reads {text : String} {u v : Value} (htells : env.Says k text)
    (hreads : k.Reads text u) : Counts entries env k v ↔ v = u := by
  have hspeaks : ¬env.Silent k := fun hsilent => Environment.silent_iff.1 hsilent text htells
  constructor
  · intro h
    cases h with
    | said htells' hreads' =>
      obtain rfl := htells.unique htells'
      exact hreads'.unique hreads
    | entered hsilent => exact absurd hsilent hspeaks
    | default hsilent => exact absurd hsilent hspeaks
  · intro h
    rw [h]
    exact .said htells hreads

theorem counts_iff_of_silent (hkeys : KeysOnce entries) (hsilent : env.Silent k) {v : Value} :
    Counts entries env k v ↔ v = (fromDocument? entries k).getD (default k) := by
  constructor
  · intro h
    cases h with
    | said htells => exact absurd htells (Environment.silent_iff.1 hsilent _)
    | entered _ hentry => rw [(fromDocument?_eq_some_iff hkeys).2 hentry, Option.getD_some]
    | default _ hnone => rw [fromDocument?_eq_none_iff.2 hnone, Option.getD_none]
  · intro h
    rw [h]
    cases hentry : fromDocument? entries k with
    | some u => exact .entered hsilent ((fromDocument?_eq_some_iff hkeys).1 hentry)
    | none => exact .default hsilent (fromDocument?_eq_none_iff.1 hentry)

theorem counts_iff_eq_merged (hkeys : KeysOnce entries) (hgood : ∀ k text, ¬env.Bad k text) {v : Value} :
    Counts entries env k v ↔ v = merged entries env k := by
  cases hsaid : fromEnvironment? env k with
  | none => rw [counts_iff_of_silent hkeys (silent_of_fromEnvironment? hgood hsaid), merged, hsaid]
  | some u =>
    obtain ⟨text, htells, hreads⟩ := fromEnvironment?_eq_some_iff.1 hsaid
    rw [counts_iff_of_reads htells hreads, merged_of_variable hsaid]

theorem Counts.congr {v : Value} (h : Counts entries env k v)
    (htells : ∀ text, env.Says k text ↔ env'.Says k text)
    (hentry : ∀ v, (.text k.name, v) ∈ entries ↔ (.text k.name, v) ∈ others) :
    Counts others env' k v := by
  have hsilent : env.Silent k ↔ env'.Silent k := by simp only [Environment.silent_iff, htells]
  cases h with
  | said hvariable hreads => exact .said ((htells _).1 hvariable) hreads
  | entered hnothing hmem => exact .entered (hsilent.1 hnothing) ((hentry v).1 hmem)
  | default hnothing hnone =>
    refine .default (hsilent.1 hnothing) fun e he hkey => ?_
    obtain ⟨s, u⟩ := e
    obtain rfl : s = .text k.name := hkey
    exact hnone _ ((hentry u).2 he) rfl

/-! ## Entries that are hidden -/

/-- Whether the key of an entry has a variable that says something. -/
def Environment.hides (env : Environment) (e : Scalar × Value) : Bool :=
  Key.all.any fun k => e.1 == .text k.name && (env.filled? k.variableName).isSome

/-- The entries that no variable hides. -/
def visible (env : Environment) (entries : List (Scalar × Value)) : List (Scalar × Value) :=
  entries.filter fun e => !env.hides e

theorem Environment.hides_eq_false_iff {e : Scalar × Value} :
    env.hides e = false ↔ ∀ k : Key, e.1 = .text k.name → env.Silent k := by
  simp only [hides, List.any_eq_false, Bool.and_eq_true, beq_iff_eq, not_and,
    Option.not_isSome_iff_eq_none, filled?_eq_none_iff, Key.mem_all, true_implies]

theorem fromDocument?_visible (hsilent : env.Silent k) :
    fromDocument? (visible env entries) k = fromDocument? entries k := by
  rw [fromDocument?, visible, List.find?_filter]
  congr 2
  funext e
  cases hkey : e.1 == Scalar.text k.name with
  | false => simp
  | true =>
    have hnot : env.hides e = false := Environment.hides_eq_false_iff.2 fun j hj => by
      obtain rfl := Key.name_injective (Scalar.text.inj ((beq_iff_eq.1 hkey).symm.trans hj))
      exact hsilent
    simp [hnot]

theorem unknownKeys_visible : unknownKeys (visible env entries) = unknownKeys entries := by
  have hother : ∀ e : Scalar × Value,
      ((Key.all.all fun k => e.1 != .text k.name) && !env.hides e) =
        Key.all.all fun k => e.1 != .text k.name := by
    intro e
    cases hunknown : Key.all.all fun k => e.1 != .text k.name with
    | false => rfl
    | true =>
      have hnot : env.hides e = false := Environment.hides_eq_false_iff.2 fun k hk => by
        have hne := List.all_eq_true.1 hunknown k (Key.mem_all k)
        rw [hk, bne_self_eq_false] at hne
        cases hne
      rw [hnot]
      rfl
  simp only [unknownKeys, visible, List.filter_map, List.filter_filter, Function.comp_def, hother]

/-- The entries that variables hide might as well not be there. -/
theorem ofEntries_visible : ofEntries (visible env entries) env = ofEntries entries env := by
  unfold ofEntries
  cases hbad : badVariable? env with
  | some bad => rfl
  | none =>
    have hmerged : merged (visible env entries) env = merged entries env := by
      funext k
      cases hsaid : fromEnvironment? env k with
      | none =>
        have hsilent := silent_of_fromEnvironment? (badVariable?_eq_none_iff.1 hbad) hsaid
        rw [merged, merged, hsaid, fromDocument?_visible hsilent]
      | some v => rw [merged_of_variable hsaid, merged_of_variable hsaid]
    rw [unknownKeys_visible, hmerged]

/-! ## What comes of the layers -/

/-- What comes of entries and an environment, in terms of the values that count. -/
structure Layered (entries : List (Scalar × Value)) (env : Environment) : Prop where
  /-- If a variable that has to be an integer is none, the first that is bad is told by its name. -/
  bad : (∃ k text, env.Bad k text) → ∃ k text, env.FirstBad k text ∧
    ofEntries entries env = .error (.notAnInteger k text) ∧
    (Failure.notAnInteger k text).kind = .badValue ∧
    ∀ document, (Failure.notAnInteger k text).message document =
      k.variableName ++ " must be an integer, got " ++ Text.quoted text
  /-- If none is bad, one value counts for each key. -/
  counts : (∀ k text, ¬env.Bad k text) → ∀ k, ∃! v, Counts entries env k v
  /-- Then there are settings exactly if there is no other key and each value that counts keeps the rule
  of its key. -/
  loaded : (∀ k text, ¬env.Bad k text) →
    ((∃ s, ofEntries entries env = .ok s) ↔
      (∀ e ∈ entries, ∃ k : Key, e.1 = .text k.name) ∧
        ∀ k v, Counts entries env k v → Key.Accepts k v)
  /-- Then each field is the value that counts for its key. -/
  fields : ∀ s, ofEntries entries env = .ok s → ∀ k, Counts entries env k (s.value k)
  /-- Otherwise the document is said to be at fault. -/
  refused : (∀ k text, ¬env.Bad k text) → ∀ e, ofEntries entries env = .error e →
    e.kind = .badValue ∧
      ∀ document, ∃ reason, e.message document = "Invalid settings in " ++ document ++ ": " ++ reason
  /-- Entries that differ only where variables hide them come to the same. -/
  hidden : ∀ others, visible env others = visible env entries →
    ofEntries others env = ofEntries entries env
  /-- Each field depends on the variable and the entry of its own key only. -/
  apart : ∀ others env' s s', KeysOnce others →
    ofEntries entries env = .ok s → ofEntries others env' = .ok s' →
    ∀ k, (∀ text, env.Says k text ↔ env'.Says k text) →
      (∀ v, (.text k.name, v) ∈ entries ↔ (.text k.name, v) ∈ others) → s.value k = s'.value k

theorem ofEntries_eq_ok_iff {s : Settings} :
    ofEntries entries env = .ok s ↔
      (∀ k text, ¬env.Bad k text) ∧ (∀ e ∈ entries, ∃ k : Key, e.1 = .text k.name) ∧
        ofValues (merged entries env) = .ok s := by
  rw [← badVariable?_eq_none_iff, ← unknownKeys_eq_nil_iff]
  unfold ofEntries
  cases hbad : badVariable? env with
  | some bad => simp
  | none =>
    cases hunknown : unknownKeys entries with
    | cons shown more => simp
    | nil => cases hvalues : ofValues (merged entries env) <;> simp

theorem fault_of_good (hgood : ∀ k text, ¬env.Bad k text) {e : Failure}
    (h : ofEntries entries env = .error e) :
    (∃ shown, e = .unknownKeys shown) ∨ ∃ cause, e = .violation cause := by
  unfold ofEntries at h
  simp only [badVariable?_eq_none_iff.2 hgood] at h
  split at h
  · split at h
    · cases h
    · exact .inr ⟨_, (Except.error.inj h).symm⟩
  · exact .inl ⟨_, (Except.error.inj h).symm⟩

theorem refused_of_fault {e : Failure}
    (h : (∃ shown, e = .unknownKeys shown) ∨ ∃ cause, e = .violation cause) : e.kind = .badValue ∧
      ∀ document, ∃ reason, e.message document = "Invalid settings in " ++ document ++ ": " ++ reason := by
  rcases h with ⟨shown, rfl⟩ | ⟨cause, rfl⟩
  · refine ⟨rfl, fun document => ?_⟩
    have hcolon : ": Additional properties are not allowed (" =
        ": " ++ "Additional properties are not allowed (" := by decide
    have hmessage : (Failure.unknownKeys shown).message document =
        "Invalid settings in " ++ document ++ ": Additional properties are not allowed (" ++
          ", ".intercalate shown ++ (if shown.length = 1 then " was" else " were") ++
            " unexpected)" := rfl
    rw [hcolon] at hmessage
    -- as a literal the text would be joined to the one before it again
    generalize "Additional properties are not allowed (" = beginning at hmessage
    simp only [String.append_assoc] at hmessage ⊢
    exact ⟨_, hmessage⟩
  · exact ⟨rfl, fun document => ⟨cause.message, rfl⟩⟩

/-- The value that counts for a key is accepted by its rule, and is what the settings say for it. -/
theorem counts_iff_eq_value (hkeys : KeysOnce entries) {s : Settings}
    (h : ofEntries entries env = .ok s) (k : Key) :
    Key.Accepts k (s.value k) ∧ ∀ v, Counts entries env k v ↔ v = s.value k := by
  obtain ⟨hgood, -, hvalues⟩ := ofEntries_eq_ok_iff.1 h
  obtain ⟨haccepts, hvalue⟩ := ofValues_eq_ok_iff.1 hvalues k
  rw [hvalue] at haccepts
  exact ⟨haccepts, fun v => by rw [counts_iff_eq_merged hkeys hgood, hvalue]⟩

theorem layered (hkeys : KeysOnce entries) (env : Environment) : Layered entries env where
  bad := by
    rintro ⟨k, text, hbad⟩
    cases hfirst : badVariable? env with
    | none => exact absurd hbad (badVariable?_eq_none_iff.1 hfirst k text)
    | some first =>
      obtain ⟨j, t⟩ := first
      refine ⟨j, t, badVariable?_eq_some_iff.1 hfirst, ?_, rfl, fun _ => rfl⟩
      rw [ofEntries, hfirst]
  counts hgood k := by
    refine ⟨merged entries env k, (counts_iff_eq_merged hkeys hgood).2 rfl, fun v hv => ?_⟩
    exact (counts_iff_eq_merged hkeys hgood).1 hv
  loaded hgood := by
    simp only [ofEntries_eq_ok_iff, counts_iff_eq_merged hkeys hgood, forall_eq, exists_and_left,
      exists_ofValues_iff]
    exact and_iff_right hgood
  fields s h k := ((counts_iff_eq_value hkeys h k).2 _).2 rfl
  refused hgood e h := refused_of_fault (fault_of_good hgood h)
  hidden others h := by rw [← ofEntries_visible, h, ofEntries_visible]
  apart others env' s s' hothers h h' k htells hentry := by
    have hcounts := ((counts_iff_eq_value hkeys h k).2 _).2 rfl
    exact ((counts_iff_eq_value hothers h' k).2 _).1 (hcounts.congr htells hentry)

/-- Whatever a document and an environment say, the settings are those of the three layers: the document
counts by its entries alone, which have different keys, and of any such entries comes what comes of the
values that count. -/
theorem load_layered (env : Environment) :
    (∀ document entries, Holds document entries →
      KeysOnce entries ∧ load document env = ofEntries entries env) ∧
    ∀ entries, KeysOnce entries → Layered entries env := by
  constructor
  · intro document entries h
    exact ⟨keysOnce_of_holds h, load_of_holds h env⟩
  · intro entries hkeys
    exact layered hkeys env

/-- A port that no rule accepts does no harm under a variable that says another. -/
theorem load_layered_of_hidden_port :
    let entries : List (Scalar × Value) := [(.text "port", .scalar (.number (.whole 0)))]
    let env : Environment := fun name => if name = "CALCSERVE_PORT" then some " 9001 " else none
    Holds (some "port: 0") entries ∧
      load (some "port: 0") env = .ok ⟨".calc/calc.db", .whole 500, "INFO", "0.0.0.0", .whole 9001⟩ ∧
      Counts entries env .port (.scalar (.number (.whole 9001))) := by
  intro entries env
  have hholds : Holds (some "port: 0") entries := by
    show entriesOf "port: 0" = .ok [(.text "port", .scalar (.number (.whole 0)))]
    cbv
  have hvalues : ofEntries entries env =
      .ok ⟨".calc/calc.db", .whole 500, "INFO", "0.0.0.0", .whole 9001⟩ := by decide +kernel
  obtain ⟨hkeys, hload⟩ := (load_layered env).1 _ _ hholds
  have hlayered := (load_layered env).2 entries hkeys
  exact ⟨hholds, hload.trans hvalues, hlayered.fields _ hvalues .port⟩

end Reckoner.Settings
