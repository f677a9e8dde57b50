import Reckoner.Settings.Basic
/-!
What the sources of settings say.

The entries of a document have different keys, since an entry put in again takes the place of the old one,
so what a document says for a key is the one entry under its name. A variable says what it is set to
without the blanks around it, and nothing where only blanks are left; some variables have to be integers,
and they are examined in the order of the keys.

What is shown here:
1. `keysOnce_of_holds`: the entries of a document have different keys;
2. `fromDocument?_eq_some_iff` and `unknownKeys_eq_nil_iff`: what is found in them;
3. `Environment.filled?_eq_some_iff` and `Key.valueOfText?_eq_some_iff`: what a variable says, and what
   value that is;
4. `badVariable?_eq_some_iff`: of the variables that have to be integers and are not, the first is told.
-/

namespace Reckoner

namespace Settings

/-! ## Entries under their keys -/

theorem Key.mem_all (k : Key) : k ∈ Key.all := by cases k <;> decide

theorem Key.name_injective : Function.Injective Key.name := by
  intro j k h
  cases j <;> cases k <;> first | rfl | exact absurd h (by decide)

theorem Scalar.sameKey_self (s : Scalar) : s.sameKey s = true := by simp [sameKey]

/-- No two entries have the same key. -/
def KeysOnce (entries : List (Scalar × Value)) : Prop := (entries.map (·.1)).Nodup

theorem keysOnce_nil : KeysOnce [] := List.nodup_nil

namespace Value

theorem mem_keys_put {key s : Scalar} {v : Value} {es : List (Scalar × Value)}
    (h : s ∈ (put key v es).map (·.1)) : s ∈ es.map (·.1) ∨ s = key := by
  induction es with
  | nil => exact .inr (List.mem_singleton.1 h)
  | cons e es ih =>
    simp only [put] at h
    split at h
    · exact .inl h
    · rcases List.mem_cons.1 h with rfl | htail
      · exact .inl List.mem_cons_self
      · exact (ih htail).imp_left (List.mem_cons_of_mem _)

theorem keysOnce_put {es : List (Scalar × Value)} (h : KeysOnce es) (key : Scalar) (v : Value) :
    KeysOnce (put key v es) := by
  induction es with
  | nil => simp [KeysOnce, put]
  | cons e es ih =>
    obtain ⟨hhead, htail⟩ := List.nodup_cons.1 h
    simp only [put]
    split
    · exact List.nodup_cons.2 ⟨hhead, htail⟩
    · rename_i hother
      refine List.nodup_cons.2 ⟨fun hmem => ?_, ih htail⟩
      rcases mem_keys_put hmem with hold | hnew
      · exact hhead hold
      · obtain rfl : e.1 = key := hnew
        exact hother (Scalar.sameKey_self _)

theorem keysOnce_ofEntries {nodes : List (Node × Node)} {done entries : List (Scalar × Value)}
    (hdone : KeysOnce done) (h : ofEntries done nodes = .ok entries) : KeysOnce entries := by
  induction nodes generalizing done with
  | nil =>
    rw [ofEntries] at h
    cases h
    exact hdone
  | cons e nodes ih =>
    rw [ofEntries] at h
    split at h
    · cases h
    · cases h
    · exact ih (keysOnce_put hdone _ _) h

theorem ofEntries_of_ofNode {node : Node} {entries : List (Scalar × Value)}
    (h : ofNode node = .ok (.map entries)) : ∃ nodes, ofEntries [] nodes = .ok entries := by
  cases node with
  | plain word =>
    rw [ofNode] at h
    cases hplain : ofPlain word <;> simp [hplain, Except.map] at h
  | quoted text => simp [ofNode] at h
  | list items =>
    rw [ofNode] at h
    cases hitems : ofItems items <;> simp [hitems, Except.map] at h
  | map nodes =>
    rw [ofNode] at h
    cases hmap : ofEntries [] nodes with
    | error e => simp [hmap, Except.map] at h
    | ok es =>
      simp only [hmap, Except.map, Except.ok.injEq, Value.map.injEq] at h
      exact ⟨nodes, hmap.trans (congrArg Except.ok h)⟩

end Value

theorem entriesOf_cases {text : String} {entries : List (Scalar × Value)}
    (h : entriesOf text = .ok entries) : entries = [] ∨ valueOf text = .ok (.map entries) := by
  unfold entriesOf at h
  split at h
  · cases h
  · cases h
  · rename_i v hvalue
    split at h
    · cases h
      exact .inl rfl
    · split at h
      · cases h
        exact .inr hvalue
      · cases h

/-- A place where a document may be holds entries: the document has them, or there is none and there are
no entries. -/
def Holds (document : Option String) (entries : List (Scalar × Value)) : Prop :=
  match document with
  | none => entries = []
  | some text => entriesOf text = .ok entries

theorem keysOnce_of_holds {document : Option String} {entries : List (Scalar × Value)}
    (h : Holds document entries) : KeysOnce entries := by
  cases document with
  | none =>
    obtain rfl : entries = [] := h
    exact keysOnce_nil
  | some text =>
    rcases entriesOf_cases h with rfl | hvalue
    · exact keysOnce_nil
    · unfold valueOf at hvalue
      split at hvalue
      · obtain ⟨nodes, hnodes⟩ := Value.ofEntries_of_ofNode hvalue
        exact Value.keysOnce_ofEntries keysOnce_nil hnodes
      · cases hvalue

theorem load_of_holds {document : Option String} {entries : List (Scalar × Value)}
    (h : Holds document entries) (env : Environment) : load document env = ofEntries entries env := by
  cases document with
  | none =>
    obtain rfl : entries = [] := h
    rfl
  | some text =>
    have hentries : entriesOf text = .ok entries := h
    simp only [load, hentries]

theorem fromDocument?_eq_none_iff {entries : List (Scalar × Value)} {k : Key} :
    fromDocument? entries k = none ↔ ∀ e ∈ entries, e.1 ≠ .text k.name := by
  simp [fromDocument?]

theorem fromDocument?_eq_some_iff {entries : List (Scalar × Value)} (hkeys : KeysOnce entries) {k : Key}
    {v : Value} : fromDocument? entries k = some v ↔ (.text k.name, v) ∈ entries := by
  induction entries with
  | nil => simp [fromDocument?]
  | cons e es ih =>
    obtain ⟨hhead, htail⟩ := List.nodup_cons.1 hkeys
    obtain ⟨s, u⟩ := e
    by_cases hs : s = .text k.name
    · subst hs
      have hnot : (.text k.name, v) ∉ es := fun hmem => hhead (List.mem_map.2 ⟨_, hmem, rfl⟩)
      simp [fromDocument?, hnot, eq_comm]
    · have hskip : fromDocument? ((s, u) :: es) k = fromDocument? es k := by simp [fromDocument?, hs]
      rw [hskip, ih htail]
      simp [Ne.symm hs]

theorem unknownKeys_eq_nil_iff {entries : List (Scalar × Value)} :
    unknownKeys entries = [] ↔ ∀ e ∈ entries, ∃ k : Key, e.1 = .text k.name := by
  have hkeys : ∀ s : Scalar, (∀ k ∈ Key.all, ¬s = .text k.name) ↔ ¬∃ k : Key, s = .text k.name := by
    intro s
    constructor
    · rintro h ⟨k, hk⟩
      exact h k (Key.mem_all k) hk
    · exact fun h k _ hk => h ⟨k, hk⟩
  rw [unknownKeys, List.map_eq_nil_iff, ← List.length_eq_zero_iff, List.length_mergeSort,
    List.length_eq_zero_iff, List.filter_eq_nil_iff]
  simp [hkeys]

/-! ## Variables -/

namespace Environment

/-- The variable of a key says a text, which is what it is set to without the blanks around it. -/
def Says (env : Environment) (k : Key) (text : String) : Prop :=
  ∃ s, env k.variableName = some s ∧ Text.isBlankText s = false ∧
    text = String.ofList (Text.trim s.toList)

/-- The variable of a key says nothing: it is not set, or to nothing but blanks. -/
def Silent (env : Environment) (k : Key) : Prop :=
  ∀ s, env k.variableName = some s → Text.isBlankText s = true

variable {env : Environment} {k : Key}

theorem filled?_eq_some_iff {text : String} :
    env.filled? k.variableName = some text ↔ env.Says k text := by
  unfold filled? Says
  cases henv : env k.variableName with
  | none => simp
  | some s =>
    cases hblank : Text.isBlankText s with
    | true => simp [hblank]
    | false =>
      simp only [Bool.false_eq_true, if_false, Option.some.injEq, exists_eq_left', hblank, true_and]
      exact eq_comm

theorem filled?_eq_none_iff : env.filled? k.variableName = none ↔ env.Silent k := by
  unfold filled? Silent
  cases henv : env k.variableName with
  | none => simp
  | some s => cases hblank : Text.isBlankText s <;> simp [hblank]

theorem silent_iff : env.Silent k ↔ ∀ text, ¬env.Says k text := by
  rw [← filled?_eq_none_iff, Option.eq_none_iff_forall_ne_some]
  exact forall_congr' fun text => not_congr filled?_eq_some_iff

theorem Says.unique {s t : String} (hs : env.Says k s) (ht : env.Says k t) : s = t :=
  Option.some.inj ((filled?_eq_some_iff.2 hs).symm.trans (filled?_eq_some_iff.2 ht))

end Environment

/-- The keys whose variables have to be integers. -/
def Key.AsksInteger (k : Key) : Prop := k = .maxExpressionLength ∨ k = .port

/-- What the text of a variable stands for: the integer it is for the keys that ask for one, the text in
upper case for the severity, and the text itself for the others. -/
inductive Key.Reads : Key → String → Value → Prop
  | integer {k : Key} {text : String} {n : Int} (hk : k.AsksInteger)
    (h : Text.wholeNumber? text.toList = some n) : Reads k text (.scalar (.number (.whole n)))
  | level (text : String) : Reads .logLevel text (.scalar (.text (Text.upper text)))
  | text {k : Key} (hk : ¬k.AsksInteger) (hlevel : k ≠ .logLevel) (text : String) :
    Reads k text (.scalar (.text text))

theorem Key.valueOfText?_eq_some_iff {k : Key} {text : String} {v : Value} :
    k.valueOfText? text = some v ↔ k.Reads text v := by
  constructor
  · intro h
    cases k with
    | dbPath =>
      cases h
      exact .text (by simp [AsksInteger]) (by simp) text
    | maxExpressionLength =>
      obtain ⟨n, hn, rfl⟩ := Option.map_eq_some_iff.1 h
      exact .integer (.inl rfl) hn
    | logLevel =>
      cases h
      exact .level text
    | host =>
      cases h
      exact .text (by simp [AsksInteger]) (by simp) text
    | port =>
      obtain ⟨n, hn, rfl⟩ := Option.map_eq_some_iff.1 h
      exact .integer (.inr rfl) hn
  · intro h
    cases h with
    | integer hk hn => rcases hk with rfl | rfl <;> simp [valueOfText?, hn]
    | level => rfl
    | text hk hlevel =>
      cases k with
      | dbPath => rfl
      | maxExpressionLength => exact absurd (.inl rfl) hk
      | logLevel => exact absurd rfl hlevel
      | host => rfl
      | port => exact absurd (.inr rfl) hk

theorem Key.Reads.unique {k : Key} {text : String} {u v : Value} (hu : k.Reads text u)
    (hv : k.Reads text v) : u = v :=
  Option.some.inj ((valueOfText?_eq_some_iff.2 hu).symm.trans (valueOfText?_eq_some_iff.2 hv))

theorem Key.valueOfText?_eq_none_iff {k : Key} {text : String} :
    k.valueOfText? text = none ↔ k.AsksInteger ∧ Text.wholeNumber? text.toList = none := by
  cases k <;> simp [valueOfText?, AsksInteger]

namespace Environment

/-- The variable of a key says something that is no integer, though one is asked for. -/
def Bad (env : Environment) (k : Key) (text : String) : Prop :=
  env.Says k text ∧ k.AsksInteger ∧ Text.wholeNumber? text.toList = none

/-- A variable is bad, and none is that is examined before it. -/
def FirstBad (env : Environment) (k : Key) (text : String) : Prop :=
  env.Bad k text ∧
    ∃ before after, Key.all = before ++ k :: after ∧ ∀ j ∈ before, ∀ t, ¬env.Bad j t

end Environment

variable {entries : List (Scalar × Value)} {env : Environment} {k : Key}

theorem fromEnvironment?_eq_some_iff {v : Value} :
    fromEnvironment? env k = some v ↔ ∃ text, env.Says k text ∧ k.Reads text v := by
  simp only [fromEnvironment?, Option.bind_eq_some_iff, Environment.filled?_eq_some_iff,
    Key.valueOfText?_eq_some_iff]

theorem silent_of_fromEnvironment? (hgood : ∀ k text, ¬env.Bad k text)
    (h : fromEnvironment? env k = none) : env.Silent k := by
  rw [Environment.silent_iff]
  intro text htells
  have hnone := Option.bind_eq_none_iff.1 h text (Environment.filled?_eq_some_iff.2 htells)
  exact hgood k text ⟨htells, Key.valueOfText?_eq_none_iff.1 hnone⟩

/-- The complaint about one variable, if it is bad. -/
def complaint? (env : Environment) (k : Key) : Option (Key × String) :=
  ((env.filled? k.variableName).filter fun text => (k.valueOfText? text).isNone).map (k, ·)

theorem badVariable?_eq_findSome? : badVariable? env = Key.all.findSome? (complaint? env) := by
  unfold badVariable?
  congr
  funext k
  cases hfilled : env.filled? k.variableName with
  | none => simp [complaint?, hfilled]
  | some text => cases hvalue : k.valueOfText? text <;> simp [complaint?, hfilled, hvalue, Option.filter_some]

theorem complaint?_eq_some_iff {j : Key} {text : String} :
    complaint? env j = some (k, text) ↔ j = k ∧ env.Bad k text := by
  simp only [complaint?, Option.map_eq_some_iff, Option.filter_eq_some_iff, Option.isNone_iff_eq_none,
    Prod.mk.injEq, Environment.filled?_eq_some_iff, Key.valueOfText?_eq_none_iff, Environment.Bad]
  constructor
  · rintro ⟨t, h, rfl, rfl⟩
    exact ⟨rfl, h⟩
  · rintro ⟨rfl, h⟩
    exact ⟨text, h, rfl, rfl⟩

theorem complaint?_eq_none_iff : complaint? env k = none ↔ ∀ text, ¬env.Bad k text := by
  rw [Option.eq_none_iff_forall_ne_some]
  constructor
  · exact fun h text hbad => h (k, text) (complaint?_eq_some_iff.2 ⟨rfl, hbad⟩)
  · exact fun h r hr => h r.2 ((complaint?_eq_some_iff.1 hr).1 ▸ (complaint?_eq_some_iff.1 hr).2)

theorem badVariable?_eq_none_iff : badVariable? env = none ↔ ∀ k text, ¬env.Bad k text := by
  rw [badVariable?_eq_findSome?, List.findSome?_eq_none_iff]
  simp only [complaint?_eq_none_iff]
  exact ⟨fun h k => h k (Key.mem_all k), fun h k _ => h k⟩

/-- Of the variables that have to be integers and are not, the first is told. -/
theorem badVariable?_eq_some_iff {text : String} :
    badVariable? env = some (k, text) ↔ env.FirstBad k text := by
  rw [badVariable?_eq_findSome?, List.findSome?_eq_some_iff]
  simp only [complaint?_eq_some_iff, complaint?_eq_none_iff]
  constructor
  · rintro ⟨before, j, after, hall, ⟨rfl, hbad⟩, hbefore⟩
    exact ⟨hbad, before, after, hall, hbefore⟩
  · rintro ⟨hbad, before, after, hall, hbefore⟩
    exact ⟨before, k, after, hall, ⟨rfl, hbad⟩, hbefore⟩

end Settings

end Reckoner
