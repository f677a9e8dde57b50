import Reckoner.Proofs.Settings.Layers
import Reckoner.Proofs.Settings.Numerals
/-!
Reports of bad documents.

A bad document should be reported as one: as a bad value, in a message that names the document. This is
so for every document that can be read. A document that cannot be read is another kind of failure, and a
numeral without a value is reported in its own words, whatever the document is called.

What is shown here:
1. `Value.exists_ofNode_iff`: the nodes that stand for a value;
2. `load_reported`: the documents that are reported as they should be, and what becomes of the others;
3. `not_load_documented`: not all are.
-/

namespace Reckoner.Settings

/-! ## Nodes that stand for something -/

/-- A node stands for a key: it is a scalar, or the equals sign that is none elsewhere. -/
inductive Node.IsKey : Node → Prop
  | equals : IsKey (.plain ['='])
  | plain {word : List Char} (h : IsWord word) : IsKey (.plain word)
  | quoted (text : List Char) : IsKey (.quoted text)

/-- A node has a value: its plain words stand for scalars, and scalars are the keys of its maps. -/
inductive Node.HasValue : Node → Prop
  | plain {word : List Char} (h : IsWord word) : HasValue (.plain word)
  | quoted (text : List Char) : HasValue (.quoted text)
  | list {items : List Node} (h : ∀ n ∈ items, n.HasValue) : HasValue (.list items)
  | map {entries : List (Node × Node)} (hkeys : ∀ e ∈ entries, e.1.IsKey)
    (hvalues : ∀ e ∈ entries, e.2.HasValue) : HasValue (.map entries)

namespace Value

theorem exists_map_eq_ok {ε α β : Type} {r : Except ε α} {f : α → β} :
    (∃ b, r.map f = .ok b) ↔ ∃ a, r = .ok a := by
  cases r <;> simp [Except.map]

theorem exists_ofPlain_iff {word : List Char} : (∃ s, ofPlain word = .ok s) ↔ IsWord word := by
  rcases ofPlain_cases word with ⟨hword, s, hs⟩ | ⟨hreserved, herror⟩ | ⟨f, hf, herror⟩
  · exact iff_of_true ⟨s, hs⟩ hword
  · exact iff_of_false (by simp [herror]) fun h => h.1 hreserved
  · exact iff_of_false (by simp [herror]) fun h => h.2 f hf

theorem exists_keyOf_iff {n : Node} : (∃ s, keyOf n = .ok s) ↔ n.IsKey := by
  unfold keyOf
  split
  · exact iff_of_true ⟨_, rfl⟩ .equals
  · rename_i word hne
    rw [exists_ofPlain_iff]
    refine ⟨.plain, fun h => ?_⟩
    cases h with
    | equals => exact absurd rfl hne
    | plain hword => exact hword
  · exact iff_of_true ⟨_, rfl⟩ (.quoted _)
  · rename_i hplain hquoted
    refine iff_of_false (by simp) fun h => ?_
    cases h with
    | equals => exact hplain _ rfl
    | plain hword => exact hplain _ rfl
    | quoted text => exact hquoted _ rfl

mutual

/-- The nodes with a value are those that stand for one. The theorem follows the three functions that
read a node, and holds of entries behind whatever entries have been put in before. -/
theorem exists_ofNode_iff : ∀ n : Node, (∃ v, ofNode n = .ok v) ↔ n.HasValue
  | .plain word => by
    rw [ofNode, exists_map_eq_ok, exists_ofPlain_iff]
    exact ⟨.plain, fun | .plain h => h⟩
  | .quoted text => iff_of_true ⟨_, by rw [ofNode]⟩ (.quoted text)
  | .list items => by
    rw [ofNode, exists_map_eq_ok, exists_ofItems_iff items]
    exact ⟨.list, fun | .list h => h⟩
  | .map entries => by
    rw [ofNode, exists_map_eq_ok, exists_ofEntries_iff [] entries]
    exact ⟨fun h => .map (fun e he => (h e he).1) fun e he => (h e he).2,
      fun | .map hkeys hvalues => fun e he => ⟨hkeys e he, hvalues e he⟩⟩

theorem exists_ofItems_iff : ∀ items : List Node,
    (∃ vs, ofItems items = .ok vs) ↔ ∀ n ∈ items, n.HasValue
  | [] => iff_of_true ⟨_, by rw [ofItems]⟩ (by simp)
  | n :: ns => by
    rw [List.forall_mem_cons, ← exists_ofNode_iff n, ← exists_ofItems_iff ns, ofItems]
    cases ofNode n <;> cases ofItems ns <;> simp

theorem exists_ofEntries_iff : ∀ (done : List (Scalar × Value)) (entries : List (Node × Node)),
    (∃ es, ofEntries done entries = .ok es) ↔ ∀ e ∈ entries, e.1.IsKey ∧ e.2.HasValue
  | done, [] => iff_of_true ⟨_, by rw [ofEntries]⟩ (by simp)
  | done, (key, n) :: es => by
    rw [List.forall_mem_cons, ← exists_keyOf_iff, ← exists_ofNode_iff n, ofEntries]
    cases keyOf key with
    | error e => simp
    | ok s =>
      cases ofNode n with
      | error e => simp
      | ok v => simpa using exists_ofEntries_iff (put s v done) es

end

end Value

/-! ## Documents that can be read -/

/-- A text is laid out as a node, and the node has a value. -/
def Readable (text : String) : Prop := ∃ n, Node.ofDocument? text.toList = some n ∧ n.HasValue

theorem exists_valueOf_iff {text : String} : (∃ v, valueOf text = .ok v) ↔ Readable text := by
  unfold valueOf Readable
  cases Node.ofDocument? text.toList with
  | none => simp
  | some n => simpa using Value.exists_ofNode_iff n

theorem entriesOf_of_readable {text : String} (h : Readable text) :
    (∃ entries, entriesOf text = .ok entries) ∨ entriesOf text = .error .notAMapping := by
  obtain ⟨v, hv⟩ := exists_valueOf_iff.2 h
  unfold entriesOf
  simp only [hv]
  split
  · exact .inl ⟨_, rfl⟩
  · split
    · exact .inl ⟨_, rfl⟩
    · exact .inr rfl

theorem entriesOf_of_not_readable {text : String} (h : ¬Readable text) :
    entriesOf text = .error .malformed ∨ ∃ f, entriesOf text = .error (.numeral f) := by
  unfold entriesOf
  cases hvalue : valueOf text with
  | ok v => exact absurd (exists_valueOf_iff.1 ⟨v, hvalue⟩) h
  | error f =>
    cases f with
    | malformed => exact .inl rfl
    | numeral f => exact .inr ⟨f, rfl⟩

/-! ## Reports -/

/-- A failure is told as that of a document: as a bad value, in a message with the document's name,
whatever it is. -/
def Failure.TellsDocument (e : Failure) : Prop :=
  e.kind = .badValue ∧ ∀ document, ∃ before after, e.message document = before ++ document ++ after

/-- There are settings, or a failure that is told as that of the document. -/
def Documented (r : Except Failure Settings) : Prop :=
  (∃ s, r = .ok s) ∨ ∃ e, r = .error e ∧ e.TellsDocument

theorem Failure.TellsDocument.of_reason {e : Failure} (hkind : e.kind = .badValue)
    (h : ∀ document, ∃ reason, e.message document = "Invalid settings in " ++ document ++ ": " ++ reason) :
    e.TellsDocument := by
  refine ⟨hkind, fun document => ?_⟩
  obtain ⟨reason, hreason⟩ := h document
  exact ⟨_, _, hreason.trans (String.append_assoc ..)⟩

/-- A message that is always the same does not name the document, for that may have a longer name. -/
theorem Failure.not_tellsDocument {e : Failure} {message : String}
    (h : ∀ document, e.message document = message) : ¬e.TellsDocument := by
  rintro ⟨-, htells⟩
  obtain ⟨before, after, hmessage⟩ := htells (message ++ " ")
  have hlength := congrArg String.length ((h _).symm.trans hmessage)
  simp only [String.length_append] at hlength
  have hspace : " ".length = 1 := by decide
  omega

/-- What becomes of a document that is to be loaded. -/
structure Reported (text : String) (r : Except Failure Settings) : Prop where
  documented_iff : Documented r ↔ Readable text
  /-- A document that can be read and is bad is named, and the reason told. -/
  refused : Readable text → ∀ e, r = .error e → e.kind = .badValue ∧
    ∀ document, ∃ reason, e.message document = "Invalid settings in " ++ document ++ ": " ++ reason
  /-- A text that is not laid out as a node is a failure of another kind. -/
  unlaid : Node.ofDocument? text.toList = none → ∃ e, r = .error e ∧ e.kind = .unreadable
  /-- So is any other that cannot be read, unless a numeral has no value: then only that is told. -/
  valueless : ¬Readable text → ∃ e, r = .error e ∧
    (e.kind = .unreadable ∨ ∃ f : NumeralFault, ∀ document, e.message document = f.message)

theorem message_of_notAMapping (document : String) : ∃ reason,
    Failure.notAMapping.message document = "Invalid settings in " ++ document ++ ": " ++ reason := by
  refine ⟨"expected a mapping", ?_⟩
  have hcolon : ": " ++ "expected a mapping" = ": expected a mapping" := by decide
  rw [String.append_assoc, hcolon]
  rfl

theorem load_refused {text : String} {env : Environment} (hsilent : ∀ k, env.Silent k)
    (hreadable : Readable text) {e : Failure} (h : load (some text) env = .error e) :
    e.kind = .badValue ∧
      ∀ document, ∃ reason, e.message document = "Invalid settings in " ++ document ++ ": " ++ reason := by
  rcases entriesOf_of_readable hreadable with ⟨entries, hentries⟩ | hmapping
  · have hgood : ∀ k text, ¬env.Bad k text := fun k text hbad =>
      Environment.silent_iff.1 (hsilent k) text hbad.1
    have hholds : Holds (some text) entries := hentries
    rw [load_of_holds hholds] at h
    exact refused_of_fault (fault_of_good hgood h)
  · simp only [load, hmapping] at h
    cases h
    exact ⟨rfl, message_of_notAMapping⟩

/-- With silent variables, the documents that can be read are those that give settings or are told of as
they should be; any other is a failure of another kind, or the complaint about a numeral. -/
theorem load_reported {env : Environment} (hsilent : ∀ k, env.Silent k) (text : String) :
    Reported text (load (some text) env) := by
  have hvalueless : ¬Readable text → load (some text) env = .error .malformed ∨
      ∃ f, load (some text) env = .error (.numeral f) := by
    intro h
    rcases entriesOf_of_not_readable h with hentries | ⟨f, hentries⟩
    · exact .inl (by simp only [load, hentries])
    · exact .inr ⟨f, by simp only [load, hentries]⟩
  refine {
    documented_iff := ⟨fun hdocumented => ?_, fun hreadable => ?_⟩
    refused := fun hreadable e he => load_refused hsilent hreadable he
    unlaid := fun hnode => ?_
    valueless := fun h => ?_ }
  · by_contra h
    rcases hvalueless h with hload | ⟨f, hload⟩ <;>
      rcases hdocumented with ⟨s, hs⟩ | ⟨e, he, htells⟩
    · cases hs.symm.trans hload
    · cases he.symm.trans hload
      cases htells.1
    · cases hs.symm.trans hload
    · cases he.symm.trans hload
      exact Failure.not_tellsDocument (fun _ => rfl) htells
  · cases hload : load (some text) env with
    | ok s => exact .inl ⟨s, rfl⟩
    | error e =>
      obtain ⟨hkind, hreason⟩ := load_refused hsilent hreadable hload
      exact .inr ⟨e, rfl, .of_reason hkind hreason⟩
  · refine ⟨.malformed, ?_, rfl⟩
    simp only [load, entriesOf, valueOf, hnode]
  · rcases hvalueless h with hload | ⟨f, hload⟩
    · exact ⟨_, hload, .inl rfl⟩
    · exact ⟨_, hload, .inr ⟨f, fun _ => rfl⟩⟩

/-- A port below the range is told of as one in the document. -/
theorem load_reported_of_small_port :
    let env : Environment := fun _ => none
    (∀ k, env.Silent k) ∧ Documented (load (some "port: 0") env) ∧
      load (some "port: 0") env = .error (.violation (.tooSmall "0" 1)) := by
  intro env
  have hsilent : ∀ k, env.Silent k := fun k s h => by cases h
  have hvalue : valueOf "port: 0" = .ok (.map [(.text "port", .scalar (.number (.whole 0)))]) := by cbv
  have hholds : Holds (some "port: 0") [(.text "port", .scalar (.number (.whole 0)))] := by
    simp [Holds, entriesOf, hvalue, Value.isVoid]
  have hfault : ofEntries [(.text "port", .scalar (.number (.whole 0)))] env =
      .error (.violation (.tooSmall "0" 1)) := by decide +kernel
  have hreported := load_reported hsilent "port: 0"
  exact ⟨hsilent, hreported.documented_iff.2 (exists_valueOf_iff.1 ⟨_, hvalue⟩),
    (load_of_holds hholds env).trans hfault⟩

/-- Not every bad document is told of as one: one that breaks off is a failure of another kind. -/
theorem not_load_documented :
    ¬∀ (text : String) (env : Environment), (∀ k, env.Silent k) →
      Documented (load (some text) env) := by
  intro hall
  have hload : load (some "port: [\n") (fun _ => none) = .error .malformed := by cbv
  rcases hall "port: [\n" (fun _ => none) (fun k s h => by cases h) with ⟨s, hs⟩ | ⟨e, he, htells⟩
  · cases hs.symm.trans hload
  · cases he.symm.trans hload
    cases htells.1

end Reckoner.Settings
