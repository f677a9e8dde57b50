import Reckoner.Proofs.Settings.Layers
/-!
The types of settings.

A limit and a port are asked for as integers, and a variable is turned into one. The number of a document
is not: it is asked whether it equals an integer, and then taken as it stands, with its point if it has
one. So every setting keeps its rule, but only those that come from a variable or from the defaults, or
were written without a point, are of the type that is asked for.

What is shown here:
1. `value_eq_pointed_iff`: the settings with a point are those that a document gives with one;
2. `typed_iff`: settings that keep their rules are well typed exactly if none has a point;
3. `load_typing`: what is sure of the settings that come of a document and an environment.
-/

namespace Reckoner.Settings

/-- Settings of the types that are asked for: texts, and numbers that are given as integers. -/
structure Typed (s : Settings) : Prop where
  dbPath : s.dbPath ≠ ""
  maxExpressionLength : ∃ n, s.maxExpressionLength = .whole n ∧ 1 ≤ n
  logLevel : s.logLevel ∈ logLevels
  host : s.host ≠ ""
  port : ∃ n, s.port = .whole n ∧ 1 ≤ n ∧ n ≤ 65535

/-- Settings that keep their rules: texts, and numbers that equal an integer, in whatever form. -/
structure Ruled (s : Settings) : Prop where
  dbPath : s.dbPath ≠ ""
  maxExpressionLength : ∃ n, s.maxExpressionLength.IsInteger n ∧ 1 ≤ n
  logLevel : s.logLevel ∈ logLevels
  host : s.host ≠ ""
  port : ∃ n, s.port.IsInteger n ∧ 1 ≤ n ∧ n ≤ 65535

/-- A document gives a key a number with a point, and no variable hides it. -/
def GivesPoint (entries : List (Scalar × Value)) (env : Environment) (k : Key) (x : Binary64) : Prop :=
  env.Silent k ∧ (.text k.name, .scalar (.number (.pointed x))) ∈ entries

section Checked

variable {entries : List (Scalar × Value)} {env : Environment} {s : Settings}

theorem field_of_accepts {α : Type} {make : α → Scalar} (hmake : Function.Injective make)
    (P : α → Prop) {a : α} (h : ∃ b, Value.scalar (make a) = .scalar (make b) ∧ P b) : P a := by
  obtain ⟨b, hb, hP⟩ := h
  rwa [hmake (Value.scalar.inj hb)]

theorem ruled_of_accepts (h : ∀ k, Key.Accepts k (s.value k)) : s.Ruled where
  dbPath := field_of_accepts (fun _ _ => Scalar.text.inj) (· ≠ "") (h .dbPath)
  maxExpressionLength := field_of_accepts (fun _ _ => Scalar.number.inj) _ (h .maxExpressionLength)
  logLevel := field_of_accepts (fun _ _ => Scalar.text.inj) _ (h .logLevel)
  host := field_of_accepts (fun _ _ => Scalar.text.inj) (· ≠ "") (h .host)
  port := field_of_accepts (fun _ _ => Scalar.number.inj) _ (h .port)

theorem exists_whole_iff {q : Quantity} {P : Int → Prop} (h : ∃ n, q.IsInteger n ∧ P n) :
    (∃ n, q = .whole n ∧ P n) ↔ ∀ x, q ≠ .pointed x := by
  cases q with
  | whole m =>
    obtain ⟨n, rfl, hP⟩ := h
    exact iff_of_true ⟨m, rfl, hP⟩ nofun
  | pointed x => exact iff_of_false (by simp) fun hnone => hnone x rfl

/-- Settings that keep their rules are well typed exactly if none has a point. -/
theorem typed_iff (h : s.Ruled) : s.Typed ↔ ∀ k x, s.value k ≠ .scalar (.number (.pointed x)) := by
  constructor
  · intro htyped k x hvalue
    cases k with
    | maxExpressionLength =>
      have hpointed := Scalar.number.inj (Value.scalar.inj hvalue)
      exact (exists_whole_iff h.maxExpressionLength).1 htyped.maxExpressionLength x hpointed
    | port =>
      have hpointed := Scalar.number.inj (Value.scalar.inj hvalue)
      exact (exists_whole_iff h.port).1 htyped.port x hpointed
    | dbPath => cases hvalue
    | logLevel => cases hvalue
    | host => cases hvalue
  · intro hnone
    exact {
      dbPath := h.dbPath
      maxExpressionLength := (exists_whole_iff h.maxExpressionLength).2 fun x hx =>
        hnone .maxExpressionLength x (by rw [value, hx])
      logLevel := h.logLevel
      host := h.host
      port := (exists_whole_iff h.port).2 fun x hx => hnone .port x (by rw [value, hx]) }

theorem counts_pointed_iff {k : Key} {x : Binary64} :
    Counts entries env k (.scalar (.number (.pointed x))) ↔ GivesPoint entries env k x := by
  constructor
  · intro h
    generalize hv : Value.scalar (.number (.pointed x)) = v at h
    cases h with
    | said _ hreads => cases hreads <;> cases hv
    | entered hsilent hentry => exact ⟨hsilent, hv ▸ hentry⟩
    | default => cases k <;> cases hv
  · rintro ⟨hsilent, hentry⟩
    exact .entered hsilent hentry

theorem value_eq_pointed_iff (hkeys : KeysOnce entries) (h : ofEntries entries env = .ok s) (k : Key)
    (x : Binary64) :
    s.value k = .scalar (.number (.pointed x)) ↔ GivesPoint entries env k x := by
  rw [eq_comm, ← (counts_iff_eq_value hkeys h k).2, counts_pointed_iff]

end Checked

/-- What is sure of settings that come of entries and an environment. -/
structure Typing (entries : List (Scalar × Value)) (env : Environment) (s : Settings) : Prop where
  ruled : s.Ruled
  pointed : ∀ k x, s.value k = .scalar (.number (.pointed x)) ↔ GivesPoint entries env k x
  typed : s.Typed ↔ ∀ k x, ¬GivesPoint entries env k x

theorem holds_of_load {document : Option String} {env : Environment} {s : Settings}
    (h : load document env = .ok s) :
    ∃ entries, Holds document entries ∧ ofEntries entries env = .ok s := by
  cases document with
  | none => exact ⟨[], rfl, h⟩
  | some text =>
    cases hentries : entriesOf text with
    | error e =>
      rw [load, hentries] at h
      cases h
    | ok entries =>
      rw [load, hentries] at h
      exact ⟨entries, hentries, h⟩

/-- Settings that come of a document and an environment keep their rules. They are well typed unless the
document gives a number with a point that no variable hides, and then that setting has it. -/
theorem load_typing {document : Option String} {env : Environment} {s : Settings}
    (h : load document env = .ok s) : ∃ entries, Holds document entries ∧ Typing entries env s := by
  obtain ⟨entries, hholds, hs⟩ := holds_of_load h
  have hkeys := keysOnce_of_holds hholds
  have hruled := ruled_of_accepts fun k => (counts_iff_eq_value hkeys hs k).1
  have hpointed := value_eq_pointed_iff hkeys hs
  refine ⟨entries, hholds, hruled, hpointed, (typed_iff hruled).trans ?_⟩
  exact forall₂_congr fun k x => not_congr (hpointed k x)

/-- A port with a point is taken as it stands. -/
theorem load_typing_of_pointed_port :
    let env : Environment := fun _ => none
    let s : Settings := ⟨".calc/calc.db", .whole 500, "INFO", "0.0.0.0", .pointed (Binary64.ofNat 8000)⟩
    load (some "port: 8000.0") env = .ok s ∧
      ∃ entries, Holds (some "port: 8000.0") entries ∧
        GivesPoint entries env .port (Binary64.ofNat 8000) := by
  intro env s
  have hload : load (some "port: 8000.0") env = .ok s := by decide +kernel
  obtain ⟨entries, hholds, htyping⟩ := load_typing hload
  exact ⟨hload, entries, hholds, (htyping.pointed .port _).1 rfl⟩

/-- Not all settings are well typed. -/
theorem not_load_typed :
    ¬∀ (document : Option String) (env : Environment) (s : Settings),
      load document env = .ok s → s.Typed := by
  intro h
  have hload : load (some "port: 8000.0") (fun _ => none) = .ok
      ⟨".calc/calc.db", .whole 500, "INFO", "0.0.0.0", .pointed (Binary64.ofNat 8000)⟩ := by
    decide +kernel
  obtain ⟨n, hn, -⟩ := (h _ _ _ hload).port
  cases hn

end Reckoner.Settings
