import Reckoner.Proofs.Expression.Settling
import Reckoner.Proofs.Quantity
import Reckoner.Settings.Basic
/-!
What the rules of settings ask for.

Each key has one rule, and the value it accepts becomes the field of that key as it is: a text stays the
text, and a number stays in the form in which it was given.

What is shown here:
1. `Rule.oneOf_eq_ok_iff` and `Rule.wholeNumber_eq_ok_iff`: what the rules accept, in terms of the value
   alone;
2. `ofValues_eq_ok_iff`: settings are exactly the accepted values, each under its key;
3. `exists_ofValues_iff`: there are settings as soon as every value is accepted.
-/

namespace Reckoner.Settings

namespace Rule

theorem oneOf_eq_ok_iff {words : List String} {v : Value} {s : String} :
    oneOf words v = .ok s ↔ v = .scalar (.text s) ∧ s ∈ words := by
  constructor
  · intro h
    unfold oneOf at h
    split at h
    · split at h
      · rename_i hs
        cases h
        exact ⟨rfl, hs⟩
      · cases h
    · cases h
  · rintro ⟨rfl, hs⟩
    simp [oneOf, hs]

/-- A number is accepted by the integer it equals, whether it was given with a point or without. -/
theorem wholeNumber_eq_ok_iff {least : Int} {greatest : Option Int} {v : Value} {q : Quantity} :
    wholeNumber least greatest v = .ok q ↔
      v = .scalar (.number q) ∧ ∃ n, q.IsInteger n ∧ least ≤ n ∧ ∀ m ∈ greatest, n ≤ m := by
  constructor
  · intro h
    unfold wholeNumber at h
    split at h
    · rename_i p
      split at h
      · cases h
      · rename_i hintegral
        split at h
        · cases h
        · rename_i hbelow
          obtain ⟨n, hn⟩ := Quantity.isIntegral_iff.1 (by simpa using hintegral)
          have hleast : least ≤ n := Int.not_lt.1 fun hlt => hbelow ((Quantity.isBelow_iff hn _).2 hlt)
          cases greatest with
          | none =>
            cases h
            exact ⟨rfl, n, hn, hleast, nofun⟩
          | some m =>
            simp only at h
            split at h
            · cases h
            · rename_i habove
              cases h
              refine ⟨rfl, n, hn, hleast, fun m' hm => ?_⟩
              obtain rfl := Option.mem_some.1 hm
              exact Int.not_lt.1 fun hlt => habove ((Quantity.isAbove_iff hn _).2 hlt)
    · cases h
  · rintro ⟨rfl, n, hn, hleast, hgreatest⟩
    have hintegral : q.isIntegral = true := Quantity.isIntegral_iff.2 ⟨n, hn⟩
    have hbelow : ¬q.isBelow least = true := fun h =>
      absurd hleast (Int.not_le.2 ((Quantity.isBelow_iff hn _).1 h))
    cases greatest with
    | none => simp [wholeNumber, hintegral, hbelow]
    | some m =>
      have habove : ¬q.isAbove m = true := fun h =>
        absurd (hgreatest m rfl) (Int.not_le.2 ((Quantity.isAbove_iff hn _).1 h))
      simp [wholeNumber, hintegral, hbelow, habove]

end Rule

/-- What settings say for a key. -/
def value (s : Settings) : Key → Value
  | .dbPath => .scalar (.text s.dbPath)
  | .maxExpressionLength => .scalar (.number s.maxExpressionLength)
  | .logLevel => .scalar (.text s.logLevel)
  | .host => .scalar (.text s.host)
  | .port => .scalar (.number s.port)

/-- The rule of a key: the path and the host are texts that are not empty, the severity is one of five
words, and the limit and the port are integers, in whatever form, from one on and, for the port, up to
the last there is. -/
def Key.Accepts : Key → Value → Prop
  | .dbPath, v | .host, v => ∃ s, v = .scalar (.text s) ∧ s ≠ ""
  | .logLevel, v => ∃ s, v = .scalar (.text s) ∧ s ∈ logLevels
  | .maxExpressionLength, v => ∃ q, v = .scalar (.number q) ∧ ∃ n, q.IsInteger n ∧ 1 ≤ n
  | .port, v => ∃ q, v = .scalar (.number q) ∧ ∃ n, q.IsInteger n ∧ 1 ≤ n ∧ n ≤ 65535

theorem and_iff_exists_and {α : Type} {make : α → Scalar} (hmake : Function.Injective make)
    (P : α → Prop) {v : Value} {a : α} :
    v = .scalar (make a) ∧ P a ↔ (∃ b, v = .scalar (make b) ∧ P b) ∧ v = .scalar (make a) := by
  constructor
  · rintro ⟨hv, ha⟩
    exact ⟨⟨a, hv, ha⟩, hv⟩
  · rintro ⟨⟨b, hb, hP⟩, hv⟩
    obtain rfl : b = a := hmake (Value.scalar.inj (hb.symm.trans hv))
    exact ⟨hb, hP⟩

section Fields

variable {values : Key → Value} {s : Settings}

theorem text_eq_ok_iff {v : Value} {t : String} :
    Rule.nonEmpty v = .ok t ↔ (∃ b, v = .scalar (.text b) ∧ b ≠ "") ∧ v = .scalar (.text t) :=
  Rule.nonEmpty_eq_ok_iff.trans (and_iff_exists_and (fun _ _ => Scalar.text.inj) (· ≠ ""))

theorem level_eq_ok_iff {v : Value} {t : String} :
    Rule.oneOf logLevels v = .ok t ↔ Key.logLevel.Accepts v ∧ v = .scalar (.text t) :=
  Rule.oneOf_eq_ok_iff.trans (and_iff_exists_and (fun _ _ => Scalar.text.inj) (· ∈ logLevels))

theorem limit_eq_ok_iff {v : Value} {q : Quantity} :
    Rule.wholeNumber 1 none v = .ok q ↔
      Key.maxExpressionLength.Accepts v ∧ v = .scalar (.number q) := by
  rw [Rule.wholeNumber_eq_ok_iff]
  simp only [Option.not_mem_none, false_implies, implies_true, and_true]
  exact and_iff_exists_and (fun _ _ => Scalar.number.inj) fun q => ∃ n, q.IsInteger n ∧ 1 ≤ n

theorem port_eq_ok_iff {v : Value} {q : Quantity} :
    Rule.wholeNumber 1 (some 65535) v = .ok q ↔ Key.port.Accepts v ∧ v = .scalar (.number q) := by
  rw [Rule.wholeNumber_eq_ok_iff]
  simp only [Option.mem_some, forall_eq']
  exact and_iff_exists_and (fun _ _ => Scalar.number.inj)
    fun q => ∃ n, q.IsInteger n ∧ 1 ≤ n ∧ n ≤ 65535

/-- Settings are exactly the accepted values, each under its key. -/
theorem ofValues_eq_ok_iff :
    ofValues values = .ok s ↔ ∀ k, Key.Accepts k (values k) ∧ values k = s.value k := by
  constructor
  · intro h
    obtain ⟨port, hport, h⟩ := bind_eq_ok.1 h
    obtain ⟨limit, hlimit, h⟩ := bind_eq_ok.1 h
    obtain ⟨level, hlevel, h⟩ := bind_eq_ok.1 h
    obtain ⟨host, hhost, h⟩ := bind_eq_ok.1 h
    obtain ⟨path, hpath, h⟩ := bind_eq_ok.1 h
    cases h
    intro k
    cases k with
    | dbPath => exact text_eq_ok_iff.1 hpath
    | maxExpressionLength => exact limit_eq_ok_iff.1 hlimit
    | logLevel => exact level_eq_ok_iff.1 hlevel
    | host => exact text_eq_ok_iff.1 hhost
    | port => exact port_eq_ok_iff.1 hport
  · intro h
    have hport := port_eq_ok_iff.2 (h .port)
    have hlimit := limit_eq_ok_iff.2 (h .maxExpressionLength)
    have hlevel := level_eq_ok_iff.2 (h .logLevel)
    have hhost := text_eq_ok_iff.2 (h .host)
    have hpath := text_eq_ok_iff.2 (h .dbPath)
    rw [ofValues, hport, hlimit, hlevel, hhost, hpath]
    rfl

/-- There are settings as soon as every value is accepted by the rule of its key. -/
theorem exists_ofValues_iff :
    (∃ s, ofValues values = .ok s) ↔ ∀ k, Key.Accepts k (values k) := by
  constructor
  · rintro ⟨s, h⟩ k
    exact (ofValues_eq_ok_iff.1 h k).1
  · intro h
    obtain ⟨path, hpath, -⟩ := h .dbPath
    obtain ⟨limit, hlimit, -⟩ := h .maxExpressionLength
    obtain ⟨level, hlevel, -⟩ := h .logLevel
    obtain ⟨host, hhost, -⟩ := h .host
    obtain ⟨port, hport, -⟩ := h .port
    refine ⟨⟨path, limit, level, host, port⟩, ofValues_eq_ok_iff.2 fun k => ⟨h k, ?_⟩⟩
    cases k <;> assumption

end Fields

end Reckoner.Settings
