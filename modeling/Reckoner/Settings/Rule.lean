import Reckoner.Settings.Value
/-!
Rules that the values of settings have to keep.

A setting is a text that is not empty, one of some words, or a whole number between bounds, in whatever
form the number is written. A rule hands out the value it accepts in its own type.

What is shown here: `nonEmpty_eq_ok_iff`, exactly the texts that are not empty are accepted as such.
-/

namespace Reckoner.Settings

/-- Why a value breaks its rule; the value is told as it is shown. -/
inductive Violation where
  | notOfType (shown type : String)
  | empty (shown : String)
  | notOneOf (shown : String) (words : List String)
  | tooSmall (shown : String) (least : Int)
  | tooGreat (shown : String) (greatest : Int)
  deriving DecidableEq

def Violation.message : Violation → String
  | .notOfType shown type => shown ++ " is not of type '" ++ type ++ "'"
  | .empty shown => shown ++ " should be non-empty"
  | .notOneOf shown words =>
    shown ++ " is not one of [" ++ ", ".intercalate (words.map Text.quoted) ++ "]"
  | .tooSmall shown least => shown ++ " is less than the minimum of " ++ Text.integerText least
  | .tooGreat shown greatest =>
    shown ++ " is greater than the maximum of " ++ Text.integerText greatest

namespace Rule

/-- A text that is not empty. -/
def nonEmpty : Value → Except Violation String
  | .scalar (.text s) => if s = "" then .error (.empty (Text.quoted s)) else .ok s
  | v => .error (.notOfType v.shown "string")

/-- One of some words. -/
def oneOf (words : List String) : Value → Except Violation String
  | .scalar (.text s) => if s ∈ words then .ok s else .error (.notOneOf (Text.quoted s) words)
  | v => .error (.notOfType v.shown "string")

/-- A whole number that is not less than one bound and, where there is another, not greater than it. -/
def wholeNumber (least : Int) (greatest : Option Int) : Value → Except Violation Quantity
  | .scalar (.number q) =>
    if !q.isIntegral then .error (.notOfType q.text "integer")
    else if q.isBelow least then .error (.tooSmall q.text least)
    else
      match greatest with
      | some n => if q.isAbove n then .error (.tooGreat q.text n) else .ok q
      | none => .ok q
  | v => .error (.notOfType v.shown "integer")

theorem nonEmpty_eq_ok_iff {v : Value} {s : String} :
    nonEmpty v = .ok s ↔ v = .scalar (.text s) ∧ s ≠ "" := by
  constructor
  · intro h
    unfold nonEmpty at h
    split at h
    · split at h
      · cases h
      · rename_i hs
        cases h
        exact ⟨rfl, hs⟩
    · cases h
  · rintro ⟨rfl, hs⟩
    simp [nonEmpty, hs]

end Rule

end Reckoner.Settings
