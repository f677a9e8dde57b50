import Reckoner.Batch
import Reckoner.Proofs.Expression.OneLine
import Reckoner.Proofs.Expression.Reentry
import Reckoner.Proofs.Json.RoundTrip
/-!
The record of an expression.

What is told of an expression is a record of fields. From the fields alone it can be read whether there is
a result, which one it is, and what the message is where there is none; and the text of a record is read
as that record again. A position in a long expression is the only number in it.

What is shown here:
1. `Verdict.resultOf?_recordOf` and `Verdict.messageOf?_recordOf`: a record tells of the result or of the
   message;
2. `Verdict.onOneLine_resultOf?` and `Verdict.onOneLine_messageOf?`: neither has a line end in it;
3. `Verdict.plain_recordOf`: a record is read back as it is written.
-/

namespace Reckoner.Verdict

/-- The record of an expression that is given in a request. -/
def recordOf (expression : String) : Json := (ofRequest (.obj [("expr", .str expression)])).toJson

/-- The result in a record of success. -/
def resultOf? (record : Json) : Option String :=
  match record.field? "success" with
  | some (.bool true) => (record.field? "result").bind Json.str?
  | _ => none

/-- The message in a record whose final answer is that of an error. -/
def messageOf? (record : Json) : Option String :=
  match (record.field? "final_answer").bind Json.str? with
  | some answer => ("Error: ".toList.isPrefixOf? answer.toList).map String.ofList
  | none => none

theorem recordOf_eq (x : String) : recordOf x = (ofExpression x).toJson := rfl

theorem resultOf?_recordOf (x : String) : resultOf? (recordOf x) = Batch.resultLine? x := by
  rw [recordOf_eq, ofExpression, Batch.resultLine?]
  cases evaluate x with
  | ok r => rfl
  | error e => rfl

theorem isPrefixOf?_display (x : Binary64) : "Error: ".toList.isPrefixOf? x.display.toList = none := by
  rw [Option.eq_none_iff_forall_ne_some]
  intro cs h
  have hmem : 'E' ∈ x.display.toList := by
    rw [← List.append_eq_of_isPrefixOf?_eq_some h]
    exact List.mem_cons_self
  exact absurd (Binary64.mem_display hmem) (by decide)

theorem messageOf?_recordOf (x : String) :
    messageOf? (recordOf x) =
      match evaluate x with
      | .ok _ => none
      | .error e => some e.message := by
  rw [recordOf_eq, ofExpression]
  cases h : evaluate x with
  | ok r =>
    obtain ⟨y, rfl⟩ := exists_display_of_evaluate h
    show (List.isPrefixOf? _ y.display.toList).map String.ofList = none
    rw [isPrefixOf?_display]
    rfl
  | error e =>
    have hbegins : "Error: ".toList.isPrefixOf? ("Error: " ++ e.message).toList =
        some e.message.toList := by
      rw [List.isPrefixOf?_eq_some_iff_append_eq, String.toList_append]
    show (List.isPrefixOf? _ ("Error: " ++ e.message).toList).map String.ofList = some e.message
    rw [hbegins, Option.map_some, String.ofList_toList]

theorem onOneLine_resultOf? {x r : String} (h : resultOf? (recordOf x) = some r) :
    Text.OnOneLine r.toList := by
  rw [resultOf?_recordOf, Batch.resultLine?] at h
  split at h
  · rename_i result hresult
    obtain ⟨y, rfl⟩ := exists_display_of_evaluate hresult
    rw [← Option.some.inj h]
    exact Binary64.onOneLine_display y
  · cases h

theorem onOneLine_messageOf? {x m : String} (h : messageOf? (recordOf x) = some m) :
    Text.OnOneLine m.toList := by
  rw [messageOf?_recordOf] at h
  split at h
  · cases h
  · rename_i e herror
    rw [← Option.some.inj h]
    exact onOneLine_message herror

/-! ## Records as text -/

/-- What is told of a cause is read back, if the text it is found in is not so long that the number of a
position has more digits than are read. -/
theorem plain_detail {cs : List Char} {e : EvalError} (h : e.FoundIn cs)
    (hlength : cs.length < 10 ^ Text.digitLimit) : (Json.obj e.detail).Plain := by
  cases h with
  | empty => simp [EvalError.detail, Json.Plain, Json.PlainFields]
  | ofMachine h =>
    cases h with
    | divisionByZero => simp [EvalError.detail, Json.Plain, Json.PlainFields]
    | malformed reason => simp [EvalError.detail, Json.Plain, Json.PlainFields]
  | @character c position hc hposition =>
    have hdigits : (Text.decimalDigits position).length ≤ Text.digitLimit :=
      (Nat.length_toDigits_le_iff (by decide) (by decide)).2 (Nat.lt_trans hposition hlength)
    simpa [EvalError.detail, Json.Plain, Json.PlainFields] using hdigits
  | literal h => simp [EvalError.detail, Json.Plain, Json.PlainFields]

/-- A record is read back as it is written. -/
theorem plain_recordOf {x : String} (hlength : 17 * x.length < 10 ^ Text.digitLimit) :
    (recordOf x).Plain := by
  rw [recordOf_eq, ofExpression]
  cases h : evaluate x with
  | ok r => simp [toJson, Json.Plain, Json.PlainFields]
  | error e =>
    have hform : (Normal.form x.toList).length < 10 ^ Text.digitLimit :=
      Nat.lt_of_le_of_lt (Normal.length_form_le x.toList) (by rwa [String.length_toList])
    have hdetail := plain_detail (foundIn_of_evaluate h) hform
    simpa [toJson, Json.Plain, Json.PlainFields] using hdetail

end Reckoner.Verdict
