import Mathlib.Data.List.Forall2
import Reckoner.Proofs.Expression.Record
/-!
The two forms of a batch tell the same.

In the JSON form each expression has its record on a line, and the line is read as that record again. In
the plain form the results in the records of success are printed to the output, and the messages in the
other records to the error output. Neither a result nor a message has a line end in it, so that there is
one line for each expression in either form.

What is shown here:
1. `count_newline_lines`: there are as many line ends as lines;
2. `parse_verdictLine`: a line of the JSON form is read as the record of its expression;
3. `modes_agree`: both forms are made of the same records.
-/

namespace Reckoner.Batch

open Verdict

/-! ## Lines -/

theorem lines_cons (l : String) (ls : List String) : lines (l :: ls) = l ++ "\n" ++ lines ls := by
  simp [lines]

theorem count_newline_lines {ls : List String} (h : ∀ l ∈ ls, '\n' ∉ l.toList) :
    (lines ls).toList.count '\n' = ls.length := by
  induction ls with
  | nil => rfl
  | cons l ls ih =>
    have hline : l.toList.count '\n' = 0 := List.count_eq_zero.2 (h l List.mem_cons_self)
    have hrest := ih fun m hm => h m (List.mem_cons_of_mem l hm)
    have hend : "\n".toList.count '\n' = 1 := by decide
    rw [lines_cons, String.toList_append, String.toList_append, List.count_append, List.count_append,
      hline, hrest, hend, List.length_cons]
    omega

/-- The line of an expression in the JSON form is read as its record, and it is one line. -/
theorem parse_verdictLine {x : String} (hlength : 17 * x.length < 10 ^ Text.digitLimit) :
    '\n' ∉ (verdictLine x).toList ∧ Json.parse (verdictLine x).toList = .ok (recordOf x) := by
  have hplain := plain_recordOf hlength
  refine ⟨fun hmem => ?_, Json.parse_render Json.Style.legible_line hplain⟩
  exact absurd (Json.le_of_mem_render Json.Style.oneLine_line hplain _ hmem) (by decide)

theorem failureLine?_eq (x : String) :
    failureLine? x = (messageOf? (recordOf x)).map ("error: " ++ ·) := by
  rw [failureLine?, messageOf?_recordOf]
  cases evaluate x with
  | ok r => rfl
  | error e => rfl

theorem length_results_add_failures (xs : List String) :
    (xs.filterMap resultLine?).length + (xs.filterMap failureLine?).length = xs.length := by
  induction xs with
  | nil => rfl
  | cons x xs ih =>
    rw [List.filterMap_cons, List.filterMap_cons, resultLine?, failureLine?]
    cases evaluate x with
    | ok r =>
      simp only [List.length_cons]
      omega
    | error e =>
      simp only [List.length_cons]
      omega

/-! ## Codes -/

theorem length_failures (xs : List String) :
    (xs.filterMap failureLine?).length = xs.countP fun x => !(ofExpression x).success := by
  have hone : ∀ x, (failureLine? x).isSome = !(ofExpression x).success := by
    intro x
    rw [success_ofExpression, failureLine?]
    cases evaluate x with
    | ok r => rfl
    | error e => rfl
  simp only [List.length_filterMap_eq_countP, hone]

theorem code_json_eq_plain (xs : List String) : (run true xs).code = (run false xs).code := by
  show code (xs.countP fun x => !(ofExpression x).success) = code (xs.filterMap failureLine?).length
  rw [length_failures]

theorem code_eq_zero_iff (xs : List String) :
    (run false xs).code = 0 ↔ ∀ x ∈ xs, ∃ r, evaluate x = .ok r := by
  have hone : ∀ x, failureLine? x = none ↔ ∃ r, evaluate x = .ok r := by
    intro x
    rw [failureLine?]
    cases evaluate x with
    | ok r => simp
    | error e => simp
  show code (xs.filterMap failureLine?).length = 0 ↔ _
  simp [code, hone]

theorem code_eq_one_iff (xs : List String) :
    (run false xs).code = 1 ↔ ∃ x ∈ xs, ∃ e, evaluate x = .error e := by
  have htwo : (run false xs).code = 1 ↔ ¬(run false xs).code = 0 := by
    show code (xs.filterMap failureLine?).length = 1 ↔ ¬code (xs.filterMap failureLine?).length = 0
    simp [code]
  have hfails : ∀ x, (∃ e, evaluate x = .error e) ↔ ¬∃ r, evaluate x = .ok r := by
    intro x
    cases evaluate x with
    | ok r => simp
    | error e => simp
  rw [htwo, code_eq_zero_iff]
  simp [hfails]

/-! ## The two forms -/

/-- What the two forms of a batch have in common: the code, and the records that either is made of. -/
structure ModesAgree (xs : List String) : Prop where
  sameCode : (run true xs).code = (run false xs).code
  failing : (run false xs).code = 1 ↔ ∃ x ∈ xs, ∃ e, evaluate x = .error e
  succeeding : (run false xs).code = 0 ↔ ∀ x ∈ xs, ∃ r, evaluate x = .ok r
  noError : (run true xs).err = ""
  records : ∃ ls, (run true xs).out = lines ls ∧
    List.Forall₂ (fun x l => '\n' ∉ l.toList ∧ Json.parse l.toList = .ok (recordOf x)) xs ls
  results : (run false xs).out = lines (xs.filterMap fun x => resultOf? (recordOf x))
  failures : (run false xs).err =
    lines (xs.filterMap fun x => (messageOf? (recordOf x)).map ("error: " ++ ·))
  resultLine : ∀ x ∈ xs, ∀ r, resultOf? (recordOf x) = some r → '\n' ∉ r.toList
  messageLine : ∀ x ∈ xs, ∀ m, messageOf? (recordOf x) = some m → '\n' ∉ m.toList
  lineCount : ((run false xs).out ++ (run false xs).err).toList.count '\n' = xs.length

/-- The two forms of a batch tell the same of every expression, each on a line of its own. A record tells
at which place an expression fails, and the place is read back from a line unless it has more digits than
are read, which no expression that a machine can hold is long enough for. -/
theorem modes_agree (xs : List String) (h : ∀ x ∈ xs, 17 * x.length < 10 ^ Text.digitLimit) :
    ModesAgree xs := by
  have hresults : ∀ x ∈ xs, ∀ r, resultOf? (recordOf x) = some r → '\n' ∉ r.toList :=
    fun x _ r hr => (onOneLine_resultOf? hr).newline_not_mem
  have hmessages : ∀ x ∈ xs, ∀ m, messageOf? (recordOf x) = some m → '\n' ∉ m.toList :=
    fun x _ m hm => (onOneLine_messageOf? hm).newline_not_mem
  refine ⟨code_json_eq_plain xs, code_eq_one_iff xs, code_eq_zero_iff xs, rfl, ⟨xs.map verdictLine, rfl, ?_⟩, ?_, ?_,
    hresults, hmessages, ?_⟩
  · rw [List.forall₂_map_right_iff, List.forall₂_same]
    exact fun x hx => parse_verdictLine (h x hx)
  · simp only [resultOf?_recordOf]
    rfl
  · simp only [← failureLine?_eq]
    rfl
  · have hout : ∀ l ∈ xs.filterMap resultLine?, '\n' ∉ l.toList := by
      intro l hl
      obtain ⟨x, hx, hline⟩ := List.mem_filterMap.1 hl
      rw [← resultOf?_recordOf] at hline
      exact hresults x hx l hline
    have herr : ∀ l ∈ xs.filterMap failureLine?, '\n' ∉ l.toList := by
      intro l hl
      obtain ⟨x, hx, hline⟩ := List.mem_filterMap.1 hl
      rw [failureLine?_eq] at hline
      obtain ⟨m, hm, rfl⟩ := Option.map_eq_some_iff.1 hline
      rw [String.toList_append, List.mem_append, not_or]
      exact ⟨by decide, hmessages x hx m hm⟩
    show (lines (xs.filterMap resultLine?) ++ lines (xs.filterMap failureLine?)).toList.count '\n' = _
    rw [String.toList_append, List.count_append, count_newline_lines hout, count_newline_lines herr,
      length_results_add_failures]

/-- A quote, a line end between two operands, a character beyond ASCII and a third of one. -/
theorem modes_agree_of_unusual :
    (∀ x ∈ ["\"2\"", "1\n+2", "é\\", "1/3"], 17 * x.length < 10 ^ Text.digitLimit) ∧
      ModesAgree ["\"2\"", "1\n+2", "é\\", "1/3"] := by
  have hlength : ∀ x ∈ ["\"2\"", "1\n+2", "é\\", "1/3"], 17 * x.length < 10 ^ Text.digitLimit := by
    have hshort : ∀ x ∈ ["\"2\"", "1\n+2", "é\\", "1/3"], 17 * x.length < Text.digitLimit := by decide
    intro x hx
    exact Nat.lt_trans (hshort x hx) (Nat.lt_pow_self (by decide))
  exact ⟨hlength, modes_agree _ hlength⟩

end Reckoner.Batch
