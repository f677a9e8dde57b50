import Reckoner.Proofs.Expression.Record
import Reckoner.Proofs.Http.Provenance
import Reckoner.Proofs.Store.Numbering
import Reckoner.Proofs.Store.Saving
/-!
A calculation over HTTP and the record of its expression tell the same.

The site looks at the length of an expression first. An expression that is not too long is evaluated, and
its result is saved for the user and sent back; a failure is sent back by its kind, its details and a
message. What is told of an expression elsewhere is its record. The two are put together apart from each
other, and here they are compared field by field, for every expression and every kind of failure.

What is shown here:
1. `Service.handle_calculate_of_ok`: an open store saves what is calculated;
2. `Http.submits_post`: there is a request that submits an expression, whatever it is and whoever asks;
3. `Http.respond_of_submits`: the response to such a request, and the session after it;
4. `Verdict.explanationOf?_recordOf`: what a message says can be told from the record;
5. `Http.calculation_agrees`: the response agrees with the record, and only what is granted is saved.
-/

namespace Reckoner

/-! ## Saving to an open store -/

/-- The row that a calculation puts into the history. -/
def Store.calculated (s : Store) (user : Int) (expression result : String) (stamp : Timestamp) : Row :=
  ⟨s.lastId + 1, user, expression, result, stamp.storedText, .history⟩

theorem Row.timestamp_calculated (s : Store) (user : Int) (expression result : String)
    (stamp : Timestamp) : (s.calculated user expression result stamp).record.timestamp = some stamp :=
  stamp.ofText?_storedText

section Save
variable {s : Session} (hopen : s.store.isOpen = true) {stamp : Timestamp}
  (hclock : s.clock.reading? = some stamp) {user : Int} (hfits : fitsColumn user = true)
include hopen hclock hfits

theorem Session.perform_save_calculated (expression result : String) :
    s.perform (.save ⟨user, expression, result, .history⟩ none) =
      (.ok (s.store.calculated user expression result stamp).record,
        ⟨s.store.add (s.store.calculated user expression result stamp), s.clock.tick⟩) := by
  have hrecord : (s.store.calculated user expression result stamp).record =
      ⟨s.store.lastId + 1, user, expression, result, some stamp, .history⟩ :=
    Row.record_of_storedText rfl
  rw [hrecord]
  exact perform_save_eq hopen hfits expression result .history hclock

theorem Service.handle_calculate_of_ok {service : Service} {expression result : String}
    (h : service.evaluate (some expression) = .ok result) :
    service.handle s (.calculate user expression) =
      (.ok (.calculated (s.store.calculated user expression result stamp).record),
        ⟨s.store.add (s.store.calculated user expression result stamp), s.clock.tick⟩) := by
  rw [handle_calculate, h]
  simp only [s.perform_save_calculated hopen hclock hfits]

end Save

theorem Service.evaluate_of_short {service : Service} {expression : String}
    (h : service.limit.isBelow expression.length = false) :
    service.evaluate (some expression) = (Reckoner.evaluate expression).mapError .evaluation := by
  have hshort : ¬service.limit.isBelow expression.length = true := by simp [h]
  rw [evaluate, Option.getD_some, if_neg hshort]
  cases Reckoner.evaluate expression <;> rfl

/-! ## What a message says -/

theorem EvalError.kind_ne_tooLong (e : EvalError) : e.kind ≠ "expression_too_long" := by
  cases e <;> rw [EvalError.kind] <;> decide

namespace Verdict

/-- What a refusal says of a record of failure: the reason of a malformed expression, and else the
message. -/
def explanationOf? (record : Json) : Option String :=
  match record.field? "error" with
  | some (.str "malformed_expression") =>
    (record.field? "detail").bind fun detail => (detail.field? "reason").bind Json.str?
  | _ => messageOf? record

theorem recordOf_of_ok {x r : String} (h : evaluate x = .ok r) :
    recordOf x = (succeeded x r).toJson := by
  rw [recordOf_eq, ofExpression, h]

theorem recordOf_of_error {x : String} {e : EvalError} (h : evaluate x = .error e) :
    recordOf x = (failed x e).toJson := by
  rw [recordOf_eq, ofExpression, h]

theorem field?_recordOf_of_error {x : String} {e : EvalError} (h : evaluate x = .error e) :
    (recordOf x).field? "error" = some (.str e.kind) := by
  rw [recordOf_of_error h]
  rfl

theorem explanationOf?_recordOf {x : String} {e : EvalError} (h : evaluate x = .error e) :
    explanationOf? (recordOf x) = some e.explanation := by
  have hmessage := messageOf?_recordOf x
  have hkind := field?_recordOf_of_error h
  rw [h] at hmessage
  cases e with
  | malformed reason =>
    rw [recordOf_of_error h]
    rfl
  | emptyExpression => rw [explanationOf?, hkind]; exact hmessage
  | invalidCharacter c position => rw [explanationOf?, hkind]; exact hmessage
  | numberFormat literal => rw [explanationOf?, hkind]; exact hmessage
  | divisionByZero => rw [explanationOf?, hkind]; exact hmessage
  | unknownOperator symbol => rw [explanationOf?, hkind]; exact hmessage

end Verdict

namespace Http

/-! ## Requests that submit an expression -/

/-- A request submits an expression to be calculated, for a user. -/
structure Submits (web : Request) (user : Int) (expression : String) : Prop where
  place : Place.ofPath? web.path = some .evaluate
  action : Action.of? .evaluate web.method = some .evaluate
  user : userOf web.user = .ok user
  body : ∃ value result, readBody web.body = .ok (some value) ∧
    submission (some value) = .ok ⟨expression, result⟩

/-- The request as it is usually made. -/
def post (user : Int) (expression : String) : Request :=
  ⟨"POST", "/api/calculator/evaluate", some (Text.integerText user),
    some (Json.render .compact (.obj [("expression", .str expression)]))⟩

theorem readBody_render {style : Json.Style} (hstyle : style.Legible) {v : Json} (hv : v.Plain) :
    readBody (some (Json.render style v)) = .ok (some v) := by
  have hread := Json.parseMarked_render hstyle hv
  have hne : Json.render style v ≠ "" := by
    intro hempty
    rw [hempty] at hread
    cases hread
  rw [readBody, if_neg hne, hread]

theorem userOf_integerText {user : Int} (hfits : fitsColumn user = true) :
    userOf (some (Text.integerText user)) = .ok user := by
  have hdigits : (Text.decimalDigits user.natAbs).length ≤ Text.digitLimit := by
    have hrange := of_decide_eq_true hfits
    have hbound : user.natAbs < 10 ^ 19 := by omega
    exact Nat.le_trans ((Nat.length_toDigits_le_iff (by decide) (by decide)).2 hbound) (by decide)
  have hread := Text.wholeNumber?_integerText hdigits
  have hblank : Text.isBlankText (Text.integerText user) = false := by
    refine Bool.eq_false_iff.2 fun hall => ?_
    obtain ⟨c, cs, hcons⟩ := List.exists_cons_of_ne_nil (Text.decimalDigits_ne_nil user.natAbs)
    have hmem : c ∈ (Text.integerText user).toList := by
      rw [Text.integerText, String.toList_ofList, hcons]
      simp
    have hc := List.all_eq_true.1 hall c hmem
    rw [Text.isBlank_of_mem_integerText hmem] at hc
    cases hc
  rw [userOf, hblank, Text.trim_integerText, hread]
  rfl

theorem submits_post {user : Int} (hfits : fitsColumn user = true) (expression : String) :
    Submits (post user expression) user expression := by
  have hplain : (Json.obj [("expression", .str expression)]).Plain := by
    simp [Json.Plain, Json.PlainFields]
  have hplace : Place.ofPath? "/api/calculator/evaluate" = some .evaluate := by decide +kernel
  have haction : Action.of? .evaluate "POST" = some .evaluate := by decide +kernel
  exact ⟨hplace, haction, userOf_integerText hfits, _, none,
    readBody_render Json.Style.legible_compact hplain, rfl⟩

theorem requestOf_of_submits {web : Request} {user : Int} {expression : String}
    (h : Submits web user expression) (service : Service) :
    requestOf (.ok service) web = .ok (service, .calculate user expression) := by
  obtain ⟨value, result, hbody, hsubmitted⟩ := h.body
  have hrequest : Action.evaluate.request user (some value) = .ok (.calculate user expression) := by
    rw [Action.request, hsubmitted]
    rfl
  rw [requestOf_of_action h.place h.action]
  simp only [Action.readsBody, if_true, hbody, h.user, reduceCtorEq, if_false]
  show (Action.evaluate.request user (some value) >>= fun r => _) = _
  rw [hrequest]
  rfl

/-! ## The response -/

/-- A field of what a response says. -/
def Response.field? (r : Response) (name : String) : Option Json :=
  match r.body with
  | .json v => v.field? name
  | .text _ => none

/-- A response that an expression is too long. -/
def Response.SaysTooLong (r : Response) : Prop :=
  r.status = 400 ∧ r.field? "error" = some (.str "expression_too_long")

section Open
variable {s : Session} (hopen : s.store.isOpen = true) {stamp : Timestamp}
  (hclock : s.clock.reading? = some stamp) {user : Int} (hfits : fitsColumn user = true)
include hopen hclock hfits

/-- What is submitted is refused, or it is calculated, saved and sent back. -/
theorem respond_of_submits {web : Request} {expression : String} (h : Submits web user expression)
    (service : Service) :
    respond (.ok service) s web =
      match service.evaluate (some expression) with
      | .error e => (responseTo e, s)
      | .ok result =>
        (.ofAnswer (.calculated (s.store.calculated user expression result stamp).record),
          ⟨s.store.add (s.store.calculated user expression result stamp), s.clock.tick⟩) := by
  rw [respond_of_ok (requestOf_of_submits h service)]
  cases hvalue : service.evaluate (some expression) with
  | error e => rw [service.handle_calculate, hvalue]
  | ok result => rw [Service.handle_calculate_of_ok hopen hclock hfits hvalue]

end Open

/-! ## Responses and records -/

/-- What the response to a calculation, and the session after it, have to do with the record of the
expression. -/
structure Agrees (service : Service) (s : Session) (user : Int) (expression : String)
    (stamp : Timestamp) (response : Response) (t : Session) : Prop where
  answered : response.status = 200 ∨ response.status = 400
  tooLong : response.SaysTooLong ↔ service.limit.isBelow expression.length = true
  granted : ¬response.SaysTooLong → ∀ result : String,
    (response.status = 200 ∧ response.field? "result" = some (.str result)) ↔
      ((Verdict.recordOf expression).field? "success" = some (.bool true) ∧
        (Verdict.recordOf expression).field? "result" = some (.str result))
  refused : ¬response.SaysTooLong → ∀ (kind : String) (detail : Json),
    (response.status = 400 ∧ response.field? "error" = some (.str kind) ∧
        response.field? "detail" = some detail) ↔
      ((Verdict.recordOf expression).field? "success" = some (.bool false) ∧
        (Verdict.recordOf expression).field? "error" = some (.str kind) ∧
        (Verdict.recordOf expression).field? "detail" = some detail)
  explained : ¬response.SaysTooLong → response.status = 400 →
    ∃ text, Verdict.explanationOf? (Verdict.recordOf expression) = some text ∧
      response.field? "message" = some (.str ("Invalid expression: " ++ text))
  /-- One row is new, and it is the one that is sent back. -/
  saved : response.status = 200 →
    ∃ row : Row, row.user = user ∧ row.expression = expression ∧ row.shelf = .history ∧
      row.id = s.store.lastId + 1 ∧ (∀ q ∈ s.store.rows, q.id < row.id) ∧
      t.store = s.store.add row ∧ row.record.timestamp = some stamp ∧
      response.field? "id" = some (.int row.id) ∧
      response.field? "expression" = some (.str row.expression) ∧
      response.field? "result" = some (.str row.result) ∧
      response.field? "timestamp" = some row.record.stampJson
  kept : response.status = 400 → t.store = s.store

section Agreement
variable {service : Service} {s : Session} {user : Int} {expression : String} {stamp : Timestamp}

theorem agrees_of_tooLong (hlong : service.limit.isBelow expression.length = true) :
    Agrees service s user expression stamp
      (responseTo (.tooLong expression.length service.limit)) s := by
  have htells : (responseTo (.tooLong expression.length service.limit)).SaysTooLong := ⟨rfl, rfl⟩
  exact ⟨.inr rfl, iff_of_true htells hlong, fun hnot => absurd htells hnot,
    fun hnot => absurd htells hnot, fun hnot => absurd htells hnot, nofun, fun _ => rfl⟩

theorem agrees_of_error (hshort : service.limit.isBelow expression.length = false) {e : EvalError}
    (h : evaluate expression = .error e) :
    Agrees service s user expression stamp (responseTo (.evaluation e)) s := by
  have hrecord := Verdict.recordOf_of_error h
  have htells : ¬(responseTo (.evaluation e)).SaysTooLong := by
    rintro ⟨-, herror⟩
    have hkind : some (Json.str e.kind) = some (.str "expression_too_long") := herror
    exact e.kind_ne_tooLong (Json.str.inj (Option.some.inj hkind))
  refine ⟨.inr rfl, iff_of_false htells (by simp [hshort]), fun _ result => ?_, fun _ kind detail => ?_,
    fun _ _ => ?_, nofun, fun _ => rfl⟩
  · refine iff_of_false (fun hgranted => absurd hgranted.1 (show (400 : Nat) ≠ 200 by decide)) ?_
    rintro ⟨hsuccess, -⟩
    rw [hrecord] at hsuccess
    cases hsuccess
  · rw [hrecord]
    constructor
    · rintro ⟨-, herror, hdetail⟩
      exact ⟨rfl, herror, hdetail⟩
    · rintro ⟨-, herror, hdetail⟩
      exact ⟨rfl, herror, hdetail⟩
  · exact ⟨e.explanation, Verdict.explanationOf?_recordOf h, rfl⟩

theorem agrees_of_ok (hs : s.Reachable) (hshort : service.limit.isBelow expression.length = false)
    {result : String} (h : evaluate expression = .ok result) :
    Agrees service s user expression stamp
      (.ofAnswer (.calculated (s.store.calculated user expression result stamp).record))
      ⟨s.store.add (s.store.calculated user expression result stamp), s.clock.tick⟩ := by
  have hrecord := Verdict.recordOf_of_ok h
  have htells : ¬(Response.ofAnswer
      (.calculated (s.store.calculated user expression result stamp).record)).SaysTooLong := by
    rintro ⟨hstatus, -⟩
    cases hstatus
  have hfresh : ∀ q ∈ s.store.rows, q.id < s.store.lastId + 1 :=
    fun q hq => Nat.lt_succ_of_le (hs.numbered.fresh q hq)
  refine ⟨.inl rfl, iff_of_false htells (by simp [hshort]), fun _ r => ?_, fun _ kind detail => ?_,
    fun _ hstatus => ?_, fun _ => ?_, nofun⟩
  · rw [hrecord]
    constructor
    · rintro ⟨-, hresult⟩
      exact ⟨rfl, hresult⟩
    · rintro ⟨-, hresult⟩
      exact ⟨rfl, hresult⟩
  · refine iff_of_false (fun hrefused => absurd hrefused.1 (show (200 : Nat) ≠ 400 by decide)) ?_
    rintro ⟨hsuccess, -⟩
    rw [hrecord] at hsuccess
    cases hsuccess
  · cases hstatus
  · exact ⟨_, rfl, rfl, rfl, rfl, hfresh, rfl, Row.timestamp_calculated s.store user expression result stamp,
      rfl, rfl, rfl, rfl⟩

end Agreement

/-- Whatever is submitted, the response agrees with the record of the expression: in the result, in the
kind and the details of a failure, and in what its message says. Only an expression that is longer than
the limit is refused on that account, and only what is granted is saved. -/
theorem calculation_agrees (service : Service) {s : Session} (hs : s.Reachable)
    (hopen : s.store.isOpen = true) {stamp : Timestamp} (hclock : s.clock.reading? = some stamp)
    {user : Int} (hfits : fitsColumn user = true) (expression : String) :
    Submits (post user expression) user expression ∧
      ∀ web, Submits web user expression →
        Agrees service s user expression stamp (respond (.ok service) s web).1
            (respond (.ok service) s web).2 ∧
          ∀ limit, service.limit.IsInteger limit →
            ((respond (.ok service) s web).1.SaysTooLong ↔ limit < expression.length) := by
  refine ⟨submits_post hfits expression, fun web hweb => ?_⟩
  have hagrees : Agrees service s user expression stamp (respond (.ok service) s web).1
      (respond (.ok service) s web).2 := by
    rw [respond_of_submits hopen hclock hfits hweb]
    cases hlength : service.limit.isBelow expression.length with
    | true =>
      have hvalue : service.evaluate (some expression) =
          .error (.tooLong expression.length service.limit) := if_pos hlength
      rw [hvalue]
      exact agrees_of_tooLong hlength
    | false =>
      have hvalue := Service.evaluate_of_short hlength
      cases h : evaluate expression with
      | ok result =>
        rw [hvalue, h]
        exact agrees_of_ok hs hlength h
      | error e =>
        rw [hvalue, h]
        exact agrees_of_error hlength h
  refine ⟨hagrees, fun limit hlimit => ?_⟩
  rw [hagrees.tooLong]
  exact Quantity.isBelow_iff hlimit expression.length

/-- An expression that ends too early, submitted by the greatest user that a column holds. -/
theorem calculation_agrees_of_unfinished :
    let s : Session := ⟨.new false, ⟨0, 1⟩⟩
    let web := post 9223372036854775807 "1+"
    let response := (respond (.ok ⟨.whole 500, ":memory:"⟩) s web).1
    s.Reachable ∧ s.store.isOpen = true ∧ (∃ stamp, s.clock.reading? = some stamp) ∧
      fitsColumn 9223372036854775807 = true ∧ Submits web 9223372036854775807 "1+" ∧
      ¬response.SaysTooLong ∧ response.status = 400 ∧
      response.field? "error" = some (.str "malformed_expression") := by
  intro s web response
  have hreachable : s.Reachable := .made false ⟨0, 1⟩
  have hfits : fitsColumn 9223372036854775807 = true := by decide
  have hreading : (s.clock.reading?).isSome = true := by decide +kernel
  obtain ⟨stamp, hclock⟩ := Option.isSome_iff_exists.1 hreading
  obtain ⟨hsubmits, hall⟩ :=
    calculation_agrees ⟨.whole 500, ":memory:"⟩ hreachable rfl hclock hfits "1+"
  obtain ⟨hagrees, hlimit⟩ := hall web hsubmits
  have hshort : ¬response.SaysTooLong := by
    rw [hlimit 500 rfl]
    decide
  have hvalue : evaluate "1+" = .error (.malformed (.missingOperand .add)) := by decide +kernel
  have hrecord := Verdict.recordOf_of_error hvalue
  obtain ⟨hstatus, herror, -⟩ := (hagrees.refused hshort "malformed_expression" _).2
    (by rw [hrecord]; exact ⟨rfl, rfl, rfl⟩)
  exact ⟨hreachable, rfl, ⟨stamp, hclock⟩, hfits, hsubmits, hshort, hstatus, herror⟩

end Http

end Reckoner
