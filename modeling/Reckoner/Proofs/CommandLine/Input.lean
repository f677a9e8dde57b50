import Reckoner.Proofs.Batch.Modes
import Reckoner.Proofs.CommandLine.Expressions
import Reckoner.Proofs.Expression.Substitution
/-!
Expressions in lines of the input.

Expressions may be given as arguments behind a double dash, or as lines of the input. A line ends at a line
feed and nowhere else: a separator of lines or of paragraphs, a form feed, or blanks at its ends are part of
it, and a line that looks like a flag is none. Blank lines do not count, and the last line needs no end.

A carriage return before the line feed is part of the line as well. It is a blank, so it does not change what
an expression comes to, and in the plain form the outcome is that of the same expressions as arguments. In the
JSON form each expression is told back as it was read, and there the carriage return shows.

What is shown here:
1. `Text.filledLines_of_setOut`: the lines that are read are those that are set out in a text;
2. `Batch.run_plain_text`: carriage returns behind the expressions do not change the plain form;
3. `Batch.lines_verdicts_eq_iff`: they change the output of the JSON form;
4. `CommandLine.lines_agree`: what is run on lines is what is run on the same expressions as arguments, but
   for the carriage returns in the JSON form, and `CommandLine.not_lines_agree`, that these do count.
-/

namespace Reckoner

namespace Text

/-! ## Lines of a text -/

/-- Lines are set out in a text one after the other, each with a line feed behind it, and there may be blank
lines anywhere, which may hold carriage returns like other blanks. The last line of all may have no line
feed. -/
inductive SetOut : List String → List Char → Prop
  | nothing {cs : List Char} (hline : '\n' ∉ cs) (hblank : cs.all isBlank = true) : SetOut [] cs
  | unended (x : String) : SetOut [x] x.toList
  | blank {cs rest : List Char} {xs : List String} (hline : '\n' ∉ cs) (hblank : cs.all isBlank = true)
    (h : SetOut xs rest) : SetOut xs (cs ++ '\n' :: rest)
  | line (x : String) {rest : List Char} {xs : List String} (h : SetOut xs rest) :
    SetOut (x :: xs) (x.toList ++ '\n' :: rest)

theorem split_line {cs : List Char} (hline : '\n' ∉ cs) (rest : List Char) :
    split (· == '\n') (cs ++ '\n' :: rest) = cs :: split (· == '\n') rest := by
  rw [split_append_singleton (· == '\n') cs rest '\n' (beq_self_eq_true _), split_of_not_mem hline]
  rfl

/-- The lines that are read are those that are set out, if each has something in it. -/
theorem filledLines_of_setOut {xs : List String} {text : String} (h : SetOut xs text.toList)
    (hline : ∀ x ∈ xs, '\n' ∉ x.toList) (hfilled : ∀ x ∈ xs, isBlankText x = false) :
    filledLines text = xs := by
  rw [filledLines]
  generalize text.toList = cs at h
  induction h with
  | nothing hcs hblank =>
    rw [split_of_not_mem hcs, List.filter_singleton, hblank]
    rfl
  | unended x =>
    have hx : x.toList.all isBlank = false := hfilled x List.mem_cons_self
    rw [split_of_not_mem (hline x List.mem_cons_self), List.filter_singleton, hx]
    exact congrArg (fun y => [y]) String.ofList_toList
  | blank hcs hblank _ ih =>
    rw [split_line hcs, List.filter_cons, hblank]
    exact ih hline hfilled
  | line x _ ih =>
    obtain ⟨hx, hxs⟩ := List.forall_mem_cons.1 hline
    obtain ⟨hxfilled, hxsfilled⟩ := List.forall_mem_cons.1 hfilled
    have hnot : x.toList.all isBlank = false := hxfilled
    rw [split_line hx, List.filter_cons, hnot]
    exact congrArg₂ List.cons String.ofList_toList (ih hxs hxsfilled)

/-! ## Carriage returns -/

/-- A line with an expression on it. -/
structure Line where
  expression : String
  /-- Whether a carriage return stands behind the expression. -/
  returned : Bool
  deriving DecidableEq

/-- What is read as the line. -/
def Line.text (l : Line) : String := if l.returned then l.expression ++ "\r" else l.expression

theorem Line.toList_text (l : Line) :
    l.text.toList = l.expression.toList ++ if l.returned then ['\r'] else [] := by
  cases h : l.returned with
  | false => simp [text, h]
  | true =>
    have hreturn : "\r".toList = ['\r'] := by decide
    simp [text, h, String.toList_append, hreturn]

theorem Line.newline_not_mem_text {l : Line} (h : '\n' ∉ l.expression.toList) : '\n' ∉ l.text.toList := by
  rw [toList_text, List.mem_append, not_or]
  refine ⟨h, ?_⟩
  cases l.returned <;> decide

theorem Line.isBlankText_text {l : Line} (h : ∃ c ∈ l.expression.toList, isBlank c = false) :
    isBlankText l.text = false := by
  obtain ⟨c, hc, hblank⟩ := h
  refine List.all_eq_false.2 ⟨c, ?_, by simp [hblank]⟩
  rw [toList_text]
  exact List.mem_append_left _ hc

end Text

/-- A carriage return behind an expression is left out with the other blanks. -/
theorem evaluate_text (l : Text.Line) : evaluate l.text = evaluate l.expression := by
  have hreturn : Normal.form (if l.returned then ['\r'] else []) = [] := by
    apply Normal.form_eq_nil_iff.2
    cases l.returned <;> decide
  simp only [evaluate, Normal.form?, Text.Line.toList_text, Normal.form_append, hreturn, List.append_nil]

namespace Batch

/-! ## Carriage returns in a batch -/

theorem run_plain_text (ls : List Text.Line) :
    run false (ls.map (·.text)) = run false (ls.map (·.expression)) := by
  have hresults : (ls.map (·.text)).filterMap resultLine? =
      (ls.map (·.expression)).filterMap resultLine? := by
    simp only [List.filterMap_map, Function.comp_def, resultLine?, evaluate_text]
  have hfailures : (ls.map (·.text)).filterMap failureLine? =
      (ls.map (·.expression)).filterMap failureLine? := by
    simp only [List.filterMap_map, Function.comp_def, failureLine?, evaluate_text]
  simp only [run, Bool.false_eq_true, if_false, hresults, hfailures]

theorem code_json_text (ls : List Text.Line) :
    (run true (ls.map (·.text))).code = (run true (ls.map (·.expression))).code := by
  rw [code_json_eq_plain, code_json_eq_plain, run_plain_text]

/-- What a verdict begins with: the name of its first field, and the expression without the quote behind
it. -/
def opening (x : String) : List Char :=
  '{' :: (Json.stringText false "expr" ++ [':', ' '] ++
    '"' :: x.toList.flatMap (Json.escapeChar false))

theorem exists_verdictLine_eq (x : String) :
    ∃ rest, (verdictLine x).toList = opening x ++ '"' :: rest := by
  have hfields : ∃ fields, (Verdict.ofExpression x).toJson = .obj (("expr", .str x) :: fields) := by
    rw [Verdict.ofExpression]
    cases evaluate x with
    | ok r => exact ⟨_, rfl⟩
    | error e => exact ⟨_, rfl⟩
  obtain ⟨fields, hfields⟩ := hfields
  rw [verdictLine, hfields, Json.render, String.toList_ofList, Json.write, Json.write]
  simp [opening, Json.lineBreak, Json.Style.line, Json.stringText]

/-- A line with a carriage return and the line without it differ behind the expression. -/
theorem verdictLine_ne {l : Text.Line} (h : l.returned = true) (xs ys : List Char) :
    (verdictLine l.text).toList ++ xs ≠ (verdictLine l.expression).toList ++ ys := by
  obtain ⟨r, hr⟩ := exists_verdictLine_eq l.text
  obtain ⟨r', hr'⟩ := exists_verdictLine_eq l.expression
  have hescape : Json.escapeChar false '\r' = ['\\', 'r'] := by decide
  have hopening : opening l.text = opening l.expression ++ ['\\', 'r'] := by
    simp [opening, Text.Line.toList_text, h, hescape]
  rw [hr, hr', hopening]
  intro heq
  simp at heq

/-- The lines of the JSON form tell the carriage returns of the lines that were read. -/
theorem lines_verdicts_eq_iff (ls : List Text.Line) :
    lines ((ls.map (·.text)).map verdictLine) = lines ((ls.map (·.expression)).map verdictLine) ↔
      ∀ l ∈ ls, l.returned = false := by
  refine ⟨fun h => ?_, fun h => ?_⟩
  · -- the first line with a carriage return is the first place where the outputs differ
    induction ls with
    | nil => exact fun _ hl => absurd hl List.not_mem_nil
    | cons l ls ih =>
      simp only [List.map_cons, lines_cons] at h
      cases hl : l.returned with
      | true =>
        have hchars := congrArg String.toList h
        simp only [String.toList_append, List.append_assoc] at hchars
        exact absurd hchars (verdictLine_ne hl _ _)
      | false =>
        have htext : l.text = l.expression := by simp [Text.Line.text, hl]
        rw [htext] at h
        exact List.forall_mem_cons.2 ⟨hl, ih (String.append_right_inj _ |>.1 h)⟩
  · have htext : ls.map (·.text) = ls.map (·.expression) :=
      List.map_congr_left fun l hl => by simp [Text.Line.text, h l hl]
    rw [htext]

end Batch

namespace CommandLine

/-! ## What the command lines ask for -/

/-- The mark for the JSON form, if it is asked for. -/
def mark (asJson : Bool) : List String := if asJson then ["--json"] else []

theorem commandOf_nothing (asJson : Bool) :
    commandOf (evalCommand :: mark asJson) = .ok (.evaluate asJson []) := by
  cases asJson <;> rfl

theorem commandOf_dash (asJson : Bool) :
    commandOf (evalCommand :: (mark asJson ++ ["-"])) = .ok (.evaluate asJson ["-"]) := by
  cases asJson <;> rfl

theorem commandOf_jsonSeparator (xs : List String) :
    commandOf (evalCommand :: "--json" :: "--" :: xs) = .ok (.evaluate true xs) := by
  have hcalculator : Grammar.calculator.parse (evalCommand :: "--json" :: "--" :: xs) =
      .ok ⟨[], [], some (evalCommand, "--json" :: "--" :: xs)⟩ := by
    have hmark : Grammar.calculator.readWord "--json" = .ok .unknown := by rfl
    have hread : Grammar.calculator.readWords ("--json" :: "--" :: xs) =
        .ok (⟨"--json", .unknown⟩ :: ⟨"--", .separator⟩ :: xs.map fun t => ⟨t, .ordinary⟩) := by
      rw [Grammar.readWords, if_neg (by decide), hmark, Grammar.readWords_separator]
    refine calculator_parse ?_ hread
    rw [List.map_cons, List.map_cons, List.map_map]
    exact congrArg (fun ys => "--json" :: "--" :: ys) (List.map_id xs)
  have hevaluation : Grammar.evaluation.parse ("--json" :: "--" :: xs) =
      .ok ⟨[(jsonFlag, none)], "--" :: xs, none⟩ := by
    have hmark : Grammar.evaluation.readWord "--json" = .ok (.flag jsonFlag none) := by rfl
    have hread : Grammar.evaluation.readWords ("--json" :: "--" :: xs) =
        .ok (⟨"--json", .flag jsonFlag none⟩ :: ⟨"--", .separator⟩ ::
          xs.map fun t => ⟨t, .ordinary⟩) := by
      rw [Grammar.readWords, if_neg (by decide), hmark, Grammar.readWords_separator]
    have hmarked : ∀ ws, Grammar.evaluation.consume .empty
        (⟨"--json", .flag jsonFlag none⟩ :: ⟨"--", .separator⟩ :: ws) =
          Grammar.evaluation.consume ⟨[(jsonFlag, none)], ["--"], none⟩ ws := fun ws => rfl
    rw [Grammar.parse, hread]
    simp only [hmarked, Grammar.consume_ordinary (g := .evaluation) rfl]
    rfl
  rw [commandOf_of_parse hcalculator hevaluation, dropSeparator, List.erase_cons_head]
  rfl

theorem commandOf_separator (asJson : Bool) (xs : List String) :
    commandOf (evalCommand :: (mark asJson ++ "--" :: xs)) = .ok (.evaluate asJson xs) := by
  cases asJson with
  | false => exact commandOf_evalSeparator xs
  | true => exact commandOf_jsonSeparator xs

/-! ## The program -/

/-- Where no expression is given, or only a dash, the lines of the input are evaluated. -/
theorem run_of_lines {around : Surroundings} {settings : Settings}
    (hsettings : around.settings = .ok settings) {arguments given : List String} {asJson : Bool}
    (hcommand : commandOf arguments = .ok (.evaluate asJson given)) (hgiven : given = [] ∨ given = ["-"]) :
    run around arguments = handingBack (Batch.run asJson (Text.filledLines around.input)) := by
  have hlines : expressionsOf given around.input = Text.filledLines around.input := if_pos hgiven
  rw [run, hcommand]
  simp only [Command.run, hsettings, hlines]
  rfl

/-- The outcome of expressions that are given as arguments behind a double dash. -/
def outcomeOfGiven (settings : Settings) (input : String) (asJson : Bool) (xs : List String) : Outcome :=
  run ⟨.ok settings, input⟩ (evalCommand :: (mark asJson ++ "--" :: xs))

/-- How the outcomes of lines, in the plain form and in the JSON form, stand to those of their expressions as
arguments. -/
structure AgreesWithGiven (settings : Settings) (input : String) (ls : List Text.Line)
    (outcome : Bool → Outcome) : Prop where
  /-- Either way it is the outcome of a batch. -/
  batch : ∀ asJson, outcomeOfGiven settings input asJson (ls.map (·.expression)) =
    handingBack (Batch.run asJson (ls.map (·.expression)))
  plain : outcome false = outcomeOfGiven settings input false (ls.map (·.expression))
  /-- In the JSON form a carriage return before a line feed counts as part of the expression, -/
  json : outcome true = outcomeOfGiven settings input true (ls.map (·.text))
  /-- so the outcome is the same exactly if there is none, -/
  json_iff : outcome true = outcomeOfGiven settings input true (ls.map (·.expression)) ↔
    ∀ l ∈ ls, l.returned = false
  /-- and all but the output is the same anyhow. -/
  json_err : (outcome true).err = (outcomeOfGiven settings input true (ls.map (·.expression))).err
  json_ending :
    (outcome true).ending = (outcomeOfGiven settings input true (ls.map (·.expression))).ending

theorem map_text_ne_dash {ls : List Text.Line} (hdash : ls.map (·.expression) ≠ ["-"]) :
    ls.map (·.text) ≠ ["-"] := by
  intro h
  match ls with
  | [⟨x, false⟩] => exact hdash h
  | [⟨x, true⟩] =>
    have hlast := congrArg (fun x => x.toList.getLast?) (List.cons.inj h).1
    rw [Text.Line.toList_text, if_pos rfl, List.getLast?_concat] at hlast
    exact absurd hlast (by decide)
  | [] | _ :: _ :: _ => simp at h

theorem agreesWithGiven (settings : Settings) (input : String) {ls : List Text.Line} (hempty : ls ≠ [])
    (hdash : ls.map (·.expression) ≠ ["-"]) {outcome : Bool → Outcome}
    (houtcome : ∀ asJson, outcome asJson = handingBack (Batch.run asJson (ls.map (·.text)))) :
    AgreesWithGiven settings input ls outcome := by
  have hgiven : ∀ asJson xs, xs ≠ [] → xs ≠ ["-"] →
      outcomeOfGiven settings input asJson xs = handingBack (Batch.run asJson xs) :=
    fun asJson xs => run_of_evaluate rfl (commandOf_separator asJson xs)
  have hbatch := fun asJson => hgiven asJson (ls.map (·.expression)) (by simpa using hempty) hdash
  have hcode := Batch.code_json_text ls
  refine ⟨hbatch, ?_, ?_, ?_, ?_, ?_⟩
  · rw [houtcome, hbatch, Batch.run_plain_text]
  · rw [houtcome, hgiven true _ (by simpa using hempty) (map_text_ne_dash hdash)]
  · rw [houtcome, hbatch, ← Batch.lines_verdicts_eq_iff]
    refine ⟨fun h => congrArg Outcome.out h, fun h => ?_⟩
    show (⟨_, _, .returned _, _⟩ : Outcome) = ⟨_, _, .returned _, _⟩
    rw [hcode]
    exact congrArg (fun out => (⟨out, "", .returned _, []⟩ : Outcome)) h
  · rw [houtcome, hbatch]
    rfl
  · rw [houtcome, hbatch]
    exact congrArg Ending.returned hcode

/-- Expressions that are given as lines of the input, with no arguments but the command or with only a dash,
come to what they come to as arguments behind a double dash, but for carriage returns in the JSON form. -/
theorem lines_agree (settings : Settings) {ls : List Text.Line} (hempty : ls ≠ [])
    (hdash : ls.map (·.expression) ≠ ["-"]) (hline : ∀ l ∈ ls, '\n' ∉ l.expression.toList)
    (hfilled : ∀ l ∈ ls, ∃ c ∈ l.expression.toList, Text.isBlank c = false) {text : String}
    (htext : Text.SetOut (ls.map (·.text)) text.toList) (input : String) :
    AgreesWithGiven settings input ls
        (fun asJson => run ⟨.ok settings, text⟩ (evalCommand :: mark asJson)) ∧
      AgreesWithGiven settings input ls
        (fun asJson => run ⟨.ok settings, text⟩ (evalCommand :: (mark asJson ++ ["-"]))) := by
  have hread : Text.filledLines text = ls.map (·.text) := by
    refine Text.filledLines_of_setOut htext ?_ ?_
    · simp only [List.forall_mem_map]
      exact fun l hl => Text.Line.newline_not_mem_text (hline l hl)
    · simp only [List.forall_mem_map]
      exact fun l hl => Text.Line.isBlankText_text (hfilled l hl)
  have hlines : ∀ asJson arguments given, commandOf arguments = .ok (.evaluate asJson given) →
      given = [] ∨ given = ["-"] →
      run ⟨.ok settings, text⟩ arguments = handingBack (Batch.run asJson (ls.map (·.text))) := by
    intro asJson arguments given hcommand hgiven
    rw [← hread]
    exact run_of_lines rfl hcommand hgiven
  refine ⟨agreesWithGiven settings input hempty hdash fun asJson => ?_,
    agreesWithGiven settings input hempty hdash fun asJson => ?_⟩
  · exact hlines asJson _ [] (commandOf_nothing asJson) (.inl rfl)
  · exact hlines asJson _ ["-"] (commandOf_dash asJson) (.inr rfl)

/-- A flag, a line separator within a sum, a carriage return between blanks at the end, a dash and a double
dash, with blank lines between them, of which one ends with a carriage return, and no line feed behind the
last. -/
theorem lines_agree_of_unusual :
    let settings : Settings := ⟨":memory:", .whole 500, "INFO", "127.0.0.1", .whole 8000⟩
    let ls : List Text.Line := [⟨"--json", true⟩, ⟨" 1+\u20282\t", false⟩, ⟨"-", false⟩, ⟨"--", false⟩]
    let text : String := "\n--json\r\n 1+\u20282\t\n \u2028\r\n-\n--"
    (∀ l ∈ ls, '\n' ∉ l.expression.toList) ∧
      (∀ l ∈ ls, ∃ c ∈ l.expression.toList, Text.isBlank c = false) ∧
      Text.SetOut (ls.map (·.text)) text.toList ∧
      run ⟨.ok settings, text⟩ ["eval"] =
        run ⟨.ok settings, ""⟩ ["eval", "--", "--json", " 1+\u20282\t", "-", "--"] ∧
      run ⟨.ok settings, text⟩ ["eval", "--json", "-"] ≠
        run ⟨.ok settings, ""⟩ ["eval", "--json", "--", "--json", " 1+\u20282\t", "-", "--"] := by
  intro settings ls text
  have hline : ∀ l ∈ ls, '\n' ∉ l.expression.toList := by decide
  have hfilled : ∀ l ∈ ls, ∃ c ∈ l.expression.toList, Text.isBlank c = false := by
    have hany : (ls.all fun l => l.expression.toList.any fun c => !Text.isBlank c) = true := by decide
    intro l hl
    obtain ⟨c, hc, hblank⟩ := List.any_eq_true.1 (List.all_eq_true.1 hany l hl)
    exact ⟨c, hc, by simpa using hblank⟩
  have htext : Text.SetOut (ls.map (·.text)) text.toList := by
    have hchars : text.toList = [] ++ '\n' :: ("--json\r".toList ++ '\n' :: (" 1+\u20282\t".toList ++ '\n' ::
        ([' ', '\u2028', '\r'] ++ '\n' :: ("-".toList ++ '\n' :: "--".toList)))) := by decide
    rw [hchars]
    refine .blank (by decide) rfl (.line "--json\r" (.line _ (.blank (by decide) (by decide) ?_)))
    exact .line _ (.unended _)
  obtain ⟨hbare, hdashed⟩ :=
    lines_agree settings (List.cons_ne_nil _ _) (by decide) hline hfilled htext ""
  refine ⟨hline, hfilled, htext, hbare.plain, fun hsame => ?_⟩
  exact absurd (hdashed.json_iff.1 hsame) (by decide)

/-- The lines of an input need not come to what their expressions come to: in the JSON form a carriage return
before a line feed is told as part of the expression. -/
theorem not_lines_agree :
    ¬∀ (settings : Settings) (ls : List Text.Line) (text input : String), ls ≠ [] →
      ls.map (·.expression) ≠ ["-"] →
      (∀ l ∈ ls, '\n' ∉ l.expression.toList ∧ '\r' ∉ l.expression.toList) →
      (∀ l ∈ ls, ∃ c ∈ l.expression.toList, Text.isBlank c = false) →
      Text.SetOut (ls.map (·.text)) text.toList →
      run ⟨.ok settings, text⟩ ["eval", "--json"] =
        run ⟨.ok settings, input⟩ ("eval" :: "--json" :: "--" :: ls.map (·.expression)) := by
  intro hall
  have hsame := hall ⟨":memory:", .whole 500, "INFO", "127.0.0.1", .whole 8000⟩ [⟨"1+1", true⟩] "1+1\r\n" ""
    (List.cons_ne_nil _ _) (by decide) (by decide) (fun l hl => ?_) ?_
  · revert hsame
    decide +kernel
  · obtain rfl := List.mem_singleton.1 hl
    exact ⟨'1', by decide, by decide⟩
  · have hchars : "1+1\r\n".toList = "1+1\r".toList ++ '\n' :: [] := by decide
    rw [hchars]
    exact .line "1+1\r" (.nothing (by decide) rfl)

end CommandLine

end Reckoner
