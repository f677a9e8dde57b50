import Reckoner.CommandLine.Program
import Reckoner.Proofs.Expression.Reentry
/-!
Expressions on a command line.

An expression may begin with a minus, and so does a flag. What has a value is never taken for a flag,
though: behind its minus there is a number or something in parentheses, while every flag has another dash
there or the letter that asks for help. It is left over as an ordinary word or as an unknown flag, in its
place, and what is left over are the expressions. Behind a double dash anything is an expression.

What is shown here:
1. `behind_minus_of_evaluate`: what stands behind the minus of an expression that has a value;
2. `Grammar.passes_of_evaluate`: such an expression is no flag;
3. `Grammar.readWords_append` and `Grammar.consume_append`: what is no flag is left over in order;
4. `commandOf_eval`, `commandOf_evalJson` and `commandOf_evalSeparator`: what the command lines ask for;
5. `expressions_kept`: the expressions that are evaluated are those that were given.
-/

namespace Reckoner

/-! ## Behind a minus -/

theorem Arithmetic.evaluateText_minus {α : Type} (A : Arithmetic α) {cs : List Char}
    (h : ∀ d ∈ cs.head?, isNumberChar d = false) :
    A.evaluateText ('-' :: cs) = .error (.numberFormat ['-']) := by
  have hnone : ∀ d ∈ ([] : List Char), isNumberChar d = true := by simp
  have hrun : cs.takeWhile isNumberChar = [] := (span_isNumberChar hnone h).1
  have hscan : scan none 0 '-' cs = .error (.numberFormat ['-']) := by
    rw [scan_of_beginsLiteral (.inr ⟨rfl, rfl⟩), hrun]
    rfl
  rw [evaluateText, A.feedText_error hscan]

/-- An expression that has a value is not a minus alone, and neither another minus nor the letter that
asks for help stands behind its minus. -/
theorem behind_minus_of_evaluate {x r : String} (h : evaluate x = .ok r) {cs : List Char}
    (hx : x.toList = '-' :: cs) : ∃ c rest, cs = c :: rest ∧ c ≠ '-' ∧ c ≠ 'h' := by
  have hfails : ∀ ds : List Char, Normal.form x.toList = '-' :: ds →
      ¬∀ d ∈ ds.head?, isNumberChar d = false := by
    intro ds hform hhead
    rw [evaluate_of_form hform (List.cons_ne_nil _ _), Binary64.arithmetic.evaluateText_minus hhead] at h
    cases h
  rw [hx] at hfails
  have hminus : Normal.form ['-'] = ['-'] := Normal.form_singleton (by decide)
  cases cs with
  | nil => exact absurd nofun (hfails [] hminus)
  | cons c rest =>
    have hform : ∀ d, Normal.form [d] = [d] → Normal.form ('-' :: d :: rest) = '-' :: d :: Normal.form rest := by
      intro d hd
      have hsplit : '-' :: d :: rest = ['-'] ++ ([d] ++ rest) := rfl
      rw [hsplit, Normal.form_append, Normal.form_append, hminus, hd]
      rfl
    refine ⟨c, rest, rfl, ?_, ?_⟩
    · rintro rfl
      refine hfails _ (hform '-' hminus) ?_
      rintro d ⟨⟩
      rfl
    · rintro rfl
      refine hfails _ (hform 'h' (Normal.form_singleton (by decide))) ?_
      rintro d ⟨⟩
      rfl

namespace CommandLine

namespace Grammar

/-! ## Words that are no flags -/

/-- Every name of a flag begins with two dashes, or is the short one that asks for help. -/
def Guarded (g : Grammar) : Prop :=
  ∀ n ∈ g.names, n.1.toList.take 2 = ['-', '-'] ∨ n.1.toList.take 2 = ['-', 'h']

theorem guarded_calculator : Grammar.calculator.Guarded := by
  unfold Guarded
  decide +kernel

theorem guarded_evaluation : Grammar.evaluation.Guarded := by
  unfold Guarded
  decide +kernel

/-- Whether an argument is no flag of a grammar, nor the double dash. -/
def Passes (g : Grammar) (s : String) : Prop :=
  s ≠ "--" ∧ (g.readWord s = .ok .ordinary ∨ g.readWord s = .ok .unknown)

theorem named?_eq_none {g : Grammar} {name : String} (h : ∀ n ∈ g.names, n.1 ≠ name) :
    g.named? name = none := by
  refine List.find?_eq_none.2 fun f hf hname => ?_
  have hmem : (name, f) ∈ g.names :=
    List.mem_flatMap.2 ⟨f, hf, List.mem_map.2 ⟨name, by simpa using hname, rfl⟩⟩
  exact h _ hmem rfl

theorem take_splitEquals (c : Char) (rest : List Char) :
    (splitEquals ('-' :: c :: rest)).1.take 2 = ['-', c] ∨
      (splitEquals ('-' :: c :: rest)).1 = ['-'] := by
  rw [splitEquals]
  split
  · exact .inl rfl
  · by_cases hc : c = '='
    · subst hc
      exact .inr (by simp)
    · exact .inl (by simp [hc])

section Dashed
variable {g : Grammar} (hg : g.Guarded) {c : Char} (hdash : c ≠ '-') (hhelp : c ≠ 'h')
include hg hdash hhelp

theorem Guarded.take_ne : ∀ n ∈ g.names, n.1.toList.take 2 ≠ ['-', c] := by
  intro n hn heq
  rcases hg n hn with htake | htake
  · rw [htake] at heq
    cases heq
    exact hdash rfl
  · rw [htake] at heq
    cases heq
    exact hhelp rfl

theorem Guarded.candidates_eq_nil (rest : List Char) : g.candidates ('-' :: c :: rest) = [] := by
  have hshort : (List.take 2 ('-' :: c :: rest) == ['-', '-']) = false := by simp [hdash]
  rw [candidates, hshort]
  refine List.filterMap_eq_nil_iff.2 fun n hn => ?_
  have hname := hg.take_ne hdash hhelp n hn
  have hletter : (n.1.toList == ['-', c]) = false := by
    rw [beq_eq_false_iff_ne]
    intro heq
    exact hname (by rw [heq]; rfl)
  have hbegins : List.isPrefixOf ('-' :: c :: rest) n.1.toList = false := by
    refine Bool.eq_false_iff.2 fun hbegins => hname ?_
    obtain ⟨behind, happend⟩ := List.isPrefixOf_iff_prefix.1 hbegins
    rw [← happend]
    rfl
  show (if (!false && n.1.toList == ['-', c]) = true then _ else
    if List.isPrefixOf ('-' :: c :: rest) n.1.toList = true then _ else none) = none
  rw [hletter, hbegins]
  rfl

theorem Guarded.readDashed {s : String} {rest : List Char} (hs : s.toList = '-' :: c :: rest) :
    g.readDashed s = .ok .ordinary ∨ g.readDashed s = .ok .unknown := by
  have hnames := hg.take_ne hdash hhelp
  have hself : g.named? s = none := by
    refine named?_eq_none fun n hn heq => hnames n hn ?_
    rw [heq, hs]
    rfl
  have hbeginning : g.named? (String.ofList (splitEquals ('-' :: c :: rest)).1) = none := by
    refine named?_eq_none fun n hn heq => ?_
    have hname := congrArg String.toList heq
    rw [String.toList_ofList] at hname
    rcases take_splitEquals c rest with htake | halone
    · rw [← hname] at htake
      exact hnames n hn htake
    · rcases hg n hn with htake | htake
      · rw [hname, halone] at htake
        cases htake
      · rw [hname, halone] at htake
        cases htake
  unfold Grammar.readDashed
  rw [hs, hself]
  simp only [hbeginning, hg.candidates_eq_nil hdash hhelp rest]
  cases (splitEquals ('-' :: c :: rest)).2 <;> simp only <;> split
  · exact .inl rfl
  · exact .inr rfl
  · exact .inl rfl
  · exact .inr rfl

end Dashed

theorem passes_of_evaluate {g : Grammar} (hg : g.Guarded) {x r : String} (h : evaluate x = .ok r) :
    g.Passes x := by
  cases hx : x.toList with
  | nil =>
    refine ⟨?_, .inl ?_⟩
    · rintro rfl
      cases hx
    · rw [readWord, hx]
  | cons c cs =>
    by_cases hc : c = '-'
    · subst hc
      obtain ⟨d, rest, rfl, hdash, hhelp⟩ := behind_minus_of_evaluate h hx
      refine ⟨?_, ?_⟩
      · rintro rfl
        cases hx
        exact hdash rfl
      · rw [readWord, hx]
        exact hg.readDashed hdash hhelp hx
    · refine ⟨?_, .inl ?_⟩
      · rintro rfl
        cases hx
        exact hc rfl
      · rw [readWord, hx]
        split
        · rename_i heq
          exact absurd (List.cons.inj heq).1 hc
        · rfl

/-! ## Words that are left over -/

/-- Arguments that are no flags are read one by one, whatever comes behind them. -/
theorem readWords_append {g : Grammar} {xs : List String} (h : ∀ s ∈ xs, g.Passes s) :
    ∃ words : List Word, words.map (·.text) = xs ∧
      (∀ w ∈ words, w.reading = .ordinary ∨ w.reading = .unknown) ∧
      ∀ ys, g.readWords (xs ++ ys) = (g.readWords ys).map (words ++ ·) := by
  induction xs with
  | nil =>
    refine ⟨[], rfl, nofun, fun ys => ?_⟩
    rw [List.nil_append]
    cases g.readWords ys <;> rfl
  | cons s xs ih =>
    obtain ⟨words, htexts, hleft, happend⟩ := ih fun t ht => h t (List.mem_cons_of_mem s ht)
    obtain ⟨hseparator, hreading⟩ := h s List.mem_cons_self
    obtain ⟨reading, hread, hone⟩ : ∃ reading, g.readWord s = .ok reading ∧
        (reading = .ordinary ∨ reading = .unknown) := by
      rcases hreading with hread | hread
      · exact ⟨.ordinary, hread, .inl rfl⟩
      · exact ⟨.unknown, hread, .inr rfl⟩
    refine ⟨⟨s, reading⟩ :: words, by rw [List.map_cons, htexts], ?_, fun ys => ?_⟩
    · intro w hw
      rcases List.mem_cons.1 hw with rfl | hw
      · exact hone
      · exact hleft w hw
    · rw [List.cons_append, readWords, if_neg hseparator, hread, happend]
      simp only
      cases g.readWords ys <;> rfl

theorem readWords_of_passes {g : Grammar} {xs : List String} (h : ∀ s ∈ xs, g.Passes s) :
    ∃ words : List Word, words.map (·.text) = xs ∧
      (∀ w ∈ words, w.reading = .ordinary ∨ w.reading = .unknown) ∧ g.readWords xs = .ok words := by
  obtain ⟨words, htexts, hleft, happend⟩ := readWords_append h
  have hread := happend []
  rw [List.append_nil, readWords, Except.map, List.append_nil] at hread
  exact ⟨words, htexts, hleft, hread⟩

/-- Without commands, words that are no flags are left over in order. -/
theorem consume_append {g : Grammar} (hg : g.commands = []) {words : List Word}
    (h : ∀ w ∈ words, w.reading = .ordinary ∨ w.reading = .unknown) (a : Arguments) (rest : List Word) :
    g.consume a (words ++ rest) =
      g.consume { a with extras := a.extras ++ words.map (·.text) } rest := by
  induction words generalizing a with
  | nil => simp
  | cons w words ih =>
    have hstep : g.consume a (w :: (words ++ rest)) = g.consume (a.leave w.text) (words ++ rest) := by
      rw [consume]
      rcases h w List.mem_cons_self with hw | hw
      · rw [hw]
        simp [hg]
      · rw [hw]
    rw [List.cons_append, hstep, ih fun v hv => h v (List.mem_cons_of_mem w hv)]
    simp [Arguments.leave]

theorem consume_of_left {g : Grammar} (hg : g.commands = []) {words : List Word}
    (h : ∀ w ∈ words, w.reading = .ordinary ∨ w.reading = .unknown) (a : Arguments) :
    g.consume a words = .ok { a with extras := a.extras ++ words.map (·.text) } := by
  have hall := consume_append hg h a []
  rw [List.append_nil] at hall
  exact hall

end Grammar

/-! ## What the command lines ask for -/

theorem calculator_parse {xs : List String} {words : List Word} (htexts : words.map (·.text) = xs)
    (h : Grammar.calculator.readWords xs = .ok words) :
    Grammar.calculator.parse (evalCommand :: xs) = .ok ⟨[], [], some (evalCommand, xs)⟩ := by
  have hname : Grammar.calculator.readWord evalCommand = .ok .ordinary := by rfl
  have hread : Grammar.calculator.readWords (evalCommand :: xs) =
      .ok (⟨evalCommand, .ordinary⟩ :: words) := by
    rw [Grammar.readWords, if_neg (by decide), hname, h]
  rw [Grammar.parse, hread, ← htexts]
  rfl

theorem commandOf_of_parse {xs : List String} {a : Arguments}
    (hcalculator : Grammar.calculator.parse (evalCommand :: xs) =
      .ok ⟨[], [], some (evalCommand, xs)⟩)
    (hevaluation : Grammar.evaluation.parse xs = .ok a) :
    commandOf (evalCommand :: xs) = .ok (.evaluate (a.has "--json") (dropSeparator a.extras)) := by
  have hcommand : Grammar.calculator.read (evalCommand :: xs) =
      .ok ⟨[], [], some (evalCommand, xs)⟩ := by
    rw [Grammar.read, hcalculator]
  have hrest : Grammar.evaluation.read xs = .ok a := by
    rw [Grammar.read, hevaluation]
  simp only [commandOf, hcommand, bind, Except.bind, if_true, hrest, List.nil_append]
  rfl

section Evaluated
variable {xs : List String} (h : ∀ x ∈ xs, ∃ r, evaluate x = .ok r)
include h

theorem passes_of_evaluated {g : Grammar} (hg : g.Guarded) : ∀ x ∈ xs, g.Passes x := by
  intro x hx
  obtain ⟨r, hr⟩ := h x hx
  exact Grammar.passes_of_evaluate hg hr

theorem separator_not_mem_of_evaluated : "--" ∉ xs := by
  intro hmem
  exact (passes_of_evaluated h Grammar.guarded_evaluation _ hmem).1 rfl

theorem commandOf_eval : commandOf (evalCommand :: xs) = .ok (.evaluate false xs) := by
  obtain ⟨words, htexts, -, hread⟩ :=
    Grammar.readWords_of_passes (passes_of_evaluated h Grammar.guarded_calculator)
  obtain ⟨left, hleft, hreadings, hreadLeft⟩ :=
    Grammar.readWords_of_passes (passes_of_evaluated h Grammar.guarded_evaluation)
  have hevaluation : Grammar.evaluation.parse xs = .ok ⟨[], xs, none⟩ := by
    rw [Grammar.parse, hreadLeft]
    simp only [Grammar.consume_of_left (g := .evaluation) rfl hreadings, hleft]
    rfl
  rw [commandOf_of_parse (calculator_parse htexts hread) hevaluation,
    dropSeparator_of_not_mem (separator_not_mem_of_evaluated h)]
  rfl

end Evaluated

theorem commandOf_evalJson {before after : List String}
    (h : ∀ x ∈ before ++ after, ∃ r, evaluate x = .ok r) :
    commandOf (evalCommand :: (before ++ "--json" :: after)) = .ok (.evaluate true (before ++ after)) := by
  have hbefore : ∀ x ∈ before, ∃ r, evaluate x = .ok r := fun x hx => h x (List.mem_append_left _ hx)
  have hafter : ∀ x ∈ after, ∃ r, evaluate x = .ok r := fun x hx => h x (List.mem_append_right _ hx)
  have hjson : Grammar.calculator.Passes "--json" := ⟨by decide, .inr rfl⟩
  have hcalculator : Grammar.calculator.parse (evalCommand :: (before ++ "--json" :: after)) =
      .ok ⟨[], [], some (evalCommand, before ++ "--json" :: after)⟩ := by
    have hall : ∀ s ∈ before ++ "--json" :: after, Grammar.calculator.Passes s := by
      intro s hs
      rcases List.mem_append.1 hs with hs | hs
      · exact passes_of_evaluated hbefore Grammar.guarded_calculator s hs
      rcases List.mem_cons.1 hs with rfl | hs
      · exact hjson
      · exact passes_of_evaluated hafter Grammar.guarded_calculator s hs
    obtain ⟨words, htexts, -, hread⟩ := Grammar.readWords_of_passes hall
    exact calculator_parse htexts hread
  have hevaluation : Grammar.evaluation.parse (before ++ "--json" :: after) =
      .ok ⟨[(jsonFlag, none)], before ++ after, none⟩ := by
    obtain ⟨ws, hws, hwsReadings, hreadBefore⟩ :=
      Grammar.readWords_append (passes_of_evaluated hbefore Grammar.guarded_evaluation)
    obtain ⟨vs, hvs, hvsReadings, hreadAfter⟩ :=
      Grammar.readWords_of_passes (passes_of_evaluated hafter Grammar.guarded_evaluation)
    have hmark : Grammar.evaluation.readWord "--json" = .ok (.flag jsonFlag none) := by rfl
    have hwords : Grammar.evaluation.readWords (before ++ "--json" :: after) =
        .ok (ws ++ ⟨"--json", .flag jsonFlag none⟩ :: vs) := by
      rw [hreadBefore, Grammar.readWords, if_neg (by decide), hmark, hreadAfter]
      rfl
    have hmarked : ∀ a ws, Grammar.evaluation.consume a (⟨"--json", .flag jsonFlag none⟩ :: ws) =
        Grammar.evaluation.consume (a.give jsonFlag none) ws := by
      intro a ws
      simp [Grammar.consume, Flag.takesValue, Grammar.act, jsonFlag]
    rw [Grammar.parse, hwords]
    simp only [Grammar.consume_append (g := .evaluation) rfl hwsReadings, hmarked,
      Grammar.consume_of_left (g := .evaluation) rfl hvsReadings, hws, hvs]
    rfl
  rw [commandOf_of_parse hcalculator hevaluation, dropSeparator_of_not_mem]
  · rfl
  · exact separator_not_mem_of_evaluated h

theorem commandOf_evalSeparator (xs : List String) :
    commandOf (evalCommand :: "--" :: xs) = .ok (.evaluate false xs) := by
  have hcalculator : Grammar.calculator.parse (evalCommand :: "--" :: xs) =
      .ok ⟨[], [], some (evalCommand, "--" :: xs)⟩ := by
    refine calculator_parse ?_ (Grammar.readWords_separator _ xs)
    rw [List.map_cons, List.map_map]
    exact congrArg (List.cons "--") (List.map_id xs)
  have hevaluation : Grammar.evaluation.parse ("--" :: xs) = .ok ⟨[], "--" :: xs, none⟩ := by
    have hseparator : ∀ ws, Grammar.evaluation.consume .empty (⟨"--", .separator⟩ :: ws) =
        Grammar.evaluation.consume ⟨[], ["--"], none⟩ ws := fun ws => rfl
    rw [Grammar.parse, Grammar.readWords_separator]
    simp only [hseparator, Grammar.consume_ordinary (g := .evaluation) rfl]
    rfl
  rw [commandOf_of_parse hcalculator hevaluation, dropSeparator, List.erase_cons_head]
  rfl

/-! ## The program -/

/-- What is printed, and its code handed back. -/
def handingBack (p : Printed) : Outcome := ⟨p.out, p.err, .returned p.code, []⟩

theorem run_of_evaluate {around : Surroundings} {settings : Settings}
    (hsettings : around.settings = .ok settings) {arguments xs : List String} {asJson : Bool}
    (hcommand : commandOf arguments = .ok (.evaluate asJson xs)) (hempty : xs ≠ []) (hdash : xs ≠ ["-"]) :
    run around arguments = handingBack (Batch.run asJson xs) := by
  have hgiven : expressionsOf xs around.input = xs := if_neg (by simp [hempty, hdash])
  rw [run, hcommand]
  simp only [Command.run, hsettings, hgiven]
  rfl

theorem run_of_values {xs rs : List String} (h : xs.map evaluate = rs.map .ok) :
    Batch.run false xs = ⟨0, Batch.lines rs, ""⟩ := by
  have hlines : xs.filterMap Batch.resultLine? = rs ∧ xs.filterMap Batch.failureLine? = [] := by
    induction xs generalizing rs with
    | nil =>
      cases rs with
      | nil => exact ⟨rfl, rfl⟩
      | cons r rs => exact absurd h.symm (List.cons_ne_nil _ _)
    | cons x xs ih =>
      cases rs with
      | nil => exact absurd h (List.cons_ne_nil _ _)
      | cons r rs =>
        obtain ⟨hx, hxs⟩ := List.cons.inj h
        obtain ⟨hresults, hfailures⟩ := ih hxs
        have hresult : Batch.resultLine? x = some r := by rw [Batch.resultLine?, hx]
        have hfailure : Batch.failureLine? x = none := by rw [Batch.failureLine?, hx]
        refine ⟨?_, ?_⟩
        · rw [List.filterMap_cons, hresult, hresults]
        · rw [List.filterMap_cons, hfailure, hfailures]
  obtain ⟨hresults, hfailures⟩ := hlines
  rw [Batch.run, if_neg Bool.false_ne_true]
  simp only [hresults, hfailures]
  rfl

/-- Expressions are never read as flags: those that have values are evaluated in order, with the mark for
the JSON form anywhere among them, and behind a double dash all arguments are. -/
theorem expressions_kept {around : Surroundings} {settings : Settings}
    (hsettings : around.settings = .ok settings) :
    (∀ xs rs, xs ≠ [] → xs.map evaluate = rs.map .ok →
        run around (evalCommand :: xs) = ⟨Batch.lines rs, "", .returned 0, []⟩ ∧
          ∀ before after, before ++ after = xs →
            run around (evalCommand :: (before ++ "--json" :: after)) =
              handingBack (Batch.run true xs)) ∧
      ∀ xs, xs ≠ [] → xs ≠ ["-"] →
        run around (evalCommand :: "--" :: xs) = handingBack (Batch.run false xs) := by
  refine ⟨fun xs rs hempty hvalues => ?_, fun xs hempty hdash => ?_⟩
  · have heach : ∀ x ∈ xs, ∃ r, evaluate x = .ok r := by
      intro x hx
      have hmem : evaluate x ∈ rs.map Except.ok := hvalues ▸ List.mem_map_of_mem hx
      obtain ⟨r, -, hr⟩ := List.mem_map.1 hmem
      exact ⟨r, hr.symm⟩
    have hdash : xs ≠ ["-"] := by
      rintro rfl
      obtain ⟨r, hr⟩ := heach "-" List.mem_cons_self
      obtain ⟨c, rest, hcons, -⟩ := behind_minus_of_evaluate hr rfl
      cases hcons
    refine ⟨?_, ?_⟩
    · rw [run_of_evaluate hsettings (commandOf_eval heach) hempty hdash, run_of_values hvalues]
      rfl
    · rintro before after rfl
      exact run_of_evaluate hsettings (commandOf_evalJson heach) hempty hdash
  · exact run_of_evaluate hsettings (commandOf_evalSeparator xs) hempty hdash

/-- A sum that begins with a minus, and the letter that asks for help behind a double dash. -/
theorem expressions_kept_of_minus :
    let around : Surroundings := ⟨.ok ⟨":memory:", .whole 500, "INFO", "127.0.0.1", .whole 8000⟩, ""⟩
    run around ["eval", "-5+3", "2*-1"] = ⟨"-2\n-2\n", "", .returned 0, []⟩ ∧
      run around ["eval", "-5+3", "--json", "2*-1"] =
        handingBack (Batch.run true ["-5+3", "2*-1"]) ∧
      run around ["eval", "--", "-h", "--"] = handingBack (Batch.run false ["-h", "--"]) := by
  intro around
  have hsettings : around.settings =
      .ok ⟨":memory:", .whole 500, "INFO", "127.0.0.1", .whole 8000⟩ := rfl
  have hkept := expressions_kept hsettings
  have hvalues : ["-5+3", "2*-1"].map evaluate = ["-2", "-2"].map .ok := by decide +kernel
  obtain ⟨hplain, hjson⟩ := hkept.1 ["-5+3", "2*-1"] ["-2", "-2"] (List.cons_ne_nil _ _) hvalues
  refine ⟨?_, ?_, ?_⟩
  · exact hplain
  · exact hjson ["-5+3"] ["2*-1"] rfl
  · exact hkept.2 ["-h", "--"] (List.cons_ne_nil _ _) (by decide)

end CommandLine

end Reckoner
