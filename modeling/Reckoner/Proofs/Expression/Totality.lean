import Reckoner.Proofs.Expression.Bare
import Reckoner.Proofs.Expression.Causes
/-!
No text leads to a mishap.

The bare evaluation does what the evaluation does, step for step: its lists are the stacks of the
machine with every operator and parenthesis written out, and this stays so at every token. What the
machine's types rule out then never happens to the lists.

What is shown here:
1. `Bare.loop_eq_drain` and `Bare.loop_anyOnTop`: the loops of the bare evaluation drain the stacks;
2. `Bare.scanAll_eq_feedText`: its scanning is that of the machine, at every position;
3. `evaluate_total`: on every text the bare evaluation ends as the evaluation does, with a display or
   with a cause of one of five kinds.
-/

namespace Reckoner

namespace Bare

/-- An outcome without mishaps. -/
def told {β γ : Type} (f : β → γ) : Except EvalError β → Except Failure γ
  | .ok b => .ok (f b)
  | .error e => .error (.cause e)

/-! ## Operators by their symbols -/

theorem precedence_symbol (op : Operator) : precedence [op.symbol] = .ok op.precedence := by
  cases op <;> rfl

theorem symbol_ne_parenthesis (op : Operator) : [op.symbol] ≠ ['('] := by cases op <;> decide

theorem missingOperand_symbol (op : Operator) :
    missingOperand [op.symbol] = .cause (.malformed (.missingOperand op)) := by
  cases op <;> rfl

section Machine
variable {α : Type} (A : Arithmetic α)

theorem apply_symbol (op : Operator) (x y : α) :
    apply A [op.symbol] x y = told id (A.apply op x y) := by
  cases op with
  | add => rfl
  | sub => rfl
  | mul => rfl
  | div =>
    show (if A.isZero y then _ else divide A x y) = _
    by_cases hzero : A.isZero y = true
    · rw [if_pos hzero, Arithmetic.apply, if_pos ⟨rfl, hzero⟩]
      rfl
    · rw [if_neg hzero, divide, if_neg hzero, Arithmetic.apply, if_neg fun h => hzero h.2]
      rfl

/-! ## Lists and stacks -/

/-- What waits, as its text. -/
def symbolText : Pending → List Char
  | .parenthesis => ['(']
  | .operator op => [op.symbol]

/-- The stacks as lists. -/
def ofStacks (s : Stacks α) : Lists α := ⟨s.values, s.pending.map symbolText⟩

theorem reduce_operator (op : Operator) (values : List α) (operators : List (List Char)) :
    reduce A ⟨values, [op.symbol] :: operators⟩ =
      told (fun vs => ⟨vs, operators⟩) (Stacks.reduce A op values) := by
  show (if [op.symbol] = ['('] then _ else _) = _
  rw [if_neg (symbol_ne_parenthesis op)]
  match values with
  | [] => exact congrArg Except.error (missingOperand_symbol op)
  | [x] => exact congrArg Except.error (missingOperand_symbol op)
  | y :: x :: values =>
    show (apply A [op.symbol] x y >>= fun v => _) = _
    rw [apply_symbol, Stacks.reduce]
    cases A.apply op x y with
    | error e => rfl
    | ok v => rfl

theorem loop_of_false {test : List (List Char) → Except Failure Bool} {s : Lists α}
    (h : test s.operators = .ok false) : loop A test s = .ok s := by
  rw [loop, h]

theorem loop_of_true {test : List (List Char) → Except Failure Bool} {s : Lists α}
    (h : test s.operators = .ok true) : loop A test s = reduce A s >>= loop A test := by
  rw [loop, h]
  cases hr : reduce A s with
  | error e => rfl
  | ok t => rfl

/-- A loop whose test stops at a parenthesis and otherwise looks at the operator on top drains the
stacks by that test. -/
theorem loop_eq_drain {test : List (List Char) → Except Failure Bool} {p : Operator → Bool}
    (hnil : test [] = .ok false) (hparen : ∀ rest, test (['('] :: rest) = .ok false)
    (hop : ∀ op rest, test ([op.symbol] :: rest) = .ok (p op)) (s : Stacks α) :
    loop A test (ofStacks s) = told ofStacks (Stacks.drain A p s.values s.pending) := by
  obtain ⟨values, pending⟩ := s
  -- on what waits, since each reduction takes one operator off and changes the values
  induction pending generalizing values with
  | nil => exact loop_of_false A hnil
  | cons top pending ih =>
    cases top with
    | parenthesis => exact loop_of_false A (hparen _)
    | operator op =>
      have htest : test (ofStacks ⟨values, Pending.operator op :: pending⟩).operators = .ok (p op) :=
        hop op _
      rw [Stacks.drain]
      cases hp : p op with
      | false =>
        rw [hp] at htest
        exact loop_of_false A htest
      | true =>
        rw [hp] at htest
        rw [loop_of_true A htest]
        show (reduce A ⟨values, [op.symbol] :: pending.map symbolText⟩ >>= _) = _
        rw [reduce_operator]
        cases hr : Stacks.reduce A op values with
        | error e => rfl
        | ok rest => exact ih rest

theorem loop_anyOnTop (s : Stacks α) :
    loop A anyOnTop (ofStacks s) =
      match Stacks.settle A 0 s with
      | .error e => .error (.cause e)
      | .ok ⟨_, _ :: _⟩ => .error (.cause (.malformed .unmatchedParenthesis))
      | .ok ⟨values, []⟩ => .ok ⟨values, []⟩ := by
  rw [← Stacks.drain_all_eq_settle]
  obtain ⟨values, pending⟩ := s
  induction pending generalizing values with
  | nil => exact loop_of_false A rfl
  | cons top pending ih =>
    have htest : anyOnTop (ofStacks ⟨values, top :: pending⟩).operators = .ok true := rfl
    rw [loop_of_true A htest]
    cases top with
    | parenthesis => rfl
    | operator op =>
      show (reduce A ⟨values, [op.symbol] :: pending.map symbolText⟩ >>= _) = _
      rw [reduce_operator]
      simp only [Stacks.drain, if_true]
      cases Stacks.reduce A op values with
      | error e => rfl
      | ok rest => exact ih rest

theorem loop_operatorOnTop (s : Stacks α) :
    loop A operatorOnTop (ofStacks s) = told ofStacks (Stacks.settle A 0 s) := by
  rw [← Stacks.drain_all_eq_settle]
  refine loop_eq_drain A rfl (fun _ => rfl) (fun op rest => ?_) s
  show Except.ok (decide ([op.symbol] ≠ ['('])) = _
  rw [decide_eq_true (symbol_ne_parenthesis op)]

theorem loop_bindsOnTop (incoming : Nat) (s : Stacks α) :
    loop A (bindsOnTop incoming) (ofStacks s) = told ofStacks (Stacks.settle A incoming s) := by
  refine loop_eq_drain A rfl (fun _ => rfl) (fun op rest => ?_) s
  show (if [op.symbol] = ['('] then _ else precedence [op.symbol] >>= _) = _
  rw [if_neg (symbol_ne_parenthesis op), precedence_symbol]
  rfl

/-! ## The whole evaluation -/

theorem step_eq (s : Stacks α) (l : Lexeme) :
    step A (ofStacks s) l = told ofStacks (s.step A (A.symbolOf l)) := by
  cases l with
  | number text => rfl
  | opening => rfl
  | closing =>
    rw [Arithmetic.symbolOf, Stacks.step_closing, step, loop_operatorOnTop]
    cases Stacks.settle A 0 s with
    | error e => rfl
    | ok t =>
      obtain ⟨values, pending⟩ := t
      cases pending with
      | nil => rfl
      | cons top pending => rfl
  | operator op =>
    rw [Arithmetic.symbolOf, Stacks.step_operator, step]
    show (precedence [op.symbol] >>= _) = _
    rw [precedence_symbol]
    show (loop A (bindsOnTop op.precedence) (ofStacks s) >>= _) = _
    rw [loop_bindsOnTop]
    cases Stacks.settle A op.precedence s with
    | error e => rfl
    | ok t => rfl

theorem finish_eq (s : Stacks α) : finish A (ofStacks s) = told id (s.finish A) := by
  rw [finish, loop_anyOnTop, Stacks.finish_eq]
  cases Stacks.settle A 0 s with
  | error e => rfl
  | ok t =>
    obtain ⟨values, pending⟩ := t
    cases pending with
    | cons top pending => rfl
    | nil =>
      match values with
      | [] => rfl
      | [v] => rfl
      | _ :: _ :: _ => rfl

/-- The bare scanning goes by positions, that of the machine by what is left of the text. -/
theorem scanAll_eq_feedText (cs : List Char) (position : Nat) (s : Stacks α) :
    scanAll A cs position (ofStacks s) =
      told ofStacks (A.feedText s (Token.characterBefore cs position) position
        (cs.drop position)) := by
  induction hn : cs.length - position using Nat.strongRecOn generalizing position s with
  | ind n ih =>
    subst hn
    rw [scanAll]
    by_cases hpos : position < cs.length
    · rw [if_pos hpos]
      -- before the end something is left, so the scanner finds a token or a fault
      cases hdrop : cs.drop position with
      | nil => exact absurd (List.drop_eq_nil_iff.1 hdrop) (by omega)
      | cons c tail =>
        cases hscan : scan (Token.characterBefore cs position) position c tail with
        | error e =>
          have hat : Token.at? cs position = some (.error e) := by
            simp only [Token.at?, hdrop, hscan]
          rw [A.feedText_error hscan]
          split
          · simp_all
          · rename_i hat'
            rw [hat] at hat'
            cases hat'
            rfl
          · simp_all
        | ok p =>
          obtain ⟨l, rest⟩ := p
          have hat : Token.at? cs position =
              some (.ok (⟨l, position⟩, position + l.text.length)) := by
            simp only [Token.at?, hdrop, hscan]
          obtain ⟨hrest, hbefore⟩ := Token.behind_scan hdrop hscan
          rw [A.feedText_ok hscan]
          split
          · simp_all
          · simp_all
          · rename_i hat'
            rw [hat] at hat'
            cases hat'
            rw [step_eq]
            cases s.step A (A.symbolOf l) with
            | error e => rfl
            | ok t =>
              have hlater := at?_advances hat
              rw [← hrest, ← hbefore]
              exact ih _ (by omega) (position + l.text.length) t rfl
    · rw [if_neg hpos, List.drop_eq_nil_of_le (by omega)]
      rw [Arithmetic.feedText]
      rfl

theorem evaluateText_eq (cs : List Char) : evaluateText A cs = told id (A.evaluateText cs) := by
  have hscan := scanAll_eq_feedText A cs 0 Stacks.empty
  rw [evaluateText, Arithmetic.evaluateText]
  show (scanAll A cs 0 (ofStacks Stacks.empty) >>= _) = _
  rw [hscan]
  show (told ofStacks (A.feedText Stacks.empty none 0 cs) >>= _) = _
  cases A.feedText Stacks.empty none 0 cs with
  | error e => rfl
  | ok s => exact finish_eq A s

end Machine

/-! ## The display -/

theorem length_decimalDigits_whole (m : Magnitude) :
    (Text.decimalDigits (m.units / Magnitude.one)).length ≤ Text.digitLimit := by
  have hdiv : ∀ {n a b c : Nat}, n < 2 ^ (a + b) → a ≤ c → n / 2 ^ b < 10 ^ c := by
    intro n a b c h hac
    calc n / 2 ^ b < 2 ^ a := Nat.div_lt_of_lt_mul (by rw [← Nat.pow_add, Nat.add_comm]; exact h)
      _ ≤ 10 ^ a := Nat.pow_le_pow_left (by decide) a
      _ ≤ 10 ^ c := Nat.pow_le_pow_right (by decide) hac
  have hone : Magnitude.one = 2 ^ Magnitude.places := by
    rw [Magnitude.one, Nat.shiftLeft_eq, Nat.one_mul]
  have hunits : m.units < 2 ^ (1024 + Magnitude.places) := by
    have hsig : m.significand < 2 ^ 53 := m.significand_lt
    have hshift : 53 + m.shift ≤ 1024 + Magnitude.places := Nat.add_le_add_left m.shift_le 53
    calc m.units = m.significand * 2 ^ m.shift := Nat.shiftLeft_eq ..
      _ < 2 ^ 53 * 2 ^ m.shift := Nat.mul_lt_mul_of_pos_right hsig (Nat.two_pow_pos _)
      _ = 2 ^ (53 + m.shift) := (Nat.pow_add 2 53 m.shift).symm
      _ ≤ 2 ^ (1024 + Magnitude.places) := Nat.pow_le_pow_right (by decide) hshift
  have hlimit : 1024 ≤ Text.digitLimit := by decide
  have hlt : m.units / Magnitude.one < 10 ^ Text.digitLimit := by
    rw [hone]
    exact hdiv hunits hlimit
  exact (Nat.length_toDigits_le_iff (by decide) (by decide)).2 hlt

theorem signed_eq_floor_iff (s : Bool) (m : Magnitude) :
    Binary64.signed s m = (Binary64.signed s m).fdiv Magnitude.one * (Magnitude.one : Int) ↔
      m.units % Magnitude.one = 0 := by
  have hdvd : (Magnitude.one : Int) ∣ Binary64.signed s m ↔ m.units % Magnitude.one = 0 := by
    rw [← Nat.dvd_iff_mod_eq_zero, ← Int.natCast_dvd_natCast]
    cases s with
    | false => exact Iff.rfl
    | true => exact Int.dvd_neg
  rw [Int.fdiv_eq_ediv_of_nonneg _ (Int.natCast_nonneg _), ← hdvd, eq_comm]
  constructor
  · intro h
    exact ⟨_, (h.symm.trans (Int.mul_comm _ _))⟩
  · exact Int.ediv_mul_cancel

theorem display_eq (x : Binary64) : display x = .ok x.display := by
  cases x with
  | nan => rfl
  | infinite s => rfl
  | finite s m =>
    rw [display, Binary64.display, Binary64.integer?, Binary64.isIntegral]
    show (if Binary64.signed s m = (Binary64.signed s m).fdiv Magnitude.one * (Magnitude.one : Int)
      then _ else _) = _
    by_cases hwhole : m.units % Magnitude.one = 0
    · rw [if_pos ((signed_eq_floor_iff s m).2 hwhole), if_pos (beq_iff_eq.2 hwhole)]
      have hlength := length_decimalDigits_whole m
      cases s with
      | false => exact if_pos hlength
      | true =>
        refine if_pos ?_
        rw [if_pos rfl, Int.natAbs_neg]
        exact hlength
    · rw [if_neg (fun h => hwhole ((signed_eq_floor_iff s m).1 h)),
        if_neg (fun h => hwhole (beq_iff_eq.1 h))]

theorem evaluate_eq (s : String) : evaluate s = told id (Reckoner.evaluate s) := by
  rw [evaluate, Reckoner.evaluate]
  cases Normal.form? s with
  | error e => rfl
  | ok cs =>
    simp only [evaluateText_eq]
    cases Binary64.arithmetic.evaluateText cs with
    | error e => rfl
    | ok x => exact display_eq x

end Bare

/-- Every text is evaluated to a display, or ends with a cause of one of five kinds. The evaluation with
accesses that can fail ends the same way on every text: no access fails. -/
theorem evaluate_total (s : String) :
    (∃ display, evaluate s = .ok display ∧ Bare.evaluate s = .ok display) ∨
      ∃ e, evaluate s = .error e ∧ Bare.evaluate s = .error (.cause e) ∧
        e.kind ∈ ["empty_expression", "invalid_character", "number_format", "division_by_zero",
          "malformed_expression"] := by
  rw [Bare.evaluate_eq]
  cases h : evaluate s with
  | ok display => exact .inl ⟨display, rfl, rfl⟩
  | error e => exact .inr ⟨e, rfl, rfl, kind_of_evaluate h⟩

end Reckoner
