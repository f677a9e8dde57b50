import Mathlib.Algebra.Order.BigOperators.Group.List
import Mathlib.Algebra.Order.Ring.Nat
import Mathlib.Algebra.Group.Action.Defs
import Mathlib.Data.List.Chain
import Reckoner.Proofs.Expression.Accounting
import Reckoner.Proofs.Expression.Value
/-!
What waits between parentheses.

The parentheses that wait cut the operators that wait into segments. An operator that arrives first applies
all above the last parenthesis that bind at least as tightly, so it binds more tightly than each it is put
on: in every segment precedence rises from bottom to top. There are two precedences, so a segment is an
additive operator at most and then a multiplicative one at most, and the second stack stays low: it holds
three things at most for each parenthesis that is unclosed, and two more.

What is shown here:
1. `Stacks.below_of_settle`: what settling leaves on top;
2. `Stacks.step_rising`: the segments rise after every move if they did before it;
3. `Stacks.shaped_of_rising`: what that says of the second stack;
4. `Arithmetic.feedText_shaped`: its shape at every point of a run.
-/

namespace Reckoner

namespace Operator

def IsAdditive (op : Operator) : Prop := op = .add ∨ op = .sub

def IsMultiplicative (op : Operator) : Prop := op = .mul ∨ op = .div

theorem additive_of_precedence_lt {lower upper : Operator} (h : lower.precedence < upper.precedence) :
    lower.IsAdditive ∧ upper.IsMultiplicative := by
  cases lower <;> cases upper <;> simp_all [precedence, IsAdditive, IsMultiplicative]

theorem additive_or_multiplicative (op : Operator) : op.IsAdditive ∨ op.IsMultiplicative := by
  cases op <;> simp [IsAdditive, IsMultiplicative]

/-- Each operator binds more tightly than those before it. -/
def Rises (ops : List Operator) : Prop := (ops.map precedence).Pairwise (· < ·)

theorem rises_append_singleton {ops : List Operator} {op : Operator} :
    Rises (ops ++ [op]) ↔ Rises ops ∧ ∀ last ∈ ops.getLast?, last.precedence < op.precedence := by
  simp only [Rises, ← List.isChain_iff_pairwise, List.map_append, List.isChain_append,
    List.getLast?_map, List.map_cons, List.map_nil, List.head?_cons]
  simp

theorem Rises.split {ops : List Operator} (h : Rises ops) :
    ∃ low high : Option Operator, (∀ op ∈ low, op.IsAdditive) ∧ (∀ op ∈ high, op.IsMultiplicative) ∧
      ops = low.toList ++ high.toList := by
  match ops, h with
  | [], _ => exact ⟨none, none, by simp⟩
  | [op], _ =>
    rcases op.additive_or_multiplicative with hop | hop
    · exact ⟨some op, none, by simpa using hop⟩
    · exact ⟨none, some op, by simpa using hop⟩
  | [lower, upper], h =>
    have hlt : lower.precedence < upper.precedence := by simpa [Rises] using h
    obtain ⟨hlower, hupper⟩ := additive_of_precedence_lt hlt
    exact ⟨some lower, some upper, by simpa using ⟨hlower, hupper⟩⟩
  | first :: second :: third :: more, h =>
    -- the second would have to be additive and multiplicative
    simp only [Rises, List.map_cons, List.pairwise_cons, List.mem_cons, forall_eq_or_imp] at h
    have hsecond := (additive_of_precedence_lt h.1.1).2
    have hthird := (additive_of_precedence_lt h.2.1.1).1
    rcases hsecond with rfl | rfl <;> simp [IsAdditive] at hthird

end Operator

namespace Stacks

/-! ## Segments -/

/-- The operators that wait, cut at the parentheses: the topmost segment first, and each of them from
bottom to top. -/
def segments : List Pending → List (List Operator)
  | [] => [[]]
  | .parenthesis :: below => [] :: segments below
  | .operator op :: below => (segments below).modifyHead (· ++ [op])

/-- In every segment precedence rises. -/
def Rising (pending : List Pending) : Prop := ∀ ops ∈ segments pending, Operator.Rises ops

theorem exists_segments_cons (pending : List Pending) :
    ∃ ops rest, segments pending = ops :: rest ∧ ops.getLast? = topOperator? pending := by
  induction pending with
  | nil => exact ⟨[], [], rfl, rfl⟩
  | cons top below ih =>
    cases top with
    | parenthesis => exact ⟨[], segments below, rfl, rfl⟩
    | operator op =>
      obtain ⟨ops, rest, hbelow, -⟩ := ih
      exact ⟨ops ++ [op], rest, by rw [segments, hbelow]; rfl, List.getLast?_concat⟩

theorem rising_nil : Rising [] := by
  rintro ops hops
  obtain rfl := List.mem_singleton.1 hops
  exact List.Pairwise.nil

@[simp] theorem rising_parenthesis_iff {pending : List Pending} :
    Rising (.parenthesis :: pending) ↔ Rising pending :=
  List.forall_mem_cons.trans (and_iff_right List.Pairwise.nil)

/-- An operator continues the topmost segment if it binds more tightly than the operator it is put on. -/
theorem rising_operator_iff {op : Operator} {pending : List Pending} :
    Rising (.operator op :: pending) ↔ Rising pending ∧ Below op.precedence pending := by
  obtain ⟨ops, rest, hsegments, hlast⟩ := exists_segments_cons pending
  simp only [Rising, segments, hsegments, List.modifyHead_cons, List.forall_mem_cons,
    Operator.rises_append_singleton, Below, hlast]
  exact and_right_comm

theorem rising_of_operators_append {ops : List Operator} {pending : List Pending}
    (h : Rising (ops.map .operator ++ pending)) : Rising pending := by
  induction ops with
  | nil => exact h
  | cons op ops ih => exact ih (rising_operator_iff.1 h).1

/-! ## Moves -/

section Moves
variable {α : Type} {A : Arithmetic α}

theorem not_test_of_drain {test : Operator → Bool} {values : List α} {pending : List Pending}
    {t : Stacks α} (h : drain A test values pending = .ok t) :
    ∀ op ∈ topOperator? t.pending, test op = false := by
  induction pending generalizing values with
  | nil =>
    cases h
    exact nofun
  | cons top pending ih =>
    cases top with
    | parenthesis =>
      cases h
      exact nofun
    | operator op =>
      rw [drain] at h
      split at h
      · split at h
        · exact ih h
        · cases h
      · rename_i htest
        cases h
        rintro _ ⟨⟩
        exact Bool.eq_false_iff.2 htest

theorem below_of_settle {p : Nat} {s t : Stacks α} (h : settle A p s = .ok t) : Below p t.pending := by
  intro op hop
  simpa using not_test_of_drain h op hop

theorem settle_rising {p : Nat} {s t : Stacks α} (h : settle A p s = .ok t) (hs : Rising s.pending) :
    Rising t.pending := by
  obtain ⟨ops, hpending, -⟩ := drain_split h
  rw [hpending] at hs
  exact rising_of_operators_append hs

/-- The segments rise after every move if they did before it. -/
theorem step_rising {s t : Stacks α} {x : Symbol α} (h : s.step A x = .ok t) (hs : Rising s.pending) :
    Rising t.pending := by
  cases x with
  | number v =>
    cases h
    exact hs
  | opening =>
    cases h
    exact rising_parenthesis_iff.2 hs
  | operator op =>
    rw [step_operator] at h
    obtain ⟨u, hu, h⟩ := bind_eq_ok.1 h
    cases h
    exact rising_operator_iff.2 ⟨settle_rising hu hs, below_of_settle hu⟩
  | closing =>
    rw [step_closing] at h
    obtain ⟨u, hu, h⟩ := bind_eq_ok.1 h
    cases h
    have hrising := settle_rising hu hs
    rcases settle_zero_pending hu with hp | ⟨rest, hp⟩
    · rw [hp] at hrising ⊢
      exact hrising
    · rw [hp] at hrising ⊢
      exact rising_parenthesis_iff.1 hrising

end Moves

/-! ## The shape of the second stack -/

theorem length_segments (pending : List Pending) :
    (segments pending).length = unclosed pending + 1 := by
  induction pending with
  | nil => rfl
  | cons top below ih =>
    cases top with
    | parenthesis => rw [segments, List.length_cons, ih, unclosed_parenthesis]
    | operator op => rw [segments, List.length_modifyHead, ih, unclosed_operator]

theorem length_eq_segments (pending : List Pending) :
    pending.length = unclosed pending + ((segments pending).map List.length).sum := by
  induction pending with
  | nil => rfl
  | cons top below ih =>
    cases top with
    | parenthesis =>
      simp only [List.length_cons, segments, unclosed_parenthesis, List.map_cons, List.length_nil,
        List.sum_cons, ih]
      omega
    | operator op =>
      obtain ⟨ops, rest, hsegments, -⟩ := exists_segments_cons below
      simp only [hsegments, List.map_cons, List.sum_cons] at ih
      simp only [List.length_cons, segments, hsegments, unclosed_operator, List.modifyHead_cons,
        List.map_cons, List.sum_cons, List.length_append, List.length_nil, ih]
      omega

/-- The shape of the second stack when so many parentheses are unclosed. -/
structure Shaped (pending : List Pending) (depth : Nat) : Prop where
  rises : ∀ ops ∈ segments pending, Operator.Rises ops
  split : ∀ ops ∈ segments pending, ∃ low high : Option Operator,
    (∀ op ∈ low, op.IsAdditive) ∧ (∀ op ∈ high, op.IsMultiplicative) ∧
      ops = low.toList ++ high.toList
  parentheses : pending.count .parenthesis = depth
  height : pending.length ≤ 3 * depth + 2

theorem shaped_of_rising {pending : List Pending} (h : Rising pending) :
    Shaped pending (unclosed pending) where
  rises := h
  split ops hops := (h ops hops).split
  parentheses := rfl
  height := by
    have htwo : ∀ k ∈ (segments pending).map List.length, k ≤ 2 := by
      intro k hk
      obtain ⟨ops, hops, rfl⟩ := List.mem_map.1 hk
      obtain ⟨low, high, -, -, rfl⟩ := (h ops hops).split
      cases low <;> cases high <;> simp
    have hsum := List.sum_le_card_nsmul _ 2 htwo
    have hlength := length_eq_segments pending
    rw [List.length_map, length_segments, smul_eq_mul] at hsum
    omega

end Stacks

namespace Arithmetic

variable {α : Type} (A : Arithmetic α)

/-- The points that a run on a text passes, one before each token and one at the end: the stacks, the part
of the text that is read, and the rest. -/
inductive Passes (cs : List Char) : Stacks α → List Char → List Char → Prop
  | start : Passes cs .empty [] cs
  | token {s t : Stacks α} {before tail rest : List Char} {c : Char} {l : Lexeme}
    (hpassed : Passes cs s before (c :: tail))
    (hscan : scan before.getLast? before.length c tail = .ok (l, rest))
    (hstep : s.step A (A.symbolOf l) = .ok t) : Passes cs t (before ++ l.text) rest

theorem feedText_of_passes {cs : List Char} {s : Stacks α} {before rest : List Char}
    (h : A.Passes cs s before rest) :
    before ++ rest = cs ∧
      A.feedText .empty none 0 cs = A.feedText s before.getLast? before.length rest := by
  induction h with
  | start => exact ⟨rfl, rfl⟩
  | token hpassed hscan hstep ih =>
    rw [A.feedText_ok hscan, hstep] at ih
    rw [List.append_assoc, scan_append hscan, List.length_append,
      List.getLast?_append_of_ne_nil _ (scan_nonempty hscan)]
    exact ih

theorem passes_of_feedText {cs : List Char} {s t : Stacks α} {before rest : List Char}
    (hpassed : A.Passes cs s before rest)
    (h : A.feedText s before.getLast? before.length rest = .ok t) : A.Passes cs t cs [] := by
  -- on the length of the rest, which each token makes shorter
  induction hn : rest.length using Nat.strongRecOn generalizing s before rest with
  | ind n ih =>
    subst hn
    cases rest with
    | nil =>
      rw [feedText] at h
      cases h
      have hcs := (A.feedText_of_passes hpassed).1
      rw [List.append_nil] at hcs
      rwa [hcs] at hpassed
    | cons c tail =>
      cases hscan : scan before.getLast? before.length c tail with
      | error e =>
        rw [A.feedText_error hscan] at h
        cases h
      | ok found =>
        obtain ⟨l, rest⟩ := found
        rw [A.feedText_ok hscan] at h
        cases hstep : s.step A (A.symbolOf l) with
        | error e =>
          rw [hstep] at h
          cases h
        | ok u =>
          rw [hstep] at h
          refine ih rest.length (scan_length_lt hscan) (.token hpassed hscan hstep) ?_ rfl
          rw [List.length_append, List.getLast?_append_of_ne_nil _ (scan_nonempty hscan)]
          exact h

theorem brackets_of_scan {previous : Option Char} {position : Nat} {c : Char} {tail rest : List Char}
    {l : Lexeme} (h : scan previous position c tail = .ok (l, rest)) :
    l.text.filterMap Bracket.ofChar? = (Bracket.ofSymbol? (A.symbolOf l)).toList := by
  rw [Bracket.ofSymbol?_symbolOf]
  refine Bracket.text_brackets fun text htext => ?_
  subst htext
  exact (scans_of_scan h).number.1

/-- At every point of a run the segments rise, and the parentheses that wait are those that are unclosed in
the part of the text that is read. -/
theorem rising_of_passes {cs : List Char} {s : Stacks α} {before rest : List Char}
    (h : A.Passes cs s before rest) :
    Stacks.Rising s.pending ∧ (Matching.ofText before).unclosed = Stacks.unclosed s.pending := by
  induction h with
  | start => exact ⟨Stacks.rising_nil, rfl⟩
  | token hpassed hscan hstep ih =>
    rw [Matching.ofText, List.filterMap_append, Matching.after_append, A.brackets_of_scan hscan]
    exact ⟨Stacks.step_rising hstep ih.1, Stacks.step_unclosed hstep ih.2⟩

/-- At every point of the run on a text, well formed or not, the second stack has the shape that the
unclosed parentheses of the part read so far ask for, and it keeps that shape while operators are taken off
the top. The points are those of the run: it goes on from each of them, and if it is not stopped, it gets
to one at the end of the text. -/
theorem feedText_shaped (cs : List Char) :
    (∀ s before rest, A.Passes cs s before rest →
      before ++ rest = cs ∧
        A.feedText .empty none 0 cs = A.feedText s before.getLast? before.length rest ∧
        ∀ (ops : List Operator) (below : List Pending), s.pending = ops.map .operator ++ below →
          Stacks.Shaped below (Matching.ofText before).unclosed) ∧
      ∀ t, A.feedText .empty none 0 cs = .ok t → A.Passes cs t cs [] := by
  refine ⟨fun s before rest hpassed => ?_, fun t h => A.passes_of_feedText .start h⟩
  obtain ⟨hcs, hrun⟩ := A.feedText_of_passes hpassed
  obtain ⟨hrising, hunclosed⟩ := A.rising_of_passes hpassed
  refine ⟨hcs, hrun, fun ops below hpending => ?_⟩
  rw [hpending] at hrising hunclosed
  rw [hunclosed, Stacks.unclosed_operators_append]
  exact Stacks.shaped_of_rising (Stacks.rising_of_operators_append hrising)

/-- One parenthesis is unclosed, and five things wait: no more can. -/
theorem feedText_shaped_of_group :
    let t : Stacks Binary64 := ⟨[.ofNat 5, .ofNat 4, .ofNat 3, .ofNat 2, .ofNat 1],
      [.operator .div, .operator .sub, .parenthesis, .operator .mul, .operator .add]⟩
    Binary64.arithmetic.Passes "1+2*(3-4/5".toList t "1+2*(3-4/5".toList [] ∧
      Stacks.segments t.pending = [[.sub, .div], [.add, .mul]] ∧ Stacks.Shaped t.pending 1 := by
  intro t
  have hread : Reading.readFrom none 0 "1+2*(3-4/5".toList =
      ⟨Reading.place 0 [.number ['1'], .operator .add, .number ['2'], .operator .mul, .opening,
        .number ['3'], .operator .sub, .number ['4'], .operator .div, .number ['5']], none⟩ := by
    decide +kernel
  have hrun : Binary64.arithmetic.feedText .empty none 0 "1+2*(3-4/5".toList = .ok t := by
    rw [Binary64.arithmetic.feedText_eq_feed, hread]
    rfl
  have hpassed := (Binary64.arithmetic.feedText_shaped _).2 t hrun
  obtain ⟨-, -, hshaped⟩ := (Binary64.arithmetic.feedText_shaped _).1 _ _ _ hpassed
  exact ⟨hpassed, rfl, hshaped [] _ rfl⟩

end Arithmetic

end Reckoner
