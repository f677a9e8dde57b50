import Reckoner.Text.Blank
/-!
Lines and words of a text.

A line ends at a line feed; a carriage return before it is a blank at the end of the line. A text in which
other line ends are in use has them written as line feeds first. A word ends at a blank.

What is shown here:
1. `split_append_singleton`: a text that is put together of two by a separator splits into the parts of
   the two;
2. `split_eq_cons_iff`: the parts of a text are those that make it up, with the separators;
3. `flatten_words`: the words of a text, put together, are the text without its blanks.
-/

namespace Reckoner.Text

/-- The parts of a text between the separators of a class; there is always one more than there are
separators. -/
def split (p : Char → Bool) : List Char → List (List Char)
  | [] => [[]]
  | c :: cs =>
    if p c then [] :: split p cs
    else
      match split p cs with
      | part :: parts => (c :: part) :: parts
      | [] => [[c]]

theorem split_ne_nil (p : Char → Bool) (cs : List Char) : split p cs ≠ [] := by
  cases cs with
  | nil => simp [split]
  | cons c cs =>
    unfold split
    split
    · simp
    · split <;> simp

theorem split_append_singleton (p : Char → Bool) (xs ys : List Char) (c : Char) (hc : p c = true) :
    split p (xs ++ c :: ys) = split p xs ++ split p ys := by
  induction xs with
  | nil => simp [split, hc]
  | cons x xs ih =>
    by_cases hx : p x = true
    · simp [split, hx, ih]
    · simp only [List.cons_append, split, hx, Bool.false_eq_true, if_false, ih]
      cases h : split p xs with
      | nil => exact absurd h (split_ne_nil p xs)
      | cons part parts => rfl

theorem flatten_split (p : Char → Bool) (cs : List Char) :
    (split p cs).flatten = cs.filter fun c => !p c := by
  induction cs with
  | nil => rfl
  | cons c cs ih =>
    rw [split]
    cases hc : p c with
    | true => simp [hc, ih]
    | false =>
      cases hparts : split p cs with
      | nil => exact absurd hparts (split_ne_nil p cs)
      | cons part parts =>
        rw [hparts] at ih
        simpa [hc] using ih

section Parts
variable {c : Char} {cs first : List Char} {parts : List (List Char)}

theorem split_of_not_mem (h : c ∉ cs) : split (· == c) cs = [cs] := by
  induction cs with
  | nil => rfl
  | cons d cs ih =>
    rw [List.mem_cons, not_or] at h
    rw [split, if_neg (by simpa using Ne.symm h.1), ih h.2]

theorem split_joined (hfirst : c ∉ first) (hparts : ∀ p ∈ parts, c ∉ p) :
    split (· == c) (first ++ parts.flatMap (c :: ·)) = first :: parts := by
  induction parts generalizing first with
  | nil => simpa using split_of_not_mem hfirst
  | cons p parts ih =>
    obtain ⟨hp, hparts⟩ := List.forall_mem_cons.1 hparts
    rw [List.flatMap_cons, List.cons_append, split_append_singleton (· == c) _ _ c (beq_self_eq_true c),
      split_of_not_mem hfirst, ih hp hparts]
    rfl

theorem exists_joined (c : Char) (cs : List Char) :
    ∃ (first : List Char) (parts : List (List Char)), cs = first ++ parts.flatMap (c :: ·) ∧ c ∉ first ∧ ∀ p ∈ parts, c ∉ p := by
  induction cs with
  | nil => exact ⟨[], [], rfl, List.not_mem_nil, fun _ h => absurd h List.not_mem_nil⟩
  | cons d cs ih =>
    obtain ⟨first, parts, rfl, hfirst, hparts⟩ := ih
    by_cases hd : d = c
    · subst hd
      exact ⟨[], first :: parts, rfl, List.not_mem_nil, List.forall_mem_cons.2 ⟨hfirst, hparts⟩⟩
    · refine ⟨d :: first, parts, rfl, ?_, hparts⟩
      rw [List.mem_cons, not_or]
      exact ⟨Ne.symm hd, hfirst⟩

/-- The parts of a text are those that, with the separators before all but the first, make it up. -/
theorem split_eq_cons_iff : split (· == c) cs = first :: parts ↔
    cs = first ++ parts.flatMap (c :: ·) ∧ c ∉ first ∧ ∀ p ∈ parts, c ∉ p := by
  constructor
  · intro h
    obtain ⟨first', parts', rfl, hfirst, hparts⟩ := exists_joined c cs
    obtain ⟨rfl, rfl⟩ := List.cons.inj ((split_joined hfirst hparts).symm.trans h)
    exact ⟨rfl, hfirst, hparts⟩
  · rintro ⟨rfl, hfirst, hparts⟩
    exact split_joined hfirst hparts

end Parts

/-- A text with every line end, which is a line feed, a carriage return or both together, written as a line
feed. -/
def unifyLineEnds : List Char → List Char
  | [] => []
  | '\r' :: '\n' :: cs => '\n' :: unifyLineEnds cs
  | '\r' :: cs => '\n' :: unifyLineEnds cs
  | c :: cs => c :: unifyLineEnds cs

/-- The lines of a text that are not blank, without the line feeds that end them. -/
def filledLines (s : String) : List String :=
  ((split (· == '\n') s.toList).filter fun l => !l.all isBlank).map String.ofList

/-- The words of a text, which stand between its blanks. -/
def words (cs : List Char) : List (List Char) := (split isBlank cs).filter fun word => !word.isEmpty

theorem flatten_words (cs : List Char) : (words cs).flatten = cs.filter fun c => !isBlank c := by
  rw [words, List.flatten_filter_not_isEmpty, flatten_split]

end Reckoner.Text
