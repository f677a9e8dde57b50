import Reckoner.CommandLine.Program
/-!
What a command line gives.

A word is read as a flag only if it names one of the grammar, in full, by its beginning, or by its letter.
A flag takes effect with a value of its kind or not at all: what should be a number and is none is
refused, and so is a value for a mark. So what has been read of a command line can be relied on: whatever
flag is in it is one of the grammar, and a number that is given is a number.

What is shown here:
1. `Grammar.readWords_knows`: words are read as flags of the grammar only;
2. `Grammar.accept_keeps`, `Grammar.act_keeps` and `Grammar.actTogether_keeps`: what one word does;
3. `Grammar.parse_of`: what is read of a command line is of the grammar;
4. `Arguments.Of.number_of_has`: a number that is given is there.
-/

namespace Reckoner.CommandLine

/-- The flag that a word is read as. -/
def Reading.flag? : Reading → Option Flag
  | .flag f _ | .letters f _ => some f
  | .ordinary | .separator | .unknown => none

namespace Grammar

variable {g : Grammar}

/-! ## Words -/

/-- What a word is read as is a flag of the grammar, if it is one at all. -/
def Knows (g : Grammar) (r : Reading) : Prop := ∀ f ∈ r.flag?, f ∈ g.flags

theorem knows_ordinary : g.Knows .ordinary := nofun

theorem knows_separator : g.Knows .separator := nofun

theorem knows_unknown : g.Knows .unknown := nofun

theorem knows_of_mem {f : Flag} (h : f ∈ g.flags) (attached : Option String) :
    g.Knows (.flag f attached) := by
  rintro _ ⟨⟩
  exact h

theorem candidates_knows {cs : List Char} {c : String × Reading} (h : c ∈ g.candidates cs) :
    g.Knows c.2 := by
  obtain ⟨⟨name, f⟩, hname, hcandidate⟩ := List.mem_filterMap.1 h
  obtain ⟨f', hf', hmem⟩ := List.mem_flatMap.1 hname
  obtain ⟨_, -, heq⟩ := List.mem_map.1 hmem
  obtain rfl : f' = f := congrArg Prod.snd heq
  simp only at hcandidate
  split at hcandidate
  · cases hcandidate
    rintro _ ⟨⟩
    exact hf'
  · split at hcandidate
    · cases hcandidate
      exact knows_of_mem hf' _
    · cases hcandidate

theorem readDashed_knows {s : String} {r : Reading} (h : g.readDashed s = .ok r) : g.Knows r := by
  simp only [readDashed] at h
  split at h
  · rename_i f hnamed
    cases h
    exact knows_of_mem (named_mem hnamed).1 _
  · rename_i f _ _ hnamed
    cases h
    exact knows_of_mem (named_mem hnamed).1 _
  · split at h
    · split at h
      · cases h
        exact knows_ordinary
      · cases h
        exact knows_unknown
    · rename_i name reading hcandidates
      cases h
      exact candidates_knows (c := (name, r)) (hcandidates ▸ List.mem_singleton_self _)
    · cases h

theorem readWord_knows {s : String} {r : Reading} (h : g.readWord s = .ok r) : g.Knows r := by
  rw [readWord] at h
  split at h
  · exact readDashed_knows h
  · cases h
    exact knows_ordinary

theorem readWords_knows {ss : List String} {words : List Word} (h : g.readWords ss = .ok words) :
    ∀ w ∈ words, g.Knows w.reading := by
  induction ss generalizing words with
  | nil =>
    cases h
    exact fun w hw => absurd hw List.not_mem_nil
  | cons s ss ih =>
    rw [readWords] at h
    split at h
    · cases h
      refine List.forall_mem_cons.2 ⟨knows_separator, fun w hw => ?_⟩
      obtain ⟨_, -, rfl⟩ := List.mem_map.1 hw
      exact knows_ordinary
    · split at h
      · cases h
      · rename_i hreading
        split at h
        · cases h
        · rename_i hrest
          cases h
          exact List.forall_mem_cons.2 ⟨readWord_knows hreading, ih hrest⟩

/-! ## What one word does -/

/-- A flag is given as it can be: it is one of the grammar, with a value if it takes one, and a number is
an integer. -/
inductive Gives (g : Grammar) : Flag × Option String → Prop
  | mark {f : Flag} (hmem : f ∈ g.flags) (hkind : f.kind = .mark) : Gives g (f, none)
  | text {f : Flag} (hmem : f ∈ g.flags) (hkind : f.kind = .text) (value : String) :
    Gives g (f, some value)
  | number {f : Flag} (hmem : f ∈ g.flags) (hkind : f.kind = .number) {value : String} {n : Int}
    (hvalue : Text.wholeNumber? value.toList = some n) : Gives g (f, some value)

end Grammar

/-- Arguments are of a grammar: its flags are given as they can be, and the command is one of its. -/
structure Arguments.Of (g : Grammar) (a : Arguments) : Prop where
  given : ∀ e ∈ a.given, g.Gives e
  command : ∀ c ∈ a.command, c.1 ∈ g.commands

namespace Grammar

variable {g : Grammar} {a b : Arguments} {f : Flag}

theorem empty_of : Arguments.empty.Of g where
  given _ he := absurd he List.not_mem_nil
  command c hc := absurd hc (Option.not_mem_none c)

theorem leave_keeps (ha : a.Of g) (s : String) : (a.leave s).Of g := ⟨ha.given, ha.command⟩

theorem give_keeps (ha : a.Of g) {value : Option String} (h : g.Gives (f, value)) :
    (a.give f value).Of g where
  given e he := by
    rcases List.mem_append.1 he with he | he
    · exact ha.given e he
    · rwa [List.mem_singleton.1 he]
  command := ha.command

section Flag
variable (ha : a.Of g) (hf : f ∈ g.flags)
include ha hf

theorem act_keeps (htakes : f.takesValue = false) (h : act a f = .ok b) : b.Of g := by
  rw [act] at h
  split at h
  · cases h
  · rename_i hhelp
    cases h
    refine give_keeps ha (.mark hf ?_)
    cases hkind : f.kind with
    | help => exact absurd hkind hhelp
    | mark => rfl
    | text => simp [Flag.takesValue, hkind] at htakes
    | number => simp [Flag.takesValue, hkind] at htakes

theorem accept_keeps (htakes : f.takesValue = true) {value : String} (h : accept a f value = .ok b) :
    b.Of g := by
  rw [accept] at h
  split at h
  · cases h
  · rename_i hinteger
    cases h
    refine give_keeps ha ?_
    cases hkind : f.kind with
    | help => simp [Flag.takesValue, hkind] at htakes
    | mark => simp [Flag.takesValue, hkind] at htakes
    | text => exact .text hf hkind value
    | number =>
      have hsome : Text.wholeNumber? value.toList ≠ none := fun hnone => hinteger ⟨hkind, hnone⟩
      obtain ⟨n, hn⟩ := Option.ne_none_iff_exists'.1 hsome
      exact .number hf hkind hn

end Flag

theorem foldlM_act_keeps {fs : List Flag} (ha : a.Of g)
    (hfs : ∀ f ∈ fs, f ∈ g.flags ∧ f.takesValue = false) (h : fs.foldlM act a = .ok b) : b.Of g := by
  induction fs generalizing a with
  | nil =>
    cases h
    exact ha
  | cons f fs ih =>
    obtain ⟨⟨hmem, htakes⟩, hrest⟩ := List.forall_mem_cons.1 hfs
    rw [List.foldlM_cons] at h
    cases hact : act a f with
    | error stop =>
      rw [hact] at h
      cases h
    | ok a' =>
      rw [hact] at h
      exact ih (act_keeps ha hmem htakes hact) hrest h

theorem together_mem {cs : List Char} {r : List Flag × Option String} (hf : f ∈ g.flags)
    (htakes : f.takesValue = false) (h : g.together f cs = .ok r) :
    ∀ f ∈ r.1, f ∈ g.flags ∧ f.takesValue = false := by
  fun_induction g.together f cs generalizing r with
  | case1 f =>
    cases h
    exact List.forall_mem_singleton.2 ⟨hf, htakes⟩
  | case2 | case3 => cases h
  | case4 f =>
    cases h
    exact List.forall_mem_singleton.2 ⟨hf, htakes⟩
  | case5 f c cs _ _ next hnext ih =>
    obtain ⟨hnamed, hmark⟩ := Option.filter_eq_some_iff.1 hnext
    cases hrest : g.together next cs with
    | error p =>
      rw [hrest] at h
      cases h
    | ok r' =>
      rw [hrest] at h
      cases h
      refine List.forall_mem_cons.2 ⟨⟨hf, htakes⟩, ?_⟩
      exact ih (named_mem hnamed).1 (by simpa using hmark) hrest

theorem actTogether_keeps {rest : List Char} (ha : a.Of g) (hf : f ∈ g.flags)
    (h : g.actTogether a f rest = .ok b) : b.Of g := by
  rw [actTogether] at h
  split at h
  · rename_i htakes
    exact accept_keeps ha hf htakes h
  · rename_i htakes
    have hnone : f.takesValue = false := Bool.eq_false_iff.2 htakes
    split at h
    · cases h
    · rename_i flags left htogether
      refine foldlM_act_keeps ?_ (together_mem hf hnone htogether) h
      cases left with
      | none => exact ha
      | some s => exact leave_keeps ha s

/-! ## A whole command line -/

theorem consume_keeps {words : List Word} (ha : a.Of g) (hwords : ∀ w ∈ words, g.Knows w.reading)
    (h : g.consume a words = .ok b) : b.Of g := by
  fun_induction g.consume a words with
  | case1 =>
    cases h
    exact ha
  -- a word that is left over
  | case2 a w ws _ _ ih | case5 a w ws _ _ ih | case7 a w ws _ ih =>
    exact ih (leave_keeps ha w.text) (List.forall_mem_cons.1 hwords).2 h
  -- the command
  | case3 a w ws _ _ hcommand =>
    cases h
    refine ⟨ha.given, ?_⟩
    rintro _ ⟨⟩
    exact List.contains_iff_mem.1 hcommand
  -- letters behind a dash
  | case8 a w ws f rest hletters a' hact ih =>
    obtain ⟨hw, hws⟩ := List.forall_mem_cons.1 hwords
    rw [hletters] at hw
    exact ih (actTogether_keeps ha (hw f rfl) hact) hws h
  -- a flag with its value
  | case10 a w ws f value hflag htakes a' haccept ih =>
    obtain ⟨hw, hws⟩ := List.forall_mem_cons.1 hwords
    rw [hflag] at hw
    exact ih (accept_keeps ha (hw f rfl) htakes haccept) hws h
  -- a flag with its value in the word behind it
  | case13 a w f hflag htakes value rest a' haccept ih =>
    obtain ⟨hw, hws⟩ := List.forall_mem_cons.1 hwords
    rw [hflag] at hw
    exact ih (accept_keeps ha (hw f rfl) htakes haccept) (List.forall_mem_cons.1 hws).2 h
  -- a mark
  | case16 a w ws f hflag htakes a' hact ih =>
    obtain ⟨hw, hws⟩ := List.forall_mem_cons.1 hwords
    rw [hflag] at hw
    exact ih (act_keeps ha (hw f rfl) (Bool.eq_false_iff.2 htakes) hact) hws h
  -- what is refused
  | case4 | case6 | case9 | case11 | case12 | case14 | case15 | case17 => cases h

/-- What is read of a command line is of the grammar. -/
theorem parse_of {arguments : List String} (h : g.parse arguments = .ok b) : b.Of g := by
  rw [parse] at h
  split at h
  · cases h
  · rename_i words hread
    exact consume_keeps empty_of (readWords_knows hread) h

end Grammar

/-! ## The value of a flag -/

/-- A number that is given is there: it has not been dropped for not being one. -/
theorem Arguments.Of.number_of_has {g : Grammar} {a : Arguments} (ha : a.Of g) {name : String}
    (hnumber : ∀ f ∈ g.flags, name ∈ f.names → f.kind = .number) (h : a.has name = true) :
    ∃ n, a.number? name = some n := by
  have hfound : (a.given.reverse.find? fun e => e.1.names.contains name).isSome := by
    rw [List.find?_isSome]
    obtain ⟨e, he, hname⟩ := List.any_eq_true.1 h
    exact ⟨e, List.mem_reverse.2 he, hname⟩
  obtain ⟨e, he⟩ := Option.isSome_iff_exists.1 hfound
  have hname : name ∈ e.1.names := by simpa using List.find?_some he
  have hgiven : e ∈ a.given := List.mem_reverse.1 (List.mem_of_find?_eq_some he)
  cases ha.given e hgiven with
  | mark hmem hkind =>
    rw [hnumber _ hmem hname] at hkind
    cases hkind
  | text hmem hkind =>
    rw [hnumber _ hmem hname] at hkind
    cases hkind
  | @number _ _ _ value n hvalue =>
    refine ⟨n, ?_⟩
    rw [number?, value?, he]
    exact hvalue

end Reckoner.CommandLine
