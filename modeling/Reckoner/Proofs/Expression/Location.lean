import Reckoner.Proofs.Expression.Fault
/-!
Where reading stops.

A text is read by scanning a token, then another where it ends, and so on. Each step goes on, so reading
ends, and no fault lies in a part that is stepped over, so it ends behind the text or at its first fault.
What has been read then is the text up to that place, cut into tokens without gaps, and no number among
them was cut short. What is told is the character at that place, if it stands in no expression, or else
the whole literal that begins there.

What is shown here:
1. `Token.at?_eq_some_iff`: what is found at a position;
2. `Reading.readFrom_reaches`: reading goes from place to place up to the end or to a fault, and steps over
   none;
3. `Reading.read_located`: what has been read, when reading completes, and where it stops otherwise.
-/

namespace Reckoner

namespace Token

variable {cs : List Char} {position : Nat}

/-- What the scanner finds at a position: a token and the position behind it, or a cause to stop. -/
inductive Found (cs : List Char) (position : Nat) : Except EvalError (Token × Nat) → Prop
  | token {c : Char} {tail rest : List Char} {l : Lexeme} (hdrop : cs.drop position = c :: tail)
    (hscan : scan (characterBefore cs position) position c tail = .ok (l, rest)) :
    Found cs position (.ok (⟨l, position⟩, position + l.text.length))
  | cause {c : Char} {tail : List Char} {e : EvalError} (hdrop : cs.drop position = c :: tail)
    (hscan : scan (characterBefore cs position) position c tail = .error e) :
    Found cs position (.error e)

theorem at?_eq_some_iff {r : Except EvalError (Token × Nat)} :
    at? cs position = some r ↔ Found cs position r := by
  constructor
  · intro h
    unfold at? at h
    split at h
    · cases h
    · rename_i hdrop
      split at h
      · rename_i hscan
        cases h
        exact .cause hdrop hscan
      · rename_i hscan
        cases h
        exact .token hdrop hscan
  · rintro (⟨hdrop, hscan⟩ | ⟨hdrop, hscan⟩)
    · simp only [at?, hdrop, hscan]
    · simp only [at?, hdrop, hscan]

theorem exists_found (h : position < cs.length) : ∃ r, Found cs position r := by
  cases hdrop : cs.drop position with
  | nil => exact absurd (List.drop_eq_nil_iff.1 hdrop) (by omega)
  | cons c tail =>
    cases hscan : scan (characterBefore cs position) position c tail with
    | error e => exact ⟨_, .cause hdrop hscan⟩
    | ok found => exact ⟨_, .token hdrop hscan⟩

/-- A token is the part of a text behind its position, and if it is a number, the text goes on with no
digit or point. -/
structure Sliced (cs : List Char) (t : Token) : Prop where
  nonempty : t.lexeme.text ≠ []
  slice : t.lexeme.text = (cs.drop t.position).take t.lexeme.text.length
  maximal : ∀ text, t.lexeme = .number text →
    ∀ c ∈ cs[t.position + text.length]?, isNumberChar c = false

theorem sliced_of_at? {t : Token} {next : Nat} (h : at? cs position = some (.ok (t, next))) :
    t.Sliced cs ∧ t.position = position ∧ next = position + t.lexeme.text.length ∧
      next ≤ cs.length := by
  cases at?_eq_some_iff.1 h with
  | @token c tail rest l hdrop hscan =>
    have htext : cs.drop position = l.text ++ rest := by rw [hdrop, scan_append hscan]
    have hlength := congrArg List.length htext
    rw [List.length_drop, List.length_append] at hlength
    have hne := List.length_pos_iff.2 (scan_nonempty hscan)
    refine ⟨⟨scan_nonempty hscan, ?_, fun text hl d hd => ?_⟩, rfl, rfl, by omega⟩
    · rw [htext, List.take_left]
    · obtain rfl : l = .number text := hl
      have hhead : rest.head? = some d := by
        rw [← (behind_scan hdrop hscan).1, List.head?_drop]
        exact hd
      exact (scans_of_scan hscan).number.2 d hhead

theorem characterBefore_eq (h : position ≤ cs.length) :
    characterBefore cs position = (cs.take position).getLast? := by
  rw [characterBefore, List.getLast?_take]
  split
  · rfl
  · rw [List.getElem?_eq_getElem (by omega)]
    rfl

end Token

namespace Reading

/-- Tokens found from one position on up to another, each where the one before it ends. -/
inductive Steps (cs : List Char) : Nat → List Token → Nat → Prop
  | done (position : Nat) : Steps cs position [] position
  | step {position next stop : Nat} {t : Token} {ts : List Token}
    (hfound : Token.at? cs position = some (.ok (t, next))) (hrest : Steps cs next ts stop) :
    Steps cs position (t :: ts) stop

namespace Steps

variable {cs : List Char} {position stop : Nat} {ts : List Token}

theorem sliced (h : Steps cs position ts stop) : ∀ t ∈ ts, t.Sliced cs := by
  induction h with
  | done => exact List.forall_mem_nil _
  | step hfound _ ih => exact List.forall_mem_cons.2 ⟨(Token.sliced_of_at? hfound).1, ih⟩

theorem placed (h : Steps cs position ts stop) : Placed position ts := by
  induction h with
  | done => exact eq_place_iff.1 rfl
  | step hfound _ ih =>
    obtain ⟨-, hposition, hnext, -⟩ := Token.sliced_of_at? hfound
    rw [hnext] at ih
    exact placed_cons.2 ⟨hposition, ih⟩

theorem take_eq (h : Steps cs position ts stop) :
    cs.take stop = cs.take position ++ concat ts := by
  induction h with
  | done => exact (List.append_nil _).symm
  | @step position next stop t ts hfound _ ih =>
    obtain ⟨hsliced, hposition, hnext, -⟩ := Token.sliced_of_at? hfound
    have hslice := hsliced.slice
    rw [hposition] at hslice
    rw [ih, hnext, List.take_add, ← hslice, List.append_assoc]
    rfl

end Steps

/-- Where reading has got to: nothing is wrong from a position up to there, and there the text ends or a
fault begins, which the scanner finds. -/
structure Reaches (cs : List Char) (position : Nat) (r : Reading) (stop : Nat) : Prop where
  steps : Steps cs position r.tokens stop
  inside : stop ≤ cs.length
  sound : ∀ q, position ≤ q → q < stop → ¬FaultAt cs q
  completed : r.stoppedBy = none → stop = cs.length
  stopped : ∀ e, r.stoppedBy = some e → Token.at? cs stop = some (.error e) ∧ FaultAt cs stop

/-- From a place where the scanner can be, reading goes from token to token up to the end of the text or
to a fault, and steps over none. -/
theorem readFrom_reaches {cs : List Char} {position : Nat} (hinside : position ≤ cs.length)
    (hb : Boundary (cs.take position) (cs.drop position)) :
    ∃ stop, Reaches cs position
      (readFrom (Token.characterBefore cs position) position (cs.drop position)) stop := by
  -- on what is left of the text: behind each token is another such place, `boundary_of_scan`
  induction hn : cs.length - position using Nat.strongRecOn generalizing position with
  | ind n ih =>
    subst hn
    cases hdrop : cs.drop position with
    | nil =>
      have hend : position = cs.length := le_antisymm hinside (List.drop_eq_nil_iff.1 hdrop)
      rw [readFrom]
      exact ⟨position, .done position, hinside, fun q _ _ => by omega, fun _ => hend,
        fun _ hsome => absurd hsome.symm (Option.some_ne_none _)⟩
    | cons c tail =>
      rw [hdrop] at hb
      cases hscan : scan (Token.characterBefore cs position) position c tail with
      | error e =>
        rw [readFrom_error hscan]
        refine ⟨position, .done position, hinside, fun q _ _ => by omega,
          fun hnone => absurd hnone (Option.some_ne_none e), ?_⟩
        rintro _ ⟨⟩
        refine ⟨Token.at?_eq_some_iff.2 (.cause hdrop hscan), ?_⟩
        rw [Token.characterBefore_eq hinside] at hscan
        rw [FaultAt, hdrop]
        exact fault_of_scan hb hscan
      | ok found =>
        obtain ⟨l, rest⟩ := found
        have hfound := Token.at?_eq_some_iff.2 (.token hdrop hscan)
        obtain ⟨-, -, -, hnext⟩ := Token.sliced_of_at? hfound
        obtain ⟨hrest, hlast⟩ := Token.behind_scan hdrop hscan
        have htext : cs.drop position = l.text ++ rest := by rw [hdrop, scan_append hscan]
        have hpos := List.length_pos_iff.2 (scan_nonempty hscan)
        have htake : cs.take (position + l.text.length) = cs.take position ++ l.text := by
          rw [List.take_add, htext, List.take_left]
        rw [readFrom_ok hscan]
        rw [Token.characterBefore_eq hinside] at hscan
        have hbehind := boundary_of_scan hscan
        rw [← htake, ← hrest] at hbehind
        obtain ⟨stop, hreaches⟩ := ih _ (by omega) hnext hbehind rfl
        rw [hlast, hrest] at hreaches
        refine ⟨stop, .step hfound hreaches.steps, hreaches.inside, fun q hq hstop => ?_,
          hreaches.completed, hreaches.stopped⟩
        by_cases hnear : q < position + l.text.length
        · -- inside the token: what the text has before `q` and from `q` on is cut out of it
          obtain ⟨j, rfl⟩ := Nat.exists_eq_add_of_le hq
          have hj : j < l.text.length := by omega
          have hbehind : l.text.drop j ≠ [] := by
            rw [ne_eq, List.drop_eq_nil_iff]
            omega
          rw [FaultAt, List.take_add, ← List.drop_drop, htext,
            List.take_append_of_le_length hj.le, List.drop_append_of_le_length hj.le]
          exact not_fault_of_token hb hscan (List.take_append_drop j l.text).symm hbehind
        · exact hreaches.sound q (by omega) hstop

/-- What reading a text yields and where it stops. -/
structure Located (cs : List Char) (stop : Nat) : Prop where
  /-- Inside a text the scanner fails, or it goes on, and not beyond the end. -/
  advances : ∀ position < cs.length, (∃ e, Token.at? cs position = some (.error e)) ∨
    ∃ t next, Token.at? cs position = some (.ok (t, next)) ∧ position < next ∧ next ≤ cs.length
  /-- The tokens are found one after the other, and reading stops behind the last. -/
  steps : Steps cs 0 (read cs).tokens stop
  placed : Placed 0 (read cs).tokens
  sliced : ∀ t ∈ (read cs).tokens, t.Sliced cs
  /-- Together they are the text up to there. -/
  covered : stop ≤ cs.length ∧ concat (read cs).tokens = cs.take stop
  completes : (read cs).stoppedBy = none ↔ Faultless cs
  ended : (read cs).stoppedBy = none ↔ stop = cs.length
  /-- What stops reading is found there, at the first fault. -/
  first : ∀ e, (read cs).stoppedBy = some e →
    Token.at? cs stop = some (.error e) ∧ FaultAt cs stop ∧ ∀ q < stop, ¬FaultAt cs q
  /-- It is the character there, if that stands in no expression, or else the whole literal. -/
  told : ∀ e, (read cs).stoppedBy = some e → ∃ c rest, cs.drop stop = c :: rest ∧
    e = if c ∈ alphabet then .numberFormat (c :: rest.takeWhile isNumberChar)
      else .invalidCharacter c stop

/-- Reading a text ends. It ends behind the text exactly if the text is faultless, and otherwise it stops
at the first fault, tells of it, and has read the text up to there. -/
theorem read_located (cs : List Char) : Located cs (concat (read cs).tokens).length := by
  have hb : Boundary (cs.take 0) (cs.drop 0) := by
    rw [List.take_zero]
    refine ⟨nofun, ?_⟩
    rintro ⟨earlier, hsplit, -⟩
    exact absurd hsplit (by simp)
  obtain ⟨stop, h⟩ := readFrom_reaches (Nat.zero_le cs.length) hb
  have hread : readFrom (Token.characterBefore cs 0) 0 (cs.drop 0) = read cs := rfl
  rw [hread] at h
  have hcovered : concat (read cs).tokens = cs.take stop := by
    rw [h.steps.take_eq, List.take_zero, List.nil_append]
  have hstop : (concat (read cs).tokens).length = stop := by
    rw [hcovered, List.length_take, Nat.min_eq_left h.inside]
  rw [hstop]
  have hfirst : ∀ q < stop, ¬FaultAt cs q := fun q hq => h.sound q (Nat.zero_le q) hq
  have hbeyond : ∀ q, cs.length ≤ q → ¬FaultAt cs q := by
    intro q hq hfault
    rw [FaultAt, List.drop_eq_nil_of_le hq] at hfault
    exact not_fault_of_nil hfault
  refine {
    advances := fun position hposition => ?_
    steps := h.steps
    placed := h.steps.placed
    sliced := h.steps.sliced
    covered := ⟨h.inside, hcovered⟩
    completes := ?_
    ended := ?_
    first := fun e he => ⟨(h.stopped e he).1, (h.stopped e he).2, hfirst⟩
    told := fun e he => ?_ }
  · obtain ⟨r, hr⟩ := Token.exists_found hposition
    cases r with
    | error e => exact .inl ⟨e, Token.at?_eq_some_iff.2 hr⟩
    | ok found =>
      obtain ⟨t, next⟩ := found
      have hfound := Token.at?_eq_some_iff.2 hr
      obtain ⟨hsliced, -, hnext, hle⟩ := Token.sliced_of_at? hfound
      have hpos := List.length_pos_iff.2 hsliced.nonempty
      exact .inr ⟨t, next, hfound, by omega, hle⟩
  · rw [faultless_iff]
    constructor
    · intro hnone q
      rcases lt_or_ge q stop with hq | hq
      · exact hfirst q hq
      · exact hbeyond q (by rwa [h.completed hnone] at hq)
    · intro hfaultless
      by_contra hsome
      obtain ⟨e, he⟩ := Option.ne_none_iff_exists'.1 hsome
      exact hfaultless stop (h.stopped e he).2
  · refine ⟨h.completed, fun hend => ?_⟩
    by_contra hsome
    obtain ⟨e, he⟩ := Option.ne_none_iff_exists'.1 hsome
    exact hbeyond stop hend.ge (h.stopped e he).2
  · cases Token.at?_eq_some_iff.1 (h.stopped e he).1 with
    | cause hdrop hscan => exact ⟨_, _, hdrop, (fails_of_scan hscan).eq_ite⟩

/-- A foreign character, a sign without a number and a bad run: what comes first is told of. -/
example : (read "2*--3+1.2.3$".toList).stoppedBy = some (.numberFormat "-".toList) ∧
    (read "2*-3+1.2.3$".toList).stoppedBy = some (.numberFormat "1.2.3".toList) := by
  decide +kernel

end Reading

end Reckoner
