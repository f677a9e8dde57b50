import Mathlib.Data.Bool.AllAny
import Mathlib.Data.List.Basic
import Reckoner.Proofs.Expression.Settling
import Reckoner.Expression.Evaluation
/-!
Normal forms by substitution.

Each of the passes that make a normal form goes over a whole text, over what the passes before it have put
in as well. None finds anything there that it replaces, so together they put one text for each character
of the expression as typed, whatever stands around it. What is put in stands for itself when it is typed,
and white space and the two other signs are not seen any more behind the normal form.

What is shown here:
1. `foldl_replace`: passes make one substitution if what one puts in holds nothing that a later one
   replaces;
2. `form_eq_flatMap`: a normal form is a substitution;
3. `form_form` and `form_of_respelled`: a normal form is its own, and it does not tell white space and the
   spelling of signs apart;
4. `substitutes`: what that means for the values of expressions.
-/

namespace Reckoner

namespace Normal

/-- What stands for a character of an expression as typed. -/
def substitute (c : Char) : List Char :=
  if Text.isBlank c then []
  else
    match c with
    | '×' => ['*']
    | '÷' => ['/']
    | 'π' => "3.141592653589793".toList
    | 'e' => "2.718281828459045".toList
    | _ => [c]

/-! ## Passes and substitutions -/

theorem flatMap_eq_self {f : Char → List Char} {cs : List Char} (h : ∀ c ∈ cs, f c = [c]) :
    cs.flatMap f = cs := by rw [List.flatMap_congr h, List.flatMap_singleton']

/-- Passes make one substitution if what one puts in holds nothing that a later one replaces. -/
theorem foldl_replace {all : List (Char × List Char)} (h : all.Pairwise fun s t => t.1 ∉ s.2)
    (cs : List Char) :
    all.foldl (fun cs s => replace s.1 s.2 cs) cs = cs.flatMap fun c => (all.lookup c).getD [c] := by
  induction all generalizing cs with
  | nil => simp
  | cons s all ih =>
    obtain ⟨hlater, hrest⟩ := List.pairwise_cons.1 h
    rw [List.foldl_cons, ih hrest, replace, List.flatMap_assoc]
    congr 1
    funext c
    by_cases hc : c = s.1
    · -- what is put in passes the later ones unchanged
      have hkept : ∀ d ∈ s.2, (all.lookup d).getD [d] = [d] := by
        intro d hd
        rw [List.lookup_eq_none_iff.2 fun t ht => ?_]
        · rfl
        · exact bne_iff_ne.2 fun heq => hlater t ht (heq ▸ hd)
      rw [if_pos hc, flatMap_eq_self hkept, hc, List.lookup_cons_self]
      rfl
    · have hskip : List.lookup c (s :: all) = all.lookup c := by
        rw [List.lookup_cons, beq_eq_false_iff_ne.2 hc]
      rw [if_neg hc, hskip, List.flatMap_singleton]

theorem substitute_of_isBlank {c : Char} (h : Text.isBlank c = true) : substitute c = [] := by
  unfold substitute
  rw [if_pos h]

theorem substitute_of_not_isBlank {c : Char} (h : Text.isBlank c = false) :
    substitute c = (spellings.lookup c).getD [c] := by
  unfold substitute
  rw [if_neg (Bool.eq_false_iff.1 h)]
  split
  · rfl
  · rfl
  · rfl
  · rfl
  · rename_i htimes hover hpi he
    have hnone : spellings.lookup c = none := by
      rw [List.lookup_eq_none_iff]
      simp only [spellings, List.forall_mem_cons, bne_iff_ne]
      exact ⟨htimes, hover, hpi, he, List.forall_mem_nil _⟩
    rw [hnone]
    rfl

/-- A normal form has for each character the text that stands for it. -/
theorem form_eq_flatMap (cs : List Char) : form cs = cs.flatMap substitute := by
  have hpasses : spellings.Pairwise fun s t => t.1 ∉ s.2 := by decide
  rw [form, foldl_replace hpasses, removeBlanks_eq_filter]
  induction cs with
  | nil => rfl
  | cons c cs ih =>
    cases hblank : Text.isBlank c with
    | true => simpa [hblank, substitute_of_isBlank hblank] using ih
    | false => simpa [hblank, substitute_of_not_isBlank hblank] using ih

theorem form_of_plain {cs : List Char} (h : ∀ c ∈ cs, substitute c = [c]) : form cs = cs := by
  rw [form_eq_flatMap, flatMap_eq_self h]

theorem form_singleton {c : Char} (h : substitute c = [c]) : form [c] = [c] :=
  form_of_plain (List.forall_mem_singleton.2 h)

/-! ## Normal forms of normal forms -/

theorem substitute_cases (c : Char) :
    substitute c = [c] ∨ substitute c = [] ∨ ∃ s ∈ spellings, substitute c = s.2 := by
  cases hblank : Text.isBlank c with
  | true => exact .inr (.inl (substitute_of_isBlank hblank))
  | false =>
    rw [substitute_of_not_isBlank hblank]
    cases hlookup : spellings.lookup c with
    | none => exact .inl rfl
    | some text =>
      obtain ⟨before, after, hsplit, -⟩ := List.lookup_eq_some_iff.1 hlookup
      exact .inr (.inr ⟨(c, text), by rw [hsplit]; simp, rfl⟩)

theorem substitute_of_mem {c d : Char} (h : d ∈ substitute c) : substitute d = [d] := by
  have hput : ∀ d ∈ spellings.flatMap (·.2), substitute d = [d] :=
    List.all_iff_forall_prop.1 (by decide)
  rcases substitute_cases c with hself | hnone | ⟨s, hs, htext⟩
  · rw [hself] at h
    obtain rfl := List.mem_singleton.1 h
    exact hself
  · rw [hnone] at h
    exact absurd h List.not_mem_nil
  · rw [htext] at h
    exact hput d (List.mem_flatMap.2 ⟨s, hs, h⟩)

theorem substitute_of_mem_form {cs : List Char} {d : Char} (h : d ∈ form cs) : substitute d = [d] := by
  rw [form_eq_flatMap] at h
  obtain ⟨c, -, hd⟩ := List.mem_flatMap.1 h
  exact substitute_of_mem hd

theorem substitute_eq_nil_iff {c : Char} : substitute c = [] ↔ Text.isBlank c = true := by
  constructor
  · intro h
    unfold substitute at h
    split at h
    · rename_i hblank
      exact hblank
    · split at h <;> exact absurd h (List.cons_ne_nil _ _)
  · exact substitute_of_isBlank

theorem form_eq_nil_iff {cs : List Char} : form cs = [] ↔ cs.all Text.isBlank = true := by
  rw [form_eq_flatMap, List.flatMap_eq_nil_iff, List.all_eq_true]
  simp only [substitute_eq_nil_iff]

theorem form_form (cs : List Char) : form (form cs) = form cs :=
  form_of_plain fun _ => substitute_of_mem_form

theorem form?_eq_ok_iff {s : String} {cs : List Char} :
    form? s = .ok cs ↔ cs ≠ [] ∧ form s.toList = cs := by
  unfold form?
  split
  · rename_i hform
    rw [hform]
    exact iff_of_false nofun fun h => h.1 h.2.symm
  · rename_i hform
    rw [Except.ok.injEq]
    exact ⟨fun h => ⟨h ▸ hform, h⟩, fun h => h.2⟩

/-- An expression of nothing but white space is empty, and any other has its substitution for a normal
form. -/
theorem form?_eq (s : String) :
    form? s =
      if Text.isBlankText s then .error .emptyExpression else .ok (s.toList.flatMap substitute) := by
  split
  · rename_i hblank
    have hform : form s.toList = [] := form_eq_nil_iff.2 hblank
    simp only [form?, hform]
  · rename_i hblank
    exact form?_eq_ok_iff.2
      ⟨fun h => hblank (form_eq_nil_iff.1 ((form_eq_flatMap _).trans h)), form_eq_flatMap _⟩

theorem form?_form? {s : String} {cs : List Char} (h : form? s = .ok cs) :
    form? (String.ofList cs) = .ok cs := by
  obtain ⟨hne, rfl⟩ := form?_eq_ok_iff.1 h
  rw [form?_eq_ok_iff, String.toList_ofList]
  exact ⟨hne, form_form _⟩

/-! ## Other spellings of an expression -/

/-- Two characters are the same, or they are the two spellings of one sign. -/
def Alike (c d : Char) : Prop :=
  c = d ∨ c ∈ ['*', '×'] ∧ d ∈ ['*', '×'] ∨ c ∈ ['/', '÷'] ∧ d ∈ ['/', '÷']

/-- Two texts differ only in white space and in the spelling of signs. -/
inductive Respelled : List Char → List Char → Prop
  | nil : Respelled [] []
  | blankLeft {c : Char} {xs ys : List Char} (h : Text.isBlank c = true) (hrest : Respelled xs ys) :
    Respelled (c :: xs) ys
  | blankRight {c : Char} {xs ys : List Char} (h : Text.isBlank c = true) (hrest : Respelled xs ys) :
    Respelled xs (c :: ys)
  | both {c d : Char} {xs ys : List Char} (h : Alike c d) (hrest : Respelled xs ys) :
    Respelled (c :: xs) (d :: ys)

theorem substitute_of_alike {c d : Char} (h : Alike c d) : substitute c = substitute d := by
  have htimes : ∀ c ∈ ['*', '×'], substitute c = ['*'] := List.all_iff_forall_prop.1 (by decide)
  have hover : ∀ c ∈ ['/', '÷'], substitute c = ['/'] := List.all_iff_forall_prop.1 (by decide)
  rcases h with rfl | ⟨hc, hd⟩ | ⟨hc, hd⟩
  · rfl
  · rw [htimes c hc, htimes d hd]
  · rw [hover c hc, hover d hd]

theorem form_of_respelled {xs ys : List Char} (h : Respelled xs ys) : form xs = form ys := by
  rw [form_eq_flatMap, form_eq_flatMap]
  induction h with
  | nil => rfl
  | blankLeft hc _ ih => rw [List.flatMap_cons, substitute_of_isBlank hc, List.nil_append, ih]
  | blankRight hc _ ih => rw [List.flatMap_cons, substitute_of_isBlank hc, List.nil_append, ih]
  | both hcd _ ih => rw [List.flatMap_cons, List.flatMap_cons, substitute_of_alike hcd, ih]

/-! ## The values of expressions -/

theorem evaluate_of_form? {s t : String} (h : form? s = form? t) : evaluate s = evaluate t := by
  rw [evaluate, evaluate, h]

theorem bind_evaluate_form? (s : String) :
    (form? s >>= fun cs => evaluate (String.ofList cs)) = evaluate s := by
  cases hform : form? s with
  | error e =>
    rw [evaluate, hform]
    rfl
  | ok cs =>
    have hsame : form? (String.ofList cs) = form? s := (form?_form? hform).trans hform.symm
    simp only [bind, Except.bind]
    exact evaluate_of_form? hsame

/-- A normal form is one substitution, character by character: there is none of an expression of white
space only, and else every character is replaced by what stands for it, once. So a normal form is its own
and has the value of the expression, and expressions that differ only in white space and in the spelling of
signs have the same value or fail for the same cause. -/
theorem substitutes :
    (∀ s : String, form? s =
      if Text.isBlankText s then .error .emptyExpression else .ok (s.toList.flatMap substitute)) ∧
    (∀ s cs, form? s = .ok cs → form? (String.ofList cs) = .ok cs) ∧
    (∀ s, (form? s >>= fun cs => evaluate (String.ofList cs)) = evaluate s) ∧
    ∀ s t : String, Respelled s.toList t.toList → evaluate s = evaluate t := by
  refine ⟨form?_eq, fun s cs => form?_form?, bind_evaluate_form?, fun s t h => evaluate_of_form? ?_⟩
  unfold form?
  rw [form_of_respelled h]

/-- Twice pi in two spellings, the second with white space in it. -/
theorem substitutes_of_twice_pi :
    Respelled "2*π".toList "2 × π\t".toList ∧
      form? "2 × π\t" = .ok "2*3.141592653589793".toList ∧
        form? "2*3.141592653589793" = .ok "2*3.141592653589793".toList ∧
          evaluate "2*π" = evaluate "2 × π\t" := by
  have halike : Alike '*' '×' := .inr (.inl (by decide))
  have hrespelled : Respelled "2*π".toList "2 × π\t".toList :=
    .both (.inl rfl) <| .blankRight (by decide) <| .both halike <| .blankRight (by decide) <|
      .both (.inl rfl) <| .blankRight (by decide) .nil
  have hform : form? "2 × π\t" = .ok "2*3.141592653589793".toList :=
    (substitutes.1 _).trans (eq_ok_of_toOption (by decide))
  exact ⟨hrespelled, hform, substitutes.2.1 _ _ hform, substitutes.2.2.2 _ _ hrespelled⟩

end Normal

end Reckoner
