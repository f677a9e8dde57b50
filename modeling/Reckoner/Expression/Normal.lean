import Reckoner.Expression.Error
import Reckoner.Text.Line
/-!
Normal forms of expressions.

An expression as typed may hold white space, the signs for times and divided by, and the names of two
constants. Its normal form has the white space removed and these spellings replaced, one spelling after
the other.

What is shown here:
1. `removeBlanks_eq_filter`: to put the words together is to leave out the white space;
2. `form_append`: the normal form of a text is made of those of its parts.
-/

namespace Reckoner.Normal

/-- The spellings that are replaced, in order, and what stands for them. -/
def spellings : List (Char × List Char) :=
  [('×', ['*']), ('÷', ['/']), ('π', "3.141592653589793".toList), ('e', "2.718281828459045".toList)]

/-- Every occurrence of a character replaced by a text. -/
def replace (c : Char) (text cs : List Char) : List Char :=
  cs.flatMap fun d => if d = c then text else [d]

/-- The words of a text that is trimmed, put together. Proofs use `removeBlanks_eq_filter`. -/
@[irreducible] def removeBlanks (cs : List Char) : List Char := (Text.words (Text.trim cs)).flatten

/-- An expression without white space, with every spelling replaced in turn. -/
def form (cs : List Char) : List Char :=
  spellings.foldl (fun cs s => replace s.1 s.2 cs) (removeBlanks cs)

/-- The normal form of an expression that is not empty. -/
def form? (s : String) : Except EvalError (List Char) :=
  match form s.toList with
  | [] => .error .emptyExpression
  | cs => .ok cs

theorem replace_append (c : Char) (text xs ys : List Char) :
    replace c text (xs ++ ys) = replace c text xs ++ replace c text ys := List.flatMap_append

/-- The blanks at the ends and those between the words are the same ones. -/
theorem removeBlanks_eq_filter (cs : List Char) :
    removeBlanks cs = cs.filter fun c => !Text.isBlank c := by
  rw [removeBlanks, Text.flatten_words, Text.trim, Text.filter_trimBy]

theorem removeBlanks_append (xs ys : List Char) :
    removeBlanks (xs ++ ys) = removeBlanks xs ++ removeBlanks ys := by
  simp [removeBlanks_eq_filter]

theorem form_append (xs ys : List Char) : form (xs ++ ys) = form xs ++ form ys := by
  simp [form, spellings, replace_append, removeBlanks_append]

end Reckoner.Normal
