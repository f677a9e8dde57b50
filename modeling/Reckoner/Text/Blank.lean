/-!
White space.

A blank is a character that separates words: the ASCII controls from tab to carriage return, the four
information separators, the space, and the Unicode spaces and separators of lines and paragraphs.

What is shown here: `filter_trimBy`, nothing but characters of its class is trimmed from a text.
-/

namespace Reckoner.Text

/-- The blanks, as ranges of code points, both ends included. -/
def blankRanges : List (Nat × Nat) :=
  [(0x09, 0x0D), (0x1C, 0x20), (0x85, 0x85), (0xA0, 0xA0), (0x1680, 0x1680), (0x2000, 0x200A),
   (0x2028, 0x2029), (0x202F, 0x202F), (0x205F, 0x205F), (0x3000, 0x3000)]

/-- Whether a code point lies in one of the ranges. -/
def inRanges (ranges : List (Nat × Nat)) (n : Nat) : Bool :=
  ranges.any fun r => r.1 ≤ n && n ≤ r.2

def isBlank (c : Char) : Bool := inRanges blankRanges c.toNat

/-- The blanks without the four information separators. -/
def isWhiteSpace (c : Char) : Bool := isBlank c && !(0x1C ≤ c.toNat && c.toNat ≤ 0x1F)

/-- A text without the characters of a class at its two ends. -/
def trimBy (p : Char → Bool) (cs : List Char) : List Char :=
  ((cs.dropWhile p).reverse.dropWhile p).reverse

def trim (cs : List Char) : List Char := trimBy isBlank cs

def isBlankText (s : String) : Bool := s.toList.all isBlank

theorem filter_dropWhile (p : Char → Bool) (cs : List Char) :
    (cs.dropWhile p).filter (fun c => !p c) = cs.filter fun c => !p c := by
  induction cs with
  | nil => rfl
  | cons c cs ih => cases hc : p c <;> simp [hc, ih]

theorem filter_trimBy (p : Char → Bool) (cs : List Char) :
    (trimBy p cs).filter (fun c => !p c) = cs.filter fun c => !p c := by
  rw [trimBy, List.filter_reverse, filter_dropWhile, List.filter_reverse, filter_dropWhile,
    List.reverse_reverse]

end Reckoner.Text
