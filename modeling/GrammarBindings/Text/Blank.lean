import GrammarBindings.Text.CodeRange

/-!
# Blank characters

The white space of Unicode 14, line separators and the four information separators included,
together with the two operations that remove it.
-/

namespace GrammarBindings.Text

def blankRanges : CodeRanges :=
  [(0x9, 0xd), (0x1c, 0x20), (0x85, 0x85), (0xa0, 0xa0), (0x1680, 0x1680), (0x2000, 0x200a),
   (0x2028, 0x2029), (0x202f, 0x202f), (0x205f, 0x205f), (0x3000, 0x3000)]

def isBlank (c : Char) : Bool := blankRanges.contains c.toNat

/-- Removes the characters of a class from both ends. -/
def trimWith (p : Char → Bool) (cs : List Char) : List Char :=
  ((cs.dropWhile p).reverse.dropWhile p).reverse

def trimBlanks (cs : List Char) : List Char := trimWith isBlank cs

theorem length_trimWith_le (p : Char → Bool) (cs : List Char) :
    (trimWith p cs).length ≤ cs.length := by
  have h₁ := (List.dropWhile_sublist p (l := (cs.dropWhile p).reverse)).length_le
  have h₂ := (List.dropWhile_sublist p (l := cs)).length_le
  simp only [trimWith, List.length_reverse] at h₁ ⊢
  omega

/-- Removes every blank, also between other characters. -/
def withoutBlanks (s : String) : String := String.ofList (s.toList.filter fun c => !isBlank c)

end GrammarBindings.Text
