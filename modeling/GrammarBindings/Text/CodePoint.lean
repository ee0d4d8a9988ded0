/-!
# Code points

The contents that are to be written may hold surrogates, which are code points but no characters.
Only contents without them are texts and have an encoding.
-/

namespace GrammarBindings

inductive CodePoint where
  | character (c : Char)
  /-- The code point `0xD800 + n`. -/
  | surrogate (n : Fin 0x800)
  deriving DecidableEq, Repr

namespace CodePoint

variable {ps : List CodePoint} {cs : List Char}

def ofText (s : String) : List CodePoint := s.toList.map character

def characters? : List CodePoint → Option (List Char)
  | [] => some []
  | character c :: ps => (characters? ps).map (c :: ·)
  | surrogate _ :: _ => none

/-- The UTF-8 encoding, unless there is a surrogate. -/
def encode? (ps : List CodePoint) : Option ByteArray :=
  (characters? ps).map fun cs => (String.ofList cs).toUTF8

end CodePoint
end GrammarBindings
