/-!
# UTF-8

Strict reading: overlong forms, surrogates, values past the last code point and cut sequences are
refused, and the refusal names the offset at which the offending sequence begins.
-/

namespace GrammarBindings.Text

/-- The characters from offset `i` on, or the offset of the first sequence that encodes none. -/
def decodeFrom (bytes : ByteArray) (i : Nat) : Except Nat (List Char) :=
  if i < bytes.size then
    match bytes.utf8DecodeChar? i with
    | some c =>
      match decodeFrom bytes (i + c.utf8Size) with
      | .ok cs => .ok (c :: cs)
      | .error at_ => .error at_
    | none => .error i
  else .ok []
termination_by bytes.size - i
decreasing_by
  have := c.utf8Size_pos
  omega

def decode (bytes : ByteArray) : Except Nat String := (decodeFrom bytes 0).map String.ofList

/-- Reads every line end, whether CR LF or CR alone, as a line feed. -/
def unifyLineEnds : List Char → List Char
  | '\r' :: '\n' :: cs => '\n' :: unifyLineEnds cs
  | '\r' :: cs => '\n' :: unifyLineEnds cs
  | c :: cs => c :: unifyLineEnds cs
  | [] => []

/-- Reads CR LF as a line feed and leaves a lone CR alone. -/
def foldCrLf : List Char → List Char
  | '\r' :: '\n' :: cs => '\n' :: foldCrLf cs
  | c :: cs => c :: foldCrLf cs
  | [] => []

end GrammarBindings.Text
