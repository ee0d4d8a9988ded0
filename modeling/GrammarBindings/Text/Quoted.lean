import GrammarBindings.Text.Printable

/-!
# Quoted text in messages

A text is shown between apostrophes, or between quotation marks when it holds an apostrophe and
no quotation mark. The mark in use and the backslash are escaped; so is every character that
would leave no mark of its own, by its code in the shortest of three widths.
-/

namespace GrammarBindings.Text

def apostrophe : Char := '\x27'

def quotationMark : Char := '\x22'

def enclosingMark (cs : List Char) : Char :=
  if apostrophe ∈ cs ∧ quotationMark ∉ cs then quotationMark else apostrophe

/-- The lower-case hexadecimal digits of a number, filled with zeros to a width. -/
def hexDigits (width n : Nat) : List Char :=
  let digits := Nat.toDigits 16 n
  List.replicate (width - digits.length) '0' ++ digits

def escapeCode (n : Nat) : List Char :=
  if n < 0x100 then '\\' :: 'x' :: hexDigits 2 n
  else if n < 0x10000 then '\\' :: 'u' :: hexDigits 4 n
  else '\\' :: 'U' :: hexDigits 8 n

def quoteChar (mark c : Char) : List Char :=
  if c = mark ∨ c = '\\' then ['\\', c]
  else if c = '\t' then ['\\', 't']
  else if c = '\n' then ['\\', 'n']
  else if c = '\r' then ['\\', 'r']
  else if isPrintable c then [c]
  else escapeCode c.toNat

def quoteChars (cs : List Char) : List Char :=
  let mark := enclosingMark cs
  mark :: cs.flatMap (quoteChar mark) ++ [mark]

def quote (s : String) : String := String.ofList (quoteChars s.toList)

/-- The quoted text cut to a number of characters, the closing mark included in the count. -/
def quoteWithin (limit : Nat) (s : String) : String :=
  String.ofList ((quoteChars s.toList).take limit)

end GrammarBindings.Text
