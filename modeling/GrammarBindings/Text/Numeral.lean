import GrammarBindings.Text.Blank
import GrammarBindings.Text.Digit
import GrammarBindings.Text.Quoted

/-!
# Numerals

Integers written in decimal digits of any script. A bare numeral is a run of digits, as it occurs
in a grammar or at the end of a category name; a signed numeral may stand between blanks, carry a
sign, and group its digits by single underscores. Long numerals are refused before their value is
computed, so reading never takes more than a bounded time.
-/

namespace GrammarBindings.Text

/-- The longest run of digits that is read. -/
def maxDigits : Nat := 4300

inductive NumeralFault where
  | tooLong (digits : Nat)
  | malformed (text : String)
  deriving DecidableEq, Repr

namespace NumeralFault

def message : NumeralFault → String
  | tooLong digits =>
    "Exceeds the limit (4300 digits) for integer string conversion: value has " ++
      toString digits ++ " digits; use sys.set_int_max_str_digits() to increase the limit"
  | malformed text => "invalid literal for int() with base 10: " ++ quoteWithin 200 text

end NumeralFault

/-- The number with the given decimal digits, the most significant first. -/
def ofDecimals (ds : List Nat) : Nat := ds.foldl (fun n d => 10 * n + d) 0

/-- Reads digits of any script. The decimal digits in front are counted before the first digit of
another kind is refused. -/
def readDigits (cs : List Char) : Except NumeralFault Nat :=
  let decimals := cs.takeWhile isDecimal
  if maxDigits < decimals.length then .error (.tooLong decimals.length)
  else if cs.isEmpty || !cs.all isDecimal then .error (.malformed (String.ofList cs))
  else .ok (ofDecimals (cs.filterMap decimalValue?))

/-- Reads ASCII digits only, which are given as such. -/
def readAsciiDigits (cs : List Char) : Except NumeralFault Nat :=
  if maxDigits < cs.length then .error (.tooLong cs.length) else .ok (Nat.ofDigitChars 10 cs 0)

/-- The blanks that may surround a signed numeral: all but the information separators. -/
def isNumeralMargin (c : Char) : Bool := isBlank c && !(0x1c ≤ c.toNat && c.toNat ≤ 0x1f)

/-- The digits of groups joined by single underscores. -/
def ungroup? (cs : List Char) : Option (List Char) :=
  let groups := cs.splitOn '_'
  if groups.all fun g => !g.isEmpty && g.all isDecimal then some groups.flatten else none

/-- Reads a signed numeral, or nothing where the text is none or has too many digits. -/
def readSigned? (s : String) : Option Int :=
  match trimWith isNumeralMargin s.toList with
  | '-' :: cs => (natural? cs).map fun n => -(n : Int)
  | '+' :: cs => (natural? cs).map Int.ofNat
  | cs => (natural? cs).map Int.ofNat
where
  natural? (cs : List Char) : Option Nat :=
    (ungroup? cs).bind fun ds =>
      if maxDigits < ds.length then none else some (ofDecimals (ds.filterMap decimalValue?))

end GrammarBindings.Text
