import GrammarBindings.Calendar
import GrammarBindings.Toml.Table

/-!
# TOML scalars

Dates, times, numbers and truth values. Each is recognized at the front of a text, by the longest
form that fits; what it stands for is not computed, except that the date must exist and that an
integer must not have too many digits. Each reader returns the text behind the scalar.
-/

namespace GrammarBindings.Toml

open Text

def isHexDigit (c : Char) : Bool :=
  isAsciiDigit c || ('a' ≤ c && c ≤ 'f') || ('A' ≤ c && c ≤ 'F')

/-- The number of two digits. -/
def twoDigits? (a b : Char) : Option Nat :=
  if isAsciiDigit a && isAsciiDigit b then some (Nat.ofDigitChars 10 [a, b] 0) else none

/-- Two digits that make a number between bounds. -/
def isBetween (lo hi : Nat) (a b : Char) : Bool :=
  match twoDigits? a b with
  | some n => lo ≤ n && n ≤ hi
  | none => false

/-- A fraction of a second, which may be missing. -/
def dropFraction : List Char → List Char
  | '.' :: d :: cs => if isAsciiDigit d then cs.dropWhile isAsciiDigit else '.' :: d :: cs
  | cs => cs

def time? : List Char → Option (List Char)
  | h₁ :: h₂ :: ':' :: m₁ :: m₂ :: ':' :: s₁ :: s₂ :: cs =>
    if isBetween 0 23 h₁ h₂ && isBetween 0 59 m₁ m₂ && isBetween 0 59 s₁ s₂ then
      some (dropFraction cs)
    else none
  | _ => none

/-- The distance from Coordinated Universal Time, which may be missing. -/
def dropOffset : List Char → List Char
  | 'Z' :: cs | 'z' :: cs => cs
  | s :: h₁ :: h₂ :: ':' :: m₁ :: m₂ :: cs =>
    if (s = '+' || s = '-') && isBetween 0 23 h₁ h₂ && isBetween 0 59 m₁ m₂ then cs
    else s :: h₁ :: h₂ :: ':' :: m₁ :: m₂ :: cs
  | cs => cs

/-- The time behind a date, which may be missing. -/
def dropTimeOfDate : List Char → List Char
  | c :: cs =>
    if c = 'T' || c = 't' || c = ' ' then
      match time? cs with
      | some rest => dropOffset rest
      | none => c :: cs
    else c :: cs
  | [] => []

/-- A date that exists, with its time, or the fault of one that does not exist. -/
def date? : List Char → Option (Except Fault (List Char))
  | y₁ :: y₂ :: y₃ :: y₄ :: '-' :: m₁ :: m₂ :: '-' :: d₁ :: d₂ :: cs =>
    if [y₁, y₂, y₃, y₄].all isAsciiDigit && isBetween 1 12 m₁ m₂ && isBetween 1 31 d₁ d₂ then
      let year := Nat.ofDigitChars 10 [y₁, y₂, y₃, y₄] 0
      let month := Nat.ofDigitChars 10 [m₁, m₂] 0
      let day := Nat.ofDigitChars 10 [d₁, d₂] 0
      if 1 ≤ year && day ≤ Calendar.daysInMonth year month then some (.ok (dropTimeOfDate cs))
      else some (.error .malformed)
    else none
  | _ => none

/-- Digits of a class, each of them possibly behind one underscore, and what follows. -/
def digitRun (p : Char → Bool) : List Char → List Char × List Char
  | '_' :: c :: cs =>
    if p c then
      let (ds, rest) := digitRun p cs
      (c :: ds, rest)
    else ([], '_' :: c :: cs)
  | c :: cs =>
    if p c then
      let (ds, rest) := digitRun p cs
      (c :: ds, rest)
    else ([], c :: cs)
  | [] => ([], [])

/-- A run that begins with a digit. -/
def digits? (p : Char → Bool) : List Char → Option (List Char × List Char)
  | c :: cs =>
    if p c then
      let (ds, rest) := digitRun p cs
      some (c :: ds, rest)
    else none
  | [] => none

/-- An integer in base sixteen, eight or two. -/
def basedInteger? : List Char → Option (List Char)
  | '0' :: 'x' :: cs => (digits? isHexDigit cs).map Prod.snd
  | '0' :: 'o' :: cs => (digits? (fun c => '0' ≤ c && c ≤ '7') cs).map Prod.snd
  | '0' :: 'b' :: cs => (digits? (fun c => c = '0' || c = '1') cs).map Prod.snd
  | _ => none

def dropSign : List Char → List Char
  | '+' :: cs | '-' :: cs => cs
  | cs => cs

/-- The digits before the point: a zero, or a run that begins with none. -/
def wholePart? : List Char → Option (List Char × List Char)
  | '0' :: cs => some (['0'], cs)
  | cs => digits? isAsciiDigit cs

def dropDecimals : List Char → List Char
  | '.' :: cs => ((digits? isAsciiDigit cs).map Prod.snd).getD ('.' :: cs)
  | cs => cs

def dropExponent : List Char → List Char
  | c :: cs =>
    if c = 'e' || c = 'E' then ((digits? isAsciiDigit (dropSign cs)).map Prod.snd).getD (c :: cs)
    else c :: cs
  | [] => []

def decimal? (cs : List Char) : Option (Except Fault (List Char)) := do
  let (digits, behind) ← wholePart? (dropSign cs)
  let rest := dropExponent (dropDecimals behind)
  if rest.length = behind.length && maxDigits < digits.length then
    return .error (.numeral (.tooLong digits.length))
  else return .ok rest

/-- What follows a given word at the front of a text. -/
def behindWord? (w : String) (cs : List Char) : Option (List Char) :=
  if w.toList.isPrefixOf cs then some (cs.drop w.length) else none

def specialWords : List String :=
  ["true", "false", "inf", "nan", "+inf", "-inf", "+nan", "-nan"]

def specialWord? (cs : List Char) : Option (List Char) :=
  specialWords.findSome? fun w => behindWord? w cs

/-- Any scalar. Dates come first, because a number is a beginning of theirs. -/
def scalar? (cs : List Char) : Option (Except Fault (List Char)) :=
  (date? cs).or (((time? cs).or (basedInteger? cs)).map .ok) |>.or (decimal? cs)
    |>.or ((specialWord? cs).map .ok)

end GrammarBindings.Toml
