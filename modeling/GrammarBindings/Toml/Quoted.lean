import GrammarBindings.Toml.Scalar

/-!
# TOML texts

Basic texts have escapes, literal texts have none; each stands on one line between single marks, or
on several between triple ones. Control characters other than the tab must be escaped. Behind the
closing triple mark up to two more marks belong to the text. Every reader begins behind the opening
mark and returns the text and what follows.
-/

namespace GrammarBindings.Toml

open Text

def isMargin (c : Char) : Bool := c = ' ' || c = '\t'

def isMarginOrLineEnd (c : Char) : Bool := isMargin c || c = '\n'

/-- Control characters that may stand in no comment and no text of one line. -/
def isControl (c : Char) : Bool := (c.toNat < 32 && c ≠ '\t') || c.toNat = 127

def isForbidden (multiline : Bool) (c : Char) : Bool := isControl c && !(multiline && c = '\n')

/-- The character with a code of some hexadecimal digits. -/
def codedChar? (width : Nat) (cs : List Char) : Option (List Char × List Char) :=
  let code := cs.take width
  let n := code.foldl (fun n c => 16 * n + hexValue c) 0
  if code.length = width && code.all isHexDigit && n.isValidChar then
    some ([Char.ofNat n], cs.drop width)
  else none
where
  hexValue (c : Char) : Nat :=
    if isAsciiDigit c then c.toNat - 48 else c.toLower.toNat - 87

/-- A line end behind a backslash, with the blanks in front of it and all that follow. -/
def foldedLine? (cs : List Char) : Option (List Char × List Char) :=
  match cs.dropWhile isMargin with
  | [] => some ([], [])
  | c :: rest => if c = '\n' then some ([], rest.dropWhile isMarginOrLineEnd) else none

/-- What an escape stands for, read behind its backslash. -/
def escape? (multiline : Bool) : List Char → Option (List Char × List Char)
  | 'b' :: cs => some (['\x08'], cs)
  | 't' :: cs => some (['\t'], cs)
  | 'n' :: cs => some (['\n'], cs)
  | 'f' :: cs => some (['\x0c'], cs)
  | 'r' :: cs => some (['\r'], cs)
  | 'u' :: cs => codedChar? 4 cs
  | 'U' :: cs => codedChar? 8 cs
  | c :: cs =>
    if c = quotationMark || c = '\\' then some ([c], cs)
    else if multiline && isMarginOrLineEnd c then foldedLine? (c :: cs)
    else none
  | [] => none

def tripled (mark : Char) : List Char := [mark, mark, mark]

/-- Up to two marks that follow a closing triple mark. -/
def extraMarks (mark : Char) (cs : List Char) : List Char := (cs.take 2).takeWhile (· = mark)

/-- The characters of a text up to its closing mark. The fuel need not exceed their number. -/
def closed? (mark : Char) (escapes multiline : Bool) :
    Nat → List Char → Option (List Char × List Char)
  | 0, _ | _, [] => none
  | fuel + 1, c :: cs =>
    if c = mark && (!multiline || (tripled mark).isPrefixOf (c :: cs)) then
      some ([], cs.drop (if multiline then 2 else 0))
    else if c = '\\' && escapes then do
      let (value, rest) ← escape? multiline cs
      let (more, rest) ← closed? mark escapes multiline fuel rest
      return (value ++ more, rest)
    else if isForbidden multiline c then none
    else (closed? mark escapes multiline fuel cs).map fun (more, rest) => (c :: more, rest)

def oneLine? (mark : Char) (cs : List Char) : Option (String × List Char) :=
  (closed? mark (mark = quotationMark) false (cs.length + 1) cs).map fun (value, rest) =>
    (String.ofList value, rest)

/-- A line end right behind the opening mark does not count. -/
def manyLines? (mark : Char) (cs : List Char) : Option (String × List Char) :=
  let body := if cs.head? = some '\n' then cs.tail else cs
  (closed? mark (mark = quotationMark) true (body.length + 1) body).map fun (value, rest) =>
    let extra := extraMarks mark rest
    (String.ofList (value ++ extra), rest.drop extra.length)

/-- A text with its opening mark. -/
def quoted? (cs : List Char) : Option (String × List Char) :=
  match cs with
  | c :: rest =>
    if c = quotationMark || c = apostrophe then
      if (tripled c).isPrefixOf cs then manyLines? c (rest.drop 2) else oneLine? c rest
    else none
  | [] => none

end GrammarBindings.Toml
