import GrammarBindings.Text.Utf8
import GrammarBindings.Toml.Quoted

/-!
# TOML documents

A document is a sequence of lines, each of them a pair of a dotted key and a value, or the header of
a table or of an element of an array of tables, under which the pairs that follow are put.

A table may be opened by a header only once, and what a dotted key has opened in one section cannot
be opened by headers or dotted keys in a later one. Arrays and tables that are written as values
cannot be added to.
-/

namespace GrammarBindings.Toml

open Text

def orMalformed {α : Type} : Option α → Except Fault α
  | some a => .ok a
  | none => .error .malformed

def isBareKeyChar (c : Char) : Bool :=
  isAsciiDigit c || ('a' ≤ c && c ≤ 'z') || ('A' ≤ c && c ≤ 'Z') || c = '-' || c = '_'

def beginsKey (c : Char) : Bool := isBareKeyChar c || c = quotationMark || c = apostrophe

def keyPart? : List Char → Option (String × List Char)
  | [] => none
  | c :: cs =>
    if isBareKeyChar c then
      some (String.ofList (c :: cs.takeWhile isBareKeyChar), cs.dropWhile isBareKeyChar)
    else if c = quotationMark || c = apostrophe then oneLine? c cs
    else none

/-- A key and what follows it, blanks included. The fuel need not exceed the number of its parts. -/
def keyWithin? : Nat → List Char → Option (Key × List Char)
  | 0, _ => none
  | fuel + 1, cs => do
    let (part, rest) ← keyPart? cs
    match rest.dropWhile isMargin with
    | '.' :: rest =>
      let (parts, rest) ← keyWithin? fuel (rest.dropWhile isMargin)
      return (part :: parts, rest)
    | rest => return ([part], rest)

def key? (cs : List Char) : Option (Key × List Char) := keyWithin? (cs.length + 1) cs

/-- What follows a comment, if there is one. -/
def dropComment (cs : List Char) : Option (List Char) :=
  match cs with
  | '#' :: cs =>
    if (cs.takeWhile (· ≠ '\n')).any isControl then none else some (cs.dropWhile (· ≠ '\n'))
  | _ => some cs

/-- What follows the blanks, line ends and comments between the elements of an array. -/
def dropArrayGap : Nat → List Char → Option (List Char)
  | 0, _ => none
  | fuel + 1, cs =>
    match cs.dropWhile isMarginOrLineEnd with
    | '#' :: rest => (dropComment ('#' :: rest)).bind (dropArrayGap fuel)
    | rest => some rest

def arrayGap (cs : List Char) : Except Fault (List Char) :=
  orMalformed (dropArrayGap (cs.length + 1) cs)

/-- The last part of a key and the parts before it. -/
def Key.split? (k : Key) : Option (Key × String) := k.getLast?.map fun stem => (k.dropLast, stem)

/-- Whether a key or a key on the way to it is among the keys. -/
def isWithin (keys : List Key) (k : Key) : Bool := keys.any fun f => !f.isEmpty && f.isPrefixOf k

/-- Puts a value into a table written on one line, parts of which may be closed already. -/
def addInline (t : Table) (closed : List Key) (k : Key) (v : Value) : Except Fault Table :=
  orMalformed do
    let (parent, stem) ← Key.split? k
    if isWithin closed k then none
    Table.modifyAt false (Table.define stem v) parent t

mutual

/-- A value and what follows it. The fuel need not exceed the number of its characters. -/
def valueWithin : Nat → List Char → Except Fault (Value × List Char)
  | 0, _ => .error .malformed
  | fuel + 1, cs =>
    match cs with
    | '[' :: rest => do
      let rest ← arrayGap rest
      let (xs, rest) ← elementsWithin fuel rest
      return (.array xs, rest)
    | '{' :: rest =>
      match rest.dropWhile isMargin with
      | '}' :: rest => .ok (.table [], rest)
      | rest => do
        let (t, rest) ← pairsWithin fuel [] [] rest
        return (.table t, rest)
    | c :: _ =>
      if c = quotationMark || c = apostrophe then
        (orMalformed (quoted? cs)).map fun (s, rest) => (.text s, rest)
      else
        match scalar? cs with
        | some result => result.map fun rest => (.scalar, rest)
        | none => .error .malformed
    | [] => .error .malformed

/-- The elements of an array up to its closing bracket. -/
def elementsWithin : Nat → List Char → Except Fault (List Value × List Char)
  | 0, _ => .error .malformed
  | fuel + 1, cs =>
    match cs with
    | ']' :: rest => .ok ([], rest)
    | _ => do
      let (x, rest) ← valueWithin fuel cs
      match ← arrayGap rest with
      | ']' :: rest => return ([x], rest)
      | ',' :: rest =>
        let rest ← arrayGap rest
        let (xs, rest) ← elementsWithin fuel rest
        return (x :: xs, rest)
      | _ => throw .malformed

/-- The pairs of a table up to its closing brace, added to those before them. -/
def pairsWithin : Nat → Table → List Key → List Char → Except Fault (Table × List Char)
  | 0, _, _, _ => .error .malformed
  | fuel + 1, t, closed, cs => do
    let (k, rest) ← orMalformed (key? cs)
    match rest with
    | '=' :: rest =>
      let (v, rest) ← valueWithin fuel (rest.dropWhile isMargin)
      let t ← addInline t closed k v
      match rest.dropWhile isMargin with
      | '}' :: rest => return (t, rest)
      | ',' :: rest =>
        pairsWithin fuel t (if v.isContainer then k :: closed else closed)
          (rest.dropWhile isMargin)
      | _ => throw .malformed
    | _ => throw .malformed

end

def value (cs : List Char) : Except Fault (Value × List Char) := valueWithin (2 * cs.length + 2) cs

/-- A document as far as it has been read: its tables, the header in force, the keys that no header
may open again, those that will be such from the next header on, and the keys of closed values. -/
structure Draft where
  root : Table := []
  header : Key := []
  opened : List Key := []
  pending : List Key := []
  closed : List Key := []

namespace Draft

/-- A new section settles what the one before has opened. -/
def settle (d : Draft) : Draft := { d with opened := d.pending ++ d.opened, pending := [] }

def openTable (d : Draft) (k : Key) : Except Fault Draft :=
  if d.opened.contains k || isWithin d.closed k then .error .malformed
  else do
    let root ← orMalformed (Table.modifyAt true some k d.root)
    return { d with root, header := k, opened := k :: d.opened }

/-- The new element of an array of tables is empty, so what was known of the keys below the array is
forgotten. -/
def openElement (d : Draft) (k : Key) : Except Fault Draft :=
  if isWithin d.closed k then .error .malformed
  else do
    let (parent, stem) ← orMalformed (Key.split? k)
    let root ← orMalformed (Table.modifyAt true (Table.appendTable stem) parent d.root)
    let outside (f : Key) : Bool := !k.isPrefixOf f
    return { d with
      root, header := k
      opened := k :: d.opened.filter outside
      closed := d.closed.filter outside }

/-- The proper beginnings of a key below the header. -/
def passedKeys (d : Draft) (k : Key) : List Key :=
  (List.range (k.length - 1)).map fun i => d.header ++ k.take (i + 1)

def add (d : Draft) (k : Key) (v : Value) : Except Fault Draft := do
  let passed := d.passedKeys k
  if passed.any d.opened.contains then throw .malformed
  let (parent, stem) ← orMalformed (Key.split? k)
  if isWithin d.closed (d.header ++ parent) then throw .malformed
  let root ← orMalformed (Table.modifyAt true (Table.define stem v) (d.header ++ parent) d.root)
  return { d with
    root
    pending := passed ++ d.pending
    closed := if v.isContainer then (d.header ++ k) :: d.closed else d.closed }

/-- Takes the statement at the front of a text that is not blank; its line goes on behind it. -/
def takeStatement (d : Draft) (cs : List Char) : Except Fault (Draft × List Char) := do
  match cs with
  | '[' :: '[' :: rest =>
    let (k, rest) ← orMalformed (key? (rest.dropWhile isMargin))
    let d ← d.settle.openElement k
    match rest with
    | ']' :: ']' :: rest => return (d, rest)
    | _ => throw .malformed
  | '[' :: rest =>
    let (k, rest) ← orMalformed (key? (rest.dropWhile isMargin))
    let d ← d.settle.openTable k
    match rest with
    | ']' :: rest => return (d, rest)
    | _ => throw .malformed
  | '#' :: _ => return (d, cs)
  | c :: _ =>
    if !beginsKey c then throw .malformed
    let (k, rest) ← orMalformed (key? cs)
    match rest with
    | '=' :: rest =>
      let (v, rest) ← value (rest.dropWhile isMargin)
      return (← d.add k v, rest)
    | _ => throw .malformed
  | [] => return (d, [])

/-- Takes all lines. The fuel need not exceed the number of lines. -/
def takeLines (d : Draft) : Nat → List Char → Except Fault Draft
  | 0, _ => .error .malformed
  | fuel + 1, cs =>
    match cs.dropWhile isMargin with
    | [] => .ok d
    | '\n' :: rest => takeLines d fuel rest
    | cs => do
      let (d, rest) ← d.takeStatement cs
      match ← orMalformed (dropComment (rest.dropWhile isMargin)) with
      | [] => return d
      | '\n' :: rest => takeLines d fuel rest
      | _ => throw .malformed

end Draft

/-- The table of a document. -/
def read (text : String) : Except Fault Table :=
  let cs := foldCrLf text.toList
  (Draft.takeLines {} (cs.length + 1) cs).map Draft.root

end GrammarBindings.Toml
