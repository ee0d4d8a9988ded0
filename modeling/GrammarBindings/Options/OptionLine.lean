import GrammarBindings.Files.Path
import GrammarBindings.Options.Basic
import GrammarBindings.Text.Digit

/-!
# The option line of a target

The words behind a target: options in any order, and one operand, the grammar file. Every word is
classified before any is used, so an ambiguous abbreviation is reported first wherever it stands.

Long options may be abbreviated and may carry a value behind an equals sign. Short options may share
a word, and what follows the one that takes a value is the value. A word that begins with a dash is
an operand all the same if it is a dash alone, reads as a negative number or contains a space,
unless it is an option. Behind a separator of two dashes all words are operands.
-/

namespace GrammarBindings

open Text

inductive TargetOption where
  | makefile | inDirectory | package | lexer (tool : LexerTool) | shareStrings | byteStrings | glr
  | xml | xmlExtended | cnf | lineNumbers | visualStudio | wcf
  deriving DecidableEq, Repr

namespace TargetOption

def all : List TargetOption :=
  [makefile, inDirectory, package, lexer .alex1, lexer .alex2, lexer .alex3, shareStrings,
   byteStrings, glr, xml, xmlExtended, cnf, lineNumbers, visualStudio, wcf]

/-- The character behind the dash of the short form. -/
def short? : TargetOption → Option Char
  | makefile => some 'm'
  | inDirectory => some 'd'
  | package => some 'p'
  | lineNumbers => some 'l'
  | _ => none

/-- The word behind the two dashes of the long form. -/
def long? : TargetOption → Option String
  | makefile => some "make"
  | package => some "package"
  | lexer tool => some tool.word
  | shareStrings => some "sharestrings"
  | byteStrings => some "bytestrings"
  | glr => some "glr"
  | xml => some "xml"
  | xmlExtended => some "xmlt"
  | cnf => some "cnf"
  | visualStudio => some "vs"
  | wcf => some "wcf"
  | inDirectory | lineNumbers => none

def spellings (o : TargetOption) : List String :=
  (o.short?.map fun c => String.ofList ['-', c]).toList ++ (o.long?.map ("--" ++ ·)).toList

/-- All spellings of an option, as messages call it. -/
def name (o : TargetOption) : String := "/".intercalate o.spellings

def takesValue (o : TargetOption) : Bool := o = package

def ofShort? (c : Char) : Option TargetOption := all.find? fun o => o.short? = some c

def ofSpelling? (w : String) : Option TargetOption := all.find? fun o => w ∈ o.spellings

/-- The long options that an abbreviation, dashes included, may stand for. -/
def candidates (abbreviation : List Char) : List (TargetOption × String) :=
  all.filterMap fun o => do
    let long ← o.long?
    if abbreviation.isPrefixOf ("--" ++ long).toList then some (o, "--" ++ long) else none

/-- The groups of options of which one line may have but one. -/
def exclusiveGroups : List (List TargetOption) :=
  [[lexer .alex1, lexer .alex2, lexer .alex3], [xml, xmlExtended]]

/-- The options that exclude an option, in the order in which they are reported. -/
def rivals (o : TargetOption) : List TargetOption :=
  ((exclusiveGroups.filter (o ∈ ·)).flatten).filter (· ≠ o)

end TargetOption

/-- A negative number in decimal, a line end behind it being let pass. -/
def isNegativeNumber (cs : List Char) : Bool :=
  match dropLineEnd cs with
  | '-' :: ds =>
    match ds.splitOn '.' with
    | [whole] => !whole.isEmpty && whole.all isDecimal
    | [whole, part] => whole.all isDecimal && !part.isEmpty && part.all isDecimal
    | _ => false
  | _ => false

/-- What a word is. A short option has the rest of its word as value. -/
inductive OptionWord where
  | operand
  | separator
  | unknown
  | short (o : TargetOption) (value? : Option String)
  | long (o : TargetOption) (value? : Option String)
  deriving DecidableEq, Repr

/-- The part of a word before its first equals sign and the value behind it. -/
def splitValue (cs : List Char) : List Char × Option String :=
  match cs.dropWhile (· ≠ '=') with
  | [] => (cs, none)
  | _ :: value => (cs.takeWhile (· ≠ '='), some (String.ofList value))

def OptionWord.ofSpelling? (w : String) (value? : Option String) : Option OptionWord :=
  (TargetOption.ofSpelling? w).map fun o =>
    if w.length = 2 then short o value? else long o value?

/-- A word that begins with two dashes and is no exact option. -/
def classifyLong (w : String) : Except UsageError (Option OptionWord) :=
  let (abbreviation, value?) := splitValue w.toList
  match TargetOption.candidates abbreviation with
  | [] => .ok none
  | [(o, _)] => .ok (some (.long o value?))
  | os => .error (.ambiguousOption w (os.map Prod.snd))

/-- A word that begins with one dash and is no exact option. -/
def classifyShort : List Char → Option OptionWord
  | _ :: c :: value =>
    (TargetOption.ofShort? c).map fun o => .short o (some (String.ofList value))
  | _ => none

def classifyWord (w : String) : Except UsageError OptionWord := do
  let cs := w.toList
  if cs.head? ≠ some '-' then return .operand
  if let some o := OptionWord.ofSpelling? w none then return o
  if cs.length = 1 then return .operand
  let (before, value?) := splitValue cs
  if value?.isSome then
    if let some o := OptionWord.ofSpelling? (String.ofList before) value? then return o
  let found ← if cs[1]? = some '-' then classifyLong w else pure (classifyShort cs)
  match found with
  | some o => return o
  | none => return if isNegativeNumber cs || ' ' ∈ cs then .operand else .unknown

/-- The words with their classes. Behind the separator all are operands. -/
def classifyWords : List String → Except UsageError (List (String × OptionWord))
  | [] => .ok []
  | w :: ws =>
    if w = "--" then .ok ((w, .separator) :: ws.map fun v => (v, .operand))
    else do
      let word ← classifyWord w
      let words ← classifyWords ws
      return (w, word) :: words

/-- What has been read of an option line. The value of the package is null until it is given. -/
structure OptionLine where
  given : List TargetOption := []
  package : Except FieldProblem (Option String) := .ok none
  grammar? : Option String := none
  unrecognized : List String := []

namespace OptionLine

def give (l : OptionLine) (o : TargetOption) : Except UsageError OptionLine :=
  match o.rivals.find? (· ∈ l.given) with
  | some rival => .error (.conflict o.name rival.name)
  | none => .ok { l with given := l.given.insert o }

/-- A value of two dashes is lost. -/
def givePackage (l : OptionLine) (value : String) : OptionLine :=
  { l with package := if value = "--" then .error .notText else .ok (some value) }

def unknown (l : OptionLine) (w : String) : OptionLine :=
  { l with unrecognized := l.unrecognized ++ [w] }

end OptionLine

/-- The options that share a word, and the value in the word if the last of them takes one. -/
def splitCluster (o : TargetOption) :
    List Char → Except UsageError (List TargetOption × Option String)
  | [] => .ok ([o], none)
  | c :: cs =>
    if o.takesValue then .ok ([o], some (String.ofList (c :: cs)))
    else
      match TargetOption.ofShort? c with
      | none => .error (.ignoredValue o.name (String.ofList (c :: cs)))
      | some next => (splitCluster next cs).map fun (os, value?) => (o :: os, value?)

def OptionWord.occurrences : OptionWord → Except UsageError (List TargetOption × Option String)
  | operand | separator | unknown => .ok ([], none)
  | short o none | long o none => .ok ([o], none)
  | short o (some value) =>
    if o.takesValue then .ok ([o], some value)
    else if value.isEmpty then .error (.ignoredValue o.name value)
    else splitCluster o value.toList
  | long o (some value) =>
    if o.takesValue then .ok ([o], some value) else .error (.ignoredValue o.name value)

namespace OptionLine

def giveAll (l : OptionLine) (os : List TargetOption) : Except UsageError OptionLine :=
  os.foldlM give l

/-- Takes the words in order. The first operand is the grammar, and a separator in front of it or
right behind it goes unnoticed. An option that takes a value and has none in its own word needs an
operand as the next. -/
def takeWords (l : OptionLine) (behindGrammar : Bool) :
    List (String × OptionWord) → Except UsageError OptionLine
  | [] => .ok l
  | (w, .operand) :: rest =>
    match l.grammar? with
    | none => { l with grammar? := some w }.takeWords true rest
    | some _ => (l.unknown w).takeWords false rest
  | (w, .separator) :: rest =>
    if behindGrammar || (l.grammar?.isNone && !rest.isEmpty) then l.takeWords false rest
    else (l.unknown w).takeWords false rest
  | (w, .unknown) :: rest => (l.unknown w).takeWords false rest
  | (_, word) :: rest => do
    let (os, value?) ← word.occurrences
    match value?, os.find? TargetOption.takesValue with
    | some value, _ => ((← l.giveAll os).givePackage value).takeWords false rest
    | none, none => (← l.giveAll os).takeWords false rest
    | none, some o =>
      match rest with
      | (value, .operand) :: rest => ((← l.giveAll os).givePackage value).takeWords false rest
      | _ => .error (.missingValue o.name)

/-- The grammar must be there, and no other word may be left over. -/
def complete (l : OptionLine) : Except UsageError String :=
  match l.grammar? with
  | none => .error .missingOperand
  | some path =>
    if l.unrecognized.isEmpty then .ok path else .error (.unrecognizedWords l.unrecognized)

def lexer (l : OptionLine) : LexerTool :=
  if .lexer .alex1 ∈ l.given then .alex1
  else if .lexer .alex2 ∈ l.given then .alex2
  else .alex3

def xml (l : OptionLine) : XmlPrinter :=
  if .xml ∈ l.given then .basic
  else if .xmlExtended ∈ l.given then .extended
  else .absent

def has (l : OptionLine) (o : TargetOption) : Bool := o ∈ l.given

def checkedPackage (l : OptionLine) : Except UsageError (Option Package) := do
  let text? ← l.package.mapError (UsageError.field "in_package")
  text?.mapM checkPackage

/-- The options of a line whose grammar is at a path. -/
def options (l : OptionLine) (target : Target) (multilingual : Bool) (path : String) :
    Except UsageError Options := do
  let package ← l.checkedPackage
  return {
    target, package, multilingual
    makefile := l.has .makefile
    lexer := l.lexer
    inDirectory := l.has .inDirectory
    shareStrings := l.has .shareStrings
    byteStrings := l.has .byteStrings
    parser := if l.has .glr then .glr else .standard
    xml := l.xml
    grammarName := Path.grammarName path
    cnf := l.has .cnf
    lineNumbers := l.has .lineNumbers
    visualStudio := l.has .visualStudio
    wcf := l.has .wcf }

end OptionLine

/-- Reads the words behind a target as options and the path of a grammar. -/
def readOptionLine (target : Target) (args : List String) (multilingual : Bool) :
    Except UsageError (Options × String) := do
  let words ← classifyWords args
  let line ← OptionLine.takeWords {} false words
  let path ← line.complete
  if !Path.isGrammarFile path then throw .notGrammarFile
  let options ← line.options target multilingual path
  return (options, path)

end GrammarBindings
