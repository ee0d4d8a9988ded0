import GrammarBindings.Options.UsageError

/-!
# Options

The choices that one run makes for all generators. A package is a dotted sequence of identifiers,
and a value of its type has been checked to be one.
-/

namespace GrammarBindings

inductive LexerTool where
  | alex1 | alex2 | alex3
  deriving DecidableEq, Repr

namespace LexerTool

def all : List LexerTool := [alex1, alex2, alex3]

def word : LexerTool → String
  | alex1 => "alex1"
  | alex2 => "alex2"
  | alex3 => "alex3"

end LexerTool

inductive ParserStyle where
  | standard | glr
  deriving DecidableEq, Repr

namespace ParserStyle

def all : List ParserStyle := [standard, glr]

def word : ParserStyle → String
  | standard => "standard"
  | glr => "glr"

end ParserStyle

inductive XmlPrinter where
  | absent | basic | extended
  deriving DecidableEq, Repr

namespace XmlPrinter

def all : List XmlPrinter := [absent, basic, extended]

def rank : XmlPrinter → Int
  | absent => 0
  | basic => 1
  | extended => 2

def ofRank? (k : Int) : Option XmlPrinter := all.find? fun x => x.rank = k

end XmlPrinter

/-- The letters and the underscore of ASCII. -/
def beginsIdentifier (c : Char) : Bool :=
  ('A' ≤ c && c ≤ 'Z') || ('a' ≤ c && c ≤ 'z') || c = '_'

def continuesIdentifier (c : Char) : Bool :=
  beginsIdentifier c || ('0' ≤ c && c ≤ '9') || c = '\x27'

def isIdentifier : List Char → Bool
  | [] => false
  | c :: cs => beginsIdentifier c && cs.all continuesIdentifier

/-- Drops one line end from the end. -/
def dropLineEnd (cs : List Char) : List Char := if cs.getLast? = some '\n' then cs.dropLast else cs

/-- One line end behind the last identifier is let pass. -/
def isPackage (cs : List Char) : Bool := ((dropLineEnd cs).splitOn '.').all isIdentifier

structure Package where
  text : String
  wellFormed : isPackage text.toList = true
  deriving DecidableEq

namespace Package

def ofText? (s : String) : Option Package :=
  if h : isPackage s.toList = true then some ⟨s, h⟩ else none

def parts (p : Package) : List String := (p.text.toList.splitOn '.').map String.ofList

end Package

/-- The package of a given text. -/
def checkPackage (s : String) : Except UsageError Package :=
  match Package.ofText? s with
  | some p => .ok p
  | none => .error (.field "in_package" (.package s))

structure Options where
  target : Target := .haskell
  makefile : Bool := false
  lexer : LexerTool := .alex3
  inDirectory : Bool := false
  shareStrings : Bool := false
  byteStrings : Bool := false
  parser : ParserStyle := .standard
  xml : XmlPrinter := .absent
  package : Option Package := none
  grammarName : String := ""
  multilingual : Bool := false
  cnf : Bool := false
  lineNumbers : Bool := false
  visualStudio : Bool := false
  wcf : Bool := false
  deriving DecidableEq

end GrammarBindings
