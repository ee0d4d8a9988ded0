import GrammarBindings.Options.Basic

/-!
# Options from loose fields

Options given by name, with values that still have to be checked. A field that is not given keeps
its default. The first field whose value does not fit is reported, in the order of `fieldNames`, and
a name that is not among them after all others.

A value that already is what the field wants is taken as it is. Whether any other value may stand for
such a one, and in which words it is refused, is up to a library.
-/

namespace GrammarBindings

inductive FieldValue where
  | null
  | bool (b : Bool)
  | integer (k : Int)
  | text (s : String)
  | other
  deriving DecidableEq, Repr

/-- What values of other kinds stand for in a field, or why they are refused. -/
structure Coercions where
  truth : FieldValue → Except String Bool
  integer : FieldValue → Except String Int
  text : FieldValue → Except String String
  choice : (words : List String) → FieldValue → Except String (Fin words.length)
  tooSmall : (least : Int) → String
  tooLarge : (greatest : Int) → String
  unknown : String

namespace Coercions

variable (c : Coercions)

def toChoice {α : Type} (all : List α) (word : α → String) (v : FieldValue) :
    Except FieldProblem α :=
  match all.find? fun a => v = .text (word a) with
  | some a => .ok a
  | none =>
    match c.choice (all.map word) v with
    | .ok i => .ok (all.get (i.cast (List.length_map word)))
    | .error reason => .error (.refused reason)

def toBool : FieldValue → Except FieldProblem Bool
  | .bool b => .ok b
  | v => (c.truth v).mapError .refused

def toInteger : FieldValue → Except FieldProblem Int
  | .integer k => .ok k
  | v => (c.integer v).mapError .refused

def toXml (v : FieldValue) : Except FieldProblem XmlPrinter := do
  let k ← c.toInteger v
  match XmlPrinter.ofRank? k with
  | some x => return x
  | none => throw (.refused (if k < 0 then c.tooSmall 0 else c.tooLarge 2))

def toText : FieldValue → Except FieldProblem String
  | .text s => .ok s
  | v => (c.text v).mapError .refused

def toPackage (v : FieldValue) : Except FieldProblem (Option Package) := do
  if v = .null then return none
  let s ← c.toText v
  match Package.ofText? s with
  | some p => return some p
  | none => throw (.package s)

end Coercions

def fieldNames : List String :=
  ["target", "make", "alex_mode", "in_dir", "share_strings", "byte_strings", "glr", "xml",
   "in_package", "lang", "multi", "cnf", "line_numbers", "visual_studio", "wcf"]

section

variable (c : Coercions) (fields : List (String × FieldValue))

/-- A field's value, or the default where it is not given. -/
def fieldOr {α : Type} (name : String) (default : α) (check : FieldValue → Except FieldProblem α) :
    Except UsageError α :=
  match fields.lookup name with
  | none => .ok default
  | some v => (check v).mapError (UsageError.field name)

def Options.ofFields : Except UsageError Options := do
  let target ← fieldOr fields "target" .haskell (c.toChoice Target.all Target.word)
  let makefile ← fieldOr fields "make" false c.toBool
  let lexer ← fieldOr fields "alex_mode" .alex3 (c.toChoice LexerTool.all LexerTool.word)
  let inDirectory ← fieldOr fields "in_dir" false c.toBool
  let shareStrings ← fieldOr fields "share_strings" false c.toBool
  let byteStrings ← fieldOr fields "byte_strings" false c.toBool
  let parser ← fieldOr fields "glr" .standard (c.toChoice ParserStyle.all ParserStyle.word)
  let xml ← fieldOr fields "xml" .absent c.toXml
  let package ← fieldOr fields "in_package" none c.toPackage
  let grammarName ← fieldOr fields "lang" "" c.toText
  let multilingual ← fieldOr fields "multi" false c.toBool
  let cnf ← fieldOr fields "cnf" false c.toBool
  let lineNumbers ← fieldOr fields "line_numbers" false c.toBool
  let visualStudio ← fieldOr fields "visual_studio" false c.toBool
  let wcf ← fieldOr fields "wcf" false c.toBool
  match fields.find? fun f => !fieldNames.contains f.1 with
  | some f => throw (.field f.1 (.refused c.unknown))
  | none =>
    return { target, makefile, lexer, inDirectory, shareStrings, byteStrings, parser, xml, package,
             grammarName, multilingual, cnf, lineNumbers, visualStudio, wcf }

end

end GrammarBindings
