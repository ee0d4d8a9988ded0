import GrammarBindings.Files.Path
import GrammarBindings.Options.Basic
import GrammarBindings.Text.Blank

/-!
# The single-dash command line

The older style of command line: flags with one dash in any order, the language among them, and the
grammar as the last word. Blanks inside words are ignored. The flags are read as a set, except that
the last lexer flag wins and that the word behind the first `-p` is the package.

Each old flag has a form with two dashes, which can stand in its place and of which the user is
told.
-/

namespace GrammarBindings

namespace SingleDash

/-- The languages that a set of flags selects; none of them selects Haskell. -/
def selectedTargets (args : List String) : List Target :=
  let has (w : String) : Bool := w ∈ args
  let selected :=
    [(Target.c, has "-c"),
     (.cpp, has "-cpp_no_stl"),
     (.cppStl, has "-cpp_stl" || has "-cpp"),
     (.cSharp, has "-csharp"),
     (.haskellGadt, has "-gadt"),
     (.java, has "-java1.5" || has "-java"),
     (.ocaml, has "-ocaml"),
     (.profile, has "-prof")].filterMap fun (target, given) =>
        if given then some target else none
  if selected.isEmpty then [.haskell] else selected

def lexerOfFlag? : String → Option LexerTool
  | "-alex1" => some .alex1
  | "-alex2" => some .alex2
  | "-alex3" => some .alex3
  | _ => none

/-- The last lexer flag wins. -/
def lexer (args : List String) : LexerTool := (args.filterMap lexerOfFlag?).getLast?.getD .alex3

def xml (args : List String) : XmlPrinter :=
  if "-xml" ∈ args then .basic else if "-xmlt" ∈ args then .extended else .absent

/-- The word behind the first `-p`, whatever it is. -/
def packageText? : List String → Option String
  | "-p" :: args => args.head?
  | _ :: args => packageText? args
  | [] => none

/-- The last word, unless it is empty or begins with a dash. -/
def grammarPath? (args : List String) : Option String :=
  args.getLast?.filter fun p => p ≠ "" && p.toList.head? ≠ some '-'

/-- Reads words without blanks. -/
def readWords (args : List String) : Except UsageError (Options × String) :=
  match grammarPath? args with
  | none => .error .missingGrammar
  | some path =>
    match selectedTargets args with
    | [target] => do
      if !Path.isGrammarFile path then throw .notGrammarFile
      let package ← (packageText? args).mapM checkPackage
      let has (w : String) : Bool := w ∈ args
      let options : Options := {
        target, package
        makefile := has "-m"
        lexer := lexer args
        inDirectory := has "-d"
        shareStrings := has "-sharestrings"
        byteStrings := has "-bytestrings"
        parser := if has "-glr" then .glr else .standard
        xml := xml args
        grammarName := Path.grammarName path
        multilingual := has "--multilingual" || has "-multi"
        cnf := has "-cnf"
        lineNumbers := has "-l"
        visualStudio := has "-vs"
        wcf := has "-wcf" }
      return (options, path)
    | _ => .error .severalTargets

def read (args : List String) : Except UsageError (Options × String) :=
  readWords (args.map Text.withoutBlanks)

/-- The forms with two dashes of the old flags. -/
def doubleDashForms : List (String × List String) :=
  [("-java1.4", ["--java4"]),
   ("-java1.5", ["--java5"]),
   ("-java", ["--java"]),
   ("-c", ["--c"]),
   ("-cpp", ["--cpp"]),
   ("-cpp_stl", ["--cpp", "--stl"]),
   ("-cpp_no_stl", ["--cpp", "--no-stl"]),
   ("-csharp", ["--csharp"]),
   ("-ocaml", ["--ocaml"]),
   ("-haskell", ["--haskell"]),
   ("-prof", ["--haskell", "--prof"]),
   ("-gadt", ["--haskell", "--gadt"]),
   ("-alex1", ["--alex1"]),
   ("-alex2", ["--alex2"]),
   ("-alex3", ["--alex3"]),
   ("-sharestrings", ["--sharestrings"]),
   ("-bytestrings", ["--bytestrings"]),
   ("-glr", ["--glr"]),
   ("-xml", ["--xml"]),
   ("-xmlt", ["--xmlt"]),
   ("-vs", ["--vs"]),
   ("-wcf", ["--wcf"]),
   ("-l", ["--l"])]

/-- The form with two dashes of an old flag; every other word stays as it is. -/
def toDoubleDashWord (w : String) : List String := (doubleDashForms.lookup w).getD [w]

def toDoubleDash (args : List String) : List String := args.flatMap toDoubleDashWord

@[simp] theorem toDoubleDash_append (as bs : List String) :
    toDoubleDash (as ++ bs) = toDoubleDash as ++ toDoubleDash bs := List.flatMap_append

def deprecation? (w : String) : Option String :=
  (doubleDashForms.lookup w).map fun new =>
    "Option " ++ w ++ " is deprecated, use " ++ " ".intercalate new ++ " instead"

def deprecations (args : List String) : List String := args.filterMap deprecation?

@[simp] theorem deprecations_append (as bs : List String) :
    deprecations (as ++ bs) = deprecations as ++ deprecations bs := List.filterMap_append

/-- Old spellings of global options. -/
def oldSpellings : List (String × String) :=
  [("--numeric-version", "--version"), ("-multi", "--multilingual")]

def oldSpellingWarnings (args : List String) : List String :=
  args.filterMap fun w =>
    (oldSpellings.lookup w).map fun new => w ++ " is deprecated, use " ++ new ++ " instead"

/-- Whether a command line is of this style: it begins with a word of one dash and more, or is
nothing but a grammar file. -/
def isLikely : List String → Bool
  | [] => false
  | w :: ws =>
    match w.toList with
    | '-' :: c :: _ => c ≠ '-' || (ws.isEmpty && Path.isGrammarFile w)
    | _ => ws.isEmpty && Path.isGrammarFile w

end SingleDash
end GrammarBindings
