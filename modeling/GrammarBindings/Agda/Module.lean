import GrammarBindings.Agda.Declarations
import GrammarBindings.Agda.Printers

/-!
# The generated module

A comment with the time of the generation, the module header, the imports, the types, and the
printers, each separated by one blank line. The text depends on the arguments alone and ends with
the end of a line.
-/

namespace GrammarBindings.Agda

open Document

def preamble (time : String) : Document :=
  vcat
    [text "-- Agda bindings for the Haskell abstract syntax data types.",
     text ("-- Generated by BNFC at " ++ time ++ ".")]

/-- The built-in modules, each with the names that are imported from it and their new names. -/
def builtins : List (String × List (String × String)) :=
  [("Agda.Builtin.Char", [("Char", charType)]),
   ("Agda.Builtin.Float", [("Float", doubleType)]),
   ("Agda.Builtin.Int", [("Int", integerType)]),
   ("Agda.Builtin.List", [("List", listType)]),
   ("Agda.Builtin.String", [("String", stringType), ("primStringFromList", stringFromList)])]

def importOf (module : String) (renamings : List (String × String)) : Document :=
  bracketList (words ["open", "import", module, "using", "()", "renaming"])
    (text "(") (text ")") (text ";") (renamings.map fun (x, y) => words [x, "to", y])

def imports : Document := vcat (builtins.map fun (module, renamings) => importOf module renamings)

def importPragma (module : String) : Document :=
  words ["\x7b-#", "FOREIGN", "GHC", "import", module, "#-\x7d"]

def importPragmas (syntaxModule printerModule : String) : Document :=
  vcat (["qualified Data.Text", syntaxModule, printerModule].map importPragma)

/-- The names of the Agda module and of the two Haskell modules that it binds. -/
structure ModuleNames where
  agda : String
  abstractSyntax : String
  printer : String
  deriving DecidableEq, Repr

def moduleDocument (time : String) (names : ModuleNames) (ds : List DataDecl) :
    Except Fault Document := do
  let ident ← identDeclaration
  let types ← declarations ds
  let printing ← printers (ds.map DataDecl.category)
  return vsep
    [preamble time,
     words ["module", names.agda, "where"],
     imports,
     importPragmas names.abstractSyntax names.printer,
     ident,
     types,
     text "-- Binding the BNFC pretty printer",
     identPrinter,
     printing,
     empty]

def moduleText (time : String) (names : ModuleNames) (ds : List DataDecl) : Except Fault String :=
  (moduleDocument time names ds).map render

end GrammarBindings.Agda
