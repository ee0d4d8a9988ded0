import GrammarBindings.Agda.Names

/-!
# Printers

A printing function per category, postulated in Agda and bound to the one that Haskell has for the
same grammar. Identifiers are printed without it.
-/

namespace GrammarBindings.Agda

open Document

def printerName (type : String) : String := "print" ++ type

def identPrinter : Document :=
  let name := printerName identType
  vcat
    [words [name, ":", identType, arrow, stringType],
     hsep [text name, parens (words [identConstructor, "s"]), text "=", text stringFromList,
       text "s"]]

def printerSignature (type : String) : Document :=
  words [printerName type, ":", type, arrow, stringType]

def printerPragma (type : String) : Document :=
  hsep
    [words ["\x7b-#", "COMPILE", "GHC", printerName type, "=", "\\", "x", "->", "Data.Text.pack"],
     parens (hsep [text "printTree", parens (words ["x", "::", type])]),
     text "#-\x7d"]

def printers (cs : List Category) : Except Fault Document := do
  let names ← cs.mapM (nameOf "printer")
  return stackSpaced
    (vcat (text "postulate" :: names.map fun n => indented step (printerSignature n)))
    (vcat (names.map printerPragma))

end GrammarBindings.Agda
