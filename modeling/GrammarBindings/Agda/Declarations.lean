import GrammarBindings.Agda.Names
import GrammarBindings.Log

/-!
# Declarations

The Agda data type of each declaration of a grammar, with the pragma that binds it to the Haskell
type of the same name. All of them stand in one mutual block, so their order is free.
-/

namespace GrammarBindings.Agda

open Document

/-- The type of a constructor of the data type `d`: its arguments, then `d`. -/
def constructorSignature (d : String) (k : Constructor) : Except Fault Document := do
  let types ← (k.arguments ++ [Category.plain d]).mapM typeOf
  return hsep (text k.name :: text ":" :: types.intersperse (text arrow))

def dataType (d : String) (ks : List Constructor) : Except Fault Document := do
  let signatures ← ks.mapM (constructorSignature d)
  return vcat (words ["data", d, ":", "Set", "where"] :: signatures.map (indented step))

def dataPragma (d : String) (ks : List Constructor) : Document :=
  bracketList (words ["\x7b-#", "COMPILE", "GHC", d, "=", "data", d])
    (text "(") (words [")", "#-\x7d"]) (text "|") (ks.map fun k => text k.name)

/-- Two pieces, to be nested and separated by the caller. -/
def declaration (d : DataDecl) : Except Fault (List Document) := do
  let name ← nameOf "pr_data" d.category
  let type ← dataType name d.constructors
  return [type, dataPragma name d.constructors]

def declarations (ds : List DataDecl) : Except Fault Document := do
  let pieces ← ds.mapM declaration
  return vsep (text "mutual" :: pieces.flatten.map (indented step))

def declarationsNote (ds : List DataDecl) : Log.Entry :=
  Log.debug ("translated " ++ toString ds.length ++ " data declarations")

/-- An identifier is a list of characters, bound to a constructor of its own name. -/
def identDeclaration : Except Fault Document := do
  let type ← dataType identType [⟨identConstructor, [.list (.plain charType)]⟩]
  return stackSpaced type (dataPragma identType [⟨identType, []⟩])

end GrammarBindings.Agda
