import GrammarBindings.Grammar.Rule
import GrammarBindings.Layout.Combinators

/-!
# Agda types of categories

The types of the Agda library are imported under names with a hash sign in front, which no name in
a grammar can have; those of integers and of floating-point numbers are called as the token
categories are. A list category is the list type applied to the type of its element. The marker of
internal rules and texts have no type, and only a plain category names a declaration.
-/

namespace GrammarBindings.Agda

open Document

def arrow : String := "→"

def charType : String := "#Char"

def integerType : String := "Integer"

def doubleType : String := "Double"

def listType : String := "#List"

def stringType : String := "#String"

def stringFromList : String := "#stringFromList"

/-- The type of identifiers, which is declared apart from the grammar's categories. -/
def identType : String := "Id"

def identConstructor : String := "mkId"

/-- A category where none of its form can be: an error in what was handed in, not in a grammar. -/
inductive Fault where
  | unnamed (place : String) (c : Category)
  | internalType
  | noCategory (text : String)
  deriving DecidableEq, Repr

def Fault.message : Fault → String
  | unnamed place c => place ++ ": unexpected category " ++ c.described
  | internalType => "pretty_cat: unexpected case InternalCat"
  | noCategory s => "pretty_cat: not a category: " ++ Text.quote s

def isComposite : Category → Bool
  | .list _ => true
  | _ => false

def typeOf : Category → Except Fault Document
  | .plain name | .token name | .level name _ => .ok (text name)
  | .list element =>
    (typeOf element).map fun t => adjoinSpaced (text listType) (parensIf (isComposite element) t)
  | .internal => .error .internalType
  | .stray s => .error (.noCategory s)

def nameOf (place : String) : Category → Except Fault String
  | .plain name => .ok name
  | c => .error (.unnamed place c)

end GrammarBindings.Agda
