import GrammarBindings.Grammar.Category

/-!
# Rules, data declarations and grammars

A rule gives a result category a labelled sequence of terminals and categories. The abstract
syntax keeps of it the label and the normalized categories: `dataDeclarations` groups these
constructors by result category, both in the order of their first appearance. Coercions, rules for
lists and rules whose result is a token or the internal marker contribute nothing.
-/

namespace GrammarBindings

abbrev Label := String

namespace Label

/-- Precedence levels are connected by rules with this label. -/
def isCoercion (l : Label) : Bool := l = "_"

/-- The labels for the empty list, for adding an element, and for a list of one element. -/
def listLabels : List Label := ["[]", "(:)", "(:[])"]

def isList (l : Label) : Bool := l ∈ listLabels

end Label

inductive Item where
  | terminal (text : String)
  | category (c : Category)
  deriving DecidableEq, Repr

namespace Item

def category? : Item → Option Category
  | terminal _ => none
  | category c => some c

theorem category?_eq_some_iff {item : Item} {c : Category} :
    item.category? = some c ↔ item = .category c := by
  cases item with
  | terminal text => simp [category?]
  | category c' => simp [category?]

end Item

structure Rule where
  label : Label
  category : Category
  items : List Item
  internal : Bool
  deriving DecidableEq, Repr

structure Constructor where
  name : String
  arguments : List Category
  deriving DecidableEq, Repr

structure DataDecl where
  category : Category
  constructors : List Constructor
  deriving DecidableEq, Repr

namespace Rule

/-- The normalized categories among the items, in order. -/
def arguments (r : Rule) : List Category :=
  (r.items.filterMap Item.category?).map Category.normalize

theorem mem_arguments_iff {r : Rule} {c : Category} :
    c ∈ r.arguments ↔ ∃ c', .category c' ∈ r.items ∧ c'.normalize = c := by
  simp [arguments, Item.category?_eq_some_iff]

def constructor (r : Rule) : Constructor := ⟨r.label, r.arguments⟩

/-- Whether the rule's result category gets constructors at all. -/
def hasDeclarableResult (r : Rule) : Bool :=
  match r.category.normalize with
  | .list _ | .token _ | .internal => false
  | _ => true

def contributes (r : Rule) : Bool :=
  r.hasDeclarableResult && !r.label.isCoercion && !r.label.isList

end Rule

namespace DataDecl

/-- Adds a constructor at the end, unless the declaration has it already. -/
def insert (d : DataDecl) (k : Constructor) : DataDecl :=
  if k ∈ d.constructors then d else { d with constructors := d.constructors ++ [k] }

/-- Adds a constructor to the declaration of a category, or opens a declaration at the end. -/
def insertInto (c : Category) (k : Constructor) : List DataDecl → List DataDecl
  | [] => [⟨c, [k]⟩]
  | d :: ds => if d.category = c then d.insert k :: ds else d :: insertInto c k ds

end DataDecl

def dataDeclarations (rules : List Rule) : List DataDecl :=
  (rules.filter Rule.contributes).foldl
    (fun ds r => DataDecl.insertInto r.category.normalize r.constructor ds) []

structure Grammar where
  rules : List Rule
  tokens : List String
  entrypoints : List Category
  deriving DecidableEq, Repr

namespace Grammar

/-- The normalized result categories of all rules, in the order of their first appearance. -/
def categories (g : Grammar) : List Category :=
  (g.rules.map fun r => r.category.normalize).eraseDups

def dataDeclarations (g : Grammar) : List DataDecl := GrammarBindings.dataDeclarations g.rules

end Grammar
end GrammarBindings
