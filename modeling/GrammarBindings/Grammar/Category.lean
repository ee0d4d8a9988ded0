import GrammarBindings.Text.Numeral

/-!
# Categories

The nonterminals of a labelled grammar: plain categories, categories of tokens, precedence levels
of a plain category and lists of another category. Two more forms occur in rules that were not
read from text: the marker of internal rules and a text that stands where a category is due.

A category is written by its name, its level in decimal behind the name, and a list in brackets.
Reading a name back depends on the names that were declared as tokens.
-/

namespace GrammarBindings

open Text

inductive Category where
  | plain (name : String)
  | token (name : String)
  | level (name : String) (rank : Int)
  | list (element : Category)
  | internal
  | stray (text : String)
  deriving DecidableEq, Repr

namespace Category

/-- The category without its precedence level, also inside lists. -/
def normalize : Category → Category
  | level name _ => plain name
  | list element => list element.normalize
  | c => c

@[simp] theorem normalize_plain (n : String) : (plain n).normalize = plain n := rfl
@[simp] theorem normalize_token (n : String) : (token n).normalize = token n := rfl
@[simp] theorem normalize_level (n : String) (k : Int) : (level n k).normalize = plain n := rfl
@[simp] theorem normalize_list (c : Category) : (list c).normalize = list c.normalize := rfl
@[simp] theorem normalize_internal : internal.normalize = internal := rfl
@[simp] theorem normalize_stray (s : String) : (stray s).normalize = stray s := rfl

@[simp] theorem normalize_normalize (c : Category) : c.normalize.normalize = c.normalize := by
  induction c with
  | list c ih => simp [ih]
  | _ => rfl

def isList : Category → Bool
  | list _ => true
  | _ => false

def written : Category → String
  | plain name | token name => name
  | level name rank => name ++ toString rank
  | list element => "[" ++ element.written ++ "]"
  | internal | stray _ => "#"

/-- The category as messages show it, its form spelled out. All digits of a level are shown; if it
was read, there are at most `Text.maxDigits` of them. -/
def described : Category → String
  | plain name => "Cat(name=" ++ quote name ++ ")"
  | token name => "TokenCat(name=" ++ quote name ++ ")"
  | level name rank => "CoercCat(name=" ++ quote name ++ ", level=" ++ toString rank ++ ")"
  | list element => "ListCat(cat=" ++ element.described ++ ")"
  | internal => "InternalCat()"
  | stray text => quote text

/-- The token categories that need no declaration. -/
def baseTokens : List String := ["Ident", "Integer", "Double", "Char", "String"]

/-- What stands between an opening and a closing bracket at the two ends. -/
def bracketed? : List Char → Option (List Char)
  | '[' :: cs => if cs.getLast? = some ']' then some cs.dropLast else none
  | _ => none

theorem length_of_bracketed? {cs inner : List Char} (h : bracketed? cs = some inner) :
    inner.length < cs.length := by
  unfold bracketed? at h
  split at h
  · split at h
    · cases h
      rw [List.length_dropLast, List.length_cons]
      omega
    · simp at h
  · simp at h

/-- A name ending in ASCII digits, cut before the digits. Before the last character in front of
them no line may end. -/
def levelParts? (cs : List Char) : Option (List Char × List Char) :=
  let digits := (cs.reverse.takeWhile isAsciiDigit).reverse
  let stem := (cs.reverse.dropWhile isAsciiDigit).reverse
  if digits.isEmpty || stem.isEmpty || '\n' ∈ stem.dropLast then none else some (stem, digits)

/-- A name without brackets: declared tokens first, then levels, then plain categories. -/
def ofName (declared : List String) (cs : List Char) : Except NumeralFault Category :=
  let name := String.ofList cs
  if name ∈ baseTokens || name ∈ declared then .ok (token name)
  else match levelParts? cs with
    | some (stem, digits) => (readAsciiDigits digits).map fun k => level (String.ofList stem) k
    | none => .ok (plain name)

/-- Reads a written category; blanks are ignored at the ends and inside each pair of brackets. -/
def ofChars (declared : List String) (cs : List Char) : Except NumeralFault Category :=
  match _h : bracketed? (trimBlanks cs) with
  | some inner => (ofChars declared inner).map list
  | none => ofName declared (trimBlanks cs)
termination_by cs.length
decreasing_by
  have h₁ := length_of_bracketed? _h
  have h₂ := length_trimWith_le isBlank cs
  simp only [trimBlanks] at h₁
  omega

def read (declared : List String) (name : String) : Except NumeralFault Category :=
  ofChars declared name.toList

end Category
end GrammarBindings
