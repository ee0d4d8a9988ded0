/-!
# Targets

The languages for which a grammar can be compiled, with the words that choose them. Only those of
the Haskell family have a generator here.
-/

namespace GrammarBindings

inductive Target where
  | c | cpp | cppStl | cSharp | haskell | haskellGadt | java | ocaml | profile
  deriving DecidableEq, Repr

namespace Target

def all : List Target := [c, cpp, cppStl, cSharp, haskell, haskellGadt, java, ocaml, profile]

theorem mem_all (t : Target) : t ∈ all := by cases t <;> decide

def word : Target → String
  | c => "c"
  | cpp => "cpp"
  | cppStl => "cpp-stl"
  | cSharp => "c-sharp"
  | haskell => "haskell"
  | haskellGadt => "haskell-gadt"
  | java => "java"
  | ocaml => "ocaml"
  | profile => "profile"

def ofWord? (w : String) : Option Target := all.find? fun t => t.word = w

@[simp] theorem ofWord?_word (t : Target) : ofWord? t.word = some t := by cases t <;> decide

/-- Whether Agda bindings are generated for the target. -/
def isServed : Target → Bool
  | haskell | haskellGadt | profile => true
  | _ => false

end Target
end GrammarBindings
