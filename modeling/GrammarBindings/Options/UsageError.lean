import GrammarBindings.Options.Target
import GrammarBindings.Text.Quoted

/-!
# Usage errors

What can be wrong with a command line, with the value of an option, or with the files that a run
needs; and how each of it is told.
-/

namespace GrammarBindings

open Text

/-- What is wrong with a value: a library refuses it, or it is a text that can be no package. -/
inductive FieldProblem where
  | refused (reason : String)
  | package (text : String)
  deriving DecidableEq, Repr

namespace FieldProblem

def message : FieldProblem → String
  | refused reason => reason
  | package text => "Value error, package must be a dotted module path (got " ++ quote text ++ ")"

def notText : FieldProblem := .refused "Input should be a valid string"

end FieldProblem

inductive UsageError where
  | field (name : String) (problem : FieldProblem)
  | unrecognizedGlobal (written : String)
  | ambiguousGlobal (name : String) (candidates : List String)
  | needlessValue (flag : String)
  | invalidTarget (word : String)
  | ambiguousOption (word : String) (candidates : List String)
  | missingValue (option : String)
  | ignoredValue (option value : String)
  | conflict (option other : String)
  | missingOperand
  | unrecognizedWords (words : List String)
  | missingGrammar
  | severalTargets
  | notGrammarFile
  | unservedTarget (target : Target)
  | unreadable (path reason : String)
  | unwritable (path reason : String)
  deriving DecidableEq, Repr

namespace UsageError

def message : UsageError → String
  | field name problem => "invalid option " ++ name ++ ": " ++ problem.message
  | unrecognizedGlobal written => "unrecognized option `" ++ written ++ "\x27"
  | ambiguousGlobal name candidates =>
    "option `--" ++ name ++ "\x27 is ambiguous; could be one of: " ++ ", ".intercalate candidates
  | needlessValue flag => "option `" ++ flag ++ "\x27 doesn\x27t allow an argument"
  | invalidTarget word => "Invalid target " ++ word
  | ambiguousOption word candidates =>
    "ambiguous option: " ++ word ++ " could match " ++ ", ".intercalate candidates
  | missingValue option => "argument " ++ option ++ ": expected one argument"
  | ignoredValue option value =>
    "argument " ++ option ++ ": ignored explicit argument " ++ quote value
  | conflict option other => "argument " ++ option ++ ": not allowed with argument " ++ other
  | missingOperand => "the following arguments are required: grammar"
  | unrecognizedWords words => "unrecognized arguments: " ++ " ".intercalate words
  | missingGrammar => "Missing grammar file"
  | severalTargets => "Error: only one language mode may be chosen"
  | notGrammarFile => "Error: the input file must end with .cf"
  | unservedTarget target => "no backend available for target " ++ target.word
  | unreadable path reason => "cannot read grammar file " ++ path ++ ": " ++ reason
  | unwritable path reason => "cannot write " ++ path ++ ": " ++ reason

end UsageError

/-- A target without a generator is refused. -/
def Target.checkServed (t : Target) : Except UsageError Unit :=
  if t.isServed then .ok () else .error (.unservedTarget t)

end GrammarBindings
