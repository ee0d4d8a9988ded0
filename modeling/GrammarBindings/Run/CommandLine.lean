import GrammarBindings.Log
import GrammarBindings.Options.Mode
import GrammarBindings.Options.OptionLine
import GrammarBindings.Options.SingleDash

/-!
# The command line

A command line is resolved to one of two texts to print, or to options and a grammar. What is no
line of the newer style may be one of the older, and is read as such with warnings about each old
flag.
-/

namespace GrammarBindings

inductive Resolution where
  | print (text : String)
  | generate (o : Options) (grammar : String)

namespace CommandLine

def version : String := "0.1.0"

def usage : String :=
  "usage: bnfc [--help | --version | --multilingual] TARGET [OPTIONS] FILE\n" ++
  "\n" ++
  "Generate Agda bindings for the Haskell abstract syntax of an LBNF grammar.\n" ++
  "\n" ++
  "Global options:\n" ++
  "  --help          show this message and exit\n" ++
  "  --version       show the version number and exit\n" ++
  "  --multilingual  mark the run as multilingual\n" ++
  "\n" ++
  "Targets:\n" ++
  "  " ++ ", ".intercalate (Target.all.map Target.word) ++ "\n" ++
  "\n" ++
  "Target options:\n" ++
  "  -m, --make            also generate a Makefile\n" ++
  "  -d                    put modules in a directory named after the grammar\n" ++
  "  -p, --package NAME    prefix every module with NAME\n" ++
  "  --alex1 | --alex2 | --alex3\n" ++
  "  --sharestrings, --bytestrings, --glr\n" ++
  "  --xml | --xmlt\n" ++
  "  --cnf, -l, --vs, --wcf\n" ++
  "\n" ++
  "FILE must end in .cf, .bnf, .lbnf or .bnfc.\n"

/-- A line that is read as one of the older style, with its warnings. -/
def resolveSingleDash (args : List String) (e : UsageError) :
    List Log.Entry × Except UsageError Resolution :=
  let spellings := (SingleDash.oldSpellingWarnings args).map Log.warning
  if SingleDash.isLikely args then
    (spellings ++ (SingleDash.deprecations args).map Log.warning,
      (SingleDash.read args).map fun (o, path) => .generate o path)
  else (spellings, .error e)

def resolve (args : List String) : List Log.Entry × Except UsageError Resolution :=
  match Mode.ofWords args with
  | .help => ([], .ok (.print usage))
  | .version => ([], .ok (.print (version ++ "\n")))
  | .generate target args multilingual =>
    ([], (readOptionLine target args multilingual).map fun (o, path) => .generate o path)
  | .failure e => resolveSingleDash args e

end CommandLine
end GrammarBindings
