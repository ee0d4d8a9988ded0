import GrammarBindings.Files.Path
import GrammarBindings.Options.Basic
import GrammarBindings.Agda.Module

/-!
# Names of modules and files

The grammar's name stands behind a module's own name, or names the directory that the module is in;
a package stands in front of all.
-/

namespace GrammarBindings.Agda

def moduleName (o : Options) (name : String) : String :=
  let base := if o.inDirectory then o.grammarName ++ "." ++ name else name ++ o.grammarName
  match o.package with
  | none => base
  | some p => p.text ++ "." ++ base

def fileName (o : Options) (name extension : String) : String :=
  let suffix := if extension.isEmpty then "" else "." ++ extension
  let path :=
    if o.inDirectory then Path.join o.grammarName (name ++ suffix)
    else name ++ o.grammarName ++ suffix
  match o.package.map Package.parts with
  | none | some [] => path
  | some (p :: ps) => Path.joinAll p (ps ++ [path])

def agdaModule (o : Options) : String := moduleName o "AST"

def agdaFile (o : Options) : String := fileName o "AST" "agda"

/-- The names of all modules that a run for the options is about. -/
def moduleNames (o : Options) : ModuleNames :=
  ⟨agdaModule o, moduleName o "Abs", moduleName o "Print"⟩

/-- A file to be written, at a path with slashes. -/
structure GeneratedFile where
  path : String
  content : String
  deriving DecidableEq, Repr

def generate (time : String) (o : Options) (g : Grammar) : Except Fault GeneratedFile :=
  (moduleText time (moduleNames o) g.dataDeclarations).map fun content => ⟨agdaFile o, content⟩

def generationNotes (o : Options) (g : Grammar) : List Log.Entry :=
  [Log.debug ("generating Agda module " ++ agdaModule o ++ " from " ++
    toString g.dataDeclarations.length ++ " categories"),
   declarationsNote g.dataDeclarations]

end GrammarBindings.Agda
