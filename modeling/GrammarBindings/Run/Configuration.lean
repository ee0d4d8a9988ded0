import GrammarBindings.Files.Job
import GrammarBindings.Settings
import GrammarBindings.Text.Utf8
import GrammarBindings.Toml.Document

/-!
# Configuration files

The first file that says anything is the configuration; one that is missing, cannot be read or is
no TOML is passed over. Where it cannot be told whether a file is there, the search breaks off. A
project file has the settings in a table of its own, another file also on its top level. Over the
configuration stands the environment.
-/

namespace GrammarBindings

/-- What no search for a configuration gets past. -/
inductive ConfigurationFault where
  | encoding
  | numeral (f : Text.NumeralFault)
  | file (f : FileFault)
  deriving DecidableEq, Repr

def ConfigurationFault.message : ConfigurationFault → String
  | encoding => "the configuration is not valid UTF-8"
  | numeral f => f.message
  | file f => f.reason

namespace Overrides

/-- Settings that are no texts are ignored. -/
def ofTable (t : Toml.Table) : Overrides where
  outDirectory? := (t.get? "out_dir").bind Toml.Value.text?
  logLevel? := (t.get? "log_level").bind Toml.Value.text?
  timestamp? := (t.get? "timestamp").bind Toml.Value.text?

end Overrides

namespace Configuration

def ownFile : String := "bnfc.toml"

def projectFile : String := "pyproject.toml"

/-- The files that are searched in a directory, in order. -/
def candidates (directory : String) : List String :=
  [ownFile, projectFile].map (Path.join directory)

/-- The table with the settings, unless there is none or it is empty. -/
def section? (path : String) (t : Toml.Table) : Option Toml.Table :=
  let own (t : Toml.Table) : Option Toml.Table := (t.get? "bnfc").bind Toml.Value.table?
  let found :=
    if Path.baseName path = projectFile then ((t.get? "tool").bind Toml.Value.table?).bind own
    else (own t).or (some t)
  found.filter fun t => !t.isEmpty

/-- What the content of a file says. -/
def ofBytes (path : String) (bytes : ByteArray) : Except ConfigurationFault (Option Overrides) :=
  match Text.decode bytes with
  | .error _ => .error .encoding
  | .ok text =>
    match Toml.read text with
    | .ok t => .ok ((section? path t).map Overrides.ofTable)
    | .error .malformed => .ok none
    | .error (.numeral f) => .error (.numeral f)

/-- What a file says that is there, as far as it can be read. -/
def ofReading (path : String) :
    Except FileFault ByteArray → Except ConfigurationFault (Option Overrides)
  | .ok bytes => ofBytes path bytes
  | .error .nullByte => .error (.file .nullByte)
  | .error _ => .ok none

/-- What the first of the files that says anything says. -/
def search : List String → Job (Except ConfigurationFault Overrides)
  | [] => return .ok {}
  | path :: paths => do
    match ← Job.holds path with
    | .error e => return .error (.file e)
    | .ok false => search paths
    | .ok true =>
      match ofReading path (← Job.load path) with
      | .error e => return .error e
      | .ok (some o) => return .ok o
      | .ok none => search paths

/-- What the configuration says: that of a given file, or else of those in the working directory. -/
def find : Option String → Job (Except ConfigurationFault Overrides)
  | some path => search [path]
  | none => do
    match ← Job.workingDirectory with
    | .error e => return .error (.file e)
    | .ok directory => search (candidates directory)

end Configuration

namespace Settings

/-- The settings after some layers of configuration, the last of which has the last word. -/
def ofLayers (s : Settings) (os : List Overrides) : Settings × List Log.Entry :=
  (os.foldl override s, os.flatMap notes)

/-- The settings of a file, or of the files that are searched if none is given. -/
def fromFile (path? : Option String) :
    Job (Except ConfigurationFault (Settings × List Log.Entry)) := do
  let found ← Configuration.find path?
  return found.map fun o => ofLayers {} [o]

def fromEnvironment (s : Settings) (env : Environment) (beginning : String) :
    Settings × List Log.Entry :=
  ofLayers s [Overrides.ofEnvironment env beginning]

def load (env : Environment) (path? : Option String) :
    Job (Except ConfigurationFault (Settings × List Log.Entry)) := do
  let found ← Configuration.find path?
  return found.map fun o =>
    ofLayers {} [o, Overrides.ofEnvironment env Overrides.ownBeginning]

end Settings
end GrammarBindings
