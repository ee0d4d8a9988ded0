import GrammarBindings.Agda.Naming
import GrammarBindings.Grammar.Reading
import GrammarBindings.Run.CommandLine
import GrammarBindings.Run.Configuration

/-!
# Runs

A run resolves its command line, reads the grammar, generates the Agda module and writes it below
the output directory. It answers with what it prints, what it logs, and how it ends. Nothing is
written before the module is complete, so a run that fails earlier leaves all files alone.
-/

namespace GrammarBindings

/-- How a run fails. Some failures are told to the user, others end the program as they are. -/
inductive RunFailure where
  | usage (e : UsageError)
  | reading (e : ReadFailure)
  | generation (e : Agda.Fault)
  | file (f : FileFault)
  | configuration (e : ConfigurationFault)
  deriving DecidableEq, Repr

namespace RunFailure

def message : RunFailure → String
  | usage e => e.message
  | reading e => e.message
  | generation e => e.message
  | file f => f.reason
  | configuration e => e.message

/-- Whether the user is told, and the program ends in order. -/
def isTold : RunFailure → Bool
  | usage _ | reading (.text _ _) | reading (.encoding _ _) => true
  | _ => false

end RunFailure

structure Outcome where
  printed : String := ""
  log : List Log.Entry := []
  result : Except RunFailure Unit := .ok ()

namespace Outcome

/-- Puts what was logged earlier in front. -/
def after (es : List Log.Entry) (o : Outcome) : Outcome := { o with log := es ++ o.log }

def failure (e : RunFailure) : Outcome := { result := .error e }

end Outcome

/-- A path with a null byte is no path at all; every other fault is the file's. -/
def RunFailure.ofFile (e : String → UsageError) : FileFault → RunFailure
  | .nullByte => file .nullByte
  | f => usage (e f.reason)

section

variable (settings : Settings) (env : Environment) (now : CivilMinute)

/-- Where a generated file goes. -/
def destination (path : String) : String :=
  Path.joinAll settings.outDirectory (Path.pieces path)

def writeGenerated (f : Agda.GeneratedFile) : Job Outcome := do
  let path := destination settings f.path
  let note := Log.info ("writing file " ++ path)
  match ← Job.store path f.content.toUTF8 with
  | .ok () => return { log := [note] }
  | .error e => return (Outcome.failure (.ofFile (.unwritable path) e)).after [note]

def generateFrom (o : Options) (reading : Reading) : Job Outcome :=
  match reading.result with
  | .error e => return (Outcome.failure (.reading e)).after reading.notes
  | .ok g => do
    let (time, warnings) := stamp settings env now
    let notes := reading.notes ++ warnings ++ Agda.generationNotes o g
    match Agda.generate time o g with
    | .error e => return (Outcome.failure (.generation e)).after notes
    | .ok f => return (← writeGenerated settings f).after notes

def generate (o : Options) (path : String) : Job Outcome :=
  match o.target.checkServed with
  | .error e => return Outcome.failure (.usage e)
  | .ok () => do
    match ← Job.load path with
    | .error e => return Outcome.failure (.ofFile (.unreadable path) e)
    | .ok bytes => generateFrom settings env now o (Reading.ofBytes path bytes)

def targetNote (o : Options) (path : String) : Log.Entry :=
  Log.debug ("target " ++ o.target.word ++ ", grammar " ++ path)

def run (args : List String) : Job Outcome :=
  match CommandLine.resolve args with
  | (warnings, .error e) => return (Outcome.failure (.usage e)).after warnings
  | (warnings, .ok (.print text)) => return { printed := text, log := warnings }
  | (warnings, .ok (.generate o path)) => do
    return (← generate settings env now o path).after (warnings ++ [targetNote o path])

end

end GrammarBindings
