import GrammarBindings.Run.Program
import Std.Time.DateTime.Timestamp

/-!
# The executable

Carries the program's job out on the files of the system, with its arguments, its environment and
the present time.
-/

namespace GrammarBindings

/-- Codes are reported with either sign. -/
def isCode (n code : UInt32) : Bool := code = n || code = 0 - n

def faultOfError : IO.Error → FileFault
  | .noFileOrDirectory .. => .notFound
  | .alreadyExists .. => .alreadyExists
  | .resourceBusy .. => .busy
  | .inappropriateType _ code _ => if isCode 21 code then .isDirectory else .notDirectory
  | .invalidArgument _ code details =>
    if isCode 36 code then .nameTooLong
    else if isCode 40 code then .linkLoop
    else .system details
  | e => .system (toString e)

def attempt {α : Type} (path : String) (act : IO α) : IO (Except FileFault α) := do
  if FileTree.hasNull path then return .error .nullByte
  match ← act.toBaseIO with
  | .ok a => return .ok a
  | .error e => return .error (faultOfError e)

def ownerMayWrite : IO.FileRight :=
  ⟨⟨true, true, false⟩, ⟨true, false, false⟩, ⟨true, false, false⟩⟩

/-- Writes beside the destination first, so that the file is replaced as a whole or not at all. -/
def putInPlace (path : String) (content : ByteArray) : IO Unit := do
  let directory := Path.directory path
  if !directory.isEmpty then IO.FS.createDirAll directory
  let temporary := Path.join directory (".tmp-" ++ toString (← IO.monoNanosNow))
  try
    IO.FS.writeBinFile temporary content
    IO.setAccessRights temporary ownerMayWrite
    IO.FS.rename temporary path
  catch e =>
    try IO.FS.removeFile temporary catch _ => pure ()
    throw e

def Job.perform {α : Type} : Job α → IO α
  | .done a => return a
  | .locate next => do
    (next (← attempt "" (do return (← IO.currentDir).toString))).perform
  | .ask path next => do
    let look : IO IO.FS.Metadata := do ((← IO.currentDir) / Path.normal path).metadata
    (next (presence (← attempt path look))).perform
  | .read path next => do
    (next (← attempt path (IO.FS.readBinFile (Path.normal path)))).perform
  | .write path content next => do
    (next (← attempt path (putInPlace path content))).perform

def readEnvironment : IO Environment := do
  let names := ["BNFC_OUT_DIR", "BNFC_LOG_LEVEL", "BNFC_TIMESTAMP", "SOURCE_DATE_EPOCH"]
  let values ← names.mapM fun n => return (n, ← IO.getEnv n)
  return fun n => (values.lookup n).join

def presentMinute : IO CivilMinute := do
  let now ← Std.Time.Timestamp.now
  return (Calendar.ofEpoch? now.toSecondsSinceUnixEpoch.val).getD (Calendar.civilMinute 0)

end GrammarBindings

open GrammarBindings in
def main (args : List String) : IO UInt32 := do
  let report ← (program args (← readEnvironment) (← presentMinute)).perform
  IO.print report.output
  IO.eprint report.errors
  match report.exit with
  | .ok code => return code.toUInt32
  | .error e =>
    IO.eprintln ("bnfc: " ++ e.message)
    return 1
