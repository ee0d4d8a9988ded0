import GrammarBindings.Files.Tree
import GrammarBindings.Text.CodePoint

/-!
# Writing in steps

The directories of the path are made, an empty file under a new name is created beside the
destination, it gets the content and is moved to its place. If the content has no encoding or the
file cannot be moved, the temporary file is removed.
-/

namespace GrammarBindings

/-- Why a content is not written. -/
inductive WriteFault where
  | file (f : FileFault)
  | encoding
  deriving DecidableEq, Repr

namespace FileTree

def remove (t : FileTree) (l : Location) : FileTree :=
  { t with entries := t.entries.filter fun e => e.1 ≠ l }

/-- What is at the one place goes to the other, over what may be there. -/
def rename (t : FileTree) (source target : Location) : FileTree :=
  match t.get? source with
  | some n => (t.remove source).put target n
  | none => t

/-- The directory in which the last piece of a path has its place. -/
def directoryOf (t : FileTree) (p : String) : Except FileFault Location :=
  t.enter (t.start p) (Path.steps (Path.directory p))

/-- Creates an empty file in the directory of a path, under a name that is not taken. -/
def createBeside (t : FileTree) (p name : String) : Except FileFault (Location × FileTree) := do
  let directory ← t.directoryOf p
  if isOverlong (Path.join (absolutePath directory) name) then throw .nameTooLong
  if isTooLong name then throw .nameTooLong
  match t.get? (directory ++ [name]) with
  | some _ => throw .alreadyExists
  | none => return (directory ++ [name], t.put (directory ++ [name]) (.file ByteArray.empty))

/-- Whether the last piece of a path can be the name of a file. -/
def checkFileName (p : String) : Except FileFault Unit := do
  checkPath p
  let name := Path.lastPiece p
  if isDots name then throw .busy
  if name.isEmpty then
    match (Path.steps p).getLast? with
    | none => throw .busy
    | some d => if isDots d then throw .busy else throw .notDirectory
  if isTooLong name then throw .nameTooLong

/-- Moves the file at a location to a path where no directory is. -/
def moveTo (t : FileTree) (source : Location) (p : String) : Except FileFault FileTree := do
  checkFileName p
  let directory ← t.directoryOf p
  if t.get? (directory ++ [Path.lastPiece p]) = some .directory then throw .isDirectory
  return t.rename source (directory ++ [Path.lastPiece p])

/-- Writes a content through a temporary file, which is removed if it cannot get to its place. -/
def writeInSteps (t : FileTree) (p : String) (content : List CodePoint) (name : String) :
    Except WriteFault Unit × FileTree :=
  match t.makeDirectories (Path.directory p) true with
  | (.error e, made) => (.error (.file e), made)
  | (.ok (), made) =>
    match made.createBeside p name with
    | .error e => (.error (.file e), made)
    | .ok (temporary, created) =>
      match CodePoint.encode? content with
      | none => (.error .encoding, created.remove temporary)
      | some bytes =>
        let filled := created.put temporary (.file bytes)
        match filled.moveTo temporary p with
        | .ok after => (.ok (), after)
        | .error e => (.error (.file e), filled.remove temporary)

end FileTree
end GrammarBindings
