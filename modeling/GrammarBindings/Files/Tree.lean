import GrammarBindings.Files.Path

/-!
# File trees

Directories and files below a root, with a working directory at which relative paths begin. Each
path that is present has an entry; the root needs none. Reading, making directories and writing
follow paths step by step, as an operating system does, and say why they fail.

Writing makes the directories on the way and puts the file in place in one step, so it leaves either
the whole new content behind or nothing but new directories.
-/

namespace GrammarBindings

inductive Node where
  | directory
  | file (content : ByteArray)

instance : DecidableEq Node
  | .directory, .directory => isTrue rfl
  | .directory, .file _ => isFalse nofun
  | .file _, .directory => isFalse nofun
  | .file a, .file b =>
    match ByteArray.instDecidableEq a b with
    | isTrue h => isTrue (congrArg Node.file h)
    | isFalse h => isFalse fun e => h (Node.file.inj e)

/-- Why a path cannot be used. Beyond a tree of this kind, a system may have reasons of its own. -/
inductive FileFault where
  | notFound | notDirectory | isDirectory | alreadyExists | nameTooLong | linkLoop | busy | nullByte
  | system (reason : String)
  deriving DecidableEq, Repr

def FileFault.reason : FileFault → String
  | notFound => "No such file or directory"
  | notDirectory => "Not a directory"
  | isDirectory => "Is a directory"
  | alreadyExists => "File exists"
  | nameTooLong => "File name too long"
  | linkLoop => "Too many levels of symbolic links"
  | busy => "Device or resource busy"
  | nullByte => "embedded null byte"
  | system r => r

/-- Whether a fault says that there is nothing at a path. A text that is no path leads nowhere. -/
def FileFault.isAbsence : FileFault → Bool
  | notFound | notDirectory | linkLoop | nullByte => true
  | _ => false

/-- Whether there is anything at a path that was followed with this outcome. Some faults leave that
untold. -/
def presence {α : Type} : Except FileFault α → Except FileFault Bool
  | .ok _ => .ok true
  | .error e => if e.isAbsence then .ok false else .error e

/-- The steps from the root. -/
abbrev Location := List String

structure FileTree where
  entries : List (Location × Node)
  workingDirectory : Location

namespace FileTree

def get? (t : FileTree) (l : Location) : Option Node :=
  if l = [] then some .directory else t.entries.lookup l

/-- Replaces the first entry of a location, or adds one at the end. -/
def putEntry (l : Location) (n : Node) : List (Location × Node) → List (Location × Node)
  | [] => [(l, n)]
  | (k, m) :: es => if l = k then (k, n) :: es else (k, m) :: putEntry l n es

def put (t : FileTree) (l : Location) (n : Node) : FileTree :=
  { t with entries := putEntry l n t.entries }

@[simp] theorem workingDirectory_put (t : FileTree) (l : Location) (n : Node) :
    (t.put l n).workingDirectory = t.workingDirectory := rfl

private theorem lookup_cons_of_ne {k m : Location} (v : Node) (es : List (Location × Node))
    (h : k ≠ m) : ((m, v) :: es).lookup k = es.lookup k := by
  have hb : (k == m) = false := by simpa using h
  simp [List.lookup_cons, hb]

theorem lookup_putEntry (l k : Location) (n : Node) (es : List (Location × Node)) :
    (putEntry l n es).lookup k = if k = l then some n else es.lookup k := by
  induction es with
  | nil => by_cases h : k = l <;> simp [putEntry, h, lookup_cons_of_ne]
  | cons e es ih =>
    obtain ⟨m, v⟩ := e
    by_cases hm : l = m
    · subst hm
      by_cases h : k = l <;> simp [putEntry, h, lookup_cons_of_ne]
    · by_cases h : k = m
      · subst h
        simp [putEntry, hm, Ne.symm hm]
      · simp [putEntry, hm, h, lookup_cons_of_ne, ih]

theorem get?_put_self {t : FileTree} {l : Location} {n : Node} (h : l ≠ []) :
    (t.put l n).get? l = some n := by
  simp [get?, put, h, lookup_putEntry]

theorem get?_put_of_ne {t : FileTree} {k l : Location} {n : Node} (h : k ≠ l) :
    (t.put l n).get? k = t.get? k := by
  simp [get?, put, lookup_putEntry, h]

/-- Names have at most 255 bytes. -/
def isTooLong (name : String) : Bool := 255 < name.utf8ByteSize

/-- Paths have at most 4095 bytes, slashes that say nothing included. -/
def isOverlong (p : String) : Bool := 4095 < p.utf8ByteSize

def hasNull (p : String) : Bool := '\x00' ∈ p.toList

def isDots (name : String) : Bool := name = "." || name = ".."

/-- Whether a text may be followed as a path at all. -/
def checkPath (p : String) : Except FileFault Unit :=
  if hasNull p then .error .nullByte
  else if p.isEmpty then .error .notFound
  else if isOverlong p then .error .nameTooLong
  else .ok ()

/-- Where a walk along a path begins. -/
def start (t : FileTree) (p : String) : Location :=
  if Path.isAbsolute p then [] else t.workingDirectory

/-- Walks through directories. The root is its own parent. -/
def enter (t : FileTree) (l : Location) : List String → Except FileFault Location
  | [] => .ok l
  | c :: cs =>
    if c = "." then t.enter l cs
    else if c = ".." then t.enter l.dropLast cs
    else if isTooLong c then .error .nameTooLong
    else
      match t.get? (l ++ [c]) with
      | some .directory => t.enter (l ++ [c]) cs
      | some (.file _) => .error .notDirectory
      | none => .error .notFound

/-- The node at the end of a path. Behind a slash it must be a directory. -/
def find (t : FileTree) (p : String) : Except FileFault Node := do
  checkPath p
  match (Path.steps p).getLast? with
  | none => return .directory
  | some name =>
    let parent ← t.enter (t.start p) (Path.steps p).dropLast
    if isDots name then return .directory
    if isTooLong name then throw .nameTooLong
    match t.get? (parent ++ [name]) with
    | none => throw .notFound
    | some .directory => return .directory
    | some (.file content) =>
      if (Path.lastPiece p).isEmpty then throw .notDirectory
      return .file content

def isPresent (t : FileTree) (p : String) : Bool := (t.find p).isOk

def isDirectory (t : FileTree) (p : String) : Bool := t.find p matches .ok .directory

/-- Whether there is anything at the normal form of a path. -/
def holds (t : FileTree) (p : String) : Except FileFault Bool := presence (t.find (Path.normal p))

/-- The content of the file at the normal form of a path. -/
def read (t : FileTree) (p : String) : Except FileFault ByteArray :=
  match t.find (Path.normal p) with
  | .ok (.file content) => .ok content
  | .ok .directory => .error .isDirectory
  | .error e => .error e

def makeDirectory (t : FileTree) (p : String) : Except FileFault FileTree := do
  checkPath p
  match (Path.steps p).getLast? with
  | none => throw .alreadyExists
  | some name =>
    let parent ← t.enter (t.start p) (Path.steps p).dropLast
    if isDots name then throw .alreadyExists
    if isTooLong name then throw .nameTooLong
    match t.get? (parent ++ [name]) with
    | some _ => throw .alreadyExists
    | none => return t.put (parent ++ [name]) .directory

/-- Makes a directory whose parent is there. -/
def makeLast (t : FileTree) (existOk : Bool) (p : String) : Except FileFault Unit × FileTree :=
  match t.makeDirectory p with
  | .ok t => (.ok (), t)
  | .error e => if existOk && t.isDirectory p then (.ok (), t) else (.error e, t)

/-- Makes the first directory of a lineage and those above it that are not there. They may have come
into being meanwhile, and a single dot at the end needs no directory of its own once its parent has
been made. -/
def makeLineage (t : FileTree) (existOk : Bool) : List String → Except FileFault Unit × FileTree
  | [] => (.ok (), t)
  | [p] => t.makeLast existOk p
  | p :: q :: above =>
    if t.isPresent q then t.makeLast existOk p
    else
      match t.makeLineage existOk (q :: above) with
      | (.ok (), t) | (.error .alreadyExists, t) =>
        if Path.name p = "." then (.ok (), t) else t.makeLast existOk p
      | (.error e, t) => (.error e, t)

/-- The empty path needs no directory. -/
def makeDirectories (t : FileTree) (p : String) (existOk : Bool) :
    Except FileFault Unit × FileTree :=
  if p.isEmpty then (.ok (), t) else t.makeLineage existOk (Path.lineage p)

/-- The path from the root. -/
def absolutePath (l : Location) : String := "/" ++ "/".intercalate l

/-- The form of the names under which new contents are put beside their destinations. -/
def temporaryName : String := ".tmp-00000000"

/-- Puts a file where no directory is. The content goes to a temporary file beside it first, for
which its path must leave room. A path that ends in a slash or in dots names no file. -/
def replace (t : FileTree) (p : String) (content : ByteArray) : Except FileFault FileTree := do
  let directory ← t.enter (t.start p) (Path.steps (Path.directory p))
  if isOverlong (Path.join (absolutePath directory) temporaryName) then throw .nameTooLong
  checkPath p
  let name := Path.lastPiece p
  if isDots name then throw .busy
  if name.isEmpty then
    match (Path.steps p).getLast? with
    | none => throw .busy
    | some d => if isDots d then throw .busy else throw .notDirectory
  if isTooLong name then throw .nameTooLong
  match t.get? (directory ++ [name]) with
  | some .directory => throw .isDirectory
  | _ => return t.put (directory ++ [name]) (.file content)

def write (t : FileTree) (p : String) (content : ByteArray) : Except FileFault Unit × FileTree :=
  match t.makeDirectories (Path.directory p) true with
  | (.error e, t) => (.error e, t)
  | (.ok (), t) =>
    match t.replace p content with
    | .ok t => (.ok (), t)
    | .error e => (.error e, t)

end FileTree
end GrammarBindings
