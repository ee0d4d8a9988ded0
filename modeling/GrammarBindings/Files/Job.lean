import GrammarBindings.Files.Tree

/-!
# Jobs

A job asks where it is and whether there is anything at a path, reads and writes files, and ends in
a value. What it does next may depend on how each of these went, and on nothing else. `runOn` carries
a job out on a file tree.
-/

namespace GrammarBindings

inductive Job (α : Type) where
  | done (a : α)
  | locate (next : Except FileFault String → Job α)
  | ask (path : String) (next : Except FileFault Bool → Job α)
  | read (path : String) (next : Except FileFault ByteArray → Job α)
  | write (path : String) (content : ByteArray) (next : Except FileFault Unit → Job α)

namespace Job

variable {α β : Type}

def bind : Job α → (α → Job β) → Job β
  | done a, f => f a
  | locate next, f => .locate fun r => (next r).bind f
  | ask path next, f => .ask path fun r => (next r).bind f
  | read path next, f => .read path fun r => (next r).bind f
  | write path content next, f => .write path content fun r => (next r).bind f

instance : Monad Job where
  pure := done
  bind := bind

/-- The path of the working directory from the root. -/
def workingDirectory : Job (Except FileFault String) := .locate done

/-- Whether there is anything at a path, or why that cannot be told. -/
def holds (path : String) : Job (Except FileFault Bool) := .ask path done

/-- The content of a file, or why it cannot be read. -/
def load (path : String) : Job (Except FileFault ByteArray) := .read path done

def store (path : String) (content : ByteArray) : Job (Except FileFault Unit) :=
  .write path content done

def runOn : Job α → FileTree → α × FileTree
  | done a, t => (a, t)
  | locate next, t => (next (.ok (FileTree.absolutePath t.workingDirectory))).runOn t
  | ask path next, t => (next (t.holds path)).runOn t
  | read path next, t => (next (t.read path)).runOn t
  | write path content next, t =>
    (next (t.write path content).1).runOn (t.write path content).2

@[simp] theorem runOn_pure (a : α) (t : FileTree) : (pure a : Job α).runOn t = (a, t) := rfl

@[simp] theorem runOn_bind (j : Job α) (f : α → Job β) (t : FileTree) :
    (j >>= f).runOn t = (f (j.runOn t).1).runOn (j.runOn t).2 := by
  change (j.bind f).runOn t = _
  induction j generalizing t with
  | done a => rfl
  | locate next ih => simp only [bind, runOn]; exact ih _ _
  | ask path next ih => simp only [bind, runOn]; exact ih _ _
  | read path next ih => simp only [bind, runOn]; exact ih _ _
  | write path content next ih => simp only [bind, runOn]; exact ih _ _

@[simp] theorem runOn_load (path : String) (t : FileTree) :
    (load path).runOn t = (t.read path, t) := rfl

@[simp] theorem runOn_store (path : String) (content : ByteArray) (t : FileTree) :
    (store path content).runOn t = t.write path content := by
  simp only [store, runOn]

end Job
end GrammarBindings
