/-!
# Paths

Paths are texts whose components are separated by slashes. The normal form of a path forgets empty
components and single dots, but keeps double dots, for which the tree would have to be asked.

The parent of a path is what is left of it without its last component and the slashes around that.
It is shorter than the path as long as there is such a component, so going up comes to an end.
-/

namespace GrammarBindings.Path

/-- The texts between slashes, as they stand. -/
def pieces (p : String) : List String := (p.toList.splitOn '/').map String.ofList

/-- The steps of a walk along the path, single dots included. -/
def steps (p : String) : List String := (pieces p).filter (· ≠ "")

def components (p : String) : List String := (steps p).filter (· ≠ ".")

def isAbsolute (p : String) : Bool := p.toList.head? = some '/'

/-- What a path begins with: two slashes stay two, and any other number of them counts as one. -/
def root (p : String) : String :=
  match p.toList with
  | '/' :: '/' :: '/' :: _ => "/"
  | '/' :: '/' :: _ => "//"
  | '/' :: _ => "/"
  | _ => ""

/-- The path of the components alone; without any it is the current directory. -/
def normal (p : String) : String :=
  let q := root p ++ "/".intercalate (components p)
  if q.isEmpty then "." else q

/-- The last component; the root and the current directory have none. -/
def baseName (p : String) : String := (components p).getLast?.getD ""

/-- A second path that is absolute stands alone. -/
def join (p q : String) : String :=
  if isAbsolute q || p.isEmpty then q
  else if p.toList.getLast? = some '/' then p ++ q
  else p ++ "/" ++ q

/-- What is in front of the last slash, without slashes at its end unless it has nothing else. -/
def directoryChars (cs : List Char) : List Char :=
  let front := cs.reverse.dropWhile (· ≠ '/')
  if front.all (· = '/') then front else (front.dropWhile (· = '/')).reverse

/-- What is behind the last slash. -/
def lastChars (cs : List Char) : List Char := (cs.reverse.takeWhile (· ≠ '/')).reverse

theorem length_directoryChars_add_lastChars_le (cs : List Char) :
    (directoryChars cs).length + (lastChars cs).length ≤ cs.length := by
  have hl : (cs.reverse.takeWhile (· ≠ '/')).length + (cs.reverse.dropWhile (· ≠ '/')).length
      = cs.length := by
    rw [← List.length_append, List.takeWhile_append_dropWhile, List.length_reverse]
  have hd := (List.dropWhile_sublist (· = '/') (l := cs.reverse.dropWhile (· ≠ '/'))).length_le
  simp only [directoryChars, lastChars, List.length_reverse]
  split
  · omega
  · rw [List.length_reverse]
    omega

def directory (p : String) : String := String.ofList (directoryChars p.toList)

def lastPiece (p : String) : String := String.ofList (lastChars p.toList)

theorem length_directory_add_lastPiece_le (p : String) :
    (directory p).length + (lastPiece p).length ≤ p.length := by
  have h := length_directoryChars_add_lastChars_le p.toList
  rwa [String.length_toList, ← String.length_ofList, ← String.length_ofList] at h

/-- The last component that is not empty. -/
def name (p : String) : String :=
  if (lastPiece p).isEmpty then lastPiece (directory p) else lastPiece p

def parent (p : String) : String :=
  if (lastPiece p).isEmpty then directory (directory p) else directory p

theorem length_parent_lt {p : String} (h : name p ≠ "") : (parent p).length < p.length := by
  have h₁ := length_directory_add_lastPiece_le p
  have h₂ := length_directory_add_lastPiece_le (directory p)
  have pos {s : String} (hs : s ≠ "") : 0 < s.length :=
    Nat.pos_of_ne_zero fun h => hs (String.length_eq_zero_iff.1 h)
  unfold parent
  unfold name at h
  split
  · rename_i he
    rw [if_pos he] at h
    have := pos h
    omega
  · rename_i he
    rw [if_neg he] at h
    have := pos h
    omega

/-- A path and what lies above it, as far as there is a name to take away and something left. -/
def lineage (p : String) : List String :=
  if name p = "" then [p]
  else if parent p = "" then [p]
  else p :: lineage (parent p)
termination_by p.length
decreasing_by
  rename_i h _
  exact length_parent_lt h

def joinAll (p : String) (qs : List String) : String := qs.foldl join p

/-- The extensions of grammar files. -/
def grammarExtensions : List String := ["cf", "bnf", "lbnf", "bnfc"]

def isGrammarFile (p : String) : Bool :=
  grammarExtensions.any fun e => ('.' :: e.toList).isSuffixOf p.toList

/-- The base name up to its first dot. -/
def grammarName (p : String) : String :=
  String.ofList ((baseName p).toList.takeWhile (· ≠ '.'))

end GrammarBindings.Path
