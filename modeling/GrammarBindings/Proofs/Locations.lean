import GrammarBindings.Files.Tree
import GrammarBindings.Proofs.Pieces
import Mathlib.Data.List.Basic

/-!
# Where paths lead

Without links, where a walk along a path ends depends on the tree only as far as it ends at all: a
single dot stays, two dots go back, and a name goes one step on. A second path that is joined to a
first continues its walk, and the path of a directory and the last piece divide the walk between
them.
-/

namespace GrammarBindings

namespace Path

variable {p q : String}

theorem pieces_append_slash_append (p q : String) :
    pieces (p ++ "/" ++ q) = pieces p ++ pieces q := by
  have htext : (p ++ "/" ++ q).toList = p.toList ++ '/' :: q.toList := by simp
  rw [pieces, htext, List.splitOn_append_cons_self, List.map_append]
  rfl

theorem steps_append_slash_append (p q : String) : steps (p ++ "/" ++ q) = steps p ++ steps q := by
  rw [steps, pieces_append_slash_append, List.filter_append]
  rfl

theorem steps_empty : steps "" = [] := by decide

theorem steps_of_notMem (hne : p ≠ "") (h : '/' ∉ p.toList) : steps p = [p] := by
  rw [steps, pieces, List.splitOn_eq_singleton h]
  simp [hne]

theorem exists_append_slash (h : p.toList.getLast? = some '/') : ∃ front, p = front ++ "/" := by
  obtain ⟨front, hfront⟩ := List.getLast?_eq_some_iff.1 h
  refine ⟨String.ofList front, ?_⟩
  rw [← String.toList_inj, hfront]
  simp

theorem steps_join (h : isAbsolute q = false) : steps (join p q) = steps p ++ steps q := by
  rw [join, h, Bool.false_or]
  split
  · next hempty =>
    obtain rfl : p = "" := by simpa using hempty
    rw [steps_empty, List.nil_append]
  · split
    · next hlast =>
      obtain ⟨front, rfl⟩ := exists_append_slash hlast
      have hfront : steps (front ++ "/") = steps front := by
        simpa [steps_empty] using steps_append_slash_append front ""
      rw [steps_append_slash_append, hfront]
    · exact steps_append_slash_append p q

/-- What is joined to a path has the last component, if it has any. -/
theorem baseName_join (h : isAbsolute q = false) (hq : components q ≠ []) (p : String) :
    baseName (join p q) = baseName q := by
  have hcomponents : components (join p q) = components p ++ components q := by
    rw [components, steps_join h, List.filter_append, components, components]
  rw [baseName, hcomponents, List.getLast?_append_of_ne_nil _ hq, baseName]

theorem isAbsolute_append (h : p ≠ "") (q : String) : isAbsolute (p ++ q) = isAbsolute p := by
  have hne : p.toList ≠ [] := mt String.toList_eq_nil_iff.1 h
  rw [isAbsolute, isAbsolute, String.toList_append, List.head?_append_of_ne_nil _ hne]

theorem isAbsolute_join (h : isAbsolute q = false) : isAbsolute (join p q) = isAbsolute p := by
  rw [join, h, Bool.false_or]
  split
  · next hempty =>
    obtain rfl : p = "" := by simpa using hempty
    exact h
  · next hempty =>
    have hp : p ≠ "" := by simpa using hempty
    split
    · exact isAbsolute_append hp q
    · rw [String.append_assoc, isAbsolute_append hp]

variable {qs : List String}

theorem steps_joinAll (h : ∀ q ∈ qs, isAbsolute q = false) (p : String) :
    steps (joinAll p qs) = steps p ++ qs.flatMap steps := by
  induction qs generalizing p with
  | nil => exact (List.append_nil _).symm
  | cons q qs ih =>
    obtain ⟨hq, hqs⟩ := List.forall_mem_cons.1 h
    calc steps (joinAll p (q :: qs))
        = steps (joinAll (join p q) qs) := rfl
      _ = steps p ++ steps q ++ qs.flatMap steps := by rw [ih hqs, steps_join hq]
      _ = steps p ++ (q :: qs).flatMap steps := by rw [List.append_assoc, List.flatMap_cons]

theorem isAbsolute_joinAll (h : ∀ q ∈ qs, isAbsolute q = false) (p : String) :
    isAbsolute (joinAll p qs) = isAbsolute p := by
  induction qs generalizing p with
  | nil => rfl
  | cons q qs ih =>
    obtain ⟨hq, hqs⟩ := List.forall_mem_cons.1 h
    calc isAbsolute (joinAll p (q :: qs))
        = isAbsolute (joinAll (join p q) qs) := rfl
      _ = isAbsolute p := by rw [ih hqs, isAbsolute_join hq]

end Path

namespace FileTree

/-- Where steps lead from a location if nothing stops them. -/
def follow (l : Location) : List String → Location
  | [] => l
  | c :: cs =>
    if c = "." then follow l cs
    else if c = ".." then follow l.dropLast cs
    else follow (l ++ [c]) cs

theorem follow_append (l : Location) (cs ds : List String) :
    follow l (cs ++ ds) = follow (follow l cs) ds := by
  induction cs generalizing l with
  | nil => rfl
  | cons c cs ih =>
    rw [List.cons_append, follow, follow]
    split
    · exact ih l
    · split
      · exact ih l.dropLast
      · exact ih (l ++ [c])

theorem follow_names {cs : List String} (h : ∀ c ∈ cs, c ≠ "." ∧ c ≠ "..") (l : Location) :
    follow l cs = l ++ cs := by
  induction cs generalizing l with
  | nil => exact (List.append_nil l).symm
  | cons c cs ih =>
    obtain ⟨⟨hdot, hdots⟩, hcs⟩ := List.forall_mem_cons.1 h
    rw [follow, if_neg hdot, if_neg hdots, ih hcs, List.append_assoc]
    rfl

/-- The location of a path. -/
def locate (t : FileTree) (p : String) : Location := follow (t.start p) (Path.steps p)

/-- A walk that comes to its end ends where the steps lead. -/
theorem eq_follow_of_enter {t : FileTree} {l l' : Location} {cs : List String}
    (h : t.enter l cs = .ok l') : l' = follow l cs := by
  induction cs generalizing l with
  | nil => exact (Except.ok.inj h).symm
  | cons c cs ih =>
    rw [enter] at h
    rw [follow]
    split at h
    · next hdot => rw [if_pos hdot, ih h]
    · next hdot =>
      rw [if_neg hdot]
      split at h
      · next hdots => rw [if_pos hdots, ih h]
      · next hdots =>
        rw [if_neg hdots]
        split at h
        · cases h
        · split at h
          · exact ih h
          · cases h
          · cases h

/-- Paths lead from the same working directory to the same places, whatever there is. -/
theorem locate_congr {t t' : FileTree} (h : t.workingDirectory = t'.workingDirectory) (p : String) :
    t.locate p = t'.locate p := by
  rw [locate, locate, start, start, h]

theorem locate_joinAll (t : FileTree) {qs : List String} (h : ∀ q ∈ qs, Path.isAbsolute q = false)
    (p : String) : t.locate (Path.joinAll p qs) = follow (t.locate p) (qs.flatMap Path.steps) := by
  rw [locate, start, Path.isAbsolute_joinAll h, Path.steps_joinAll h, follow_append]
  rfl

end FileTree
end GrammarBindings
