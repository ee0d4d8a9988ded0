import GrammarBindings.Proofs.Locations
import GrammarBindings.Proofs.ModulePlaces
import GrammarBindings.Run.Generation

/-!
# Destinations

The path of a generated module consists of names: it is relative, and neither its package nor the
name of its grammar can bring in a slash, an empty component or dots. Joined to the output directory
it therefore leads down from there, by one step for each of its components.
-/

namespace GrammarBindings

namespace Path

variable {p : String}

/-- Every component leads one step down. -/
def IsDownward (p : String) : Prop := ∀ c ∈ pieces p, c ≠ "" ∧ c ≠ "." ∧ c ≠ ".."

theorem pieces_ne_nil (p : String) : pieces p ≠ [] :=
  mt List.map_eq_nil_iff.1 (List.splitOn_ne_nil '/' p.toList)

theorem isAbsolute_eq_false_of_notMem (h : '/' ∉ p.toList) : isAbsolute p = false :=
  decide_eq_false fun hhead => h (List.mem_of_head? hhead)

/-- What stands in front of a slash at the beginning is empty. -/
theorem IsDownward.isAbsolute (h : IsDownward p) : isAbsolute p = false := by
  refine decide_eq_false fun hhead => ?_
  obtain ⟨cs, hcs⟩ := List.head?_eq_some_iff.1 hhead
  have hmem : "" ∈ pieces p := by
    rw [pieces, hcs, List.splitOn_cons_eq_if_modifyHead, if_pos BEq.rfl]
    exact List.mem_cons_self
  exact (h "" hmem).1 rfl

theorem IsDownward.flatMap_steps (h : IsDownward p) : (pieces p).flatMap steps = pieces p := by
  have hsteps : ∀ c ∈ pieces p, steps c = [c] := fun c hc =>
    steps_of_notMem (h c hc).1 (slash_notMem_pieces hc)
  rw [List.flatMap_congr hsteps, List.flatMap_singleton']

end Path

/-- The walk to a destination is that to the output directory and then down. -/
theorem steps_destination {path : String} (h : Path.IsDownward path) (settings : Settings) :
    Path.steps (destination settings path) =
      Path.steps settings.outDirectory ++ Path.pieces path := by
  have hrelative : ∀ c ∈ Path.pieces path, Path.isAbsolute c = false := fun c hc =>
    Path.isAbsolute_eq_false_of_notMem (Path.slash_notMem_pieces hc)
  rw [destination, Path.steps_joinAll hrelative, h.flatMap_steps]

theorem locate_destination {path : String} (h : Path.IsDownward path) (settings : Settings)
    (t : FileTree) : t.locate (destination settings path) =
      t.locate settings.outDirectory ++ Path.pieces path := by
  have hrelative : ∀ c ∈ Path.pieces path, Path.isAbsolute c = false := fun c hc =>
    Path.isAbsolute_eq_false_of_notMem (Path.slash_notMem_pieces hc)
  rw [destination, FileTree.locate_joinAll t hrelative, h.flatMap_steps,
    FileTree.follow_names fun c hc => (h c hc).2]

namespace Agda

variable {o : Options} {name extension : String}

theorem IsPart.ne_dots {s : String} (hs : IsPart s) : s ≠ "." ∧ s ≠ ".." := by
  constructor
  · rintro rfl
    exact hs.dot (by decide)
  · rintro rfl
    exact hs.dot (by decide)

/-- The components of a module's path are its parts, the last one with the extension. -/
theorem exists_pieces_fileName (hgrammar : IsPart o.grammarName) (hname : IsPart name)
    (hne : name ≠ "") (hextension : extension ≠ "") (hslash : '/' ∉ extension.toList) :
    ∃ front last, (∀ s ∈ front ++ [last], IsPart s ∧ s ≠ "") ∧
      Path.pieces (fileName o name extension) = front ++ [last ++ ("." ++ extension)] := by
  have hkept : (moduleParts o name).filter (· ≠ "") ≠ [] := by
    rw [moduleParts, List.filter_append]
    exact List.append_ne_nil_of_right_ne_nil _ (filter_ownParts_ne_nil hne)
  obtain ⟨front, last, hlast⟩ := (List.eq_nil_or_concat _).resolve_left hkept
  have hpart : ∀ s ∈ front ++ [last], IsPart s ∧ s ≠ "" := by
    intro s hs
    rw [← List.concat_eq_append, ← hlast, List.mem_filter] at hs
    exact ⟨isPart_of_mem_moduleParts hgrammar hname s hs.1, of_decide_eq_true hs.2⟩
  have hfile : fileName o name extension =
      "/".intercalate (front ++ [last ++ ("." ++ extension)]) := by
    rw [fileName_eq hgrammar hname hne hextension hslash, hlast, List.concat_eq_append,
      ← intercalate_concat_append front (List.cons_ne_nil last []), String.intercalate_singleton]
  have hnone : ∀ s ∈ front ++ [last ++ ("." ++ extension)], '/' ∉ s.toList := by
    rw [List.forall_mem_append, List.forall_mem_singleton] at hpart ⊢
    refine ⟨fun s hs => (hpart.1 s hs).1.slash, ?_⟩
    simp [hpart.2.1.slash, hslash]
  refine ⟨front, last, hpart, ?_⟩
  rw [Path.pieces, hfile, splitOn_intercalate rfl (List.concat_ne_nil _ _) hnone]
  simp [Function.comp_def]

theorem isDownward_fileName (hgrammar : IsPart o.grammarName) (hname : IsPart name)
    (hne : name ≠ "") (hextension : extension ≠ "") (hslash : '/' ∉ extension.toList) :
    Path.IsDownward (fileName o name extension) := by
  obtain ⟨front, last, hpart, hpieces⟩ :=
    exists_pieces_fileName hgrammar hname hne hextension hslash
  rw [List.forall_mem_append, List.forall_mem_singleton] at hpart
  rw [Path.IsDownward, hpieces, List.forall_mem_append, List.forall_mem_singleton]
  refine ⟨fun s hs => ⟨(hpart.1 s hs).2, (hpart.1 s hs).1.ne_dots⟩, ?_⟩
  -- the last component is longer than any of the three texts
  have hlast : last.toList ≠ [] := mt String.toList_eq_nil_iff.1 hpart.2.2
  have hlong : 2 < (last ++ ("." ++ extension)).toList.length := by
    have h₁ := List.length_pos_iff.2 hlast
    have h₂ := List.length_pos_iff.2 (mt String.toList_eq_nil_iff.1 hextension)
    simp only [String.toList_append, List.length_append]
    have h₃ : ".".toList.length = 1 := rfl
    omega
  have hother : ∀ s : String, s.toList.length ≤ 2 → last ++ ("." ++ extension) ≠ s := by
    rintro s hs rfl
    omega
  exact ⟨hother "" (by decide), hother "." (by decide), hother ".." (by decide)⟩

section Accepted

variable {args : List String} {path : String}

/-- For an accepted line, the path of the module consists of names, so its destination lies below
the output directory, and not at it. -/
theorem destination_below (h : Accepted args o path) (settings : Settings) (t : FileTree) :
    Path.isGrammarFile path = true ∧
      ('/' ∉ o.grammarName.toList ∧ '.' ∉ o.grammarName.toList) ∧
      (Path.isAbsolute (agdaFile o) = false ∧
        ∀ c ∈ Path.pieces (agdaFile o), c ≠ "" ∧ c ≠ "." ∧ c ≠ "..") ∧
      Path.steps (destination settings (agdaFile o)) =
        Path.steps settings.outDirectory ++ Path.pieces (agdaFile o) ∧
      t.locate (destination settings (agdaFile o)) =
        t.locate settings.outDirectory ++ Path.pieces (agdaFile o) ∧
      Path.pieces (agdaFile o) ≠ [] := by
  have hgrammar : IsPart o.grammarName := h.namesFile.grammarName ▸ isPart_grammarName path
  have hname : IsPart "AST" := ⟨by decide, by decide⟩
  have hdown : Path.IsDownward (agdaFile o) :=
    isDownward_fileName hgrammar hname (by decide) (by decide) (by decide)
  exact ⟨h.namesFile.isGrammarFile, ⟨hgrammar.slash, hgrammar.dot⟩, ⟨hdown.isAbsolute, hdown⟩,
    steps_destination hdown settings, locate_destination hdown settings t, Path.pieces_ne_nil _⟩

theorem destination_below_package :
    let o : Options :=
      { inDirectory := true, package := some ⟨"A.B", by decide⟩, grammarName := "Calc" }
    let settings : Settings := { outDirectory := "../out/." }
    let t : FileTree := ⟨[], ["home", "work"]⟩
    Accepted ["-d", "-p", "A.B", "/sub/../Calc.v1.cf"] o "/sub/../Calc.v1.cf" ∧
      Path.pieces (agdaFile o) = ["A", "B", "Calc", "AST.agda"] ∧
      t.locate settings.outDirectory = ["home", "out"] ∧
      t.locate (destination settings (agdaFile o)) =
        ["home", "out"] ++ Path.pieces (agdaFile o) := by
  intro o settings t
  have h : Accepted ["-d", "-p", "A.B", "/sub/../Calc.v1.cf"] o "/sub/../Calc.v1.cf" :=
    .optionLine .haskell false (by decide +kernel)
  have hout : t.locate settings.outDirectory = ["home", "out"] := by decide
  obtain ⟨-, -, -, -, hlocate, -⟩ := destination_below h settings t
  exact ⟨h, by decide, hout, hout ▸ hlocate⟩

end Accepted

end Agda
end GrammarBindings
