import GrammarBindings.Proofs.Locations

/-!
# Beginnings of paths

The directory of a path is what stands in front of its last piece, and walking along the path is
walking to the directory and then one step on. So the directories above a path are beginnings of it,
both of its text and of the walk.
-/

namespace GrammarBindings

namespace Path

variable {p q r : String}

theorem steps_ofList_append (cs ds : List Char) :
    steps (String.ofList (cs ++ '/' :: ds)) =
      steps (String.ofList cs) ++ steps (String.ofList ds) := by
  have htext : String.ofList (cs ++ '/' :: ds) = String.ofList cs ++ "/" ++ String.ofList ds := by
    rw [← String.toList_inj]
    simp
  rw [htext, steps_append_slash_append]

theorem steps_slashes_append {slashes : List Char} (h : ∀ c ∈ slashes, c = '/') (cs : List Char) :
    steps (String.ofList (slashes ++ cs)) = steps (String.ofList cs) := by
  induction slashes with
  | nil => rfl
  | cons c slashes ih =>
    obtain ⟨rfl, hslashes⟩ := List.forall_mem_cons.1 h
    have hnil : steps (String.ofList []) = [] := steps_empty
    rw [List.cons_append, ← List.nil_append ('/' :: _), steps_ofList_append, hnil, ih hslashes]
    rfl

theorem dropWhile_eq_nil_or_cons (cs : List Char) :
    cs.dropWhile (· ≠ '/') = [] ∨ ∃ front, cs.dropWhile (· ≠ '/') = '/' :: front := by
  induction cs with
  | nil => exact .inl rfl
  | cons c cs ih =>
    by_cases hc : c = '/'
    · exact .inr ⟨cs, by rw [List.dropWhile_cons_of_neg (by simp [hc]), hc]⟩
    · rwa [List.dropWhile_cons_of_pos (by simp [hc])]

/-- Between a directory and the last piece there are slashes, unless the directory is made of
them. -/
theorem exists_directoryChars_append (cs : List Char) :
    ∃ slashes, (∀ c ∈ slashes, c = '/') ∧ cs = directoryChars cs ++ slashes ++ lastChars cs ∧
      (slashes = [] → ∀ c ∈ directoryChars cs, c = '/') := by
  have hcs : cs = (cs.reverse.dropWhile (· ≠ '/')).reverse ++ lastChars cs := by
    rw [lastChars, ← List.reverse_append, List.takeWhile_append_dropWhile, List.reverse_reverse]
  rw [directoryChars]
  split
  · next hall =>
    have hslash : ∀ c ∈ cs.reverse.dropWhile (· ≠ '/'), c = '/' := by simpa using hall
    refine ⟨[], List.forall_mem_nil _, ?_, fun _ => hslash⟩
    rw [List.eq_replicate_of_mem hslash, List.reverse_replicate,
      ← List.eq_replicate_of_mem hslash] at hcs
    rwa [List.append_nil]
  · next hall =>
    refine ⟨((cs.reverse.dropWhile (· ≠ '/')).takeWhile (· = '/')).reverse, ?_, ?_, ?_⟩
    · intro c hc
      simpa using List.all_eq_true.1 List.all_takeWhile c (List.mem_reverse.1 hc)
    · rw [← List.reverse_append, List.takeWhile_append_dropWhile]
      exact hcs
    · rcases dropWhile_eq_nil_or_cons cs.reverse with hnil | ⟨front, hfront⟩
      · exact absurd (by rw [hnil]; rfl) hall
      · rw [hfront, List.takeWhile_cons_of_pos (by decide)]
        exact fun hreverse => absurd (List.reverse_eq_nil_iff.1 hreverse) (List.cons_ne_nil _ _)

/-- A walk along a path is one to its directory, and one step for the last piece. -/
theorem steps_eq_append (p : String) : steps p = steps (directory p) ++ steps (lastPiece p) := by
  obtain ⟨slashes, hslashes, hp, hnone⟩ := exists_directoryChars_append p.toList
  rw [directory, lastPiece]
  calc steps p
      = steps (String.ofList (directoryChars p.toList ++ slashes ++ lastChars p.toList)) := by
        rw [← hp, String.ofList_toList]
    _ = steps (String.ofList (directoryChars p.toList)) ++
          steps (String.ofList (lastChars p.toList)) := by
        cases slashes with
        | nil =>
          have hdirectory := steps_slashes_append (hnone rfl) []
          have hnil : steps (String.ofList []) = [] := steps_empty
          rw [List.append_nil, hnil] at hdirectory
          rw [List.append_nil, steps_slashes_append (hnone rfl), hdirectory, List.nil_append]
        | cons c slashes =>
          obtain ⟨rfl, hothers⟩ := List.forall_mem_cons.1 hslashes
          rw [List.append_assoc, List.cons_append, steps_ofList_append,
            steps_slashes_append hothers]

theorem slash_notMem_lastPiece (p : String) : '/' ∉ (lastPiece p).toList := by
  rw [lastPiece, String.toList_ofList, lastChars]
  intro h
  simpa using List.all_eq_true.1 List.all_takeWhile _ (List.mem_reverse.1 h)

theorem steps_of_lastPiece (h : lastPiece p ≠ "") :
    steps p = steps (directory p) ++ [lastPiece p] := by
  rw [steps_eq_append, steps_of_notMem h (slash_notMem_lastPiece p)]

/-- The beginning of a path up to some of its steps. -/
structure IsBeginning (q p : String) : Prop where
  chars : q.toList <+: p.toList
  steps : Path.steps q <+: Path.steps p

theorem IsBeginning.refl (p : String) : IsBeginning p p := ⟨List.prefix_rfl, List.prefix_rfl⟩

theorem IsBeginning.trans (h : IsBeginning r q) (h' : IsBeginning q p) : IsBeginning r p :=
  ⟨h.chars.trans h'.chars, h.steps.trans h'.steps⟩

theorem isBeginning_directory (p : String) : IsBeginning (directory p) p := by
  obtain ⟨slashes, -, hp, -⟩ := exists_directoryChars_append p.toList
  refine ⟨?_, ?_⟩
  · rw [directory, String.toList_ofList]
    exact ⟨slashes ++ lastChars p.toList, by rw [← List.append_assoc, ← hp]⟩
  · exact ⟨Path.steps (lastPiece p), (steps_eq_append p).symm⟩

theorem isBeginning_parent (p : String) : IsBeginning (parent p) p := by
  rw [parent]
  split
  · exact (isBeginning_directory (directory p)).trans (isBeginning_directory p)
  · exact isBeginning_directory p

theorem isBeginning_of_mem_lineage (h : q ∈ lineage p) : IsBeginning q p := by
  fun_induction lineage p with
  | case1 p _ =>
    obtain rfl := List.mem_singleton.1 h
    exact .refl q
  | case2 p _ _ =>
    obtain rfl := List.mem_singleton.1 h
    exact .refl q
  | case3 p _ _ ih =>
    rcases List.mem_cons.1 h with rfl | h
    · exact .refl q
    · exact (ih h).trans (isBeginning_parent p)

theorem IsBeginning.exists_append (h : IsBeginning q p) : ∃ behind, p = q ++ behind := by
  obtain ⟨behind, hp⟩ := h.chars
  refine ⟨String.ofList behind, ?_⟩
  rw [← String.toList_inj, String.toList_append, String.toList_ofList, hp]

theorem ne_empty_of_mem_lineage (hne : p ≠ "") (h : q ∈ lineage p) : q ≠ "" := by
  fun_induction lineage p with
  | case1 p _ =>
    obtain rfl := List.mem_singleton.1 h
    exact hne
  | case2 p _ _ =>
    obtain rfl := List.mem_singleton.1 h
    exact hne
  | case3 p _ hparent ih =>
    rcases List.mem_cons.1 h with rfl | h
    · exact hne
    · exact ih hparent h

theorem exists_lineage_eq_cons (p : String) : ∃ above, lineage p = p :: above := by
  rw [lineage]
  split
  · exact ⟨_, rfl⟩
  · split
    · exact ⟨_, rfl⟩
    · exact ⟨_, rfl⟩

end Path

end GrammarBindings
