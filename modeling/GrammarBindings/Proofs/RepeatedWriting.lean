import GrammarBindings.Proofs.FileTreeChanges

/-!
# Writing again

Writing a file makes the directories of its path or finds them there. So they are there when the
same is written again: nothing is made then, and the file is put where it is already, which leaves
the tree as it is. Directories and the files at all other places outlive the writing, and these
files are found where they were.
-/

namespace GrammarBindings

namespace FileTree

variable {before middle after t t' : FileTree} {p q : String} {l place : Location}
  {content : ByteArray}

section Puts

theorem putEntry_of_lookup {n : Node} {es : List (Location × Node)} (h : es.lookup l = some n) :
    putEntry l n es = es := by
  induction es with
  | nil => cases h
  | cons e es ih =>
    obtain ⟨k, m⟩ := e
    rw [putEntry]
    by_cases hk : l = k
    · subst hk
      rw [List.lookup_cons_self, Option.some.injEq] at h
      rw [if_pos rfl, h]
    · rw [List.lookup_cons, beq_false_of_ne hk] at h
      rw [if_neg hk, ih h]

/-- Putting what is there already changes nothing. -/
theorem put_of_get? {n : Node} (hl : l ≠ []) (h : t.get? l = some n) : t.put l n = t := by
  rw [get?, if_neg hl] at h
  rw [put, putEntry_of_lookup h]

end Puts

section Walks

theorem enter_append (t : FileTree) (l : Location) (cs ds : List String) :
    t.enter l (cs ++ ds) = (t.enter l cs >>= fun l => t.enter l ds) := by
  induction cs generalizing l with
  | nil => rfl
  | cons c cs ih =>
    rw [List.cons_append, enter, enter]
    split
    · exact ih l
    · split
      · exact ih l.dropLast
      · split
        · rfl
        · split
          · exact ih (l ++ [c])
          · rfl
          · rfl

theorem checkPath_eq_ok_iff :
    checkPath p = .ok () ↔ hasNull p = false ∧ p ≠ "" ∧ isOverlong p = false := by
  rw [checkPath]
  split
  · next hnull => simp [hnull]
  · next hnull =>
    split
    · next hempty => simp_all
    · next hempty =>
      split
      · next hlong => simp [hlong]
      · next hlong => simp_all

theorem checkPath_of_isBeginning (h : checkPath p = .ok ()) (hq : Path.IsBeginning q p)
    (hne : q ≠ "") : checkPath q = .ok () := by
  obtain ⟨hnull, -, hlong⟩ := checkPath_eq_ok_iff.1 h
  obtain ⟨behind, rfl⟩ := hq.exists_append
  refine checkPath_eq_ok_iff.2 ⟨?_, hne, ?_⟩
  · rw [hasNull, decide_eq_false_iff_not] at hnull ⊢
    exact fun hmem => hnull (hq.chars.subset hmem)
  · rw [isOverlong, decide_eq_false_iff_not] at hlong ⊢
    rw [String.utf8ByteSize_append] at hlong
    omega

theorem start_of_isBeginning (hq : Path.IsBeginning q p) (hne : q ≠ "") :
    t.start q = t.start p := by
  obtain ⟨behind, rfl⟩ := hq.exists_append
  rw [start, start, Path.isAbsolute_append hne]

/-- A walk that comes to its end ends in a directory. -/
theorem find_of_enter (hcheck : checkPath p = .ok ())
    (henter : t.enter (t.start p) (Path.steps p) = .ok l) : t.find p = .ok .directory := by
  rw [find, hcheck, ok_bind]
  rcases List.eq_nil_or_concat (Path.steps p) with hsteps | ⟨front, name, hsteps⟩
  · rw [hsteps]
    rfl
  · rw [hsteps, List.concat_eq_append, enter_append] at henter
    obtain ⟨directory, hfront, hlast⟩ := bind_eq_ok_iff.1 henter
    rw [hsteps, List.concat_eq_append, List.getLast?_concat, List.dropLast_concat]
    refine bind_eq_ok_iff.2 ⟨directory, hfront, ?_⟩
    split
    · rfl
    · next hdots =>
      have hdots : name ≠ "." ∧ name ≠ ".." := by simpa [isDots] using hdots
      rw [enter, if_neg hdots.1, if_neg hdots.2] at hlast
      split at hlast
      · cases hlast
      · next hlong =>
        refine check_eq_ok_iff.2 ⟨hlong, ?_⟩
        split at hlast
        · next hnode =>
          rw [hnode]
          rfl
        · cases hlast
        · cases hlast

/-- On the way to a directory that is there, there are directories. -/
theorem find_of_isBeginning (hcheck : checkPath p = .ok ())
    (henter : t.enter (t.start p) (Path.steps p) = .ok l) (hq : Path.IsBeginning q p)
    (hne : q ≠ "") : t.find q = .ok .directory := by
  obtain ⟨behind, hsteps⟩ := hq.steps
  rw [← hsteps, enter_append] at henter
  obtain ⟨directory, henter, -⟩ := bind_eq_ok_iff.1 henter
  rw [← start_of_isBeginning hq hne] at henter
  exact find_of_enter (checkPath_of_isBeginning hcheck hq hne) henter

end Walks

section Directories

theorem makeDirectory_of_find {n : Node} (h : t.find p = .ok n) :
    t.makeDirectory p = .error .alreadyExists := by
  obtain ⟨⟨⟩, hcheck, h⟩ := bind_eq_ok_iff.1 h
  rw [makeDirectory, hcheck, ok_bind]
  split at h
  · rfl
  · next name _ =>
    obtain ⟨directory, henter, h⟩ := bind_eq_ok_iff.1 h
    rw [henter, ok_bind]
    split at h
    · next hdots =>
      rw [if_pos hdots]
      rfl
    · next hdots =>
      obtain ⟨hlong, h⟩ := check_eq_ok_iff.1 h
      rw [if_neg hdots, if_neg hlong]
      dsimp only
      split at h
      · cases h
      · next hnode =>
        rw [hnode]
        rfl
      · next hnode =>
        rw [hnode]
        rfl

theorem makeLast_of_find (h : t.find p = .ok .directory) : t.makeLast true p = (.ok (), t) := by
  have hdirectory : t.isDirectory p = true := by rw [isDirectory, h]
  rw [makeLast, makeDirectory_of_find h]
  simp [hdirectory]

theorem makeLineage_of_find {above : List String}
    (h : ∀ q ∈ p :: above, t.find q = .ok .directory) :
    t.makeLineage true (p :: above) = (.ok (), t) := by
  have hlast := makeLast_of_find (h p List.mem_cons_self)
  cases above with
  | nil => exact hlast
  | cons q above =>
    have hpresent : t.isPresent q = true := by
      rw [isPresent, h q (List.mem_cons_of_mem p List.mem_cons_self)]
      rfl
    rw [makeLineage, if_pos hpresent, hlast]

/-- Directories that a walk passes through need not be made. -/
theorem makeDirectories_of_enter (hcheck : checkPath p = .ok ()) (hq : Path.IsBeginning q p)
    (henter : t.enter (t.start p) (Path.steps q) = .ok l) :
    t.makeDirectories q true = (.ok (), t) := by
  rw [makeDirectories]
  split
  · rfl
  · next hempty =>
    have hne : q ≠ "" := by simpa using hempty
    rw [← start_of_isBeginning hq hne] at henter
    have hfound : ∀ r ∈ Path.lineage q, t.find r = .ok .directory := fun r hr =>
      find_of_isBeginning (checkPath_of_isBeginning hcheck hq hne) henter
        (Path.isBeginning_of_mem_lineage hr) (Path.ne_empty_of_mem_lineage hne hr)
    obtain ⟨above, habove⟩ := Path.exists_lineage_eq_cons q
    rw [habove] at hfound ⊢
    exact makeLineage_of_find hfound

end Directories

section Writes

/-- Writing makes directories and then puts the file in its place. -/
theorem exists_made_of_write (h : t.write p content = (.ok (), t')) :
    ∃ made, MadeDirectories p t made ∧ made.replace p content = .ok t' := by
  have hmade := madeDirectories_makeDirectories t (Path.directory p) true
  rw [write] at h
  split at h
  · cases h
  · next made hmake =>
    rw [hmake] at hmade
    split at h
    · next after hreplace =>
      obtain rfl := (Prod.mk.inj h).2
      exact ⟨made, hmade.mono (Path.isBeginning_directory p), hreplace⟩
    · cases h

/-- Writing the same again finds everything in place. -/
theorem write_of_write (h : t.write p content = (.ok (), t')) :
    t'.write p content = (.ok (), t') := by
  obtain ⟨made, -, hreplace⟩ := exists_made_of_write h
  obtain ⟨hpath, directory, henter, hroom, hnode, rfl⟩ := replace_eq_ok_iff.1 hreplace
  have hplace : directory ++ [Path.lastPiece p] ≠ [] := List.concat_ne_nil _ _
  have hfile := get?_put_self (t := made) (n := .file content) hplace
  have henter' := enter_of_directories (get?_put_of_directory hnode content) henter
  have hmake := makeDirectories_of_enter hpath.checked (Path.isBeginning_directory p) henter'
  have hreplace' := replace_eq_ok_iff.2 ⟨hpath, directory, henter', hroom, by rw [hfile]; nofun,
    (put_of_get? hplace hfile).symm⟩
  rw [write, hmake]
  dsimp only
  rw [hreplace']

/-- Directories stay, and so do the files that are not at the one place. -/
structure KeepsOthers (place : Location) (before after : FileTree) : Prop where
  workingDirectory : after.workingDirectory = before.workingDirectory
  directories : ∀ l, before.get? l = some .directory → after.get? l = some .directory
  files : ∀ l content, l ≠ place → before.get? l = some (.file content) →
    after.get? l = some (.file content)

theorem KeepsOthers.trans (h : KeepsOthers place before middle)
    (h' : KeepsOthers place middle after) : KeepsOthers place before after :=
  ⟨h'.workingDirectory.trans h.workingDirectory,
    fun l hl => h'.directories l (h.directories l hl),
    fun l content hl hfile => h'.files l content hl (h.files l content hl hfile)⟩

theorem MadeDirectories.keepsOthers (h : MadeDirectories p before after) (place : Location) :
    KeepsOthers place before after := by
  have hkept : ∀ l n, before.get? l = some n → after.get? l = some n := by
    intro l n hn
    rcases h.nodes l with hl | ⟨hnone, -, -⟩
    · rw [hl, hn]
    · rw [hn] at hnone
      cases hnone
  exact ⟨h.workingDirectory, fun l hl => hkept l _ hl, fun l content _ hl => hkept l _ hl⟩

theorem keepsOthers_put (h : t.get? place ≠ some .directory) (content : ByteArray) :
    KeepsOthers place t (t.put place (.file content)) := by
  refine ⟨rfl, get?_put_of_directory h content, fun l content' hl hfile => ?_⟩
  rw [get?_put_of_ne hl, hfile]

theorem keepsOthers_of_write (h : t.write p content = (.ok (), t')) :
    KeepsOthers (t.locate p) t t' := by
  obtain ⟨made, hmade, hreplace⟩ := exists_made_of_write h
  obtain ⟨hpath, directory, henter, -, hnode, rfl⟩ := replace_eq_ok_iff.1 hreplace
  rw [locate_congr hmade.workingDirectory.symm, hpath.locate_eq henter]
  exact (hmade.keepsOthers _).trans (keepsOthers_put hnode content)

/-- The file at the end of another path is found as before. -/
theorem KeepsOthers.find_file (h : KeepsOthers place before after) (hp : before.locate p ≠ place)
    (hfind : before.find p = .ok (.file content)) : after.find p = .ok (.file content) := by
  obtain ⟨hpath, directory, henter, hnode⟩ := find_eq_file_iff.1 hfind
  have hstart : before.start p = after.start p := by rw [start, start, h.workingDirectory]
  rw [hpath.locate_eq henter] at hp
  rw [hstart] at henter
  exact find_eq_file_iff.2 ⟨hpath, directory, enter_of_directories h.directories henter,
    h.files _ content hp hnode⟩

theorem read_eq_ok_iff {bytes : ByteArray} :
    t.read p = .ok bytes ↔ t.find (Path.normal p) = .ok (.file bytes) := by
  rw [read]
  split
  · next hfind => simp [hfind]
  · next hfind => simp [hfind]
  · next hfind => simp [hfind]

end Writes

end FileTree
end GrammarBindings
