import GrammarBindings.Files.Writing
import GrammarBindings.Proofs.NullBytes
import GrammarBindings.Proofs.PathBeginnings

/-!
# Changes of file trees

Making directories adds nothing but directories, each at a beginning of the path that is asked for.
Writing makes the directories on the way to the file and then puts the file in its place, so that it
changes this one place and no other that was taken. Putting the content under a fresh name first and
moving it over the file has the same effect.
-/

namespace GrammarBindings

namespace FileTree

variable {before after middle t t' : FileTree} {p q : String} {l : Location}

theorem get?_put (t : FileTree) (k l : Location) (n : Node) (h : l ≠ []) :
    (t.put l n).get? k = if k = l then some n else t.get? k := by
  split
  · next hk => rw [hk, get?_put_self h]
  · next hk => exact get?_put_of_ne hk

/-- No directory gives way to a file that is put elsewhere. -/
theorem get?_put_of_directory (h : t.get? l ≠ some .directory) (content : ByteArray) (k : Location)
    (hk : t.get? k = some .directory) : (t.put l (.file content)).get? k = some .directory := by
  rw [get?_put_of_ne, hk]
  rintro rfl
  exact h hk

/-- Nothing changes but that there are directories where nothing was, at beginnings of the path. -/
structure MadeDirectories (p : String) (before after : FileTree) : Prop where
  workingDirectory : after.workingDirectory = before.workingDirectory
  nodes : ∀ l, after.get? l = before.get? l ∨
    before.get? l = none ∧ after.get? l = some .directory ∧
      ∃ q, Path.IsBeginning q p ∧ before.locate q = l

theorem MadeDirectories.refl (p : String) (t : FileTree) : MadeDirectories p t t :=
  ⟨rfl, fun _ => .inl rfl⟩

theorem MadeDirectories.trans (h : MadeDirectories p before middle)
    (h' : MadeDirectories p middle after) : MadeDirectories p before after := by
  refine ⟨h'.workingDirectory.trans h.workingDirectory, fun l => ?_⟩
  rcases h.nodes l with hl | ⟨hnone, hdirectory, hq⟩
  · rcases h'.nodes l with hl' | ⟨hnone, hdirectory, q, hq, hlocate⟩
    · exact .inl (hl'.trans hl)
    · rw [locate_congr h.workingDirectory] at hlocate
      exact .inr ⟨hl ▸ hnone, hdirectory, q, hq, hlocate⟩
  · rcases h'.nodes l with hl' | ⟨hnone', -, -⟩
    · exact .inr ⟨hnone, hl'.trans hdirectory, hq⟩
    · rw [hdirectory] at hnone'
      cases hnone'

theorem MadeDirectories.mono (h : MadeDirectories q before after) (hq : Path.IsBeginning q p) :
    MadeDirectories p before after := by
  refine ⟨h.workingDirectory, fun l => (h.nodes l).imp_right ?_⟩
  rintro ⟨hnone, hdirectory, r, hr, hlocate⟩
  exact ⟨hnone, hdirectory, r, hr.trans hq, hlocate⟩

/-- The last of some steps is one from the place that the others lead to. -/
theorem follow_of_getLast? {cs : List String} {name : String} (h : cs.getLast? = some name)
    (hname : isDots name = false) (l : Location) :
    follow l cs = follow l cs.dropLast ++ [name] := by
  obtain ⟨front, rfl⟩ := List.getLast?_eq_some_iff.1 h
  rw [isDots, Bool.or_eq_false_iff, decide_eq_false_iff_not, decide_eq_false_iff_not] at hname
  rw [follow_append, List.dropLast_concat]
  exact follow_names (List.forall_mem_singleton.2 hname) _

/-- A directory is made where nothing is. -/
theorem eq_put_of_makeDirectory (h : t.makeDirectory p = .ok t') :
    t.locate p ≠ [] ∧ t.get? (t.locate p) = none ∧ t' = t.put (t.locate p) .directory := by
  obtain ⟨-, -, h⟩ := bind_eq_ok_iff.1 h
  split at h
  · cases h
  · next name hname =>
    obtain ⟨parent, hparent, h⟩ := bind_eq_ok_iff.1 h
    obtain ⟨hdots, h⟩ := check_eq_ok_iff.1 h
    obtain ⟨-, h⟩ := check_eq_ok_iff.1 h
    have hlocate : t.locate p = parent ++ [name] := by
      rw [locate, follow_of_getLast? hname (Bool.eq_false_iff.2 hdots), eq_follow_of_enter hparent]
    rw [hlocate]
    split at h
    · cases h
    · next hnone => exact ⟨List.concat_ne_nil _ _, hnone, (pure_eq_ok_iff.1 h).symm⟩

theorem madeDirectories_of_makeDirectory (h : before.makeDirectory p = .ok after) :
    MadeDirectories p before after := by
  obtain ⟨hroot, hnone, rfl⟩ := eq_put_of_makeDirectory h
  refine ⟨rfl, fun l => ?_⟩
  rw [get?_put _ _ _ _ hroot]
  split
  · next hl => exact .inr ⟨hl ▸ hnone, rfl, p, .refl p, hl.symm⟩
  · exact .inl rfl

theorem madeDirectories_makeLast (t : FileTree) (existOk : Bool) (p : String) :
    MadeDirectories p t (t.makeLast existOk p).2 := by
  rw [makeLast]
  split
  · next hmake => exact madeDirectories_of_makeDirectory hmake
  · split
    · exact .refl p t
    · exact .refl p t

theorem madeDirectories_makeLineage (t : FileTree) (existOk : Bool) {qs : List String}
    (h : ∀ q ∈ qs, Path.IsBeginning q p) : MadeDirectories p t (t.makeLineage existOk qs).2 := by
  have hlast : ∀ q, Path.IsBeginning q p → ∀ t', MadeDirectories p t' (t'.makeLast existOk q).2 :=
    fun q hq t' => (madeDirectories_makeLast t' existOk q).mono hq
  fun_induction makeLineage t existOk qs with
  | case1 => exact .refl p t
  | case2 q => exact hlast q (h q List.mem_cons_self) t
  | case3 q q' above _ => exact hlast q (h q List.mem_cons_self) t
  | case4 q q' above _ t' hmake _ ih =>
    rw [hmake] at ih
    exact ih fun r hr => h r (List.mem_cons_of_mem q hr)
  | case5 q q' above _ t' hmake _ ih =>
    rw [hmake] at ih
    have habove := ih fun r hr => h r (List.mem_cons_of_mem q hr)
    exact habove.trans (hlast q (h q List.mem_cons_self) t')
  | case6 q q' above _ t' hmake _ ih =>
    rw [hmake] at ih
    exact ih fun r hr => h r (List.mem_cons_of_mem q hr)
  | case7 q q' above _ t' hmake _ ih =>
    rw [hmake] at ih
    have habove := ih fun r hr => h r (List.mem_cons_of_mem q hr)
    exact habove.trans (hlast q (h q List.mem_cons_self) t')
  | case8 q q' above _ e t' _ hmake ih =>
    rw [hmake] at ih
    exact ih fun r hr => h r (List.mem_cons_of_mem q hr)

theorem madeDirectories_makeDirectories (t : FileTree) (p : String) (existOk : Bool) :
    MadeDirectories p t (t.makeDirectories p existOk).2 := by
  rw [makeDirectories]
  split
  · exact .refl p t
  · exact madeDirectories_makeLineage t existOk fun q hq => Path.isBeginning_of_mem_lineage hq

/-- The last piece of the path can be the name of a file. -/
structure IsFilePath (p : String) : Prop where
  checked : checkPath p = .ok ()
  named : Path.lastPiece p ≠ ""
  notDots : isDots (Path.lastPiece p) = false
  short : isTooLong (Path.lastPiece p) = false

theorem IsFilePath.getLast?_steps (h : IsFilePath p) :
    (Path.steps p).getLast? = some (Path.lastPiece p) := by
  rw [Path.steps_of_lastPiece h.named, List.getLast?_concat]

theorem IsFilePath.dropLast_steps (h : IsFilePath p) :
    (Path.steps p).dropLast = Path.steps (Path.directory p) := by
  rw [Path.steps_of_lastPiece h.named, List.dropLast_concat]

/-- A file is one step from the directory of its path. -/
theorem IsFilePath.locate_eq {directory : Location} (h : IsFilePath p)
    (henter : t.enter (t.start p) (Path.steps (Path.directory p)) = .ok directory) :
    t.locate p = directory ++ [Path.lastPiece p] := by
  rw [locate, follow_of_getLast? h.getLast?_steps h.notDots, h.dropLast_steps,
    eq_follow_of_enter henter]

theorem find_eq_file_iff {content : ByteArray} :
    t.find p = .ok (.file content) ↔
      IsFilePath p ∧ ∃ directory,
        t.enter (t.start p) (Path.steps (Path.directory p)) = .ok directory ∧
          t.get? (directory ++ [Path.lastPiece p]) = some (.file content) := by
  constructor
  · intro h
    obtain ⟨⟨⟩, hcheck, h⟩ := bind_eq_ok_iff.1 h
    split at h
    · cases h
    · next name hname =>
      obtain ⟨directory, henter, h⟩ := bind_eq_ok_iff.1 h
      split at h
      · cases h
      · next hdots =>
        obtain ⟨hlong, h⟩ := check_eq_ok_iff.1 h
        split at h
        · cases h
        · cases h
        · next content' hnode =>
          obtain ⟨hempty, h⟩ := check_eq_ok_iff.1 h
          cases h
          have hnamed : Path.lastPiece p ≠ "" := by simpa using hempty
          rw [Path.steps_of_lastPiece hnamed, List.getLast?_concat, Option.some.injEq] at hname
          subst hname
          have hpath : IsFilePath p :=
            ⟨hcheck, hnamed, Bool.eq_false_iff.2 hdots, Bool.eq_false_iff.2 hlong⟩
          rw [hpath.dropLast_steps] at henter
          exact ⟨hpath, directory, henter, hnode⟩
  · rintro ⟨hpath, directory, henter, hnode⟩
    have hempty : (Path.lastPiece p).isEmpty = false := by simpa using hpath.named
    rw [find, hpath.checked, ok_bind, hpath.getLast?_steps]
    dsimp only
    rw [hpath.dropLast_steps]
    refine bind_eq_ok_iff.2 ⟨directory, henter, ?_⟩
    rw [hpath.notDots, if_neg nofun]
    refine check_eq_ok_iff.2 ⟨by simp [hpath.short], ?_⟩
    rw [hnode]
    exact check_eq_ok_iff.2 ⟨by simp [hempty], rfl⟩

/-- A file is put one step from the directory of its path, and never in the place of a directory.
Beside it there must be room for a temporary file. -/
theorem replace_eq_ok_iff {content : ByteArray} :
    t.replace p content = .ok t' ↔
      IsFilePath p ∧ ∃ directory,
        t.enter (t.start p) (Path.steps (Path.directory p)) = .ok directory ∧
          isOverlong (Path.join (absolutePath directory) temporaryName) = false ∧
          t.get? (directory ++ [Path.lastPiece p]) ≠ some .directory ∧
          t' = t.put (directory ++ [Path.lastPiece p]) (.file content) := by
  constructor
  · intro h
    obtain ⟨directory, henter, h⟩ := bind_eq_ok_iff.1 h
    obtain ⟨hroom, h⟩ := check_eq_ok_iff.1 h
    obtain ⟨⟨⟩, hcheck, h⟩ := bind_eq_ok_iff.1 h
    obtain ⟨hdots, h⟩ := check_eq_ok_iff.1 h
    dsimp only at h
    by_cases hempty : (Path.lastPiece p).isEmpty = true
    · rw [if_pos hempty] at h
      split at h
      · cases h
      · split at h
        · cases h
        · cases h
    · rw [if_neg hempty] at h
      obtain ⟨hlong, h⟩ := check_eq_ok_iff.1 h
      have hnamed : Path.lastPiece p ≠ "" := by simpa using hempty
      refine ⟨⟨hcheck, hnamed, Bool.eq_false_iff.2 hdots, Bool.eq_false_iff.2 hlong⟩, directory,
        henter, Bool.eq_false_iff.2 hroom, ?_⟩
      split at h
      · cases h
      · next hnode => exact ⟨hnode, (pure_eq_ok_iff.1 h).symm⟩
  · rintro ⟨hpath, directory, henter, hroom, hnode, rfl⟩
    have hempty : (Path.lastPiece p).isEmpty = false := by simpa using hpath.named
    refine bind_eq_ok_iff.2 ⟨directory, henter, check_eq_ok_iff.2 ⟨by simp [hroom], ?_⟩⟩
    refine bind_eq_ok_iff.2 ⟨⟨⟩, hpath.checked, check_eq_ok_iff.2 ⟨by simp [hpath.notDots], ?_⟩⟩
    dsimp only
    rw [if_neg (by simp [hempty])]
    refine check_eq_ok_iff.2 ⟨by simp [hpath.short], ?_⟩
    split
    · next hdirectory => exact absurd hdirectory hnode
    · rfl

/-- A walk that comes to its end does so in every tree that has the same directories. -/
theorem enter_of_directories (h : ∀ l, t.get? l = some .directory → t'.get? l = some .directory)
    {l l' : Location} {cs : List String} (henter : t.enter l cs = .ok l') :
    t'.enter l cs = .ok l' := by
  induction cs generalizing l with
  | nil => exact henter
  | cons c cs ih =>
    rw [enter] at henter ⊢
    split
    · next hdot =>
      rw [if_pos hdot] at henter
      exact ih henter
    · next hdot =>
      rw [if_neg hdot] at henter
      split
      · next hdots =>
        rw [if_pos hdots] at henter
        exact ih henter
      · next hdots =>
        rw [if_neg hdots] at henter
        split at henter
        · cases henter
        · next hlong =>
          rw [if_neg hlong]
          split at henter
          · next hnode =>
            rw [h _ hnode]
            exact ih henter
          · cases henter
          · cases henter

/-- The file has the content, and apart from it only directories have been made, at beginnings of
its path. -/
structure Written (p : String) (content : ByteArray) (before after : FileTree) : Prop where
  workingDirectory : after.workingDirectory = before.workingDirectory
  file : after.get? (before.locate p) = some (.file content)
  found : after.find p = .ok (.file content)
  others : ∀ l, l ≠ before.locate p → after.get? l = before.get? l ∨
    before.get? l = none ∧ after.get? l = some .directory ∧
      ∃ q, Path.IsBeginning q p ∧ before.locate q = l

theorem written_of_replace {content : ByteArray} {made : FileTree}
    (hmade : MadeDirectories p before made) (h : made.replace p content = .ok after) :
    Written p content before after := by
  obtain ⟨hpath, directory, henter, -, hnode, rfl⟩ := replace_eq_ok_iff.1 h
  have hroot : directory ++ [Path.lastPiece p] ≠ [] := List.concat_ne_nil _ _
  have hplace : before.locate p = directory ++ [Path.lastPiece p] := by
    rw [locate_congr hmade.workingDirectory.symm, hpath.locate_eq henter]
  refine ⟨hmade.workingDirectory, ?_, ?_, fun l hl => ?_⟩
  · rw [hplace, get?_put_self hroot]
  · have hwalk := enter_of_directories (get?_put_of_directory hnode content) henter
    exact find_eq_file_iff.2 ⟨hpath, directory, hwalk, get?_put_self hroot⟩
  · rw [hplace] at hl
    rw [get?_put_of_ne hl]
    exact hmade.nodes l

/-- Writing changes no more than the file's place and the directories that it makes. -/
theorem madeDirectories_or_written (t : FileTree) (p : String) (content : ByteArray) :
    (∃ e, (t.write p content).1 = .error e ∧ MadeDirectories p t (t.write p content).2) ∨
      (t.write p content).1 = .ok () ∧ Written p content t (t.write p content).2 := by
  have hmade := (madeDirectories_makeDirectories t (Path.directory p) true).mono
    (Path.isBeginning_directory p)
  rw [write]
  split
  · next e made hmake =>
    rw [hmake] at hmade
    exact .inl ⟨e, rfl, hmade⟩
  · next made hmake =>
    rw [hmake] at hmade
    split
    · next after hreplace => exact .inr ⟨rfl, written_of_replace hmade hreplace⟩
    · next e hreplace => exact .inl ⟨e, rfl, hmade⟩

section Renaming

/-- What was added at a new location is taken away again. -/
theorem filter_putEntry {n : Node} {es : List (Location × Node)} (h : es.lookup l = none) :
    (putEntry l n es).filter (fun e => e.1 ≠ l) = es := by
  induction es with
  | nil => simp [putEntry]
  | cons e es ih =>
    obtain ⟨k, v⟩ := e
    rw [List.lookup_cons] at h
    by_cases hk : l = k
    · simp [hk] at h
    · rw [beq_false_of_ne hk] at h
      rw [putEntry, if_neg hk, List.filter_cons_of_pos (by simpa using Ne.symm hk), ih h]

theorem remove_put {n : Node} (hl : l ≠ []) (h : t.get? l = none) : (t.put l n).remove l = t := by
  rw [get?, if_neg hl] at h
  rw [remove, put, filter_putEntry h]

/-- What is put at a new location and then moved to its place is as if it had been put there. -/
theorem rename_put {n : Node} (hl : l ≠ []) (h : t.get? l = none) (target : Location) :
    (t.put l n).rename l target = t.put target n := by
  rw [rename, get?_put_self hl]
  dsimp only
  rw [remove_put hl h]

/-- Writing has the effect of making the directories, putting the content under any fresh name and
moving it to its place. -/
theorem get?_rename_of_write {content : ByteArray} (h : (t.write p content).1 = .ok ())
    {temporary : Location} (htemporary : temporary ≠ [])
    (hfresh : (t.makeDirectories (Path.directory p) true).2.get? temporary = none) (k : Location) :
    (((t.makeDirectories (Path.directory p) true).2.put temporary (.file content)).rename temporary
      (t.locate p)).get? k = (t.write p content).2.get? k := by
  have hmade := madeDirectories_makeDirectories t (Path.directory p) true
  rw [write] at h ⊢
  cases hmake : t.makeDirectories (Path.directory p) true with
  | mk result made =>
    rw [hmake] at h hmade hfresh
    cases result with
    | error e => cases h
    | ok =>
      cases hreplace : made.replace p content with
      | error e => simp [hreplace] at h
      | ok after =>
        obtain ⟨hpath, directory, henter, -, -, rfl⟩ := replace_eq_ok_iff.1 hreplace
        simp only [hreplace]
        rw [locate_congr hmade.workingDirectory.symm p, hpath.locate_eq henter,
          rename_put htemporary hfresh]

end Renaming

end FileTree
end GrammarBindings
