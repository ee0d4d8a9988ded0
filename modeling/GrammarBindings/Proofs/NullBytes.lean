import GrammarBindings.Files.Tree
import GrammarBindings.Proofs.Outcomes
import GrammarBindings.Proofs.PathBeginnings

/-!
# Null bytes in paths

Reading and writing refuse a path as none at all only if it has a null byte: the normal form of a
path has no character that the path has not, slashes and dots apart, and the directories above it
are beginnings of it.
-/

namespace GrammarBindings

namespace Path

variable {c : Char} {p : String}

theorem mem_of_mem_pieces {piece : String} (hp : piece ∈ pieces p) (hc : c ∈ piece.toList) :
    c ∈ p.toList := by
  obtain ⟨cs, hcs, rfl⟩ := List.mem_map.1 hp
  rw [String.toList_ofList] at hc
  exact mem_of_mem_splitOn hcs hc

theorem mem_root (h : c ∈ (root p).toList) : c = '/' := by
  rw [root] at h
  split at h
  all_goals simp_all

/-- The normal form is made of characters of the path, of slashes and of a dot. -/
theorem mem_of_mem_normal (h : c ∈ (normal p).toList) : c ∈ p.toList ∨ c = '/' ∨ c = '.' := by
  rw [normal] at h
  split at h
  · exact .inr (.inr (by simpa using h))
  · rw [String.toList_append, List.mem_append] at h
    rcases h with h | h
    · exact .inr (.inl (mem_root h))
    · rw [String.toList_intercalate] at h
      rcases exists_mem_of_mem_intercalate h with h | ⟨cs, hcs, hc⟩
      · exact .inr (.inl (by simpa using h))
      · obtain ⟨piece, hpiece, rfl⟩ := List.mem_map.1 hcs
        have hmem : piece ∈ pieces p := List.mem_of_mem_filter (List.mem_of_mem_filter hpiece)
        exact .inl (mem_of_mem_pieces hmem hc)

end Path

namespace FileTree

variable {t : FileTree} {p : String}

theorem enter_ne_nullByte {l : Location} {cs : List String} :
    t.enter l cs ≠ .error .nullByte := by
  fun_induction enter t l cs with
  | case1 => nofun
  | case2 _ _ ih => exact ih
  | case3 _ _ _ ih => exact ih
  | case4 => nofun
  | case5 _ _ _ _ _ _ _ ih => exact ih
  | case6 => nofun
  | case7 => nofun

theorem checkPath_eq_nullByte_iff : checkPath p = .error .nullByte ↔ hasNull p = true := by
  rw [checkPath]
  split
  · next h => simp [h]
  · next h =>
    split
    · simp [h]
    · split
      · simp [h]
      · simp [h]

theorem hasNull_of_find (h : t.find p = .error .nullByte) : hasNull p = true := by
  rcases bind_eq_error_iff.1 h with h | ⟨-, -, h⟩
  · exact checkPath_eq_nullByte_iff.1 h
  · split at h
    · cases h
    · rcases bind_eq_error_iff.1 h with h | ⟨parent, -, h⟩
      · exact absurd h enter_ne_nullByte
      · -- what follows the walk has faults of its own only
        simp only [pure, Except.pure, throw, throwThe, MonadExceptOf.throw, bind, Except.bind] at h
        repeat' split at h
        all_goals cases h

theorem hasNull_of_read (h : t.read p = .error .nullByte) : hasNull p = true := by
  have hnormal : hasNull (Path.normal p) = true := by
    unfold FileTree.read at h
    split at h
    · cases h
    · cases h
    · next hfind =>
      cases h
      exact hasNull_of_find hfind
  rcases Path.mem_of_mem_normal (of_decide_eq_true hnormal) with h | h | h
  · exact decide_eq_true h
  · cases h
  · cases h

theorem hasNull_of_makeDirectory (h : t.makeDirectory p = .error .nullByte) :
    hasNull p = true := by
  rcases bind_eq_error_iff.1 h with h | ⟨-, -, h⟩
  · exact checkPath_eq_nullByte_iff.1 h
  · split at h
    · cases h
    · rcases bind_eq_error_iff.1 h with h | ⟨parent, -, h⟩
      · exact absurd h enter_ne_nullByte
      · simp only [pure, Except.pure, throw, throwThe, MonadExceptOf.throw, bind, Except.bind] at h
        repeat' split at h
        all_goals cases h

theorem hasNull_of_makeLast {existOk : Bool} (h : (t.makeLast existOk p).1 = .error .nullByte) :
    hasNull p = true := by
  rw [makeLast] at h
  split at h
  · cases h
  · next hmake =>
    split at h
    · cases h
    · cases h
      exact hasNull_of_makeDirectory hmake

theorem exists_hasNull_of_makeLineage {existOk : Bool} {ps : List String}
    (h : (t.makeLineage existOk ps).1 = .error .nullByte) : ∃ q ∈ ps, hasNull q = true := by
  fun_induction makeLineage t existOk ps with
  | case1 => cases h
  | case2 p => exact ⟨p, List.mem_cons_self, hasNull_of_makeLast h⟩
  | case3 p q above _ => exact ⟨p, List.mem_cons_self, hasNull_of_makeLast h⟩
  | case4 => cases h
  | case5 p q above => exact ⟨p, List.mem_cons_self, hasNull_of_makeLast h⟩
  | case6 => cases h
  | case7 p q above => exact ⟨p, List.mem_cons_self, hasNull_of_makeLast h⟩
  | case8 p q above _ e t' _ hmake ih =>
    cases h
    rw [hmake] at ih
    obtain ⟨r, hr, hnull⟩ := ih rfl
    exact ⟨r, List.mem_cons_of_mem p hr, hnull⟩

theorem hasNull_of_replace {content : ByteArray} (h : t.replace p content = .error .nullByte) :
    hasNull p = true := by
  rcases bind_eq_error_iff.1 h with h | ⟨directory, -, h⟩
  · exact absurd h enter_ne_nullByte
  · dsimp only at h
    split at h
    · cases h
    · rcases bind_eq_error_iff.1 h with h | ⟨-, -, h⟩
      · exact checkPath_eq_nullByte_iff.1 h
      · simp only [pure, Except.pure, throw, throwThe, MonadExceptOf.throw, bind, Except.bind] at h
        repeat' split at h
        all_goals cases h

theorem hasNull_of_write {content : ByteArray} (h : (t.write p content).1 = .error .nullByte) :
    hasNull p = true := by
  rw [write] at h
  split at h
  · next hmake =>
    cases h
    rw [makeDirectories] at hmake
    split at hmake
    · cases hmake
    · obtain ⟨q, hq, hnull⟩ := exists_hasNull_of_makeLineage (congrArg Prod.fst hmake)
      have hbeginning := (Path.isBeginning_of_mem_lineage hq).trans (Path.isBeginning_directory p)
      exact decide_eq_true (hbeginning.chars.subset (of_decide_eq_true hnull))
  · split at h
    · cases h
    · next hreplace =>
      cases h
      exact hasNull_of_replace hreplace

end FileTree
end GrammarBindings
