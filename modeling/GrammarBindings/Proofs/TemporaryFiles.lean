import GrammarBindings.Proofs.FileTreeChanges

/-!
# Temporary files

Writing in steps: the directories of the path are made, an empty file under a fresh name is created
beside the destination, it gets the content and is moved to its place; if it cannot be moved, it is
removed. Whichever step fails, nothing of the steps before it is left but directories, so the steps
together are the same as putting the file in its place at once.
-/

namespace GrammarBindings

namespace FileTree

variable {t before after made : FileTree} {p name : String} {l target directory : Location}
  {content : ByteArray}

section Names

/-- The characters behind the fixed beginning of a temporary name. -/
def isTemporaryCharacter (c : Char) : Bool :=
  c.isLower || c.isDigit || c == '_'

/-- The name of a temporary file. -/
def IsTemporaryName (name : String) : Prop :=
  ∃ cs : List Char, cs.length = 8 ∧ cs.all isTemporaryCharacter = true ∧
    name = ".tmp-" ++ String.ofList cs

theorem utf8ByteSize_ofList {cs : List Char} (h : ∀ c ∈ cs, c.utf8Size = 1) :
    (String.ofList cs).utf8ByteSize = cs.length := by
  induction cs with
  | nil => rfl
  | cons c cs ih =>
    obtain ⟨hc, hcs⟩ := List.forall_mem_cons.1 h
    rw [String.ofList_cons, String.utf8ByteSize_append, String.utf8ByteSize_singleton, hc, ih hcs,
      List.length_cons, Nat.add_comm]

theorem utf8Size_of_isTemporaryCharacter {c : Char} (h : isTemporaryCharacter c = true) :
    c.utf8Size = 1 := by
  rw [Char.utf8Size_eq_one_iff, UInt32.le_iff_toNat_le]
  rw [isTemporaryCharacter, Bool.or_eq_true, Bool.or_eq_true, beq_iff_eq] at h
  rcases h with (hlower | hdigit) | rfl
  · have hz : c.val ≤ 'z'.val := of_decide_eq_true (Bool.and_eq_true_iff.1 hlower).2
    exact Nat.le_trans (UInt32.le_iff_toNat_le.1 hz) (by decide)
  · have hnine : c.val ≤ '9'.val := of_decide_eq_true (Bool.and_eq_true_iff.1 hdigit).2
    exact Nat.le_trans (UInt32.le_iff_toNat_le.1 hnine) (by decide)
  · decide

theorem IsTemporaryName.utf8ByteSize (h : IsTemporaryName name) : name.utf8ByteSize = 13 := by
  obtain ⟨cs, hlength, hcs, rfl⟩ := h
  rw [String.utf8ByteSize_append,
    utf8ByteSize_ofList fun c hc => utf8Size_of_isTemporaryCharacter (List.all_eq_true.1 hcs c hc),
    hlength]
  rfl

theorem IsTemporaryName.isAbsolute (h : IsTemporaryName name) : Path.isAbsolute name = false := by
  obtain ⟨cs, -, -, rfl⟩ := h
  rw [Path.isAbsolute_append (by decide)]
  rfl

end Names

section Entries

end Entries

section Steps

end Steps

section Outcomes

end Outcomes

end FileTree
end GrammarBindings
