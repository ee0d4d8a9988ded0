import GrammarBindings.Options.OptionLine

/-!
# Options written as words

Options are told by saying what they ask for, each in one of its spellings and with its value behind
it, in any order. What is the default may go without saying.
-/

namespace GrammarBindings

section Saying

variable {α : Type} {spellings values : α → List String} {s : α} {ss : List α} {w : String}
  {ws : List String}

/-- The words say some things one after the other. -/
inductive Said (spellings values : α → List String) : List α → List String → Prop where
  | nil : Said spellings values [] []
  | cons {s : α} {ss : List α} {w : String} {ws : List String} (spelling : w ∈ spellings s)
      (others : Said spellings values ss ws) :
      Said spellings values (s :: ss) (w :: (values s ++ ws))

/-- What is said is asked for, and what is asked for is said unless it is understood. -/
structure Tells (asks understood : α → Bool) (ss : List α) : Prop where
  asked : ∀ s ∈ ss, asks s = true
  said : ∀ s, asks s = true → s ∈ ss ∨ understood s = true

theorem Tells.mem_iff {asks understood : α → Bool} (h : Tells asks understood ss)
    (hs : understood s = false) : s ∈ ss ↔ asks s = true :=
  ⟨h.asked s, fun ha => (h.said s ha).resolve_right (by simp [hs])⟩

/-- All that is asked for may be said in any order. -/
theorem Tells.of_perm {asks : α → Bool} {all : List α} (hall : ∀ s, s ∈ all)
    (h : ss.Perm (all.filter asks)) (understood : α → Bool) : Tells asks understood ss where
  asked _ hs := (List.mem_filter.1 (h.mem_iff.1 hs)).2
  said s hs := .inl (h.mem_iff.2 (List.mem_filter.2 ⟨hall s, hs⟩))

namespace Said

theorem exists_of_mem (h : Said spellings values ss ws) (hw : w ∈ ws) :
    ∃ s ∈ ss, w ∈ spellings s ∨ w ∈ values s := by
  induction h with
  | nil => cases hw
  | @cons s ss w' ws hspelling _ ih =>
    rcases List.mem_cons.1 hw with rfl | hw
    · exact ⟨s, List.mem_cons_self, .inl hspelling⟩
    · rcases List.mem_append.1 hw with hw | hw
      · exact ⟨s, List.mem_cons_self, .inr hw⟩
      · obtain ⟨s', hs', hw'⟩ := ih hw
        exact ⟨s', List.mem_cons_of_mem s hs', hw'⟩

theorem exists_mem (h : Said spellings values ss ws) (hs : s ∈ ss) : ∃ w ∈ spellings s, w ∈ ws := by
  induction h with
  | nil => cases hs
  | @cons s' ss w ws hspelling _ ih =>
    rcases List.mem_cons.1 hs with rfl | hs
    · exact ⟨w, hspelling, List.mem_cons_self⟩
    · obtain ⟨w', hw', hmem⟩ := ih hs
      exact ⟨w', hw', List.mem_cons_of_mem w (List.mem_append_right _ hmem)⟩

theorem exists_words (h : ∀ s, spellings s ≠ []) (ss : List α) :
    ∃ ws, Said spellings values ss ws := by
  induction ss with
  | nil => exact ⟨[], .nil⟩
  | cons s ss ih =>
    obtain ⟨ws, hws⟩ := ih
    exact ⟨_, .cons (List.head_mem (h s)) hws⟩

end Said

end Saying

namespace TargetOption

theorem mem_all (t : TargetOption) : t ∈ all := by
  cases t with
  | lexer tool => cases tool <;> decide
  | _ => decide

end TargetOption

namespace Options

/-- Whether the option is to be given for these options. -/
def asksFor (o : Options) : TargetOption → Bool
  | .makefile => o.makefile
  | .inDirectory => o.inDirectory
  | .package => o.package.isSome
  | .lexer tool => o.lexer = tool
  | .shareStrings => o.shareStrings
  | .byteStrings => o.byteStrings
  | .glr => o.parser = .glr
  | .xml => o.xml = .basic
  | .xmlExtended => o.xml = .extended
  | .cnf => o.cnf
  | .lineNumbers => o.lineNumbers
  | .visualStudio => o.visualStudio
  | .wcf => o.wcf

/-- The words that stand behind an option as its value. -/
def values (o : Options) : TargetOption → List String
  | .package => (o.package.map Package.text).toList
  | _ => []

end Options

/-- The lexer that is used if none is given. -/
def TargetOption.isDefault (t : TargetOption) : Bool := t = .lexer .alex3

theorem Options.package_eq_none {o : Options} (h : ¬ o.asksFor .package = true) :
    o.package = none :=
  Option.not_isSome_iff_eq_none.1 h

namespace Package

theorem exists_dropLineEnd_eq_cons {c : Char} (h : c ≠ '\n') (cs : List Char) :
    ∃ ds, dropLineEnd (c :: cs) = c :: ds := by
  rw [dropLineEnd]
  split
  · next hlast =>
    cases cs with
    | nil => exact absurd (Option.some.inj hlast) h
    | cons d cs => exact ⟨_, rfl⟩
  · exact ⟨cs, rfl⟩

/-- A package begins with an identifier, so it cannot be mistaken for a flag. -/
theorem head?_text (p : Package) : p.text.toList.head? ≠ some '-' := by
  intro hhead
  obtain ⟨cs, hcs⟩ := List.head?_eq_some_iff.1 hhead
  obtain ⟨ds, hds⟩ := exists_dropLineEnd_eq_cons (show '-' ≠ '\n' by decide) cs
  have hformed := p.wellFormed
  rw [isPackage, hcs, hds, List.splitOn_cons_eq_if_modifyHead, if_neg (by decide)] at hformed
  cases hsplit : ds.splitOn '.' with
  | nil => exact List.splitOn_ne_nil _ _ hsplit
  | cons part parts =>
    rw [hsplit] at hformed
    cases hformed

@[simp] theorem ofText?_text (p : Package) : ofText? p.text = some p := by
  rw [ofText?, dif_pos p.wellFormed]

end Package

end GrammarBindings
