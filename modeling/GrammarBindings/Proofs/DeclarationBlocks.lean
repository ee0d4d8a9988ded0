import GrammarBindings.Proofs.ModuleLines
import GrammarBindings.Proofs.Pieces
import GrammarBindings.Proofs.Words

/-!
# Blocks of declarations

The types and the pragmas of a block stand between blank lines, the name of a constructor in front
of a blank, and the types of its arguments between arrows; a type says by its hash signs and
parentheses how deep a list it is of what. None of these marks is in a name, so the text of a block
determines its declarations, except for the marks of categories as tokens and of their levels.
-/

namespace GrammarBindings

/-- The category without the mark of its leaf as a token or its level. -/
def Category.unmarked : Category → Category
  | plain name | token name | level name _ => plain name
  | list element => list element.unmarked
  | internal => internal
  | stray text => stray text

def Constructor.unmarked (k : Constructor) : Constructor :=
  { k with arguments := k.arguments.map Category.unmarked }

def DataDecl.unmarked (d : DataDecl) : DataDecl :=
  { d with constructors := d.constructors.map Constructor.unmarked }

/-- Letters, numerals, underscores and apostrophes only, in any order. -/
def hasWordCharacters (s : String) : Bool := s.toList.all continuesWord

/-- A category that has a type, with a name at its leaf. -/
def Category.isNamed : Category → Bool
  | plain name | token name | level name _ => hasWordCharacters name
  | list element => element.isNamed
  | internal | stray _ => false

structure Constructor.IsNamed (k : Constructor) : Prop where
  name : hasWordCharacters k.name = true
  arguments : ∀ c ∈ k.arguments, c.isNamed = true

structure DataDecl.IsNamed (d : DataDecl) : Prop where
  category : ∃ name, d.category = .plain name ∧ hasWordCharacters name = true
  constructors : ∀ k ∈ d.constructors, k.IsNamed

namespace Agda

section Names

variable {s : String} {c : Category} {x : Char}

theorem notMem_of_hasWordCharacters (h : hasWordCharacters s = true)
    (hx : continuesWord x = false) : x ∉ s.toList := by
  intro hmem
  rw [List.all_eq_true.1 h x hmem] at hx
  cases hx

theorem hasType_of_isNamed (h : c.isNamed = true) : hasType c = true := by
  induction c with
  | list element ih => exact ih h
  | internal => cases h
  | stray s => cases h
  | _ => rfl

theorem isTyped_of_isNamed {d : DataDecl} (h : d.IsNamed) : IsTyped d := by
  obtain ⟨name, hname, -⟩ := h.category
  exact ⟨⟨name, hname⟩, fun k hk c hc => hasType_of_isNamed ((h.constructors k hk).arguments c hc)⟩

end Names

section Types

variable {c c' : Category} {name : String}

/-- The type of an element as it stands behind the list type. -/
def elementText (c : Category) : String :=
  if isComposite c then "(" ++ typeText c ++ ")" else typeText c

theorem typeText_list (c : Category) : typeText (.list c) = "#List " ++ elementText c := rfl

theorem typeText_unmarked (c : Category) : typeText c.unmarked = typeText c := by
  have hcomposite : ∀ c : Category, isComposite c.unmarked = isComposite c := by
    intro c
    cases c <;> rfl
  induction c with
  | list element ih => rw [Category.unmarked, typeText, typeText, ih, hcomposite]
  | _ => rfl

/-- The marks in a type are those of lists. -/
theorem notMem_typeText (h : c.isNamed = true) {x : Char} (hx : continuesWord x = false)
    (hlist : x ∉ "#List ()".toList) : x ∉ (typeText c).toList := by
  induction c with
  | list element ih =>
    have hne : x ≠ '#' ∧ x ≠ 'L' ∧ x ≠ 'i' ∧ x ≠ 's' ∧ x ≠ 't' ∧ x ≠ ' ' ∧ x ≠ '(' ∧ x ≠ ')' := by
      simpa using hlist
    rw [typeText_list, elementText]
    split
    · simp [hne, ih h]
    · simp [hne, ih h]
  | internal => cases h
  | stray s => cases h
  | _ => exact notMem_of_hasWordCharacters h hx

theorem hasWordCharacters_typeText (h : c.isNamed = true) (hleaf : isComposite c = false) :
    hasWordCharacters (typeText c) = true := by
  cases c with
  | list element => cases hleaf
  | internal => cases h
  | stray s => cases h
  | _ => exact h

theorem typeText_eq_of_elementText_eq (h : c.isNamed = true) (h' : c'.isNamed = true)
    (heq : elementText c = elementText c') : typeText c = typeText c' := by
  have hopening : ∀ {c : Category} {s : String}, c.isNamed = true → isComposite c = false →
      typeText c ≠ "(" ++ s ++ ")" := by
    intro c s hc hleaf htext
    refine notMem_of_hasWordCharacters (hasWordCharacters_typeText hc hleaf) (x := '(') rfl ?_
    simp [htext]
  rw [elementText, elementText] at heq
  split at heq
  · split at heq
    · simpa [← String.toList_inj] using heq
    · next hleaf => exact absurd heq.symm (hopening h' (by simpa using hleaf))
  · next hleaf =>
    split at heq
    · exact absurd heq (hopening h (by simpa using hleaf))
    · exact heq

theorem unmarked_of_typeText_eq_name (hname : hasWordCharacters name = true)
    (h : c.isNamed = true) (heq : name = typeText c) : c.unmarked = .plain name := by
  cases c with
  | list element =>
    refine absurd ?_ (notMem_of_hasWordCharacters hname (x := '#') rfl)
    simp [heq, typeText_list]
  | internal => cases h
  | stray s => cases h
  | _ => rw [heq, Category.unmarked, typeText]

/-- A type is read off its text up to the marks of its leaf. -/
theorem unmarked_eq_of_typeText_eq (h : c.isNamed = true) (h' : c'.isNamed = true)
    (heq : typeText c = typeText c') : c.unmarked = c'.unmarked := by
  induction c generalizing c' with
  | list element ih =>
    cases c' with
    | list element' =>
      have hnamed : element.isNamed = true := h
      have hnamed' : element'.isNamed = true := h'
      rw [typeText_list, typeText_list] at heq
      have helement : elementText element = elementText element' := by
        simpa [← String.toList_inj] using heq
      have htype := typeText_eq_of_elementText_eq hnamed hnamed' helement
      rw [Category.unmarked, Category.unmarked, ih hnamed hnamed' htype]
    | internal => cases h'
    | stray s => cases h'
    | _ => exact unmarked_of_typeText_eq_name h' h heq.symm
  | internal => cases h
  | stray s => cases h
  | _ => exact (unmarked_of_typeText_eq_name h h' heq).symm

end Types

/-- Two lists with the same images under one map have the same under any map that it determines. -/
theorem map_eq_of_determines {α β γ : Type} {f : α → β} {g : α → γ} {as as' : List α}
    (h : ∀ a ∈ as, ∀ a' ∈ as', f a = f a' → g a = g a') (heq : as.map f = as'.map f) :
    as.map g = as'.map g := by
  induction as generalizing as' with
  | nil =>
    obtain rfl := List.map_eq_nil_iff.1 heq.symm
    rfl
  | cons a as ih =>
    obtain ⟨a', more, rfl, hfirst, hmore⟩ := List.map_eq_cons_iff.1 heq.symm
    rw [List.map_cons, List.map_cons,
      h a List.mem_cons_self a' List.mem_cons_self hfirst.symm,
      ih (fun b hb b' hb' => h b (List.mem_cons_of_mem a hb) b' (List.mem_cons_of_mem a' hb'))
        hmore.symm]

section Lines

variable {d : String} {k k' : Constructor} {x : Char}

theorem unmarked_eq_of_signatureText_eq (hd : hasWordCharacters d = true) (h : k.IsNamed)
    (h' : k'.IsNamed) (heq : signatureText d k = signatureText d k') :
    k.unmarked = k'.unmarked := by
  have htext : ∀ k : Constructor, (signatureText d k).toList = k.name.toList ++
      ' ' :: ([':', ' '] ++ (" → ".intercalate (k.arguments.map typeText ++ [d])).toList) := by
    intro k
    simp [signatureText]
  have hcut := congrArg String.toList heq
  rw [htext, htext] at hcut
  obtain ⟨hname, htypes⟩ := eq_of_append_cons (notMem_of_hasWordCharacters h.name rfl)
    (notMem_of_hasWordCharacters h'.name rfl) hcut
  have harrow : ∀ {k : Constructor}, k.IsNamed → ∀ s ∈ k.arguments.map typeText ++ [d],
      '→' ∉ s.toList := by
    intro k hk s hs
    rcases List.mem_append.1 hs with hs | hs
    · obtain ⟨c, hc, rfl⟩ := List.mem_map.1 hs
      exact notMem_typeText (hk.arguments c hc) (by decide +kernel) (by decide)
    · obtain rfl := List.mem_singleton.1 hs
      exact notMem_of_hasWordCharacters hd (by decide +kernel)
  have hmark : " → ".toList = [' '] ++ '→' :: [' '] := rfl
  have hpieces := texts_eq_of_intercalate_eq hmark (by decide) (List.concat_ne_nil _ _)
    (List.concat_ne_nil _ _) (harrow h) (harrow h')
    (String.toList_inj.1 (List.append_cancel_left htypes))
  have harguments : k.arguments.map Category.unmarked = k'.arguments.map Category.unmarked :=
    map_eq_of_determines
      (fun c hc c' hc' => unmarked_eq_of_typeText_eq (h.arguments c hc) (h'.arguments c' hc'))
      (List.append_cancel_right hpieces)
  rw [Constructor.unmarked, Constructor.unmarked, String.toList_inj.1 hname, harguments]

theorem signatureText_unmarked (d : String) (k : Constructor) :
    signatureText d k.unmarked = signatureText d k := by
  have htypes : typeText ∘ Category.unmarked = typeText := funext typeText_unmarked
  rw [signatureText, signatureText, Constructor.unmarked, List.map_map, htypes]

/-- The lines of a declaration's type, and those of its pragma. -/
def declarationParts (d : DataDecl) : List (List String) :=
  [dataLines d.category.written d.constructors,
    pragmaLines d.category.written (d.constructors.map Constructor.name)]

theorem declarationParts_unmarked (d : DataDecl) :
    declarationParts d.unmarked = declarationParts d := by
  have hnames : Constructor.name ∘ Constructor.unmarked = Constructor.name := rfl
  rw [declarationParts, declarationParts, DataDecl.unmarked, dataLines, dataLines, List.map_map,
    List.map_map, hnames]
  simp only [Function.comp_def, signatureText_unmarked]

theorem unmarked_eq_of_declarationParts_eq {d d' : DataDecl} (h : d.IsNamed) (h' : d'.IsNamed)
    (heq : declarationParts d = declarationParts d') : d.unmarked = d'.unmarked := by
  obtain ⟨name, hname, hchars⟩ := h.category
  obtain ⟨name', hname', -⟩ := h'.category
  have hdata := (List.cons.inj heq).1
  rw [hname, hname', Category.written, Category.written, dataLines, dataLines] at hdata
  obtain ⟨hhead, hsignatures⟩ := List.cons.inj hdata
  obtain rfl : name = name' := by simpa [← String.toList_inj] using hhead
  have hconstructors :
      d.constructors.map Constructor.unmarked = d'.constructors.map Constructor.unmarked := by
    refine map_eq_of_determines (fun k hk k' hk' hline => ?_) hsignatures
    refine unmarked_eq_of_signatureText_eq hchars (h.constructors k hk) (h'.constructors k' hk') ?_
    simpa [← String.toList_inj] using hline
  rw [DataDecl.unmarked, DataDecl.unmarked, hname, hname', hconstructors]

theorem newline_notMem_signatureText (hd : hasWordCharacters d = true) (h : k.IsNamed) :
    '\n' ∉ (signatureText d k).toList := by
  have htypes : '\n' ∉ (" → ".intercalate (k.arguments.map typeText ++ [d])).toList := by
    rw [String.toList_intercalate]
    intro hmem
    rcases exists_mem_of_mem_intercalate hmem with hsep | ⟨l, hl, hchar⟩
    · exact absurd hsep (by decide)
    obtain ⟨s, hs, rfl⟩ := List.mem_map.1 hl
    rcases List.mem_append.1 hs with hs | hs
    · obtain ⟨c, hc, rfl⟩ := List.mem_map.1 hs
      exact notMem_typeText (h.arguments c hc) rfl (by decide) hchar
    · obtain rfl := List.mem_singleton.1 hs
      exact notMem_of_hasWordCharacters hd rfl hchar
  have hname : '\n' ∉ k.name.toList := notMem_of_hasWordCharacters h.name rfl
  rw [signatureText, String.toList_append, String.toList_append]
  simp [htypes, hname, -String.toList_intercalate]

theorem newline_notMem_pragmaLines (hd : hasWordCharacters d = true) {names : List String}
    (h : ∀ s ∈ names, hasWordCharacters s = true) {line : String}
    (hline : line ∈ pragmaLines d names) : line ≠ "" ∧ '\n' ∉ line.toList := by
  have hd := notMem_of_hasWordCharacters hd (x := '\n') rfl
  have h : ∀ s ∈ names, '\n' ∉ s.toList := fun s hs => notMem_of_hasWordCharacters (h s hs) rfl
  match names with
  | [] =>
    obtain rfl := List.mem_singleton.1 hline
    simp [hd]
  | [s] =>
    obtain rfl := List.mem_singleton.1 hline
    simp [hd, h s List.mem_cons_self]
  | s :: s' :: more =>
    obtain ⟨hs, hmore⟩ := List.forall_mem_cons.1 h
    simp only [pragmaLines, List.mem_cons, List.mem_append, List.mem_map, List.not_mem_nil,
      or_false] at hline
    rcases hline with rfl | rfl | ⟨s'', hs'', rfl⟩ | rfl
    · simp [hd]
    · simp [hs]
    · simp [hmore s'' (List.mem_cons.2 hs'')]
    · decide

/-- A line of a declaration is not blank, and none ends in it. -/
theorem newline_notMem_declarationParts {d : DataDecl} (h : d.IsNamed) {part : List String}
    (hpart : part ∈ declarationParts d) {line : String} (hline : line ∈ part) :
    line ≠ "" ∧ '\n' ∉ line.toList := by
  obtain ⟨name, hname, hchars⟩ := h.category
  rw [declarationParts, hname, Category.written] at hpart
  rcases List.mem_pair.1 hpart with rfl | rfl
  · rcases List.mem_cons.1 hline with rfl | hline
    · simp [notMem_of_hasWordCharacters hchars (x := '\n') rfl]
    · obtain ⟨k, hk, rfl⟩ := List.mem_map.1 hline
      simp [newline_notMem_signatureText hchars (h.constructors k hk)]
  · refine newline_notMem_pragmaLines hchars (List.forall_mem_map.2 fun k hk => ?_) hline
    exact (h.constructors k hk).name

/-- The lines of a block, whose parts stand between blank lines. -/
theorem blockLines_eq (ds : List DataDecl) :
    "mutual" :: ds.flatMap declarationLines =
      [""].intercalate (["mutual"] :: ds.flatMap declarationParts) := by
  have hparts : declarationLines = fun d => (declarationParts d).flatMap ("" :: ·) := by
    funext d
    simp [declarationLines, declarationParts]
  rw [← append_flatMap_cons, List.flatMap_assoc, List.singleton_append, hparts]

theorem declarationParts_eq_of_flatMap_eq {ds ds' : List DataDecl}
    (h : ds.flatMap declarationParts = ds'.flatMap declarationParts) :
    ds.map declarationParts = ds'.map declarationParts := by
  induction ds generalizing ds' with
  | nil =>
    cases ds' with
    | nil => rfl
    | cons d' ds' => cases h
  | cons d ds ih =>
    cases ds' with
    | nil => cases h
    | cons d' ds' =>
      rw [List.flatMap_cons, List.flatMap_cons] at h
      obtain ⟨hfirst, hmore⟩ := List.append_inj h rfl
      rw [List.map_cons, List.map_cons, hfirst, ih hmore]

theorem newline_notMem_blockLines {ds : List DataDecl} (h : ∀ d ∈ ds, d.IsNamed) :
    ∀ line ∈ "mutual" :: ds.flatMap declarationLines, '\n' ∉ line.toList := by
  intro line hline
  rw [blockLines_eq] at hline
  rcases exists_mem_of_mem_intercalate hline with hblank | ⟨part, hpart, hmem⟩
  · obtain rfl := List.mem_singleton.1 hblank
    decide
  rcases List.mem_cons.1 hpart with rfl | hpart
  · obtain rfl := List.mem_singleton.1 hmem
    decide
  · obtain ⟨d, hd, hpart⟩ := List.mem_flatMap.1 hpart
    exact (newline_notMem_declarationParts (h d hd) hpart hmem).2

theorem blank_notMem_blockParts {ds : List DataDecl} (h : ∀ d ∈ ds, d.IsNamed) :
    ∀ part ∈ ["mutual"] :: ds.flatMap declarationParts, "" ∉ part := by
  intro part hpart hblank
  rcases List.mem_cons.1 hpart with rfl | hpart
  · simp at hblank
  · obtain ⟨d, hd, hpart⟩ := List.mem_flatMap.1 hpart
    exact (newline_notMem_declarationParts (h d hd) hpart hblank).1 rfl

end Lines

/-- Declarations whose names are made of the characters of words have a block, and two lists of them
have the same block just when they are the same but for the marks of categories. -/
theorem render_declarations_eq_iff {ds ds' : List DataDecl} (h : ∀ d ∈ ds, d.IsNamed)
    (h' : ∀ d ∈ ds', d.IsNamed) :
    ∃ t t' s s', declarations ds = .ok t ∧ t.render? = .ok s ∧
      declarations ds' = .ok t' ∧ t'.render? = .ok s' ∧
      (s = s' ↔ ds.map DataDecl.unmarked = ds'.map DataDecl.unmarked) := by
  obtain ⟨t, ht, hlines⟩ := exists_declarations fun d hd => isTyped_of_isNamed (h d hd)
  obtain ⟨t', ht', hlines'⟩ := exists_declarations fun d hd => isTyped_of_isNamed (h' d hd)
  refine ⟨t, t', _, _, ht, hlines.render?_eq, ht', hlines'.render?_eq, fun heq => ?_, fun heq => ?_⟩
  · have hnewline : "\n".toList = [] ++ '\n' :: [] := rfl
    have hall := texts_eq_of_intercalate_eq hnewline List.not_mem_nil (List.cons_ne_nil _ _)
      (List.cons_ne_nil _ _) (newline_notMem_blockLines h) (newline_notMem_blockLines h') heq
    rw [blockLines_eq, blockLines_eq] at hall
    have hblank : "" ∉ ([] : List String) := List.not_mem_nil
    have hblocks := pieces_eq_of_intercalate_eq hblank (List.cons_ne_nil _ _)
      (List.cons_ne_nil _ _) (blank_notMem_blockParts h) (blank_notMem_blockParts h') hall
    refine map_eq_of_determines (fun d hd d' hd' => ?_)
      (declarationParts_eq_of_flatMap_eq (List.cons.inj hblocks).2)
    exact unmarked_eq_of_declarationParts_eq (h d hd) (h' d' hd')
  · have hparts : ∀ ds : List DataDecl,
        (ds.map DataDecl.unmarked).flatMap declarationParts = ds.flatMap declarationParts := by
      intro ds
      rw [List.flatMap_map]
      simp only [declarationParts_unmarked]
    rw [blockLines_eq, blockLines_eq, ← hparts ds, ← hparts ds', heq]

/-- A constructor that differs from another in the level of an argument only, beside a list of lists
and a type without constructors. -/
theorem render_declarations_eq_of_levels :
    let declare := fun argument : Category =>
      [DataDecl.mk (.plain "Exp") [⟨"EVar", [.token "Ident"]⟩,
          ⟨"EApp", [argument, .list (.list (.plain "Exp"))]⟩],
        ⟨.plain "2'", []⟩]
    ∃ t t' s, declarations (declare (.level "Exp" 2)) = .ok t ∧ t.render? = .ok s ∧
      declarations (declare (.plain "Exp")) = .ok t' ∧ t'.render? = .ok s := by
  intro declare
  have hnamed : ∀ argument : Category, argument.isNamed = true →
      ∀ d ∈ declare argument, d.IsNamed := by
    intro argument hargument d hd
    rcases List.mem_pair.1 hd with rfl | rfl
    · refine ⟨⟨_, rfl, by decide +kernel⟩, fun k hk => ?_⟩
      rcases List.mem_pair.1 hk with rfl | rfl
      · exact ⟨by decide +kernel, by decide +kernel⟩
      · have hname : hasWordCharacters "EApp" = true := by decide +kernel
        refine ⟨hname, fun c hc => ?_⟩
        rcases List.mem_pair.1 hc with rfl | rfl
        · exact hargument
        · decide +kernel
    · exact ⟨⟨_, rfl, by decide +kernel⟩, nofun⟩
  obtain ⟨t, t', s, s', ht, hs, ht', hs', hiff⟩ :=
    render_declarations_eq_iff (hnamed (.level "Exp" 2) (by decide +kernel))
      (hnamed (.plain "Exp") (by decide +kernel))
  obtain rfl : s = s' := hiff.2 rfl
  exact ⟨t, t', s, ht, hs, ht', hs'⟩

end Agda
end GrammarBindings
