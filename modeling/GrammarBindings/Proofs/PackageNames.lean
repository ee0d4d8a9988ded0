import GrammarBindings.Options.Fields
import GrammarBindings.Proofs.ModulePlaces
import GrammarBindings.Proofs.SingleDashLines

/-!
# Names of packages

A package is accepted if it consists of names with single dots between them, and also if a line end
stands behind such a text. The line end stays in the package, and from there it gets into the names
of modules and of directories. It is the only blank that a package can have.
-/

namespace GrammarBindings

open Text Agda

/-- An ASCII letter or an underscore, and then ASCII letters, digits, underscores and
apostrophes. -/
def IsName (s : String) : Prop :=
  ∃ first others, s.toList = first :: others ∧ (first.isAlpha = true ∨ first = '_') ∧
    ∀ c ∈ others, c.isAlphanum = true ∨ c = '_' ∨ c = '\x27'

/-- One or more names with single dots between them. -/
def IsDotted (s : String) : Prop :=
  ∃ names, names ≠ [] ∧ (∀ name ∈ names, IsName name) ∧ s = ".".intercalate names

/-- A dotted text, or one with a line end behind it. -/
def IsTaken (s : String) : Prop := IsDotted s ∨ ∃ t, IsDotted t ∧ s = t ++ "\n"

/-- The options with a package in place of theirs. -/
def Options.withPackage (o : Options) (p : Package) : Options := { o with package := some p }

section Names

variable {s t : String} {c : Char}

theorem isAlpha_iff : c.isAlpha = true ↔ ('A' ≤ c ∧ c ≤ 'Z') ∨ ('a' ≤ c ∧ c ≤ 'z') := by
  have hupper : c.isUpper = true ↔ 'A' ≤ c ∧ c ≤ 'Z' := decide_eq_true_iff
  have hlower : c.isLower = true ↔ 'a' ≤ c ∧ c ≤ 'z' :=
    Bool.and_eq_true_iff.trans (and_congr decide_eq_true_iff decide_eq_true_iff)
  rw [← hupper, ← hlower]
  exact Bool.or_eq_true_iff

theorem isAlphanum_iff : c.isAlphanum = true ↔ c.isAlpha = true ∨ ('0' ≤ c ∧ c ≤ '9') :=
  Bool.or_eq_true_iff.trans (or_congr_right
    (Bool.and_eq_true_iff.trans (and_congr decide_eq_true_iff decide_eq_true_iff)))

theorem beginsIdentifier_iff : beginsIdentifier c = true ↔ c.isAlpha = true ∨ c = '_' := by
  rw [isAlpha_iff]
  simp [beginsIdentifier]

theorem continuesIdentifier_iff :
    continuesIdentifier c = true ↔ c.isAlphanum = true ∨ c = '_' ∨ c = '\x27' := by
  rw [continuesIdentifier, isAlphanum_iff]
  simp only [Bool.or_eq_true, Bool.and_eq_true, beginsIdentifier_iff, decide_eq_true_eq]
  tauto

theorem isIdentifier_iff : isIdentifier s.toList = true ↔ IsName s := by
  rw [IsName]
  cases s.toList with
  | nil => simp [isIdentifier]
  | cons first others =>
    simp [isIdentifier, beginsIdentifier_iff, continuesIdentifier_iff]

theorem isBlank_of_isAlphanum (h : c.isAlphanum = true) : isBlank c = false := by
  rw [isAlphanum_iff, isAlpha_iff] at h
  have hrange : 48 ≤ c.toNat ∧ c.toNat ≤ 122 := by
    simp only [Char.le_def, UInt32.le_iff_toNat_le] at h
    change ((65 ≤ c.toNat ∧ c.toNat ≤ 90) ∨ (97 ≤ c.toNat ∧ c.toNat ≤ 122)) ∨
      (48 ≤ c.toNat ∧ c.toNat ≤ 57) at h
    omega
  have hapart : ∀ p ∈ blankRanges, p.2 < 48 ∨ 122 < p.1 := by decide
  rw [Bool.eq_false_iff]
  intro hblank
  obtain ⟨p, hp, hlo, hhi⟩ := CodeRanges.exists_of_contains hblank
  have := hapart p hp
  omega

theorem isBlank_of_continuesIdentifier (h : continuesIdentifier c = true) : isBlank c = false := by
  rcases continuesIdentifier_iff.1 h with h | rfl | rfl
  · exact isBlank_of_isAlphanum h
  · rfl
  · rfl

theorem IsName.continuesIdentifier (h : IsName s) (hc : c ∈ s.toList) :
    continuesIdentifier c = true :=
  Package.continuesIdentifier_of_mem (isIdentifier_iff.2 h) hc

theorem IsName.dot_notMem (h : IsName s) : '.' ∉ s.toList := by
  intro hc
  cases h.continuesIdentifier hc

/-- The pieces between the dots are names. -/
theorem all_splitOn_iff : (s.toList.splitOn '.').all isIdentifier = true ↔ IsDotted s := by
  constructor
  · intro h
    refine ⟨(s.toList.splitOn '.').map String.ofList, ?_, ?_, ?_⟩
    · exact mt List.map_eq_nil_iff.1 (List.splitOn_ne_nil '.' s.toList)
    · refine List.forall_mem_map.2 fun cs hcs => isIdentifier_iff.1 ?_
      rw [String.toList_ofList]
      exact List.all_eq_true.1 h cs hcs
    · rw [← String.toList_inj, String.toList_intercalate, List.map_map]
      have hlists : String.toList ∘ String.ofList = id := funext fun _ => String.toList_ofList
      rw [hlists, List.map_id]
      exact (List.intercalate_splitOn '.').symm
  · rintro ⟨names, hne, hnames, rfl⟩
    rw [splitOn_intercalate rfl hne fun name hname => (hnames name hname).dot_notMem,
      List.all_map, List.all_eq_true]
    exact fun name hname => isIdentifier_iff.2 (hnames name hname)

theorem isBlankFree_append (s t : String) :
    isBlankFree (s ++ t) = (isBlankFree s && isBlankFree t) := by
  rw [isBlankFree, String.toList_append, List.all_append, ← isBlankFree, ← isBlankFree]

/-- A text with marks between its parts has blanks just where its parts have some. -/
theorem isBlankFree_intercalate {mark : String} (hmark : isBlankFree mark = true)
    (parts : List String) :
    isBlankFree (mark.intercalate parts) = true ↔ ∀ part ∈ parts, isBlankFree part = true := by
  induction parts with
  | nil =>
    rw [String.intercalate_nil]
    simp [isBlankFree]
  | cons part parts ih =>
    rw [List.forall_mem_cons, ← ih]
    cases parts with
    | nil =>
      rw [String.intercalate_nil, String.intercalate_singleton]
      simp [isBlankFree]
    | cons next parts =>
      rw [String.intercalate_cons_cons, isBlankFree_append, isBlankFree_append, hmark,
        Bool.and_true, Bool.and_eq_true]

theorem IsName.isBlankFree (h : IsName s) : isBlankFree s = true := by
  refine List.all_eq_true.2 fun c hc => ?_
  rw [isBlank_of_continuesIdentifier (h.continuesIdentifier hc)]
  rfl

theorem IsDotted.isBlankFree (h : IsDotted s) : isBlankFree s = true := by
  obtain ⟨names, -, hnames, rfl⟩ := h
  exact (isBlankFree_intercalate rfl names).2 fun name hname => (hnames name hname).isBlankFree

/-- A line end is no part of a dotted text. -/
theorem not_isDotted_lineEnd (t : String) : ¬ IsDotted (t ++ "\n") := by
  intro h
  have hfree := h.isBlankFree
  rw [isBlankFree_append, Bool.and_eq_true] at hfree
  cases hfree.2

theorem isPackage_iff : isPackage s.toList = true ↔ IsTaken s := by
  constructor
  · intro h
    obtain ⟨behind, hbehind, hchars⟩ := Package.exists_dropLineEnd_append s.toList
    have hdotted : IsDotted (String.ofList (dropLineEnd s.toList)) := by
      rw [← all_splitOn_iff, String.toList_ofList]
      exact h
    rcases hbehind with rfl | rfl
    · rw [List.append_nil] at hchars
      rw [← hchars, String.ofList_toList] at hdotted
      exact .inl hdotted
    · refine .inr ⟨_, hdotted, ?_⟩
      rw [← String.toList_inj, String.toList_append, String.toList_ofList]
      exact hchars
  · rw [isPackage]
    rintro (h | ⟨t, ht, rfl⟩)
    · have hlast : s.toList.getLast? ≠ some '\n' := by
        intro hlast
        have hblank := List.all_eq_true.1 h.isBlankFree _ (List.mem_of_getLast? hlast)
        cases hblank
      rw [dropLineEnd, if_neg hlast]
      exact all_splitOn_iff.2 h
    · have hchars : dropLineEnd (t ++ "\n").toList = t.toList := by
        simp [dropLineEnd]
      rw [hchars]
      exact all_splitOn_iff.2 ht

theorem isPackage_iff_isDotted (hfree : isBlankFree s = true) :
    isPackage s.toList = true ↔ IsDotted s := by
  rw [isPackage_iff]
  constructor
  · rintro (h | ⟨t, -, rfl⟩)
    · exact h
    · rw [isBlankFree_append, Bool.and_eq_true] at hfree
      cases hfree.2
  · exact .inl

end Names

namespace Package

variable {p : Package}

theorem text_of_ofText? {s : String} (h : ofText? s = some p) : p.text = s := by
  obtain ⟨_, h⟩ := Option.dite_none_right_eq_some.1 h
  exact (congrArg text (Option.some.inj h)).symm

theorem isBlankFree_text_iff : isBlankFree p.text = true ↔ IsDotted p.text := by
  constructor
  · intro hfree
    exact (isPackage_iff_isDotted hfree).1 p.wellFormed
  · exact IsDotted.isBlankFree

theorem isBlankFree_parts_iff :
    (∀ part ∈ p.parts, isBlankFree part = true) ↔ IsDotted p.text := by
  have htext : isBlankFree (".".intercalate p.parts) = true ↔ IsDotted p.text := by
    rw [← p.text_eq]
    exact isBlankFree_text_iff
  exact (isBlankFree_intercalate rfl p.parts).symm.trans htext

end Package

section Options

variable {o : Options} {p : Package} {name extension : String}

theorem fieldOr_self {α : Type} (name : String) (v : FieldValue) (default : α)
    (check : FieldValue → Except FieldProblem α) :
    fieldOr [(name, v)] name default check = (check v).mapError (UsageError.field name) := by
  rw [fieldOr, List.lookup_cons_self]

theorem fieldOr_of_ne {α : Type} {name name' : String} (h : name' ≠ name) (v : FieldValue)
    (default : α) (check : FieldValue → Except FieldProblem α) :
    fieldOr [(name, v)] name' default check = .ok default := by
  rw [fieldOr, List.lookup_cons, beq_false_of_ne h]
  rfl

theorem toPackage_text (c : Coercions) (s : String) :
    (c.toPackage (.text s)).mapError (UsageError.field "in_package") =
      (checkPackage s).map some := by
  rw [Coercions.toPackage, Coercions.toText, checkPackage, if_neg (by simp), ok_bind]
  cases Package.ofText? s with
  | none => rfl
  | some p => rfl

/-- Options of which nothing but a package is given. -/
theorem ofFields_package (c : Coercions) (s : String) :
    Options.ofFields c [("in_package", .text s)] =
      (checkPackage s).map (Options.withPackage {}) := by
  have hknown : ([("in_package", FieldValue.text s)].find? fun f => !fieldNames.contains f.1) =
      none := rfl
  rw [Options.ofFields]
  simp (disch := decide) only [fieldOr_of_ne, fieldOr_self, ok_bind, toPackage_text, hknown]
  cases checkPackage s with
  | error e => rfl
  | ok p => rfl

theorem checkPackage_eq_ok_iff {s : String} : checkPackage s = .ok p ↔ p.text = s := by
  constructor
  · intro h
    rw [checkPackage] at h
    split at h
    · next p' hp =>
      obtain rfl := Except.ok.inj h
      exact Package.text_of_ofText? hp
    · cases h
  · rintro rfl
    rw [checkPackage, Package.ofText?_text]

theorem checkPackage_eq_error {s : String} (h : ¬ isPackage s.toList = true) :
    checkPackage s = .error (.field "in_package" (.package s)) := by
  rw [checkPackage, Package.ofText?, dif_neg h]

theorem packageParts_eq (h : o.package = some p) : packageParts o = p.parts := by
  rw [packageParts, h]
  rfl

theorem isBlankFree_moduleName_iff (h : o.package = some p) :
    isBlankFree (moduleName o name) = true ↔
      IsDotted p.text ∧ ∀ part ∈ ownParts o name, isBlankFree part = true := by
  rw [moduleName_eq, isBlankFree_intercalate rfl, moduleParts, List.forall_mem_append,
    packageParts_eq h, Package.isBlankFree_parts_iff]

theorem fileName_eq_of_package (h : o.package = some p)
    (hplain : Path.IsPlain (ownPath o name extension)) :
    fileName o name extension = "/".intercalate (p.parts ++ [ownPath o name extension]) := by
  rw [fileName_eq_intercalate hplain, packageParts_eq h]

/-- The texts that are taken for a package are the dotted ones and those with a line end behind a
dotted text; any other is refused. A package is in the names of the modules and in the directories
of their files, and it brings no blanks there just if it is a dotted text. -/
theorem package_taken_iff (c : Coercions) (s : String) :
    (IsTaken s → ∃ p : Package,
      p.text = s ∧ Options.ofFields c [("in_package", .text s)] = .ok (Options.withPackage {} p)) ∧
    (¬ IsTaken s → Options.ofFields c [("in_package", .text s)] =
      .error (.field "in_package" (.package s))) ∧
    (∀ t, ¬ IsDotted (t ++ "\n")) ∧
    ∀ (o : Options) (p : Package), o.package = some p → p.text = s → ∀ name,
      (isBlankFree (moduleName o name) = true ↔
        IsDotted s ∧ ∀ part ∈ ownParts o name, isBlankFree part = true) ∧
      ∀ extension, Path.IsPlain (ownPath o name extension) →
        fileName o name extension = "/".intercalate (p.parts ++ [ownPath o name extension]) ∧
        ((∀ directory ∈ p.parts, isBlankFree directory = true) ↔ IsDotted s) := by
  refine ⟨?_, ?_, not_isDotted_lineEnd, ?_⟩
  · intro htaken
    have hpackage := isPackage_iff.2 htaken
    refine ⟨⟨s, hpackage⟩, rfl, ?_⟩
    rw [ofFields_package, (checkPackage_eq_ok_iff (p := ⟨s, hpackage⟩)).2 rfl]
    rfl
  · intro hrefused
    rw [ofFields_package, checkPackage_eq_error (mt isPackage_iff.1 hrefused)]
    rfl
  · rintro o p hpackage rfl name
    refine ⟨isBlankFree_moduleName_iff hpackage, fun extension hplain => ⟨?_, ?_⟩⟩
    · exact fileName_eq_of_package hpackage hplain
    · exact Package.isBlankFree_parts_iff

/-- A library that takes no value for another one, and gives always the same reason. -/
def Coercions.refusing (reason : String) : Coercions where
  truth _ := .error reason
  integer _ := .error reason
  text _ := .error reason
  choice _ _ := .error reason
  tooSmall _ := reason
  tooLarge _ := reason
  unknown := reason

theorem package_taken_primed :
    let o : Options :=
      { inDirectory := true, package := some ⟨"org.A_1\x27", by decide⟩, grammarName := "Calc" }
    IsDotted "org.A_1\x27" ∧ isBlankFree (agdaModule o) = true ∧
      agdaFile o = "org/A_1\x27/Calc/AST.agda" := by
  intro o
  have hdotted : IsDotted "org.A_1\x27" := all_splitOn_iff.1 (by decide)
  obtain ⟨-, -, -, hbuilt⟩ := package_taken_iff (.refusing "") "org.A_1\x27"
  obtain ⟨hmodule, hfile⟩ := hbuilt o _ rfl rfl "AST"
  have hpath := (hfile "agda" ⟨by decide, by decide, by decide⟩).1
  exact ⟨hdotted, hmodule.2 ⟨hdotted, by decide⟩, hpath.trans (by decide)⟩

/-- A line end behind the package gets into the name of the module and into the directory. -/
theorem ofFields_package_lineEnd :
    let o : Options := { package := some ⟨"A\n", by decide⟩ }
    Options.ofFields (.refusing "") [("in_package", .text "A\n")] = .ok o ∧ ¬ IsDotted "A\n" ∧
      agdaModule o = "A\n.AST" ∧ agdaFile o = "A\n/AST.agda" :=
  ⟨by decide, not_isDotted_lineEnd "A", by decide, by decide⟩

end Options

end GrammarBindings
