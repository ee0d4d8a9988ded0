import GrammarBindings.Agda.Naming
import GrammarBindings.Proofs.AcceptedLines
import Mathlib.Tactic.TFAE

/-!
# Places of modules

The name of a module and the path of its file are made of the same parts: those of the package, and
then the module's own name, with the grammar's behind it or as a part in front of it. Where no part
is empty the path has slashes where the name has dots. The only part that can be empty is the name
of the grammar, if the module is in a directory of this name: the name of the module keeps the empty
part and the path leaves it out, so the file is not where the name says.
-/

namespace GrammarBindings

namespace Path

variable {p q : String} {qs : List String}

/-- A text that can stand between slashes in a joined path. -/
structure IsPlain (p : String) : Prop where
  ne_empty : p ≠ ""
  head : p.toList.head? ≠ some '/'
  last : p.toList.getLast? ≠ some '/'

theorem isPlain_of_notMem (hempty : p ≠ "") (h : '/' ∉ p.toList) : IsPlain p :=
  ⟨hempty, fun hhead => h (List.mem_of_head? hhead), fun hlast => h (List.mem_of_getLast? hlast)⟩

theorem IsPlain.toList_ne_nil (hp : IsPlain p) : p.toList ≠ [] :=
  mt String.toList_eq_nil_iff.1 hp.ne_empty

theorem join_empty (q : String) : join "" q = q := by
  simp [join]

theorem join_eq (hp : IsPlain p) (hq : IsPlain q) : join p q = p ++ "/" ++ q := by
  have habsolute : isAbsolute q = false := decide_eq_false hq.head
  have hempty : p.isEmpty = false := by simpa using hp.ne_empty
  rw [join, habsolute, hempty, Bool.or_false, if_neg nofun, if_neg hp.last]

theorem IsPlain.join (hp : IsPlain p) (hq : IsPlain q) : IsPlain (join p q) := by
  have hjoin : (Path.join p q).toList = p.toList ++ ['/'] ++ q.toList := by
    rw [join_eq hp hq, String.toList_append, String.toList_append]
    rfl
  have hne := hp.toList_ne_nil
  refine ⟨mt (congrArg String.toList) (by simp [hjoin]), ?_, ?_⟩
  · rw [hjoin, List.append_assoc, List.head?_append_of_ne_nil _ hne]
    exact hp.head
  · rw [hjoin, List.getLast?_append_of_ne_nil _ hq.toList_ne_nil]
    exact hq.last

theorem intercalate_join (hp : IsPlain p) (hq : IsPlain q) (qs : List String) :
    "/".intercalate (join p q :: qs) = "/".intercalate (p :: q :: qs) := by
  rw [join_eq hp hq, String.intercalate_cons_cons]
  cases qs with
  | nil => rw [String.intercalate_singleton, String.intercalate_singleton]
  | cons q' qs =>
    rw [String.intercalate_cons_cons, String.intercalate_cons_cons]
    simp only [String.append_assoc]

theorem joinAll_eq (hp : IsPlain p) (hqs : ∀ q ∈ qs, IsPlain q) :
    joinAll p qs = "/".intercalate (p :: qs) := by
  induction qs generalizing p with
  | nil => rfl
  | cons q qs ih =>
    obtain ⟨hq, hqs⟩ := List.forall_mem_cons.1 hqs
    calc joinAll p (q :: qs)
        = joinAll (join p q) qs := rfl
      _ = "/".intercalate (join p q :: qs) := ih (hp.join hq) hqs
      _ = "/".intercalate (p :: q :: qs) := intercalate_join hp hq qs

end Path

namespace Agda

/-- The text with slashes for its dots. -/
def asPath (m : String) : String :=
  String.ofList (m.toList.map fun c => if c = '.' then '/' else c)

/-- Between dots, and before, behind and in place of them, there is something. -/
def HasNoEmptyPart (m : String) : Prop := ∀ part ∈ m.toList.splitOn '.', part ≠ []

/-- A text without the marks that stand between parts. -/
structure IsPart (s : String) : Prop where
  dot : '.' ∉ s.toList
  slash : '/' ∉ s.toList

section Parts

variable {s t : String} {parts : List String}

theorem IsPart.append (hs : IsPart s) (ht : IsPart t) : IsPart (s ++ t) := by
  refine ⟨?_, ?_⟩ <;> rw [String.toList_append, List.mem_append, not_or]
  · exact ⟨hs.dot, ht.dot⟩
  · exact ⟨hs.slash, ht.slash⟩

theorem isPart_grammarName (p : String) : IsPart (Path.grammarName p) :=
  ⟨Path.dot_notMem_grammarName p, Path.slash_notMem_grammarName p⟩

theorem isPart_of_mem_package {p : Package} (h : s ∈ p.parts) : IsPart s :=
  ⟨Package.dot_notMem_of_mem_parts h, Package.slash_notMem_of_mem_parts h⟩

theorem asPath_append (s t : String) : asPath (s ++ t) = asPath s ++ asPath t := by
  simp [asPath]

theorem IsPart.asPath_eq (hs : IsPart s) : asPath s = s := by
  have hmap : ∀ c ∈ s.toList, (if c = '.' then '/' else c) = c := by
    intro c hc
    rw [if_neg]
    rintro rfl
    exact hs.dot hc
  rw [asPath, List.map_congr_left hmap, List.map_id', String.ofList_toList]

theorem asPath_intercalate (h : ∀ s ∈ parts, IsPart s) :
    asPath (".".intercalate parts) = "/".intercalate parts := by
  induction parts with
  | nil => rfl
  | cons s parts ih =>
    obtain ⟨hs, hparts⟩ := List.forall_mem_cons.1 h
    cases parts with
    | nil => rw [String.intercalate_singleton, String.intercalate_singleton, hs.asPath_eq]
    | cons t parts =>
      have hdot : asPath "." = "/" := by decide
      rw [String.intercalate_cons_cons, String.intercalate_cons_cons, asPath_append, asPath_append,
        hs.asPath_eq, hdot, ih hparts]

theorem intercalate_concat_append (front : List String) (hne : parts ≠ []) (s : String) :
    "/".intercalate (front ++ ["/".intercalate parts ++ s]) =
      "/".intercalate (front ++ parts) ++ s := by
  by_cases hfront : front = []
  · rw [hfront, List.nil_append, List.nil_append, String.intercalate_singleton]
  · rw [String.intercalate_append_of_ne_nil hfront (List.cons_ne_nil _ _),
      String.intercalate_append_of_ne_nil hfront hne, String.intercalate_singleton,
      ← String.append_assoc]

theorem splitOn_intercalate {mark : String} {c : Char} (hmark : mark.toList = [c])
    (hne : parts ≠ []) (h : ∀ s ∈ parts, c ∉ s.toList) :
    (mark.intercalate parts).toList.splitOn c = parts.map String.toList := by
  rw [String.toList_intercalate, hmark]
  exact List.splitOn_intercalate c (List.forall_mem_map.2 h) (mt List.map_eq_nil_iff.1 hne)

theorem hasNoEmptyPart_intercalate_iff (hne : parts ≠ []) (h : ∀ s ∈ parts, IsPart s) :
    HasNoEmptyPart (".".intercalate parts) ↔ ∀ s ∈ parts, s ≠ "" := by
  rw [HasNoEmptyPart, splitOn_intercalate rfl hne fun s hs => (h s hs).dot, List.forall_mem_map]
  exact forall₂_congr fun s _ => not_congr String.toList_eq_nil_iff

/-- The parts can be told from the path that is made of them. -/
theorem eq_of_intercalate_eq {parts' : List String} (hne : parts ≠ []) (hne' : parts' ≠ [])
    (h : ∀ s ∈ parts, IsPart s) (h' : ∀ s ∈ parts', IsPart s)
    (heq : "/".intercalate parts = "/".intercalate parts') : parts = parts' :=
  have hmark : "/".toList = [] ++ '/' :: [] := rfl
  texts_eq_of_intercalate_eq hmark List.not_mem_nil hne hne' (fun s hs => (h s hs).slash)
    (fun s hs => (h' s hs).slash) heq

end Parts

def packageParts (o : Options) : List String := (o.package.map Package.parts).getD []

/-- The parts of a module that do not come from the package. -/
def ownParts (o : Options) (name : String) : List String :=
  if o.inDirectory then [o.grammarName, name] else [name ++ o.grammarName]

/-- What the name of a module has between its dots. -/
def moduleParts (o : Options) (name : String) : List String := packageParts o ++ ownParts o name

section Modules

variable {o : Options} {name extension : String}

theorem ownParts_ne_nil (o : Options) (name : String) : ownParts o name ≠ [] := by
  rw [ownParts]
  split <;> exact List.cons_ne_nil _ _

theorem moduleParts_ne_nil (o : Options) (name : String) : moduleParts o name ≠ [] :=
  List.append_ne_nil_of_right_ne_nil _ (ownParts_ne_nil o name)

theorem exists_mem_parts {s : String} (hs : s ∈ packageParts o) : ∃ p : Package, s ∈ p.parts := by
  cases hpackage : o.package with
  | none =>
    rw [packageParts, hpackage] at hs
    cases hs
  | some p =>
    rw [packageParts, hpackage] at hs
    exact ⟨p, hs⟩

theorem isPart_of_mem_moduleParts (hgrammar : IsPart o.grammarName) (hname : IsPart name) :
    ∀ s ∈ moduleParts o name, IsPart s := by
  intro s hs
  rcases List.mem_append.1 hs with hs | hs
  · obtain ⟨p, hs⟩ := exists_mem_parts hs
    exact isPart_of_mem_package hs
  · rw [ownParts] at hs
    split at hs
    · rcases List.mem_pair.1 hs with rfl | rfl
      · exact hgrammar
      · exact hname
    · obtain rfl := List.mem_singleton.1 hs
      exact hname.append hgrammar

theorem ne_empty_of_mem_packageParts {s : String} (hs : s ∈ packageParts o) : s ≠ "" := by
  obtain ⟨p, hs⟩ := exists_mem_parts hs
  exact Package.ne_empty_of_mem_parts hs

/-- The grammar's name is the only part that can be empty. -/
theorem forall_ne_empty_iff (hname : name ≠ "") :
    (∀ s ∈ moduleParts o name, s ≠ "") ↔ (o.inDirectory = true → o.grammarName ≠ "") := by
  have hpackage : ∀ s ∈ packageParts o, s ≠ "" := fun s => ne_empty_of_mem_packageParts
  rw [moduleParts, List.forall_mem_append, and_iff_right hpackage, ownParts]
  cases o.inDirectory with
  | true => simp [hname]
  | false => simp [hname]

theorem moduleName_eq (o : Options) (name : String) :
    moduleName o name = ".".intercalate (moduleParts o name) := by
  have hown : ".".intercalate (ownParts o name) =
      if o.inDirectory then o.grammarName ++ "." ++ name else name ++ o.grammarName := by
    rw [ownParts]
    split
    · rw [String.intercalate_cons_cons, String.intercalate_singleton]
    · exact String.intercalate_singleton
  rw [moduleName, ← hown, moduleParts, packageParts]
  cases o.package with
  | none => rfl
  | some p =>
    calc p.text ++ "." ++ ".".intercalate (ownParts o name)
        = ".".intercalate p.parts ++ "." ++ ".".intercalate (ownParts o name) := by rw [← p.text_eq]
      _ = ".".intercalate (p.parts ++ ownParts o name) :=
        (String.intercalate_append_of_ne_nil p.parts_ne_nil (ownParts_ne_nil o name)).symm

/-- The path of a module below its package. -/
def ownPath (o : Options) (name extension : String) : String :=
  let suffix := if extension.isEmpty then "" else "." ++ extension
  if o.inDirectory then Path.join o.grammarName (name ++ suffix)
  else name ++ o.grammarName ++ suffix

theorem fileName_eq_intercalate (h : Path.IsPlain (ownPath o name extension)) :
    fileName o name extension = "/".intercalate (packageParts o ++ [ownPath o name extension]) := by
  rw [fileName, packageParts]
  cases o.package with
  | none => exact String.intercalate_singleton.symm
  | some package =>
    have hpart : ∀ s ∈ package.parts, Path.IsPlain s := fun s hs =>
      Path.isPlain_of_notMem (Package.ne_empty_of_mem_parts hs) (isPart_of_mem_package hs).slash
    have hne := package.parts_ne_nil
    rw [Option.map_some, Option.getD_some]
    cases hparts : package.parts with
    | nil => exact absurd hparts hne
    | cons p ps =>
      rw [hparts] at hpart
      obtain ⟨hp, hps⟩ := List.forall_mem_cons.1 hpart
      exact Path.joinAll_eq hp
        (List.forall_mem_append.2 ⟨hps, List.forall_mem_singleton.2 h⟩)

theorem filter_ownParts_ne_nil (hne : name ≠ "") : (ownParts o name).filter (· ≠ "") ≠ [] := by
  rw [ownParts]
  split <;> simp [hne]

variable (hgrammar : IsPart o.grammarName) (hname : IsPart name) (hne : name ≠ "")
  (hextension : extension ≠ "") (hslash : '/' ∉ extension.toList)

include hgrammar hname hne hextension hslash

/-- A module's own path is made of those of its own parts that are not empty. -/
theorem ownPath_eq :
    Path.IsPlain (ownPath o name extension) ∧ ownPath o name extension =
      "/".intercalate ((ownParts o name).filter (· ≠ "")) ++ ("." ++ extension) := by
  have hplain {s : String} (hs : IsPart s) (hne : s ≠ "") :
      Path.IsPlain (s ++ ("." ++ extension)) := by
    refine Path.isPlain_of_notMem (by simp [hne]) ?_
    simp [hs.slash, hslash]
  have hempty : extension.isEmpty = false := by simpa using hextension
  have hown : ownPath o name extension =
      if o.inDirectory then Path.join o.grammarName (name ++ ("." ++ extension))
      else name ++ o.grammarName ++ ("." ++ extension) := by
    rw [ownPath, hempty]
    rfl
  rw [hown, ownParts]
  cases o.inDirectory with
  | true =>
    rw [if_pos rfl, if_pos rfl]
    -- an empty text in front is the one case in which joining puts no slash
    by_cases hg : o.grammarName = ""
    · rw [hg, Path.join_empty]
      exact ⟨hplain hname hne, by simp [hne]⟩
    · have hgplain := Path.isPlain_of_notMem hg hgrammar.slash
      refine ⟨hgplain.join (hplain hname hne), ?_⟩
      rw [Path.join_eq hgplain (hplain hname hne)]
      simp [hg, hne, String.append_assoc]
  | false =>
    have hbehind : name ++ o.grammarName ≠ "" := by simp [hne]
    rw [if_neg nofun, if_neg nofun]
    exact ⟨hplain (hname.append hgrammar) hbehind, by simp [hbehind]⟩

/-- The path of a module's file is made of those parts of the module that are not empty. -/
theorem fileName_eq :
    fileName o name extension =
      "/".intercalate ((moduleParts o name).filter (· ≠ "")) ++ ("." ++ extension) := by
  obtain ⟨hplain, hown⟩ := ownPath_eq hgrammar hname hne hextension hslash
  have hpackage : (packageParts o).filter (· ≠ "") = packageParts o :=
    List.filter_eq_self.2 fun s hs => decide_eq_true (ne_empty_of_mem_packageParts hs)
  rw [fileName_eq_intercalate hplain, hown, moduleParts, List.filter_append, hpackage]
  exact intercalate_concat_append _ (filter_ownParts_ne_nil hne) _

/-- A file is where its module's name says unless a part is empty. -/
theorem fileName_eq_asPath_iff :
    fileName o name extension = asPath (moduleName o name) ++ ("." ++ extension) ↔
      ∀ s ∈ moduleParts o name, s ≠ "" := by
  have hpart := isPart_of_mem_moduleParts hgrammar hname
  rw [fileName_eq hgrammar hname hne hextension hslash, moduleName_eq, asPath_intercalate hpart,
    String.append_left_inj]
  constructor
  · intro heq s hs
    have hkept : (moduleParts o name).filter (· ≠ "") ≠ [] := by
      rw [moduleParts, List.filter_append]
      exact List.append_ne_nil_of_right_ne_nil _ (filter_ownParts_ne_nil hne)
    -- the path tells the parts that it kept, so if it is that of all parts, it kept them all
    have hall := eq_of_intercalate_eq hkept (moduleParts_ne_nil o name)
      (fun s hs => hpart s (List.mem_of_mem_filter hs)) hpart heq
    exact of_decide_eq_true (List.filter_eq_self.1 hall s hs)
  · intro h
    rw [List.filter_eq_self.2 fun s hs => decide_eq_true (h s hs)]

end Modules

section Accepted

variable {args : List String} {o : Options} {path : String}

/-- For an accepted line, the module for the syntax trees has a name without an empty part, and its
file is where this name says, except if the modules are in a directory and the name of the grammar
file begins with a dot. -/
theorem agdaFile_tfae (h : Accepted args o path) :
    [HasNoEmptyPart (agdaModule o), agdaFile o = asPath (agdaModule o) ++ ".agda",
      o.inDirectory = true → (Path.baseName path).toList.head? ≠ some '.'].TFAE := by
  have hgrammar : IsPart o.grammarName := h.namesFile.grammarName ▸ isPart_grammarName path
  have hname : IsPart "AST" := ⟨by decide, by decide⟩
  have hnamed : (∀ s ∈ moduleParts o "AST", s ≠ "") ↔
      (o.inDirectory = true → (Path.baseName path).toList.head? ≠ some '.') := by
    rw [forall_ne_empty_iff (by decide), h.namesFile.grammarName, Ne,
      Path.grammarName_eq_empty_iff h.namesFile.isGrammarFile]
  tfae_have 1 ↔ 3 := by
    rw [agdaModule, moduleName_eq, ← hnamed]
    exact hasNoEmptyPart_intercalate_iff (moduleParts_ne_nil o "AST")
      (isPart_of_mem_moduleParts hgrammar hname)
  tfae_have 2 ↔ 3 := by
    rw [← hnamed]
    exact fileName_eq_asPath_iff hgrammar hname (by decide) (by decide) (by decide)
  tfae_finish

theorem agdaFile_tfae_package :
    let o : Options :=
      { inDirectory := true, package := some ⟨"A.B", by decide⟩, grammarName := "Calc" }
    Accepted ["-d", "-p", "A.B", "sub/Calc.v1.cf"] o "sub/Calc.v1.cf" ∧
      HasNoEmptyPart (agdaModule o) ∧ agdaFile o = asPath (agdaModule o) ++ ".agda" := by
  intro o
  have h : Accepted ["-d", "-p", "A.B", "sub/Calc.v1.cf"] o "sub/Calc.v1.cf" :=
    .optionLine .haskell false (by decide +kernel)
  have hnamed : o.inDirectory = true →
      (Path.baseName "sub/Calc.v1.cf").toList.head? ≠ some '.' := by decide
  exact ⟨h, ((agdaFile_tfae h).out 0 2).2 hnamed, ((agdaFile_tfae h).out 1 2).2 hnamed⟩

/-- The grammar has no name: the path leaves it out, and the name of the module begins with its
dot. -/
theorem agdaFile_unnamed :
    let o : Options := { inDirectory := true }
    readOptionLine .haskell ["-d", ".cf"] false = .ok (o, ".cf") ∧
      agdaModule o = ".AST" ∧ agdaFile o = "AST.agda" ∧
      ¬ HasNoEmptyPart (agdaModule o) ∧ agdaFile o ≠ asPath (agdaModule o) ++ ".agda" := by
  refine ⟨by decide +kernel, rfl, by decide, ?_, by decide⟩
  exact fun h => h [] (by decide) rfl

end Accepted

end Agda
end GrammarBindings
