import GrammarBindings.Proofs.ModuleLines
import GrammarBindings.Proofs.Words

/-!
# Signatures in a module

The words of a line are its texts between blanks and parentheses, and a signature is a line whose
second word is a colon: what follows are the types of a constructor or of a printer. In a module
whose names are words there are signatures for these two only, besides those of identifiers.
-/

namespace GrammarBindings.Agda

section Words

def isBreak (c : Char) : Bool := c = ' ' || c = '(' || c = ')'

/-- The texts between blanks and parentheses. -/
def wordsOf (s : String) : List String :=
  ((s.toList.splitOnP isBreak).map String.ofList).filter (· ≠ "")

variable {s t : String}

theorem wordsOf_append_of_isBreak {c : Char} {cs ds : List Char} (hs : s.toList = cs ++ c :: ds)
    (hc : isBreak c = true) :
    wordsOf s = wordsOf (String.ofList cs) ++ wordsOf (String.ofList ds) := by
  rw [wordsOf, hs, List.splitOnP_append_cons _ _ hc, List.map_append, List.filter_append, wordsOf,
    wordsOf, String.toList_ofList, String.toList_ofList]

theorem wordsOf_space (s t : String) : wordsOf (s ++ " " ++ t) = wordsOf s ++ wordsOf t := by
  have htext : (s ++ " " ++ t).toList = s.toList ++ ' ' :: t.toList := by simp
  rw [wordsOf_append_of_isBreak htext (by decide), String.ofList_toList, String.ofList_toList]

theorem wordsOf_empty : wordsOf "" = [] := by decide

theorem wordsOf_parens (s : String) : wordsOf ("(" ++ s ++ ")") = wordsOf s := by
  have hopening : ("(" ++ s ++ ")").toList = [] ++ '(' :: (s.toList ++ [')']) := by simp
  have hclosing : (String.ofList (s.toList ++ [')'])).toList = s.toList ++ ')' :: [] := by simp
  have hnil : wordsOf (String.ofList []) = [] := wordsOf_empty
  rw [wordsOf_append_of_isBreak hopening (by decide),
    wordsOf_append_of_isBreak hclosing (by decide), hnil, List.nil_append, List.append_nil,
    String.ofList_toList]

theorem wordsOf_append (h : s.toList.getLast? = some ' ') (t : String) :
    wordsOf (s ++ t) = wordsOf s ++ wordsOf t := by
  obtain ⟨cs, hcs⟩ := List.getLast?_eq_some_iff.1 h
  have hs : s = String.ofList cs ++ " " ++ "" := by
    rw [← String.toList_inj, hcs]
    simp
  have htext : s ++ t = String.ofList cs ++ " " ++ t := by
    rw [← String.toList_inj, String.toList_append, hcs]
    simp
  rw [htext, wordsOf_space, hs, wordsOf_space, wordsOf_empty, List.append_nil]

theorem wordsOf_intercalate (ss : List String) :
    wordsOf (" ".intercalate ss) = ss.flatMap wordsOf := by
  induction ss with
  | nil => exact wordsOf_empty
  | cons s ss ih =>
    cases ss with
    | nil => simp
    | cons t ss => rw [String.intercalate_cons_cons, wordsOf_space, ih, ← List.flatMap_cons]

theorem wordsOf_self (hne : s ≠ "") (h : ∀ c ∈ s.toList, isBreak c = false) : wordsOf s = [s] := by
  rw [wordsOf, List.splitOnP_eq_singleton h, List.map_singleton, String.ofList_toList]
  simp [hne]

theorem isBreak_of_continuesWord {c : Char} (h : continuesWord c = true) : isBreak c = false := by
  have hne : ∀ d, continuesWord d = false → c ≠ d := fun d hd => ne_of_class h hd
  simp [isBreak, hne ' ' rfl, hne '(' rfl, hne ')' rfl]

theorem ne_empty_of_isWord (h : isWord s = true) : s ≠ "" := by
  rintro rfl
  cases h

theorem isBreak_of_mem (h : isWord s = true) : ∀ c ∈ s.toList, isBreak c = false := fun _ hc =>
  isBreak_of_continuesWord (continuesWord_of_mem h hc)

theorem wordsOf_word (h : isWord s = true) : wordsOf s = [s] :=
  wordsOf_self (ne_empty_of_isWord h) (isBreak_of_mem h)

theorem wordsOf_printerName (h : isWord s = true) : wordsOf (printerName s) = [printerName s] := by
  have hprint : isWord "print" = true := by decide +kernel
  refine wordsOf_self (by simp [printerName]) fun c hc => ?_
  rw [printerName, String.toList_append, List.mem_append] at hc
  exact hc.elim (isBreak_of_mem hprint c) (isBreak_of_mem h c)

/-- A colon is the second word; the header of the module is none, whatever the module's name is. -/
def IsSignature (line : String) : Prop :=
  (wordsOf line)[1]? = some ":" ∧ ¬ "module ".toList <+: line.toList

instance : DecidablePred IsSignature := fun _ => inferInstanceAs (Decidable (_ ∧ _))

/-- What stands between the arrows of a signature. -/
def typeNames (line : String) : List String := ((wordsOf line).drop 2).filter (· ≠ arrow)

example : typeNames "    App : Exp → #List (#List Exp) → Exp" =
    ["Exp", "#List", "#List", "Exp", "Exp"] := by decide +kernel

end Words

section Texts

theorem mem_of_mem_intersperse {α : Type} {a sep : α} {as : List α} (h : a ∈ as.intersperse sep) :
    a = sep ∨ a ∈ as := by
  induction as with
  | nil => exact .inr h
  | cons b as ih =>
    cases as with
    | nil => exact .inr h
    | cons b' as =>
      rw [List.intersperse_cons_cons, List.mem_cons, List.mem_cons] at h
      rcases h with rfl | rfl | h
      · exact .inr List.mem_cons_self
      · exact .inl rfl
      · exact (ih h).imp_right (List.mem_cons_of_mem b)

/-- The types in a signature are those of the arguments and that of the result. -/
theorem wordsOf_signatureText {d : String} {k : Constructor} (hname : isWord k.name = true) :
    wordsOf ("    " ++ signatureText d k) =
      k.name :: ":" :: ((k.arguments.map typeText ++ [d]).intersperse arrow).flatMap wordsOf := by
  have hindented : "    " ++ signatureText d k = "   " ++ " " ++ signatureText d k := by
    rw [← String.toList_inj]
    simp
  have hspaces : wordsOf "   " = [] := by decide
  have hcolon : wordsOf ":" = [":"] := by decide
  rw [hindented, wordsOf_space, hspaces, List.nil_append, signatureText,
    ← intercalate_signature k.name (List.concat_ne_nil _ _), wordsOf_intercalate, List.flatMap_cons,
    List.flatMap_cons, wordsOf_word hname, hcolon]
  rfl

theorem wordsOf_arrow : wordsOf arrow = [arrow] := by decide

theorem wordsOf_printerLine {d : DataDecl} (hname : isWord d.category.written = true) :
    wordsOf (printerLine d) =
      [printerName d.category.written, ":", d.category.written, arrow, stringType] := by
  have hline : printerLine d = " ".intercalate
      ["", "", printerName d.category.written, ":", d.category.written, arrow, stringType] := by
    rw [printerLine, ← String.toList_inj]
    simp [printerName, arrow, stringType]
  have hcolon : wordsOf ":" = [":"] := by decide
  have hstring : wordsOf stringType = [stringType] := by decide
  rw [hline, wordsOf_intercalate]
  simp only [List.flatMap_cons, List.flatMap_nil, wordsOf_empty, wordsOf_printerName hname, hcolon,
    wordsOf_word hname, wordsOf_arrow, hstring]
  rfl

theorem mem_typeNames_of_signatureText {d : String} {k : Constructor} (hd : isWord d = true)
    (hk : isWord k.name = true) {name : String}
    (h : name ∈ typeNames ("    " ++ signatureText d k)) :
    name = d ∨ ∃ c ∈ k.arguments, name ∈ wordsOf (typeText c) := by
  obtain ⟨hmem, hne⟩ := List.mem_filter.1 h
  rw [wordsOf_signatureText hk] at hmem
  obtain ⟨type, htype, hword⟩ := List.mem_flatMap.1 hmem
  rcases mem_of_mem_intersperse htype with rfl | htype
  · rw [wordsOf_arrow, List.mem_singleton] at hword
    exact absurd hword (of_decide_eq_true hne)
  rcases List.mem_append.1 htype with htype | htype
  · obtain ⟨c, hc, rfl⟩ := List.mem_map.1 htype
    exact .inr ⟨c, hc, hword⟩
  · obtain rfl := List.mem_singleton.1 htype
    rw [wordsOf_word hd, List.mem_singleton] at hword
    exact .inl hword

theorem mem_typeNames_of_printerLine {d : DataDecl} (hd : isWord d.category.written = true)
    {name : String} (h : name ∈ typeNames (printerLine d)) :
    name = d.category.written ∨ name = stringType := by
  obtain ⟨hmem, hne⟩ := List.mem_filter.1 h
  rw [wordsOf_printerLine hd] at hmem
  have hmem : name ∈ [d.category.written, arrow, stringType] := hmem
  rcases List.mem_cons.1 hmem with rfl | hmem
  · exact .inl rfl
  rcases List.mem_pair.1 hmem with rfl | rfl
  · exact absurd rfl (of_decide_eq_true hne)
  · exact .inr rfl

end Texts

section Lines

variable {line : String}

theorem not_isSignature_of_second {first second : String} {others : List String}
    (h : wordsOf line = first :: second :: others) (hne : second ≠ ":") : ¬ IsSignature line := by
  rintro ⟨hcolon, -⟩
  rw [h] at hcolon
  exact hne (Option.some.inj hcolon)

/-- The second word is at the beginning of the line, so what stands behind does not matter. -/
theorem not_isSignature_append {first second : String} {others : List String}
    (hspace : line.toList.getLast? = some ' ') (h : wordsOf line = first :: second :: others)
    (hne : second ≠ ":") (t : String) : ¬ IsSignature (line ++ t) := by
  have hwords : wordsOf (line ++ t) = first :: second :: (others ++ wordsOf t) := by
    rw [wordsOf_append hspace, h]
    rfl
  exact not_isSignature_of_second hwords hne

theorem not_isSignature_generated (time : String) :
    ¬ IsSignature ("-- Generated by BNFC at " ++ time ++ ".") := by
  have hwords : wordsOf "-- Generated by BNFC at " = ["--", "Generated", "by", "BNFC", "at"] := by
    decide
  rw [String.append_assoc]
  exact not_isSignature_append (by decide) hwords (by decide) _

theorem not_isSignature_header (name : String) :
    ¬ IsSignature ("module " ++ name ++ " where") := by
  rintro ⟨-, hmodule⟩
  apply hmodule
  rw [String.append_assoc, String.toList_append]
  exact List.prefix_append _ _

theorem not_isSignature_import (name : String) :
    ¬ IsSignature ("\x7b-# FOREIGN GHC import " ++ name ++ " #-\x7d") := by
  have hwords : wordsOf "\x7b-# FOREIGN GHC import " = ["\x7b-#", "FOREIGN", "GHC", "import"] := by
    decide
  rw [String.append_assoc]
  exact not_isSignature_append (by decide) hwords (by decide) _

/-- The lines between the name of the module and those of the modules that it binds. -/
def importLines : List String :=
  ["",
   "open import Agda.Builtin.Char using () renaming (Char to #Char)",
   "open import Agda.Builtin.Float using () renaming (Float to Double)",
   "open import Agda.Builtin.Int using () renaming (Int to Integer)",
   "open import Agda.Builtin.List using () renaming (List to #List)",
   "open import Agda.Builtin.String using () renaming",
   "  ( String to #String",
   "  ; primStringFromList to #stringFromList",
   "  )",
   "",
   "\x7b-# FOREIGN GHC import qualified Data.Text #-\x7d"]

/-- The type of identifiers. -/
def identLines : List String :=
  ["", "data Id : Set where", "  mkId : #List #Char → Id", "",
   "\x7b-# COMPILE GHC Id = data Id (Id) #-\x7d", ""]

theorem headLines_eq (time : String) (names : ModuleNames) :
    headLines time names =
      ["-- Agda bindings for the Haskell abstract syntax data types.",
       "-- Generated by BNFC at " ++ time ++ ".",
       "",
       "module " ++ names.agda ++ " where"] ++ importLines ++
      ["\x7b-# FOREIGN GHC import " ++ names.abstractSyntax ++ " #-\x7d",
       "\x7b-# FOREIGN GHC import " ++ names.printer ++ " #-\x7d"] ++ identLines := rfl

/-- Only the constructor of identifiers has a signature in front of the grammar's declarations. -/
theorem eq_of_mem_headLines {time : String} {names : ModuleNames}
    (hline : line ∈ headLines time names) (h : IsSignature line) :
    line = "  mkId : #List #Char → Id" := by
  have htitle : ¬ IsSignature "-- Agda bindings for the Haskell abstract syntax data types." := by
    decide +kernel
  have hempty : ¬ IsSignature "" := by decide
  have himport : ∀ line ∈ importLines, ¬ IsSignature line := by decide +kernel
  have hident : ∀ line ∈ identLines, line = "  mkId : #List #Char → Id" ∨ ¬ IsSignature line := by
    decide +kernel
  simp only [headLines_eq, List.mem_append, List.mem_cons, List.not_mem_nil, or_false] at hline
  rcases hline with (((rfl | rfl | rfl | rfl) | hline) | rfl | rfl) | hline
  · exact absurd h htitle
  · exact absurd h (not_isSignature_generated time)
  · exact absurd h hempty
  · exact absurd h (not_isSignature_header names.agda)
  · exact absurd h (himport line hline)
  · exact absurd h (not_isSignature_import names.abstractSyntax)
  · exact absurd h (not_isSignature_import names.printer)
  · exact (hident line hline).resolve_right (not_not_intro h)

/-- A declaration of a plain category; its name and those of its constructors are words. -/
structure HasWords (d : DataDecl) : Prop where
  category : ∃ name, d.category = .plain name ∧ isWord name = true
  constructors : ∀ k ∈ d.constructors, isWord k.name = true

theorem HasWords.isWord_written {d : DataDecl} (h : HasWords d) :
    isWord d.category.written = true := by
  obtain ⟨name, hname, hword⟩ := h.category
  rwa [hname]

theorem HasWords.plain_written {d : DataDecl} (h : HasWords d) :
    Category.plain d.category.written = d.category := by
  obtain ⟨name, hname, -⟩ := h.category
  rw [hname, Category.written]

theorem ne_colon_of_isWord {s : String} (h : isWord s = true) : s ≠ ":" := by
  rintro rfl
  cases h

theorem not_isSignature_dataHead {d : String} (hd : isWord d = true) :
    ¬ IsSignature ("  data " ++ d ++ " : Set where") := by
  have hline : "  data " ++ d ++ " : Set where" = "  data" ++ " " ++ d ++ " " ++ ": Set where" := by
    rw [← String.toList_inj]
    simp
  have hdata : wordsOf "  data" = ["data"] := by decide
  have hwords : wordsOf ("  data " ++ d ++ " : Set where") =
      "data" :: d :: wordsOf ": Set where" := by
    rw [hline, wordsOf_space, wordsOf_space, wordsOf_word hd, hdata]
    rfl
  exact not_isSignature_of_second hwords (ne_colon_of_isWord hd)

theorem not_isSignature_pragmaStart (t : String) :
    ¬ IsSignature ("  \x7b-# COMPILE GHC " ++ t) := by
  have hwords : wordsOf "  \x7b-# COMPILE GHC " = ["\x7b-#", "COMPILE", "GHC"] := by decide
  exact not_isSignature_append (by decide) hwords (by decide) t

/-- The first of several constructors is alone between its parenthesis and the end of the line. -/
theorem not_isSignature_pragmaFirst {name : String} (hname : isWord name = true) :
    ¬ IsSignature ("    ( " ++ name) := by
  have hopening : wordsOf "    ( " = [] := by decide
  rw [IsSignature, wordsOf_append (by decide), hopening, wordsOf_word hname]
  exact nofun

theorem not_isSignature_pragmaOther {name : String} (hname : isWord name = true) :
    ¬ IsSignature ("    | " ++ name) := by
  have hbar : wordsOf "    | " = ["|"] := by decide
  have hwords : wordsOf ("    | " ++ name) = ["|", name] := by
    rw [wordsOf_append (by decide), hbar, wordsOf_word hname]
    rfl
  exact not_isSignature_of_second hwords (ne_colon_of_isWord hname)

theorem not_isSignature_of_mem_pragmaLines {d : String} {names : List String}
    (hnames : ∀ name ∈ names, isWord name = true) (hline : line ∈ pragmaLines d names) :
    ¬ IsSignature line := by
  have hclosing : ¬ IsSignature "    ) #-\x7d" := by decide
  cases names with
  | nil =>
    obtain rfl := List.mem_singleton.1 hline
    simp only [String.append_assoc]
    exact not_isSignature_pragmaStart _
  | cons name others =>
    obtain ⟨hname, hothers⟩ := List.forall_mem_cons.1 hnames
    cases others with
    | nil =>
      obtain rfl := List.mem_singleton.1 hline
      simp only [String.append_assoc]
      exact not_isSignature_pragmaStart _
    | cons name' others =>
      have hline : line ∈ ("  \x7b-# COMPILE GHC " ++ d ++ " = data " ++ d) :: ("    ( " ++ name) ::
          ((name' :: others).map ("    | " ++ ·) ++ ["    ) #-\x7d"]) := hline
      rw [List.mem_cons, List.mem_cons, List.mem_append, List.mem_singleton] at hline
      rcases hline with rfl | rfl | hline | rfl
      · simp only [String.append_assoc]
        exact not_isSignature_pragmaStart _
      · exact not_isSignature_pragmaFirst hname
      · obtain ⟨other, hmem, rfl⟩ := List.mem_map.1 hline
        exact not_isSignature_pragmaOther (hothers other hmem)
      · exact hclosing

theorem not_isSignature_of_mem_printerPragmas {ds : List DataDecl}
    (hline : line ∈ ds.map printerPragmaLine) : ¬ IsSignature line := by
  have hwords : wordsOf "\x7b-# COMPILE GHC " = ["\x7b-#", "COMPILE", "GHC"] := by decide
  obtain ⟨d, -, rfl⟩ := List.mem_map.1 hline
  have htext : printerPragmaLine d = "\x7b-# COMPILE GHC " ++ ("print" ++ d.category.written ++
      " = \\ x -> Data.Text.pack (printTree (x :: " ++ d.category.written ++ ")) #-\x7d") := by
    unfold printerPragmaLine
    rw [← String.toList_inj]
    simp
  rw [htext]
  exact not_isSignature_append (by decide) hwords (by decide) _

/-- The signatures in a declaration are those of its constructors. -/
theorem exists_of_mem_declarationLines {d : DataDecl} (hd : HasWords d)
    (hline : line ∈ declarationLines d) (h : IsSignature line) :
    ∃ k ∈ d.constructors, line = "    " ++ signatureText d.category.written k := by
  have hempty : ¬ IsSignature "" := by decide
  have hnames : ∀ name ∈ d.constructors.map Constructor.name, isWord name = true :=
    List.forall_mem_map.2 hd.constructors
  rw [declarationLines, List.mem_append, List.mem_cons, List.mem_cons, dataLines, List.mem_cons]
    at hline
  rcases hline with (rfl | rfl | hline) | rfl | hline
  · exact absurd h hempty
  · exact absurd h (not_isSignature_dataHead hd.isWord_written)
  · obtain ⟨k, hk, rfl⟩ := List.mem_map.1 hline
    exact ⟨k, hk, rfl⟩
  · exact absurd h hempty
  · exact absurd h (not_isSignature_of_mem_pragmaLines hnames hline)

/-- The signatures in a module are those of constructors and of printers. -/
inductive Signature (ds : List DataDecl) : String → Prop where
  | identifier : Signature ds "  mkId : #List #Char → Id"
  | identifierPrinter : Signature ds "printId : Id → #String"
  | constructor {d : DataDecl} {k : Constructor} (declared : d ∈ ds)
      (constructs : k ∈ d.constructors) :
      Signature ds ("    " ++ signatureText d.category.written k)
  | printer {d : DataDecl} (declared : d ∈ ds) : Signature ds (printerLine d)

theorem signature_of_mem_moduleLines {time : String} {names : ModuleNames} {ds : List DataDecl}
    (hds : ∀ d ∈ ds, HasWords d) (hline : line ∈ moduleLines time names ds)
    (h : IsSignature line) : Signature ds line := by
  have hmutual : ¬ IsSignature "mutual" := by decide
  have hempty : ¬ IsSignature "" := by decide
  have hident : ∀ line ∈ ["", "-- Binding the BNFC pretty printer", "", "printId : Id → #String",
      "printId (mkId s) = #stringFromList s", "", "postulate"],
      line = "printId : Id → #String" ∨ ¬ IsSignature line := by
    decide +kernel
  rw [moduleLines, List.mem_append, List.mem_append, List.mem_append, List.mem_append,
    List.mem_append, List.mem_append, List.mem_cons, List.mem_singleton] at hline
  rcases hline with (((((hline | rfl | hline) | hline) | hline) | rfl) | hline) | rfl
  · obtain rfl := eq_of_mem_headLines hline h
    exact .identifier
  · exact absurd h hmutual
  · obtain ⟨d, hd, hline⟩ := List.mem_flatMap.1 hline
    obtain ⟨k, hk, rfl⟩ := exists_of_mem_declarationLines (hds d hd) hline h
    exact .constructor hd hk
  · obtain rfl := (hident line hline).resolve_right (not_not_intro h)
    exact .identifierPrinter
  · obtain ⟨d, hd, rfl⟩ := List.mem_map.1 hline
    exact .printer hd
  · exact absurd h hempty
  · exact absurd h (not_isSignature_of_mem_printerPragmas hline)
  · exact absurd h hempty

theorem mem_moduleLines_of_declaration {time : String} {names : ModuleNames} {ds : List DataDecl}
    {d : DataDecl} (hd : d ∈ ds) (hline : line ∈ declarationLines d) :
    line ∈ moduleLines time names ds := by
  have hall := List.mem_flatMap.2 ⟨d, hd, hline⟩
  simp only [moduleLines, List.mem_append, List.mem_cons, hall, or_true, true_or]

theorem dataHead_mem_moduleLines {time : String} {names : ModuleNames} {ds : List DataDecl}
    {name : String} (h : .plain name ∈ ds.map DataDecl.category) :
    "  data " ++ name ++ " : Set where" ∈ moduleLines time names ds := by
  obtain ⟨d, hd, hname⟩ := List.mem_map.1 h
  refine mem_moduleLines_of_declaration hd ?_
  rw [declarationLines, hname]
  simp [dataLines, Category.written]

theorem mem_moduleLines_of_signature {time : String} {names : ModuleNames} {ds : List DataDecl}
    {line : String} (h : Signature ds line) : line ∈ moduleLines time names ds := by
  cases h with
  | identifier => simp [moduleLines, headLines]
  | identifierPrinter => simp [moduleLines]
  | @constructor d k hd hk =>
    have hline : "    " ++ signatureText d.category.written k ∈ declarationLines d := by
      have hmem : "    " ++ signatureText d.category.written k ∈
          d.constructors.map fun k => "    " ++ signatureText d.category.written k :=
        List.mem_map_of_mem hk
      simp only [declarationLines, dataLines, List.mem_append, List.mem_cons, hmem, or_true,
        true_or]
    exact mem_moduleLines_of_declaration hd hline
  | @printer d hd =>
    have hall : printerLine d ∈ ds.map printerLine := List.mem_map_of_mem hd
    simp only [moduleLines, List.mem_append, hall, or_true, true_or]

theorem isSignature_of_signature {ds : List DataDecl} (hds : ∀ d ∈ ds, HasWords d) {line : String}
    (h : Signature ds line) : IsSignature line := by
  cases h with
  | identifier => decide
  | identifierPrinter => decide
  | @constructor d k hd hk =>
    refine ⟨by rw [wordsOf_signatureText ((hds d hd).constructors k hk)]; rfl, ?_⟩
    rw [String.toList_append]
    simp
  | @printer d hd =>
    refine ⟨by rw [wordsOf_printerLine (hds d hd).isWord_written]; rfl, ?_⟩
    rw [printerLine]
    simp

theorem mem_moduleLines_and_isSignature_iff {time : String} {names : ModuleNames}
    {ds : List DataDecl} (hds : ∀ d ∈ ds, HasWords d) :
    line ∈ moduleLines time names ds ∧ IsSignature line ↔ Signature ds line := by
  constructor
  · rintro ⟨hline, h⟩
    exact signature_of_mem_moduleLines hds hline h
  · intro h
    exact ⟨mem_moduleLines_of_signature h, isSignature_of_signature hds h⟩

end Lines

end GrammarBindings.Agda
