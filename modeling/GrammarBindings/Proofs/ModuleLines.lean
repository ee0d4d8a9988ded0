import GrammarBindings.Agda.Module
import GrammarBindings.Proofs.DocumentLines
import GrammarBindings.Proofs.Outcomes

/-!
# The generated module line by line

The module written as a plain list of lines, without documents: a fixed head, the types of all data
declarations, and their printers. When every declaration has a plain category and arguments that
have a type, the generator writes just these lines.
-/

namespace GrammarBindings.Agda

open Document Line

/-- Whether a category has an Agda type: the marker of internal rules and texts have none. -/
def hasType : Category → Bool
  | .list element => hasType element
  | .internal | .stray _ => false
  | _ => true

/-- The type of a category that has one, as a text. -/
def typeText : Category → String
  | .plain name | .token name | .level name _ => name
  | .list element =>
    "#List " ++ if isComposite element then "(" ++ typeText element ++ ")" else typeText element
  | .internal | .stray _ => ""

def signatureText (d : String) (k : Constructor) : String :=
  k.name ++ " : " ++ " → ".intercalate (k.arguments.map typeText ++ [d])

/-- The pragma that binds a data type, indented as the declaration is. -/
def pragmaLines (d : String) : List String → List String
  | [] => ["  \x7b-# COMPILE GHC " ++ d ++ " = data " ++ d ++ " () #-\x7d"]
  | [c] => ["  \x7b-# COMPILE GHC " ++ d ++ " = data " ++ d ++ " (" ++ c ++ ") #-\x7d"]
  | c :: cs =>
    ("  \x7b-# COMPILE GHC " ++ d ++ " = data " ++ d) :: ("    ( " ++ c) ::
      (cs.map ("    | " ++ ·) ++ ["    ) #-\x7d"])

def dataLines (d : String) (ks : List Constructor) : List String :=
  ("  data " ++ d ++ " : Set where") :: ks.map fun k => "    " ++ signatureText d k

/-- A declaration, with a blank line in front of each of its two parts. -/
def declarationLines (d : DataDecl) : List String :=
  "" :: dataLines d.category.written d.constructors ++
    "" :: pragmaLines d.category.written (d.constructors.map Constructor.name)

def printerLine (d : DataDecl) : String :=
  "  print" ++ d.category.written ++ " : " ++ d.category.written ++ " → #String"

def printerPragmaLine (d : DataDecl) : String :=
  "\x7b-# COMPILE GHC print" ++ d.category.written ++
    " = \\ x -> Data.Text.pack (printTree (x :: " ++ d.category.written ++ ")) #-\x7d"

/-- What stands in front of the declarations of a grammar. -/
def headLines (time : String) (names : ModuleNames) : List String :=
  ["-- Agda bindings for the Haskell abstract syntax data types.",
   "-- Generated by BNFC at " ++ time ++ ".",
   "",
   "module " ++ names.agda ++ " where",
   "",
   "open import Agda.Builtin.Char using () renaming (Char to #Char)",
   "open import Agda.Builtin.Float using () renaming (Float to Double)",
   "open import Agda.Builtin.Int using () renaming (Int to Integer)",
   "open import Agda.Builtin.List using () renaming (List to #List)",
   "open import Agda.Builtin.String using () renaming",
   "  ( String to #String",
   "  ; primStringFromList to #stringFromList",
   "  )",
   "",
   "\x7b-# FOREIGN GHC import qualified Data.Text #-\x7d",
   "\x7b-# FOREIGN GHC import " ++ names.abstractSyntax ++ " #-\x7d",
   "\x7b-# FOREIGN GHC import " ++ names.printer ++ " #-\x7d",
   "",
   "data Id : Set where",
   "  mkId : #List #Char → Id",
   "",
   "\x7b-# COMPILE GHC Id = data Id (Id) #-\x7d",
   ""]

def moduleLines (time : String) (names : ModuleNames) (ds : List DataDecl) : List String :=
  headLines time names ++ "mutual" :: ds.flatMap declarationLines ++
    ["",
     "-- Binding the BNFC pretty printer",
     "",
     "printId : Id → #String",
     "printId (mkId s) = #stringFromList s",
     "",
     "postulate"] ++
    ds.map printerLine ++ [""] ++ ds.map printerPragmaLine ++ [""]

/-- A plain category, and constructors whose arguments all have a type. -/
structure IsTyped (d : DataDecl) : Prop where
  category : ∃ name, d.category = .plain name
  arguments : ∀ k ∈ d.constructors, ∀ c ∈ k.arguments, hasType c = true

theorem isLine_typeOf {c : Category} (h : hasType c = true) :
    ∃ t, typeOf c = .ok t ∧ t.IsLine (typeText c) := by
  induction c with
  | plain name => exact ⟨_, rfl, isLine_text name⟩
  | token name => exact ⟨_, rfl, isLine_text name⟩
  | level name rank => exact ⟨_, rfl, isLine_text name⟩
  | list element ih =>
    obtain ⟨t, ht, hline⟩ := ih h
    refine ⟨_, map_eq_ok_iff.2 ⟨t, ht, rfl⟩, ?_⟩
    have helement : (parensIf (isComposite element) t).IsLine
        (if isComposite element then "(" ++ typeText element ++ ")" else typeText element) := by
      rw [parensIf]
      split
      · exact hline.parens
      · exact hline.ofBare
    exact (isLine_text listType).adjoinSpaced helement
  | internal => cases h
  | stray s => cases h

theorem intercalate_intersperse (s t : String) (ss : List String) :
    s.intercalate (ss.intersperse t) = (s ++ t ++ s).intercalate ss := by
  induction ss with
  | nil => rfl
  | cons a ss ih =>
    cases ss with
    | nil => rfl
    | cons b ss =>
      rw [List.intersperse_cons_cons, String.intercalate_cons_cons,
        String.intercalate_cons_of_ne_nil (by cases ss <;> simp), ih,
        String.intercalate_cons_cons]
      simp [String.append_assoc]

/-- A name and its type, whose parts the arrow stands between, are separated by single spaces. -/
theorem intercalate_signature (name : String) {ss : List String} (h : ss ≠ []) :
    " ".intercalate (name :: ":" :: ss.intersperse arrow) =
      name ++ " : " ++ " → ".intercalate ss := by
  obtain ⟨s, ss, rfl⟩ := List.exists_cons_of_ne_nil h
  have hne : (s :: ss).intersperse arrow ≠ [] := by cases ss <;> simp
  rw [String.intercalate_cons_cons, String.intercalate_cons_of_ne_nil hne,
    intercalate_intersperse, arrow, ← String.toList_inj]
  simp

theorem forall₂_isLine_intersperse {d : Document} {s : String} (hd : d.IsLine s)
    {ds : List Document} {ss : List String} (h : List.Forall₂ IsLine ds ss) :
    List.Forall₂ IsLine (ds.intersperse d) (ss.intersperse s) := by
  induction h with
  | nil => exact .nil
  | cons ha hds ih =>
    cases hds with
    | nil => exact .cons ha .nil
    | cons hb _ =>
      rw [List.intersperse_cons_cons, List.intersperse_cons_cons]
      exact .cons ha (.cons hd ih)

theorem isLine_constructorSignature {d : String} {k : Constructor}
    (h : ∀ c ∈ k.arguments, hasType c = true) :
    ∃ t, constructorSignature d k = .ok t ∧ t.IsLine (signatureText d k) := by
  have htyped : ∀ c ∈ k.arguments ++ [Category.plain d],
      ∃ t, typeOf c = .ok t ∧ t.IsLine (typeText c) := by
    intro c hc
    rcases List.mem_append.1 hc with hc | hc
    · exact isLine_typeOf (h c hc)
    · obtain rfl := List.mem_singleton.1 hc
      exact isLine_typeOf rfl
  obtain ⟨types, htypes, hlines⟩ := exists_mapM_eq_ok htyped
  have htexts : List.Forall₂ IsLine types (k.arguments.map typeText ++ [d]) := by
    have hmap : k.arguments.map typeText ++ [d] =
        (k.arguments ++ [Category.plain d]).map typeText := by simp [typeText]
    rw [hmap, List.forall₂_map_right_iff]
    exact hlines.flip
  have hwords := forall₂_isLine_intersperse (isLine_text arrow) htexts
  refine ⟨_, bind_eq_ok_iff.2 ⟨types, htypes, rfl⟩, ?_⟩
  have hline := isLine_hsep (.cons (isLine_text k.name) (.cons (isLine_text ":") hwords)) (by simp)
  rwa [intercalate_signature _ (by simp)] at hline

theorem isLine_dataHead (d : String) :
    (words ["data", d, ":", "Set", "where"]).IsLine ("data " ++ d ++ " : Set where") :=
  isLine_words_of_eq (by simp) (by simp)

/-- A data type at any indentation, as it is written there. -/
theorem exists_dataType {k : Nat} (hk : k + 2 < 0x8000000000000000) (d : String) {cs : List Constructor}
    (h : ∀ c ∈ cs, ∀ a ∈ c.arguments, hasType a = true) :
    ∃ t, dataType d cs = .ok t ∧
      WrittenAt k t ((spaces k ++ ("data " ++ d ++ " : Set where")) ::
        cs.map fun c => spaces (k + 2) ++ signatureText d c) := by
  obtain ⟨signatures, hsignatures, hlines⟩ :=
    exists_mapM_eq_ok fun c hc => isLine_constructorSignature (d := d) (h c hc)
  refine ⟨_, bind_eq_ok_iff.2 ⟨signatures, hsignatures, rfl⟩, writtenAt_vcat_of_lines ?_⟩
  refine .cons ((isLine_dataHead d).writtenAt (by omega) (by simp)) ?_
  rw [List.forall₂_map_left_iff, List.forall₂_map_right_iff]
  exact hlines.flip.imp fun t c ht => (ht.writtenAt hk (by simp [signatureText])).indented

theorem writtenAt_dataPragma {k : Nat} (hk : k + 2 < 0x8000000000000000) (d : String)
    (cs : List Constructor) :
    WrittenAt k (dataPragma d cs)
      (bracketTexts k ("\x7b-# COMPILE GHC " ++ d ++ " = data " ++ d) "(" ") #-\x7d" "|"
        (cs.map Constructor.name)) := by
  have hhead : (words ["\x7b-#", "COMPILE", "GHC", d, "=", "data", d]).IsLine
      ("\x7b-# COMPILE GHC " ++ d ++ " = data " ++ d) :=
    isLine_words_of_eq (by simp) (by simp)
  have hclosing : (words [")", "#-\x7d"]).IsLine ") #-\x7d" := isLine_words (by simp)
  have hnames : List.Forall₂ IsLine (cs.map fun c => text c.name) (cs.map Constructor.name) :=
    forall₂_map_map fun c _ => isLine_text c.name
  exact writtenAt_bracketList hk hhead (by simp) (isLine_text "(") hclosing (by simp)
    (isLine_text "|") hnames

theorem bracketTexts_pragma (d : String) (cs : List String) :
    bracketTexts 2 ("\x7b-# COMPILE GHC " ++ d ++ " = data " ++ d) "(" ") #-\x7d" "|" cs =
      pragmaLines d cs := by
  have htwo : spaces 2 = "  " := rfl
  have hfour : spaces 4 = "    " := rfl
  match cs with
  | [] => simp [bracketTexts, pragmaLines, htwo, ← String.toList_inj]
  | [c] => simp [bracketTexts, pragmaLines, htwo, ← String.toList_inj]
  | c :: c' :: cs => simp [bracketTexts, pragmaLines, htwo, hfour, ← String.toList_inj]

theorem exists_declaration {d : DataDecl} (h : IsTyped d) :
    ∃ pieces, declaration d = .ok pieces ∧
      List.Forall₂ (WrittenAt 2) pieces
        [dataLines d.category.written d.constructors,
         pragmaLines d.category.written (d.constructors.map Constructor.name)] := by
  obtain ⟨name, hname⟩ := h.category
  have hn : nameOf "pr_data" d.category = .ok name := by rw [hname, nameOf]
  obtain ⟨type, htype, hlines⟩ := exists_dataType (k := 2) (by decide) name h.arguments
  have hpragma := writtenAt_dataPragma (k := 2) (by decide) name d.constructors
  have hhead : spaces 2 ++ ("data " ++ name ++ " : Set where") =
      "  data " ++ name ++ " : Set where" := by
    rw [← String.toList_inj]
    simp [spaces]
  refine ⟨[type, dataPragma name d.constructors], ?_, ?_⟩
  · exact bind_eq_ok_iff.2 ⟨name, hn, bind_eq_ok_iff.2 ⟨type, htype, rfl⟩⟩
  · rw [hhead] at hlines
    rw [bracketTexts_pragma] at hpragma
    rw [hname, Category.written]
    exact .cons hlines (.cons hpragma .nil)

theorem exists_declarations {ds : List DataDecl} (h : ∀ d ∈ ds, IsTyped d) :
    ∃ t, declarations ds = .ok t ∧ WrittenAt 0 t ("mutual" :: ds.flatMap declarationLines) := by
  obtain ⟨pieces, hpieces, hlines⟩ := exists_mapM_eq_ok fun d hd => exists_declaration (h d hd)
  refine ⟨_, bind_eq_ok_iff.2 ⟨pieces, hpieces, rfl⟩, ?_⟩
  have hall := List.rel_flatten (List.forall₂_map_right_iff.2 hlines.flip)
  have hnested := hall.imp fun d ss hd => hd.indented
  have hvsep := writtenAt_vsep (isLine_text "mutual").writtenAt_zero
    (List.forall₂_map_left_iff.2 hnested)
  rw [← List.flatMap_def, List.flatMap_assoc] at hvsep
  have hparts : ∀ d : DataDecl,
      [dataLines d.category.written d.constructors,
        pragmaLines d.category.written (d.constructors.map Constructor.name)].flatMap ("" :: ·) =
          declarationLines d := by
    intro d
    simp [declarationLines]
  simp only [hparts] at hvsep
  exact hvsep

theorem isLine_printerSignature (n : String) :
    (printerSignature n).IsLine ("print" ++ n ++ " : " ++ n ++ " → #String") :=
  isLine_words_of_eq (by simp) (by simp [printerName, arrow, stringType])

theorem isLine_printerPragma (n : String) :
    (printerPragma n).IsLine ("\x7b-# COMPILE GHC print" ++ n ++
      " = \\ x -> Data.Text.pack (printTree (x :: " ++ n ++ ")) #-\x7d") := by
  have hhead : (words ["\x7b-#", "COMPILE", "GHC", printerName n, "=", "\\", "x", "->",
      "Data.Text.pack"]).IsLine _ := isLine_words (by simp)
  have htyped : (parens (words ["x", "::", n])).IsLine _ := (isLine_words (by simp)).parens
  have htree := IsLine.parens (isLine_hsep (.cons (isLine_text "printTree") (.cons htyped .nil))
    (by simp))
  have hline := isLine_hsep (.cons hhead (.cons htree (.cons (isLine_text "#-\x7d") .nil)))
    (by simp)
  rw [printerPragma]
  refine hline.of_eq ?_
  rw [← String.toList_inj]
  simp [printerName]

theorem exists_printers {ds : List DataDecl} (h : ∀ d ∈ ds, IsTyped d) :
    ∃ t, printers (ds.map DataDecl.category) = .ok t ∧
      WrittenAt 0 t ("postulate" :: ds.map printerLine ++ "" :: ds.map printerPragmaLine) := by
  have hnames : (ds.map DataDecl.category).mapM (nameOf "printer") =
      .ok (ds.map fun d => d.category.written) := by
    rw [mapM_eq_ok_iff]
    apply forall₂_map_map
    intro d hd
    obtain ⟨name, hname⟩ := (h d hd).category
    rw [hname, nameOf, Category.written]
  refine ⟨_, bind_eq_ok_iff.2 ⟨_, hnames, rfl⟩, ?_⟩
  rw [List.map_map, List.map_map]
  refine (writtenAt_vcat_of_lines (.cons (isLine_text "postulate").writtenAt_zero ?_)).stackSpaced
    (writtenAt_vcat_of_lines ?_)
  · apply forall₂_map_map
    intro d _
    have hline := (isLine_printerSignature d.category.written).writtenAt (k := 2) (by decide)
      (by simp)
    have htext : spaces 2 ++ ("print" ++ d.category.written ++ " : " ++ d.category.written ++
        " → #String") = printerLine d := by
      rw [printerLine, ← String.toList_inj]
      simp [spaces]
    rw [htext] at hline
    exact hline.indented
  · apply forall₂_map_map
    intro d _
    exact (isLine_printerPragma d.category.written).writtenAt_zero

theorem writtenAt_preamble (time : String) :
    WrittenAt 0 (preamble time)
      ["-- Agda bindings for the Haskell abstract syntax data types.",
       "-- Generated by BNFC at " ++ time ++ "."] :=
  writtenAt_vcat_of_lines
    (.cons (isLine_text _).writtenAt_zero (.cons (isLine_text _).writtenAt_zero .nil))

theorem isLine_moduleHead (module : String) :
    (words ["module", module, "where"]).IsLine ("module " ++ module ++ " where") :=
  isLine_words_of_eq (by simp) (by simp)

def importTexts (module : String) (renamings : List (String × String)) : List String :=
  bracketTexts 0 ("open import " ++ module ++ " using () renaming") "(" ")" ";"
    (renamings.map fun r => r.1 ++ " to " ++ r.2)

theorem writtenAt_importOf (module : String) (renamings : List (String × String)) :
    WrittenAt 0 (importOf module renamings) (importTexts module renamings) := by
  have hhead : (words ["open", "import", module, "using", "()", "renaming"]).IsLine
      ("open import " ++ module ++ " using () renaming") :=
    isLine_words_of_eq (by simp) (by simp)
  have hrenamings : List.Forall₂ IsLine (renamings.map fun r => words [r.1, "to", r.2])
      (renamings.map fun r => r.1 ++ " to " ++ r.2) := by
    apply forall₂_map_map
    intro r _
    exact isLine_words_of_eq (by simp) (by simp)
  exact writtenAt_bracketList (by decide) hhead (by simp) (isLine_text "(") (isLine_text ")")
    (by simp) (isLine_text ";") hrenamings

theorem writtenAt_imports :
    WrittenAt 0 imports
      ["open import Agda.Builtin.Char using () renaming (Char to #Char)",
       "open import Agda.Builtin.Float using () renaming (Float to Double)",
       "open import Agda.Builtin.Int using () renaming (Int to Integer)",
       "open import Agda.Builtin.List using () renaming (List to #List)",
       "open import Agda.Builtin.String using () renaming",
       "  ( String to #String",
       "  ; primStringFromList to #stringFromList",
       "  )"] := by
  have hall : List.Forall₂ (WrittenAt 0) (builtins.map fun b => importOf b.1 b.2)
      (builtins.map fun b => importTexts b.1 b.2) :=
    forall₂_map_map fun b _ => writtenAt_importOf b.1 b.2
  exact writtenAt_vcat hall

theorem isLine_importPragma (module : String) :
    (importPragma module).IsLine ("\x7b-# FOREIGN GHC import " ++ module ++ " #-\x7d") :=
  isLine_words_of_eq (by simp) (by simp)

theorem writtenAt_importPragmas (syntaxModule printerModule : String) :
    WrittenAt 0 (importPragmas syntaxModule printerModule)
      ["\x7b-# FOREIGN GHC import qualified Data.Text #-\x7d",
       "\x7b-# FOREIGN GHC import " ++ syntaxModule ++ " #-\x7d",
       "\x7b-# FOREIGN GHC import " ++ printerModule ++ " #-\x7d"] := by
  have hline := fun module => (isLine_importPragma module).writtenAt_zero
  exact writtenAt_vcat_of_lines (.cons (hline _) (.cons (hline _) (.cons (hline _) .nil)))

theorem exists_identDeclaration :
    ∃ t, identDeclaration = .ok t ∧
      WrittenAt 0 t
        ["data Id : Set where",
         "  mkId : #List #Char → Id",
         "",
         "\x7b-# COMPILE GHC Id = data Id (Id) #-\x7d"] := by
  have htyped : ∀ c ∈ [(⟨identConstructor, [.list (.plain charType)]⟩ : Constructor)],
      ∀ a ∈ c.arguments, hasType a = true := by decide
  obtain ⟨type, htype, hlines⟩ := exists_dataType (k := 0) (by decide) identType htyped
  have hpragma := writtenAt_dataPragma (k := 0) (by decide) identType [⟨identType, []⟩]
  refine ⟨_, bind_eq_ok_iff.2 ⟨type, htype, rfl⟩, ?_⟩
  exact hlines.stackSpaced hpragma

theorem writtenAt_identPrinter :
    WrittenAt 0 identPrinter
      ["printId : Id → #String",
       "printId (mkId s) = #stringFromList s"] := by
  have htype : (words [printerName identType, ":", identType, arrow, stringType]).IsLine
      "printId : Id → #String" := isLine_words (by simp)
  have hpattern : (parens (words [identConstructor, "s"])).IsLine "(mkId s)" :=
    (isLine_words (by simp)).parens
  have hvalue := isLine_hsep (.cons (isLine_text (printerName identType)) (.cons hpattern
    (.cons (isLine_text "=") (.cons (isLine_text stringFromList) (.cons (isLine_text "s") .nil)))))
    (by simp)
  exact writtenAt_vcat_of_lines (.cons htype.writtenAt_zero (.cons hvalue.writtenAt_zero .nil))

theorem exists_moduleDocument (time : String) (names : ModuleNames) {ds : List DataDecl}
    (h : ∀ d ∈ ds, IsTyped d) :
    ∃ t, moduleDocument time names ds = .ok t ∧ WrittenAt 0 t (moduleLines time names ds) := by
  obtain ⟨ident, hident, hidentLines⟩ := exists_identDeclaration
  obtain ⟨types, htypes, htypesLines⟩ := exists_declarations h
  obtain ⟨printing, hprinting, hprintingLines⟩ := exists_printers h
  refine ⟨_, bind_eq_ok_iff.2 ⟨ident, hident, bind_eq_ok_iff.2 ⟨types, htypes,
    bind_eq_ok_iff.2 ⟨printing, hprinting, rfl⟩⟩⟩, ?_⟩
  have hparts := writtenAt_vsep (writtenAt_preamble time)
    (.cons (isLine_moduleHead names.agda).writtenAt_zero (.cons writtenAt_imports
    (.cons (writtenAt_importPragmas names.abstractSyntax names.printer) (.cons hidentLines
    (.cons htypesLines (.cons (isLine_text "-- Binding the BNFC pretty printer").writtenAt_zero
    (.cons writtenAt_identPrinter (.cons hprintingLines
    (.cons (writtenAt_empty 0) .nil)))))))))
  simpa [moduleLines, headLines] using hparts

/-- The generator writes the lines of the module, each up to the end of a line. -/
theorem moduleText_eq (time : String) (names : ModuleNames) (ds : List DataDecl)
    (h : ∀ d ∈ ds, IsTyped d) :
    moduleText time names ds = .ok ("\n".intercalate (moduleLines time names ds)) := by
  obtain ⟨t, ht, hlines⟩ := exists_moduleDocument time names h
  exact map_eq_ok_iff.2 ⟨t, ht, hlines.render_eq⟩

/-- The module of the natural numbers. -/
theorem moduleText_eq_naturals :
    moduleText "2024-01-01 00:00 UTC" ⟨"ASTNat", "AbsNat", "PrintNat"⟩
      [⟨.plain "Nat", [⟨"zero", []⟩, ⟨"suc", [.plain "Nat"]⟩]⟩] =
        .ok ("\n".intercalate
          ["-- Agda bindings for the Haskell abstract syntax data types.",
           "-- Generated by BNFC at 2024-01-01 00:00 UTC.",
           "",
           "module ASTNat where",
           "",
           "open import Agda.Builtin.Char using () renaming (Char to #Char)",
           "open import Agda.Builtin.Float using () renaming (Float to Double)",
           "open import Agda.Builtin.Int using () renaming (Int to Integer)",
           "open import Agda.Builtin.List using () renaming (List to #List)",
           "open import Agda.Builtin.String using () renaming",
           "  ( String to #String",
           "  ; primStringFromList to #stringFromList",
           "  )",
           "",
           "\x7b-# FOREIGN GHC import qualified Data.Text #-\x7d",
           "\x7b-# FOREIGN GHC import AbsNat #-\x7d",
           "\x7b-# FOREIGN GHC import PrintNat #-\x7d",
           "",
           "data Id : Set where",
           "  mkId : #List #Char → Id",
           "",
           "\x7b-# COMPILE GHC Id = data Id (Id) #-\x7d",
           "",
           "mutual",
           "",
           "  data Nat : Set where",
           "    zero : Nat",
           "    suc : Nat → Nat",
           "",
           "  \x7b-# COMPILE GHC Nat = data Nat",
           "    ( zero",
           "    | suc",
           "    ) #-\x7d",
           "",
           "-- Binding the BNFC pretty printer",
           "",
           "printId : Id → #String",
           "printId (mkId s) = #stringFromList s",
           "",
           "postulate",
           "  printNat : Nat → #String",
           "",
           "\x7b-# COMPILE GHC printNat = \\ x -> Data.Text.pack (printTree (x :: Nat)) #-\x7d",
           ""]) := by
  refine moduleText_eq _ _ _ ?_
  intro d hd
  obtain rfl := List.mem_singleton.1 hd
  exact ⟨⟨"Nat", rfl⟩, by decide⟩

end GrammarBindings.Agda
