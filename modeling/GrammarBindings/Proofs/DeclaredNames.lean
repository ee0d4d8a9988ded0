import GrammarBindings.Agda.Module
import GrammarBindings.Proofs.ReadNames
import Mathlib.Data.List.Nodup

/-!
# Names that a module declares and imports

A module imports some names of the Agda library and declares the type of identifiers; the others are
from its grammar, where each is the category of some constructor. These are distinct words, so the
hash sign in front of an imported name keeps it apart. Nothing keeps the type of identifiers apart
from a category of its name, and a category is apart from the tokens unless it comes from one of its
precedence levels.
-/

namespace GrammarBindings

open Category

theorem hash_notMem_of_isWord {s : String} (h : isWord s = true) : '#' ∉ s.toList :=
  fun hmem => by cases continuesWord_of_mem h hmem

theorem Category.Named.of_normalize_eq_plain {declared : List String} {c : Category} {name : String}
    (h : c.Named declared) (hname : c.normalize = .plain name) :
    isWord name = true ∧
      ((name ∉ baseTokens ∧ name ∉ declared) ∨ ∃ rank, c = .level name rank) := by
  cases h with
  | plain word unknown =>
    cases hname
    exact ⟨word, .inl unknown⟩
  | token => cases hname
  | @level name rank word =>
    cases hname
    exact ⟨word, .inr ⟨rank, rfl⟩⟩
  | list => cases hname

theorem Category.Named.normalize_ne_stray {declared : List String} {c : Category}
    (h : c.Named declared) (s : String) : c.normalize ≠ .stray s := by
  cases h with
  | _ => exact nofun

namespace Grammar

variable {text : String} {g : Grammar}

theorem mem_declared_iff {c : Category} : c ∈ g.declared ↔
    ∃ r ∈ g.rules, r.HasConstructor ∧ r.category.normalize = c := by
  have hfirst : FirstOccurrences g.declared _ := (areGroups_dataDeclarations g.rules).categories
  rw [hfirst.mem_iff, resultCategories, List.mem_map]
  constructor
  · rintro ⟨r, hr, hc⟩
    obtain ⟨hmem, hconstructor⟩ := List.mem_filter.1 hr
    exact ⟨r, hmem, of_decide_eq_true hconstructor, hc⟩
  · rintro ⟨r, hmem, hconstructor, hc⟩
    exact ⟨r, List.mem_filter.2 ⟨hmem, decide_eq_true hconstructor⟩, hc⟩

theorem nodup_declared (g : Grammar) : g.declared.Nodup :=
  (areGroups_dataDeclarations g.rules).categories.nodup

/-- The categories that are declared have words for their names. -/
theorem exists_name_of_mem_declared (h : read text = .ok g) {c : Category} (hc : c ∈ g.declared) :
    ∃ name, c = .plain name ∧ isWord name = true := by
  obtain ⟨r, hmem, hr, rfl⟩ := mem_declared_iff.1 hc
  have hnamed := (isNamed_of_read h hmem hr).result
  obtain ⟨name, hname | hname⟩ := hr.result
  · exact ⟨name, hname, (hnamed.of_normalize_eq_plain hname).1⟩
  · exact absurd hname (hnamed.normalize_ne_stray name)

/-- A category that is called as a token is has a precedence level where it is written. -/
theorem exists_level_of_known (h : read text = .ok g) {name : String}
    (hname : .plain name ∈ g.declared) (hknown : name ∈ baseTokens ∨ name ∈ g.tokens) :
    ∃ r ∈ g.rules, r.HasConstructor ∧ ∃ rank, r.category = .level name rank := by
  obtain ⟨r, hmem, hr, hc⟩ := mem_declared_iff.1 hname
  have hnamed := (isNamed_of_read h hmem hr).result
  obtain ⟨-, hunknown | ⟨rank, hrank⟩⟩ := hnamed.of_normalize_eq_plain hc
  · exact absurd hknown (not_or.2 hunknown)
  · exact ⟨r, hmem, hr, rank, hrank⟩

theorem exists_names_of_read (h : read text = .ok g) :
    ∃ names : List String, g.declared = names.map .plain := by
  have hplain : ∀ c ∈ g.declared, Category.plain c.written = c := by
    intro c hc
    obtain ⟨name, rfl, -⟩ := exists_name_of_mem_declared h hc
    rw [written]
  refine ⟨g.declared.map written, ?_⟩
  rw [List.map_map]
  exact ((List.map_congr_left hplain).trans (List.map_id _)).symm

end Grammar

namespace Agda

/-- The names under which a module imports those of the library. -/
def importedNames : List String := builtins.flatMap fun b => b.2.map Prod.snd

example : importedNames =
    ["#Char", "Double", "Integer", "#List", "#String", "#stringFromList"] := rfl

/-- A name is imported with a hash sign, or else it is that of a token. -/
theorem hash_mem_or_mem_baseTokens {name : String} (h : name ∈ importedNames) :
    '#' ∈ name.toList ∨ name ∈ baseTokens := by
  have hall : ∀ name ∈ importedNames, '#' ∈ name.toList ∨ name ∈ baseTokens := by decide
  exact hall name h

theorem printerName_injective : Function.Injective printerName :=
  fun _ _ h => (String.append_right_inj _).1 h

end Agda

open Agda

variable {text : String} {g : Grammar}

/-- The declarations of a grammar that was read have distinct names, and so have their printers.
Each name is a word. It is that of a token only if one of the rules for it has a precedence level as
its result, and that of the type of identifiers only if the grammar has a category of this name. -/
theorem declared_names_distinct (h : Grammar.read text = .ok g) :
    ∃ names : List String, g.dataDeclarations.map DataDecl.category = names.map .plain ∧
      names.Nodup ∧ (names.map printerName).Nodup ∧
      (∀ name ∈ names, isWord name = true ∧ '#' ∉ name.toList) ∧
      (∀ name ∈ names,
        name ∉ [charType, listType, stringType, stringFromList] ∧
          (name ∈ importedNames ∨ name ∈ baseTokens ∨ name ∈ g.tokens →
            ∃ r ∈ g.rules, r.HasConstructor ∧ ∃ rank, r.category = .level name rank) ∧
          (printerName name = printerName identType ↔ name = identType)) ∧
      (identType ∈ names ↔
        ∃ r ∈ g.rules, r.HasConstructor ∧ r.category.normalize = .plain identType) := by
  obtain ⟨names, hnames⟩ := Grammar.exists_names_of_read h
  have hmem : ∀ name, name ∈ names ↔ .plain name ∈ g.declared := by
    intro name
    rw [hnames, List.mem_map_of_injective fun _ _ => Category.plain.inj]
  have hnodup : names.Nodup := by
    have hdeclared := g.nodup_declared
    rw [hnames] at hdeclared
    exact List.Nodup.of_map Category.plain hdeclared
  have hword : ∀ name ∈ names, isWord name = true := by
    intro name hname
    obtain ⟨_, ⟨⟩, hword⟩ := Grammar.exists_name_of_mem_declared h ((hmem name).1 hname)
    exact hword
  have hlevel : ∀ name ∈ names, name ∈ baseTokens ∨ name ∈ g.tokens →
      ∃ r ∈ g.rules, r.HasConstructor ∧ ∃ rank, r.category = .level name rank :=
    fun name hname => Grammar.exists_level_of_known h ((hmem name).1 hname)
  have hhash : ∀ name ∈ names, '#' ∉ name.toList := fun name hname =>
    hash_notMem_of_isWord (hword name hname)
  refine ⟨names, hnames, hnodup, List.Nodup.map printerName_injective hnodup,
    fun name hname => ⟨hword name hname, hhash name hname⟩, fun name hname => ⟨?_, ?_, ?_⟩, ?_⟩
  · intro himported
    have hall : ∀ s ∈ [charType, listType, stringType, stringFromList], '#' ∈ s.toList := by decide
    exact hhash name hname (hall name himported)
  · rintro (himported | hknown)
    · rcases hash_mem_or_mem_baseTokens himported with hmark | hbase
      · exact absurd hmark (hhash name hname)
      · exact hlevel name hname (.inl hbase)
    · exact hlevel name hname hknown
  · exact printerName_injective.eq_iff
  · rw [hmem, Grammar.mem_declared_iff]

/-- A category with a level, lists of it, and a declared token. -/
theorem declared_names_distinct_levels :
    ∃ g, Grammar.read
        "token Name letter ; App . Exp1 ::= Exp1 [Exp] ; Var . Exp ::= Name ; Skip . Stm ::= ;" =
          .ok g ∧
      ∃ names : List String, g.dataDeclarations.map DataDecl.category = names.map .plain ∧
        names.Nodup ∧ (names.map printerName).Nodup ∧
        ∀ name ∈ names, isWord name = true ∧ '#' ∉ name.toList := by
  have hread : Grammar.read
      "token Name letter ; App . Exp1 ::= Exp1 [Exp] ; Var . Exp ::= Name ; Skip . Stm ::= ;" =
        .ok ⟨[⟨"App", .level "Exp" 1,
            [.category (.level "Exp" 1), .category (.list (.plain "Exp"))], false⟩,
          ⟨"Var", .plain "Exp", [.category (.token "Name")], false⟩,
          ⟨"Skip", .plain "Stm", [], false⟩], ["Name"], []⟩ := by
    decide +kernel
  obtain ⟨names, hnames, hnodup, hprinters, hwords, -⟩ := declared_names_distinct hread
  exact ⟨_, hread, names, hnames, hnodup, hprinters, hwords⟩

/-- A category is declared under the name of the type of identifiers, and two under those of tokens,
by their precedence levels. -/
theorem read_declares_identifiers :
    ∃ g, Grammar.read
        "token Name letter ; A . Id ::= \"a\" ; B . Integer1 ::= \"b\" ; C . Name2 ::= \"c\" ;" =
          .ok g ∧
      g.dataDeclarations.map DataDecl.category = [.plain "Id", .plain "Integer", .plain "Name"] ∧
      ¬ ∀ name, .plain name ∈ g.dataDeclarations.map DataDecl.category →
        name ∉ importedNames ∧ name ≠ identType ∧ name ∉ baseTokens ∧ name ∉ g.tokens ∧
          printerName name ≠ printerName identType := by
  have hread : Grammar.read
      "token Name letter ; A . Id ::= \"a\" ; B . Integer1 ::= \"b\" ; C . Name2 ::= \"c\" ;" =
        .ok ⟨[⟨"A", .plain "Id", [.terminal "a"], false⟩,
          ⟨"B", .level "Integer" 1, [.terminal "b"], false⟩,
          ⟨"C", .level "Name" 2, [.terminal "c"], false⟩], ["Name"], []⟩ := by
    decide +kernel
  refine ⟨_, hread, by decide, fun hall => ?_⟩
  exact (hall identType (by decide)).2.1 rfl

end GrammarBindings
