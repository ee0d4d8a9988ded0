import GrammarBindings.Proofs.DeclarationGroups
import GrammarBindings.Proofs.GeneratedModules

/-!
# Abstract parts

The abstract part of some rules are those that have a constructor, without their terminals, their
precedence levels and their marks as internal. It has the same data declarations as the rules, and
these are all that a module is generated from, apart from the names of modules and files. The names
depend on three of the options, so no other option and no concrete syntax shows in a module.
-/

namespace GrammarBindings

/-- A category without its precedence levels; a terminal is dropped. -/
def Item.abstracted? : Item → Option Item
  | terminal _ => none
  | category c => some (category c.normalize)

def Rule.abstracted (r : Rule) : Rule where
  label := r.label
  category := r.category.normalize
  items := r.items.filterMap Item.abstracted?
  internal := false

def abstractPart (rules : List Rule) : List Rule :=
  (rules.filter fun r => r.HasConstructor).map Rule.abstracted

namespace Rule

theorem arguments_abstracted (r : Rule) : r.abstracted.arguments = r.arguments := by
  rw [arguments, arguments, abstracted, List.map_filterMap, List.map_filterMap,
    List.filterMap_filterMap]
  refine List.filterMap_congr fun i _ => ?_
  cases i with
  | terminal s => rfl
  | category c => simp [Item.abstracted?, Item.category?]

@[simp] theorem constructor_abstracted (r : Rule) : r.abstracted.constructor = r.constructor := by
  rw [constructor, arguments_abstracted]
  rfl

@[simp] theorem normalize_category_abstracted (r : Rule) :
    r.abstracted.category.normalize = r.category.normalize :=
  Category.normalize_normalize r.category

theorem HasConstructor.abstracted {r : Rule} (h : r.HasConstructor) :
    r.abstracted.HasConstructor := by
  refine ⟨?_, h.label⟩
  rw [normalize_category_abstracted]
  exact h.result

end Rule

theorem hasConstructor_of_mem_abstractPart {rules : List Rule} {r : Rule}
    (h : r ∈ abstractPart rules) : r.HasConstructor := by
  obtain ⟨r', hr', rfl⟩ := List.mem_map.1 h
  exact (of_decide_eq_true (List.mem_filter.1 hr').2 : r'.HasConstructor).abstracted

theorem dataDeclarations_abstractPart (rules : List Rule) :
    dataDeclarations (abstractPart rules) = dataDeclarations rules := by
  have hfilter : (abstractPart rules).filter (fun r => r.HasConstructor) = abstractPart rules :=
    List.filter_eq_self.2 fun r hr => decide_eq_true (hasConstructor_of_mem_abstractPart hr)
  rw [dataDeclarations, dataDeclarations, Rule.filter_contributes, Rule.filter_contributes, hfilter,
    abstractPart, List.foldl_map]
  simp only [Rule.constructor_abstracted, Rule.normalize_category_abstracted]

namespace Agda

variable {o o' : Options}

section Names

variable (hname : o.grammarName = o'.grammarName) (hdirectory : o.inDirectory = o'.inDirectory)
  (hpackage : o.package = o'.package)

include hname hdirectory hpackage

theorem moduleName_eq_of_options (name : String) : moduleName o name = moduleName o' name := by
  rw [moduleName, moduleName, hname, hdirectory, hpackage]

theorem fileName_eq_of_options (name extension : String) :
    fileName o name extension = fileName o' name extension := by
  rw [fileName, fileName, hname, hdirectory, hpackage]

theorem moduleNames_eq_of_options : moduleNames o = moduleNames o' := by
  have hmodule := moduleName_eq_of_options hname hdirectory hpackage
  rw [moduleNames, moduleNames, agdaModule, agdaModule, hmodule, hmodule, hmodule]

end Names

/-- Grammars with the same abstract part have the same declarations, and for options that agree on
the grammar's name, on its directory and on the package the same file is generated for them, or for
none of them. There is one if every category of the abstract part has a type. -/
theorem generate_eq_of_abstractPart {g g' : Grammar}
    (hpart : abstractPart g.rules = abstractPart g'.rules)
    (hname : o.grammarName = o'.grammarName) (hdirectory : o.inDirectory = o'.inDirectory)
    (hpackage : o.package = o'.package) (time : String) :
    g.dataDeclarations = g'.dataDeclarations ∧ generate time o g = generate time o' g' ∧
      ((∀ r ∈ abstractPart g.rules, r.IsTyped) →
        ∃ content, generate time o g = .ok ⟨agdaFile o, content⟩) := by
  have hdeclarations : g.dataDeclarations = g'.dataDeclarations := by
    rw [Grammar.dataDeclarations, Grammar.dataDeclarations, ← dataDeclarations_abstractPart, hpart,
      dataDeclarations_abstractPart]
  refine ⟨hdeclarations, ?_, fun htyped => exists_generate (fun d hd => ?_) time o⟩
  · rw [generate, generate, moduleNames_eq_of_options hname hdirectory hpackage, hdeclarations,
      agdaFile, agdaFile, fileName_eq_of_options hname hdirectory hpackage]
  · rw [Grammar.dataDeclarations, ← dataDeclarations_abstractPart] at hd
    exact (isAbstract_dataDeclarations htyped d hd).isTyped

/-- Levels, terminals and rules for lists on the one side, bare constructors on the other. -/
theorem generate_eq_of_abstractPart_levels :
    let g : Grammar :=
      ⟨[⟨"_", .plain "E", [.category (.level "E" 1)], false⟩, ⟨"[]", .list (.plain "E"), [], false⟩,
        ⟨"Add", .level "E" 2, [.category (.level "E" 1), .terminal "+", .category (.plain "E")],
          false⟩,
        ⟨"Args", .plain "E", [.category (.list (.level "E" 1)), .category (.token "Ident")], true⟩],
        [], [.plain "E"]⟩
    let g' : Grammar :=
      ⟨[⟨"Add", .plain "E", [.category (.plain "E"), .category (.level "E" 3)], true⟩,
        ⟨"Kept", .token "Name", [], false⟩,
        ⟨"Args", .level "E" 1,
          [.terminal "(", .category (.list (.plain "E")), .category (.token "Ident"),
            .terminal ")"], false⟩],
        ["Name"], []⟩
    let o : Options := { grammarName := "Calc" }
    let o' : Options :=
      { target := .profile, makefile := true, lexer := .alex1, shareStrings := true,
        byteStrings := true, parser := .glr, xml := .extended, grammarName := "Calc",
        multilingual := true, cnf := true, lineNumbers := true, visualStudio := true, wcf := true }
    abstractPart g.rules = abstractPart g'.rules ∧ g.dataDeclarations = g'.dataDeclarations ∧
      generate "now" o g = generate "now" o' g' ∧
        ∃ content, generate "now" o g = .ok ⟨agdaFile o, content⟩ := by
  intro g g' o o'
  have hpart : abstractPart g.rules = abstractPart g'.rules := by decide
  have hrules : abstractPart g.rules =
      [⟨"Add", .plain "E", [.category (.plain "E"), .category (.plain "E")], false⟩,
        ⟨"Args", .plain "E", [.category (.list (.plain "E")), .category (.token "Ident")],
          false⟩] := by
    decide
  have htyped : ∀ r ∈ abstractPart g.rules, r.IsTyped := by
    rw [hrules]
    intro r hr
    rcases List.mem_pair.1 hr with rfl | rfl
    · exact ⟨rfl, by simp [hasType]⟩
    · exact ⟨rfl, by simp [hasType]⟩
  have hsame : g.dataDeclarations = g'.dataDeclarations ∧
      generate "now" o g = generate "now" o' g' ∧ ((∀ r ∈ abstractPart g.rules, r.IsTyped) →
        ∃ content, generate "now" o g = .ok ⟨agdaFile o, content⟩) :=
    generate_eq_of_abstractPart hpart rfl rfl rfl "now"
  exact ⟨hpart, hsame.1, hsame.2.1, hsame.2.2 htyped⟩

end Agda
end GrammarBindings
