import GrammarBindings.Agda.Naming
import GrammarBindings.Proofs.ContributedRules
import GrammarBindings.Proofs.DeclarationGroups
import GrammarBindings.Proofs.ModuleLines

/-!
# Modules of grammars that were read

Every category that is read has a type, so the rules of a grammar that was read are made of such
categories, those for lists and for precedence levels included. Their data declarations have plain
categories and constructors over normalized categories with a type, which is all that the generator
asks for: it never fails on a grammar that was read.
-/

namespace GrammarBindings

open Agda

variable {declared : List String}

theorem hasType_of_ofName {cs : List Char} {c : Category}
    (h : Category.ofName declared cs = .ok c) : hasType c = true := by
  rw [Category.ofName] at h
  split at h
  · cases h
    rfl
  · split at h
    · obtain ⟨k, -, rfl⟩ := map_eq_ok_iff.1 h
      rfl
    · cases h
      rfl

theorem hasType_of_ofChars {cs : List Char} {c : Category}
    (h : Category.ofChars declared cs = .ok c) : hasType c = true := by
  fun_induction Category.ofChars declared cs generalizing c with
  | case1 cs inner hb ih =>
    obtain ⟨element, helement, rfl⟩ := map_eq_ok_iff.1 h
    have htype : hasType element = true := ih helement
    exact htype
  | case2 cs hb => exact hasType_of_ofName h

theorem Category.Spelled.hasType {ts : List Token} {c : Category}
    (h : Category.Spelled declared ts c) : hasType c = true := by
  induction h with
  | word _ name => exact hasType_of_ofChars name
  | list _ _ _ ih => exact ih

/-- The result and the items of a rule are categories that have a type. -/
structure Rule.IsTyped (r : Rule) : Prop where
  result : hasType r.category = true
  items : ∀ c, .category c ∈ r.items → hasType c = true

theorem ItemsSpelled.hasType {ts : List Token} {items : List Item}
    (h : ItemsSpelled declared ts items) {c : Category} (hc : .category c ∈ items) :
    hasType c = true := by
  induction h with
  | nil => cases hc
  | terminal _ _ ih =>
    rcases List.mem_cons.1 hc with hc | hc
    · cases hc
    · exact ih hc
  | category hs _ ih =>
    rcases List.mem_cons.1 hc with hc | hc
    · cases hc
      exact hs.hasType
    · exact ih hc

theorem RuleSpelled.isTyped {ts : List Token} {r : Rule} (h : RuleSpelled declared ts r) :
    r.IsTyped := by
  cases h with
  | mk _ _ hresult _ hitems => exact ⟨hresult.hasType, fun c hc => hitems.hasType hc⟩

theorem category_notMem_ite {c : Category} (p : Prop) [Decidable p] (s : String) :
    Item.category c ∉ if p then [Item.terminal s] else [] := by
  split <;> simp

theorem isTyped_of_mem_listRules {element : Category} (helement : hasType element = true)
    (delimiter : String) (terminated nonempty : Bool) {r : Rule}
    (h : r ∈ listRules element delimiter terminated nonempty) : r.IsTyped := by
  have hlist : hasType (.list element) = true := helement
  have hone : ∀ c, .category c ∈ [Item.category element] ++
      (if terminated then [.terminal delimiter] else []) → hasType c = true := by
    intro c hc
    rcases List.mem_append.1 hc with hc | hc
    · cases List.mem_singleton.1 hc
      exact helement
    · exact absurd hc (category_notMem_ite _ delimiter)
  have hmore : ∀ c, .category c ∈ [Item.category element] ++
      (if terminated || delimiter ≠ "" then [.terminal delimiter] else []) ++
        [.category (.list element)] → hasType c = true := by
    intro c hc
    rcases List.mem_append.1 hc with hc | hc
    · rcases List.mem_append.1 hc with hc | hc
      · cases List.mem_singleton.1 hc
        exact helement
      · exact absurd hc (category_notMem_ite _ delimiter)
    · cases List.mem_singleton.1 hc
      exact hlist
  obtain ⟨-, rfl⟩ | ⟨-, rfl⟩ | rfl := mem_listRules_iff.1 h
  · exact ⟨hlist, by simp⟩
  · exact ⟨hlist, hone⟩
  · exact ⟨hlist, hmore⟩

theorem hasType_atLevel (base : String) (k : Nat) : hasType (atLevel base k) = true := by
  rw [atLevel]
  split
  · rfl
  · rfl

theorem isTyped_of_mem_coercionRules {base : String} {levels : Nat} {r : Rule}
    (h : r ∈ coercionRules base levels) : r.IsTyped := by
  rcases List.mem_append.1 h with h | h
  · obtain ⟨k, -, rfl⟩ := List.mem_map.1 h
    refine ⟨hasType_atLevel base k, ?_⟩
    intro c hc
    cases List.mem_singleton.1 hc
    exact hasType_atLevel base (k + 1)
  · obtain rfl := List.mem_singleton.1 h
    refine ⟨hasType_atLevel base levels, ?_⟩
    intro c hc
    simp only [List.mem_cons, List.not_mem_nil, reduceCtorEq, Item.category.injEq, false_or,
      or_false] at hc
    rw [hc]
    rfl

/-- Wherever a rule comes from, it is one over categories with a type only. -/
theorem ContributedRule.isTyped {ts : List Token} {r : Rule} (h : ContributedRule declared ts r) :
    r.IsTyped := by
  cases h with
  | spelled _ rule => exact rule.isTyped
  | list _ category mem => exact isTyped_of_mem_listRules category.hasType _ _ _ mem
  | coercion mem => exact isTyped_of_mem_coercionRules mem

theorem Grammar.isTyped_of_read {text : String} {g : Grammar} (h : Grammar.read text = .ok g) :
    ∀ r ∈ g.rules, r.IsTyped := by
  intro r hr
  obtain ⟨s, -, hcontributed⟩ := exists_contributed_of_read h hr
  exact hcontributed.isTyped

/-- A category of the abstract syntax: a plain one, that of a token, or a list of such. -/
def Category.isAbstract : Category → Bool
  | plain _ | token _ => true
  | list element => element.isAbstract
  | _ => false

theorem Category.isAbstract_normalize {c : Category} (h : hasType c = true) :
    c.normalize.isAbstract = true := by
  induction c with
  | plain name => rfl
  | token name => rfl
  | level name rank => rfl
  | list element ih => exact ih h
  | internal => cases h
  | stray s => cases h

theorem Category.hasType_of_isAbstract {c : Category} (h : c.isAbstract = true) :
    hasType c = true := by
  induction c with
  | plain name => rfl
  | token name => rfl
  | list element ih => exact ih h
  | _ => cases h

namespace DataDecl

/-- A plain category with at least one constructor, all over categories of the abstract syntax. -/
structure IsAbstract (d : DataDecl) : Prop where
  category : ∃ name, d.category = .plain name
  constructors : d.constructors ≠ []
  arguments : ∀ k ∈ d.constructors, ∀ c ∈ k.arguments, c.isAbstract = true

theorem IsAbstract.isTyped {d : DataDecl} (h : d.IsAbstract) : Agda.IsTyped d :=
  ⟨h.category, fun k hk c hc => Category.hasType_of_isAbstract (h.arguments k hk c hc)⟩

end DataDecl

/-- The result of a rule that has a constructor is a plain category. -/
theorem Rule.IsTyped.exists_plain {r : Rule} (h : r.IsTyped) (hr : r.HasConstructor) :
    ∃ name, r.category.normalize = .plain name := by
  obtain ⟨name, hname | hname⟩ := hr.result
  · exact ⟨name, hname⟩
  · have hstray := Category.isAbstract_normalize h.result
    rw [hname] at hstray
    cases hstray

theorem Rule.IsTyped.isAbstract_of_mem_arguments {r : Rule} (h : r.IsTyped) :
    ∀ c ∈ r.constructor.arguments, c.isAbstract = true := by
  intro c hc
  obtain ⟨c', hitem, rfl⟩ := mem_arguments_iff.1 hc
  exact Category.isAbstract_normalize (h.items c' hitem)

theorem isAbstract_dataDeclarations {rules : List Rule} (h : ∀ r ∈ rules, r.IsTyped) :
    ∀ d ∈ dataDeclarations rules, d.IsAbstract := by
  intro d hd
  have hgroups := areGroups_dataDeclarations rules
  refine ⟨?_, hgroups.constructors_ne_nil hd, ?_⟩
  · have hcategory := (hgroups.categories.mem_iff _).1 (List.mem_map_of_mem hd)
    obtain ⟨r, hr, hc⟩ := List.mem_map.1 hcategory
    obtain ⟨hmem, hconstructor⟩ := List.mem_filter.1 hr
    rw [← hc]
    exact (h r hmem).exists_plain (of_decide_eq_true hconstructor)
  · intro k hk
    obtain ⟨r, hr, rfl⟩ := List.mem_map.1 (((hgroups.constructors d hd).mem_iff k).1 hk)
    exact (h r (List.mem_of_mem_filter (List.mem_of_mem_filter hr))).isAbstract_of_mem_arguments

theorem Grammar.isTyped_dataDeclarations_of_read {text : String} {g : Grammar}
    (h : Grammar.read text = .ok g) : ∀ d ∈ g.dataDeclarations, Agda.IsTyped d := fun d hd =>
  (isAbstract_dataDeclarations (isTyped_of_read h) d hd).isTyped

/-- From declarations with a type the lines of a module are generated, whatever the options. -/
theorem generate_eq_moduleLines {g : Grammar} (h : ∀ d ∈ g.dataDeclarations, Agda.IsTyped d)
    (time : String) (o : Options) :
    Agda.generate time o g = .ok ⟨agdaFile o,
      "\n".intercalate (moduleLines time (moduleNames o) g.dataDeclarations)⟩ := by
  obtain ⟨document, hdocument, hlines⟩ := exists_moduleDocument time (moduleNames o) h
  exact map_eq_ok_iff.2 ⟨_, map_eq_ok_iff.2 ⟨document, hdocument, hlines.render_eq⟩, rfl⟩

theorem exists_generate {g : Grammar} (h : ∀ d ∈ g.dataDeclarations, Agda.IsTyped d)
    (time : String) (o : Options) :
    ∃ content, Agda.generate time o g = .ok ⟨agdaFile o, content⟩ :=
  ⟨_, generate_eq_moduleLines h time o⟩

/-- Whatever text was read as a grammar, its module is generated: no declaration has a category or
an argument that the generator refuses, and every line of the module can be written. -/
theorem generate_of_read {text : String} {g : Grammar} (h : Grammar.read text = .ok g)
    (time : String) (o : Options) :
    (∀ d ∈ g.dataDeclarations, d.IsAbstract) ∧
      ∃ document content, moduleDocument time (moduleNames o) g.dataDeclarations = .ok document ∧
        document.render? = .ok content ∧ Agda.generate time o g = .ok ⟨agdaFile o, content⟩ := by
  have habstract : ∀ d ∈ g.dataDeclarations, d.IsAbstract :=
    isAbstract_dataDeclarations (Grammar.isTyped_of_read h)
  have htyped : ∀ d ∈ g.dataDeclarations, Agda.IsTyped d := fun d hd => (habstract d hd).isTyped
  obtain ⟨document, hdocument, hlines⟩ := exists_moduleDocument time (moduleNames o) htyped
  refine ⟨habstract, document, _, hdocument, hlines.render?_eq, ?_⟩
  exact map_eq_ok_iff.2 ⟨_, map_eq_ok_iff.2 ⟨document, hdocument, hlines.render_eq⟩, rfl⟩

/-- Two levels, a labelled rule and an internal one for lists of the upper level. -/
theorem generate_of_read_levels :
    ∃ g, Grammar.read
        "coercions E 1 ; Add . E ::= E \"+\" E1 ; internal Args . E ::= [E1] ;" = .ok g ∧
      (∀ d ∈ g.dataDeclarations, d.IsAbstract) ∧
        ∃ document content,
          moduleDocument "now" (moduleNames {}) g.dataDeclarations = .ok document ∧
            document.render? = .ok content ∧
            Agda.generate "now" {} g = .ok ⟨agdaFile {}, content⟩ := by
  have hread : Grammar.read
      "coercions E 1 ; Add . E ::= E \"+\" E1 ; internal Args . E ::= [E1] ;" =
        .ok ⟨[⟨"_", .plain "E", [.category (.level "E" 1)], false⟩,
          ⟨"_", .level "E" 1, [.terminal "(", .category (.plain "E"), .terminal ")"], false⟩,
          ⟨"Add", .plain "E", [.category (.plain "E"), .terminal "+", .category (.level "E" 1)],
            false⟩,
          ⟨"Args", .plain "E", [.category (.list (.level "E" 1))], true⟩], [], []⟩ := by
    decide +kernel
  exact ⟨_, hread, generate_of_read hread "now" {}⟩

end GrammarBindings
