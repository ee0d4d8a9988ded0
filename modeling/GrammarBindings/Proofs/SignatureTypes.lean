import GrammarBindings.Proofs.DeclaredNames
import GrammarBindings.Proofs.GeneratedModules
import GrammarBindings.Proofs.Signatures

/-!
# Types in the signatures of a module

A type in the signature of a constructor or of a printer is a list type, or it is called as a
category or a token. Where every category that is an argument of a constructor has a declaration, so
have all types in signatures, apart from the types of tokens: those are called by the names of their
tokens, and only two of the library's types have such a name.
-/

namespace GrammarBindings.Agda

section Types

variable {c : Category}

/-- The words of a type are those of its lists and the name in the middle of them. -/
theorem eq_of_mem_wordsOf_typeText (hc : c.isAbstract = true) (hleaf : isWord c.leaf.written = true)
    {name : String} (h : name ∈ wordsOf (typeText c)) :
    name = listType ∨ name = c.leaf.written := by
  induction c with
  | plain s =>
    have hs : isWord s = true := hleaf
    rw [typeText, wordsOf_word hs, List.mem_singleton] at h
    exact .inr h
  | token s =>
    have hs : isWord s = true := hleaf
    rw [typeText, wordsOf_word hs, List.mem_singleton] at h
    exact .inr h
  | list element ih =>
    have hparens : ∀ b : Bool, wordsOf (if b then "(" ++ typeText element ++ ")"
        else typeText element) = wordsOf (typeText element) := by
      intro b
      cases b with
      | true => exact wordsOf_parens _
      | false => rfl
    have htype : typeText (.list element) = "#List" ++ " " ++
        (if isComposite element then "(" ++ typeText element ++ ")" else typeText element) := by
      rw [typeText]
      rfl
    have hlist : wordsOf "#List" = [listType] := by decide
    rw [htype, wordsOf_space, hparens, hlist, List.mem_append, List.mem_singleton] at h
    exact h.elim .inl (ih hc hleaf)
  | _ => cases hc

end Types

section Grammars

variable {text : String} {g : Grammar}

theorem exists_rule_of_mem_constructors {d : DataDecl} {k : Constructor}
    (hd : d ∈ g.dataDeclarations) (hk : k ∈ d.constructors) :
    ∃ r ∈ g.rules, r.HasConstructor ∧ r.constructor = k := by
  have hgroups := areGroups_dataDeclarations g.rules
  obtain ⟨r, hr, rfl⟩ := List.mem_map.1 (((hgroups.constructors d hd).mem_iff k).1 hk)
  obtain ⟨hmem, hconstructor⟩ := List.mem_filter.1 (List.mem_of_mem_filter hr)
  exact ⟨r, hmem, of_decide_eq_true hconstructor, rfl⟩

theorem hasWords_of_read (h : Grammar.read text = .ok g) :
    ∀ d ∈ g.dataDeclarations, HasWords d := by
  intro d hd
  constructor
  · exact Grammar.exists_name_of_mem_declared h (List.mem_map_of_mem hd)
  · intro k hk
    obtain ⟨r, hr, hconstructor, rfl⟩ := exists_rule_of_mem_constructors hd hk
    exact (Grammar.isNamed_of_read h hr hconstructor).label

/-- The types in signatures are some of the library's, the declared ones, and those of the arguments
of constructors. -/
theorem mem_typeNames_of_signature {ds : List DataDecl} (hds : ∀ d ∈ ds, HasWords d)
    {line name : String} (h : Signature ds line) (hname : name ∈ typeNames line) :
    name ∈ [charType, listType, stringType, identType] ∨ .plain name ∈ ds.map DataDecl.category ∨
      ∃ d ∈ ds, ∃ k ∈ d.constructors, ∃ c ∈ k.arguments, name ∈ wordsOf (typeText c) := by
  have hwritten : ∀ d ∈ ds, .plain d.category.written ∈ ds.map DataDecl.category := by
    intro d hd
    rw [(hds d hd).plain_written]
    exact List.mem_map_of_mem hd
  cases h with
  | identifier =>
    have hall : ∀ name ∈ typeNames "  mkId : #List #Char → Id",
        name ∈ [charType, listType, stringType, identType] := by decide +kernel
    exact .inl (hall name hname)
  | identifierPrinter =>
    have hall : ∀ name ∈ typeNames "printId : Id → #String",
        name ∈ [charType, listType, stringType, identType] := by decide +kernel
    exact .inl (hall name hname)
  | @constructor d k hd hk =>
    have hword := (hds d hd).isWord_written
    rcases mem_typeNames_of_signatureText hword ((hds d hd).constructors k hk) hname with
      rfl | ⟨c, hc, hmem⟩
    · exact .inr (.inl (hwritten d hd))
    · exact .inr (.inr ⟨d, hd, k, hk, c, hc, hmem⟩)
  | @printer d hd =>
    rcases mem_typeNames_of_printerLine (hds d hd).isWord_written hname with rfl | rfl
    · exact .inr (.inl (hwritten d hd))
    · exact .inl (by decide)

/-- In the type of an argument there are lists and the name of a plain category or of a token. -/
theorem eq_of_mem_wordsOf_argument (h : Grammar.read text = .ok g) {r : Rule} (hr : r ∈ g.rules)
    (hconstructor : r.HasConstructor) {c : Category} (hc : c ∈ r.arguments) {name : String}
    (hname : name ∈ wordsOf (typeText c)) :
    name = listType ∨ c.leaf = .plain name ∨
      c.leaf = .token name ∧ (name ∈ Category.baseTokens ∨ name ∈ g.tokens) := by
  obtain ⟨leafName, hword, hleaf⟩ :=
    (Grammar.isNamed_of_read h hr hconstructor).leaf_of_mem_arguments hc
  have hwritten : c.leaf.written = leafName := by
    rcases hleaf with hleaf | ⟨hleaf, -⟩ <;> rw [hleaf, Category.written]
  have habstract := (Grammar.isTyped_of_read h r hr).isAbstract_of_mem_arguments c hc
  rcases eq_of_mem_wordsOf_typeText habstract (hwritten ▸ hword) hname with hlist | hleafName
  · exact .inl hlist
  · obtain rfl := hleafName.trans hwritten
    exact .inr hleaf

/-- The generator writes the lines of a module, and in them signatures for the constructors and the
printers only. Where each category that is an argument of a constructor has a declaration, every
type in a signature is imported, that of identifiers, or declared, but for the types of other tokens
than numbers. -/
theorem signature_types_declared (h : Grammar.read text = .ok g)
    (hdeclared : ∀ r ∈ g.rules, r.HasConstructor → ∀ c ∈ r.arguments, ∀ name,
      c.leaf = .plain name → .plain name ∈ g.dataDeclarations.map DataDecl.category)
    (time : String) (o : Options) :
    let lines := moduleLines time (moduleNames o) g.dataDeclarations
    generate time o g = .ok ⟨agdaFile o, "\n".intercalate lines⟩ ∧
      (∀ line, line ∈ lines ∧ IsSignature line ↔ Signature g.dataDeclarations line) ∧
      ∀ line ∈ lines, IsSignature line → ∀ name ∈ typeNames line,
        (name ∈ importedNames ∧ name ≠ stringFromList) ∨ name = identType ∨
          "  data " ++ name ++ " : Set where" ∈ lines ∨
          (name ∈ ["Ident", "Char", "String"] ∨ name ∈ g.tokens) ∧
            ∃ r ∈ g.rules, r.HasConstructor ∧ ∃ c ∈ r.arguments, c.leaf = .token name := by
  intro lines
  have hds := hasWords_of_read h
  have htyped := Grammar.isTyped_dataDeclarations_of_read h
  refine ⟨generate_eq_moduleLines htyped time o,
    fun line => mem_moduleLines_and_isSignature_iff hds, ?_⟩
  intro line hline hsignature name hname
  have hlibrary : ∀ name ∈ [charType, listType, stringType, identType],
      (name ∈ importedNames ∧ name ≠ stringFromList) ∨ name = identType := by decide
  have hnumber : ∀ name ∈ Category.baseTokens,
      (name ∈ importedNames ∧ name ≠ stringFromList) ∨ name ∈ ["Ident", "Char", "String"] := by
    decide
  have hsignature := (mem_moduleLines_and_isSignature_iff hds).1 ⟨hline, hsignature⟩
  rcases mem_typeNames_of_signature hds hsignature hname with
    hmem | hcategory | ⟨d, hd, k, hk, c, hc, hword⟩
  · exact (hlibrary name hmem).imp_right .inl
  · exact .inr (.inr (.inl (dataHead_mem_moduleLines hcategory)))
  obtain ⟨r, hr, hconstructor, rfl⟩ := exists_rule_of_mem_constructors hd hk
  rcases eq_of_mem_wordsOf_argument h hr hconstructor hc hword with
    rfl | hleaf | ⟨hleaf, hbase | htoken⟩
  · exact .inl (by decide)
  · have hcategory := hdeclared r hr hconstructor c hc name hleaf
    exact .inr (.inr (.inl (dataHead_mem_moduleLines hcategory)))
  · rcases hnumber name hbase with himported | hother
    · exact .inl himported
    · exact .inr (.inr (.inr ⟨.inl hother, r, hr, hconstructor, c, hc, hleaf⟩))
  · exact .inr (.inr (.inr ⟨.inr htoken, r, hr, hconstructor, c, hc, hleaf⟩))

/-- Lists of lists, a level, a number and a declared token: only the token has no type. -/
theorem signature_types_declared_lists :
    ∃ g, Grammar.read
        "token Name letter ; Call . Exp1 ::= Name [[Exp2]] ; Num . Exp ::= Integer ;" = .ok g ∧
      let lines := moduleLines "now" (moduleNames {}) g.dataDeclarations
      ∀ line ∈ lines, IsSignature line → ∀ name ∈ typeNames line,
        (name ∈ importedNames ∧ name ≠ stringFromList) ∨ name = identType ∨
          "  data " ++ name ++ " : Set where" ∈ lines ∨
          (name ∈ ["Ident", "Char", "String"] ∨ name ∈ g.tokens) ∧
            ∃ r ∈ g.rules, r.HasConstructor ∧ ∃ c ∈ r.arguments, c.leaf = .token name := by
  let g : Grammar :=
    ⟨[⟨"Call", .level "Exp" 1,
        [.category (.token "Name"), .category (.list (.list (.level "Exp" 2)))], false⟩,
      ⟨"Num", .plain "Exp", [.category (.token "Integer")], false⟩], ["Name"], []⟩
  have hread : Grammar.read
      "token Name letter ; Call . Exp1 ::= Name [[Exp2]] ; Num . Exp ::= Integer ;" = .ok g := by
    decide +kernel
  have hleaves : ∀ r ∈ g.rules, ∀ c ∈ r.arguments,
      c.leaf ∈ [.plain "Exp", .token "Name", .token "Integer"] := by decide
  refine ⟨g, hread, (signature_types_declared hread ?_ "now" {}).2.2⟩
  intro r hr _ c hc name hleaf
  have hname := hleaves r hr c hc
  rw [hleaf] at hname
  obtain rfl : name = "Exp" := by simpa using hname
  decide

/-- An identifier is an argument under the name of its token, which nothing declares. -/
theorem ident_type_undeclared :
    ∃ g, Grammar.read "EVar . Exp ::= Ident ;" = .ok g ∧
      (∀ r ∈ g.rules, r.HasConstructor → ∀ c ∈ r.arguments, ∀ name,
        c.leaf = .plain name → .plain name ∈ g.dataDeclarations.map DataDecl.category) ∧
      let lines := moduleLines "now" (moduleNames {}) g.dataDeclarations
      generate "now" {} g = .ok ⟨agdaFile {}, "\n".intercalate lines⟩ ∧
        "    EVar : Ident → Exp" ∈ lines ∧
        ¬ ∀ line ∈ lines, IsSignature line → ∀ name ∈ typeNames line,
          name ∈ importedNames ∨ name = identType ∨
            "  data " ++ name ++ " : Set where" ∈ lines := by
  let g : Grammar := ⟨[⟨"EVar", .plain "Exp", [.category (.token "Ident")], false⟩], [], []⟩
  have hread : Grammar.read "EVar . Exp ::= Ident ;" = .ok g := by decide +kernel
  have hleaves : ∀ r ∈ g.rules, ∀ c ∈ r.arguments, c.leaf = .token "Ident" := by decide
  have htyped := Grammar.isTyped_dataDeclarations_of_read hread
  refine ⟨g, hread, ?_, generate_eq_moduleLines htyped "now" {}, by decide +kernel, fun hall => ?_⟩
  · intro r hr _ c hc name hleaf
    rw [hleaves r hr c hc] at hleaf
    cases hleaf
  · have hundeclared := hall "    EVar : Ident → Exp" (by decide +kernel) (by decide +kernel)
      "Ident" (by decide +kernel)
    revert hundeclared
    decide +kernel

end Grammars

end GrammarBindings.Agda
