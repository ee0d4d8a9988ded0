import GrammarBindings.Proofs.ModuleLines
import GrammarBindings.Proofs.ReadNames

/-!
# Declarations that are refused

Generating goes through the declarations in order, and in each through its category and then the
arguments of its constructors. It fails at the first of these parts that offends: a category that is
not a plain one, or an argument with the marker of internal rules or a text inside all lists. Where
no part offends the module is generated. The printers need plain categories too, but by then all of
them have been found to be such.
-/

namespace GrammarBindings.Agda

/-- What the generator looks at in a declaration. -/
inductive Part where
  | declared (c : Category)
  | argument (c : Category)

/-- The category of a declaration comes first, and then the arguments of its constructors. -/
def partsOf (d : DataDecl) : List Part :=
  .declared d.category :: (d.constructors.flatMap Constructor.arguments).map .argument

/-- The part is none that a declaration can have, and this is how the user is told. -/
inductive Part.Offends : Part → String → Prop where
  | unnamed {c : Category} (h : ∀ name, c ≠ .plain name) :
      Offends (.declared c) ("pr_data: unexpected category " ++ c.described)
  | internal {c : Category} (h : c.leaf = .internal) :
      Offends (.argument c) "pretty_cat: unexpected case InternalCat"
  | stray {c : Category} {s : String} (h : c.leaf = .stray s) :
      Offends (.argument c) ("pretty_cat: not a category: " ++ Text.quote s)

/-- The fault of a part that offends. -/
def Part.fault? : Part → Option Fault
  | declared (.plain _) => none
  | declared c => some (.unnamed "pr_data" c)
  | argument c =>
    match c.leaf with
    | .internal => some .internalType
    | .stray s => some (.noCategory s)
    | _ => none

section Parts

variable {p : Part} {message : String}

theorem Part.offends_iff : p.Offends message ↔ ∃ f, p.fault? = some f ∧ f.message = message := by
  constructor
  · intro h
    cases h with
    | @unnamed c h =>
      cases c with
      | plain name => exact absurd rfl (h name)
      | _ => exact ⟨_, rfl, rfl⟩
    | internal h => exact ⟨.internalType, by rw [fault?, h], rfl⟩
    | @stray c s h => exact ⟨.noCategory s, by rw [fault?, h], rfl⟩
  · rintro ⟨f, hf, rfl⟩
    cases p with
    | declared c =>
      cases c with
      | plain name => cases hf
      | _ =>
        cases hf
        exact .unnamed nofun
    | argument c =>
      rw [fault?] at hf
      split at hf
      · next hleaf =>
        cases hf
        exact .internal hleaf
      · next hleaf =>
        cases hf
        exact .stray hleaf
      · cases hf

theorem Part.fault?_eq_none_iff : p.fault? = none ↔ ∀ m, ¬ p.Offends m := by
  constructor
  · intro h m hm
    obtain ⟨f, hf, -⟩ := offends_iff.1 hm
    rw [h] at hf
    cases hf
  · intro h
    by_contra hne
    obtain ⟨f, hf⟩ := Option.ne_none_iff_exists'.1 hne
    exact h f.message (offends_iff.2 ⟨f, hf, rfl⟩)

end Parts

theorem findSome?_flatMap {α β γ : Type} (f : α → List β) (g : β → Option γ) (as : List α) :
    (as.flatMap f).findSome? g = as.findSome? fun a => (f a).findSome? g := by
  induction as with
  | nil => rfl
  | cons a as ih =>
    rw [List.flatMap_cons, List.findSome?_append, List.findSome?_cons, ih]
    cases (f a).findSome? g with
    | some b => rfl
    | none => rfl

section Faults

variable {ds : List DataDecl}

theorem errorOf?_typeOf (c : Category) : errorOf? (typeOf c) = (Part.argument c).fault? := by
  induction c with
  | list element ih =>
    rw [typeOf, errorOf?_map, ih]
    rfl
  | _ => rfl

theorem errorOf?_nameOf (c : Category) :
    errorOf? (nameOf "pr_data" c) = (Part.declared c).fault? := by
  cases c with
  | _ => rfl

/-- The result of a constructor is the declared category, which has a type. -/
theorem errorOf?_constructorSignature (name : String) (k : Constructor) :
    errorOf? (constructorSignature name k) =
      k.arguments.findSome? fun c => (Part.argument c).fault? := by
  rw [constructorSignature, errorOf?_bind_pure, errorOf?_mapM, List.findSome?_append]
  simp only [errorOf?_typeOf]
  exact Option.or_none

theorem errorOf?_declaration (d : DataDecl) :
    errorOf? (declaration d) = (partsOf d).findSome? Part.fault? := by
  have htype : ∀ name, errorOf? (do
      let type ← dataType name d.constructors
      pure [type, dataPragma name d.constructors]) =
        (d.constructors.flatMap Constructor.arguments).findSome? fun c =>
          (Part.argument c).fault? := by
    intro name
    rw [errorOf?_bind_pure, dataType, errorOf?_bind_pure, errorOf?_mapM, findSome?_flatMap]
    simp only [errorOf?_constructorSignature]
  rw [declaration, errorOf?_bind htype, errorOf?_nameOf, partsOf, List.findSome?_cons,
    List.findSome?_map]
  cases (Part.declared d.category).fault? with
  | some f => rfl
  | none => rfl

theorem errorOf?_declarations (ds : List DataDecl) :
    errorOf? (declarations ds) = (ds.flatMap partsOf).findSome? Part.fault? := by
  rw [declarations, errorOf?_bind_pure, errorOf?_mapM, findSome?_flatMap]
  simp only [errorOf?_declaration]

theorem hasType_of_fault? {c : Category} (h : (Part.argument c).fault? = none) :
    hasType c = true := by
  induction c with
  | list element ih => exact ih h
  | internal => cases h
  | stray s => cases h
  | _ => rfl

theorem isTyped_of_fault? {d : DataDecl} (h : ∀ p ∈ partsOf d, p.fault? = none) : IsTyped d := by
  obtain ⟨hdeclared, harguments⟩ := List.forall_mem_cons.1 h
  constructor
  · cases hc : d.category with
    | plain name => exact ⟨name, rfl⟩
    | _ =>
      rw [hc] at hdeclared
      cases hdeclared
  · intro k hk c hc
    exact hasType_of_fault? (List.forall_mem_map.1 harguments c (List.mem_flatMap.2 ⟨k, hk, hc⟩))

theorem isTyped_of_declarations {types : Document} (h : declarations ds = .ok types) :
    ∀ d ∈ ds, IsTyped d := by
  intro d hd
  have hnone : (ds.flatMap partsOf).findSome? Part.fault? = none := by
    rw [← errorOf?_declarations]
    exact errorOf?_eq_none_iff.2 ⟨types, h⟩
  exact isTyped_of_fault? fun p hp =>
    List.findSome?_eq_none_iff.1 hnone p (List.mem_flatMap.2 ⟨d, hd, hp⟩)

/-- What has been declared has names for its printers. -/
theorem exists_printers_of_declarations {types : Document} (h : declarations ds = .ok types) :
    ∃ printing, printers (ds.map DataDecl.category) = .ok printing := by
  obtain ⟨printing, hprinting, -⟩ := exists_printers (isTyped_of_declarations h)
  exact ⟨printing, hprinting⟩

theorem errorOf?_moduleText (time : String) (names : ModuleNames) (ds : List DataDecl) :
    errorOf? (moduleText time names ds) = (ds.flatMap partsOf).findSome? Part.fault? := by
  obtain ⟨ident, hident, -⟩ := exists_identDeclaration
  rw [moduleText, errorOf?_map, moduleDocument, hident, ok_bind, ← errorOf?_declarations]
  cases htypes : declarations ds with
  | error f => rfl
  | ok types =>
    obtain ⟨printing, hprinting⟩ := exists_printers_of_declarations htypes
    rw [ok_bind, hprinting]
    rfl

end Faults

section Outcomes

variable {time : String} {names : ModuleNames} {ds : List DataDecl} {message : String}

/-- The user is told of the first part that offends. -/
theorem moduleText_fails_with_iff :
    (∃ f, moduleText time names ds = .error f ∧ f.message = message) ↔
      ∃ before p after, ds.flatMap partsOf = before ++ p :: after ∧
        (∀ q ∈ before, ∀ m, ¬ q.Offends m) ∧ p.Offends message := by
  have hfirst : ∀ f, moduleText time names ds = .error f ↔
      ∃ before p after, ds.flatMap partsOf = before ++ p :: after ∧ p.fault? = some f ∧
        ∀ q ∈ before, q.fault? = none := by
    intro f
    rw [← errorOf?_eq_some_iff, errorOf?_moduleText, List.findSome?_eq_some_iff]
  constructor
  · rintro ⟨f, hf, hmessage⟩
    obtain ⟨before, p, after, hparts, hp, hbefore⟩ := (hfirst f).1 hf
    exact ⟨before, p, after, hparts, fun q hq => Part.fault?_eq_none_iff.1 (hbefore q hq),
      Part.offends_iff.2 ⟨f, hp, hmessage⟩⟩
  · rintro ⟨before, p, after, hparts, hbefore, hp⟩
    obtain ⟨f, hf, hmessage⟩ := Part.offends_iff.1 hp
    exact ⟨f, (hfirst f).2 ⟨before, p, after, hparts, hf, fun q hq =>
      Part.fault?_eq_none_iff.2 (hbefore q hq)⟩, hmessage⟩

/-- A declaration has a part that offends if it is no plain category that is declared, or an
argument has the internal marker or a text inside all lists. -/
theorem exists_offends_iff {d : DataDecl} :
    (∃ p ∈ partsOf d, ∃ m, p.Offends m) ↔
      (∀ name, d.category ≠ .plain name) ∨
        ∃ k ∈ d.constructors, ∃ c ∈ k.arguments, c.leaf = .internal ∨ ∃ s, c.leaf = .stray s := by
  constructor
  · rintro ⟨p, hp, m, hm⟩
    rcases List.mem_cons.1 hp with rfl | hp
    · cases hm with
      | unnamed h => exact .inl h
    · obtain ⟨c, hc, rfl⟩ := List.mem_map.1 hp
      obtain ⟨k, hk, hc⟩ := List.mem_flatMap.1 hc
      cases hm with
      | internal h => exact .inr ⟨k, hk, c, hc, .inl h⟩
      | stray h => exact .inr ⟨k, hk, c, hc, .inr ⟨_, h⟩⟩
  · rintro (h | ⟨k, hk, c, hc, h⟩)
    · exact ⟨_, List.mem_cons_self, _, .unnamed h⟩
    · have hp : Part.argument c ∈ partsOf d :=
        List.mem_cons_of_mem _ (List.mem_map_of_mem (List.mem_flatMap.2 ⟨k, hk, hc⟩))
      rcases h with h | ⟨s, h⟩
      · exact ⟨_, hp, _, .internal h⟩
      · exact ⟨_, hp, _, .stray h⟩

theorem moduleText_fails_iff :
    (∃ f, moduleText time names ds = .error f) ↔ ∃ d ∈ ds, ∃ p ∈ partsOf d, ∃ m, p.Offends m := by
  constructor
  · rintro ⟨f, hf⟩
    rw [← errorOf?_eq_some_iff, errorOf?_moduleText] at hf
    obtain ⟨p, hp, hfault⟩ := List.exists_of_findSome?_eq_some hf
    obtain ⟨d, hd, hp⟩ := List.mem_flatMap.1 hp
    exact ⟨d, hd, p, hp, f.message, Part.offends_iff.2 ⟨f, hfault, rfl⟩⟩
  · rintro ⟨d, hd, p, hp, m, hm⟩
    obtain ⟨f, hf, -⟩ := Part.offends_iff.1 hm
    have hsome : ((ds.flatMap partsOf).findSome? Part.fault?).isSome :=
      List.findSome?_isSome_iff.2
        ⟨p, List.mem_flatMap.2 ⟨d, hd, hp⟩, Option.isSome_iff_exists.2 ⟨f, hf⟩⟩
    obtain ⟨f', hf'⟩ := Option.isSome_iff_exists.1 hsome
    rw [← errorOf?_moduleText time names, errorOf?_eq_some_iff] at hf'
    exact ⟨f', hf'⟩

/-- The module is refused exactly if some declaration is not that of a plain category, or has an
argument with the internal marker or a text inside all lists. The user is told of the first of
these, the category of a declaration coming before its arguments. Once everything is declared the
printers cannot fail, and a module that is not refused is written. -/
theorem moduleText_refuses_first (time : String) (names : ModuleNames) (ds : List DataDecl) :
    ((∃ f, moduleText time names ds = .error f) ↔
      ∃ d ∈ ds, (∀ name, d.category ≠ .plain name) ∨
        ∃ k ∈ d.constructors, ∃ c ∈ k.arguments, c.leaf = .internal ∨ ∃ s, c.leaf = .stray s) ∧
      (∀ message, (∃ f, moduleText time names ds = .error f ∧ f.message = message) ↔
        ∃ before p after, ds.flatMap partsOf = before ++ p :: after ∧
          (∀ q ∈ before, ∀ m, ¬ q.Offends m) ∧ p.Offends message) ∧
      (∀ types, declarations ds = .ok types →
        ∃ printing, printers (ds.map DataDecl.category) = .ok printing) ∧
      ((∀ f, moduleText time names ds ≠ .error f) →
        ∃ document content, moduleDocument time names ds = .ok document ∧
          document.render? = .ok content ∧ moduleText time names ds = .ok content) := by
  refine ⟨?_, fun _ => moduleText_fails_with_iff,
    fun _ => exists_printers_of_declarations, fun hok => ?_⟩
  · rw [moduleText_fails_iff]
    exact exists_congr fun d => and_congr_right fun _ => exists_offends_iff
  · have htyped : ∀ d ∈ ds, IsTyped d := by
      intro d hd
      refine isTyped_of_fault? fun p hp => Part.fault?_eq_none_iff.2 fun m hm => ?_
      obtain ⟨f, hf⟩ := moduleText_fails_iff.2 ⟨d, hd, p, hp, m, hm⟩
      exact hok f hf
    obtain ⟨document, hdocument, hlines⟩ := exists_moduleDocument time names htyped
    exact ⟨document, _, hdocument, hlines.render?_eq, moduleText_eq time names ds htyped⟩

/-- An argument is blamed that stands behind one of a proper type, and in front of other arguments
and a declaration that offend too; and a category that stands in front of an argument. -/
theorem moduleText_refuses_first_argument :
    let refused : DataDecl :=
      ⟨.plain "A", [⟨"f", [.list (.plain "A"), .list (.list (.stray "x")), .internal]⟩]⟩
    let ds := [refused, ⟨.token "B", []⟩]
    let ds' := [⟨.list (.plain "B"), [⟨"g", [.internal]⟩]⟩, refused]
    let names : ModuleNames := ⟨"AST", "Abs", "Print"⟩
    (∃ f, moduleText "now" names ds = .error f ∧
        f.message = "pretty_cat: not a category: \x27x\x27") ∧
      ∃ f, moduleText "now" names ds' = .error f ∧
        f.message = "pr_data: unexpected category ListCat(cat=Cat(name=\x27B\x27))" := by
  intro refused ds ds' names
  have hargument : (Part.argument (.list (.list (.stray "x")))).Offends
      "pretty_cat: not a category: \x27x\x27" := by
    have hmessage : "pretty_cat: not a category: " ++ Text.quote "x" =
        "pretty_cat: not a category: \x27x\x27" := by decide
    rw [← hmessage]
    exact .stray rfl
  have hdeclared : (Part.declared (.list (.plain "B"))).Offends
      "pr_data: unexpected category ListCat(cat=Cat(name=\x27B\x27))" := by
    have hmessage : "pr_data: unexpected category " ++ (Category.list (.plain "B")).described =
        "pr_data: unexpected category ListCat(cat=Cat(name=\x27B\x27))" := by decide
    rw [← hmessage]
    exact .unnamed nofun
  constructor
  · refine ((moduleText_refuses_first "now" names ds).2.1 _).2
      ⟨[.declared (.plain "A"), .argument (.list (.plain "A"))], _, _, rfl, ?_, hargument⟩
    intro q hq
    refine Part.fault?_eq_none_iff.1 ?_
    rcases List.mem_pair.1 hq with rfl | rfl <;> rfl
  · exact ((moduleText_refuses_first "now" names ds').2.1 _).2 ⟨[], _, _, rfl, nofun, hdeclared⟩

end Outcomes

end GrammarBindings.Agda
