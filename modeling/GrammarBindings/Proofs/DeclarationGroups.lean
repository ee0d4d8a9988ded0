import GrammarBindings.Grammar.Reading
import GrammarBindings.Proofs.FirstOccurrences

/-!
# Groups of constructors

The data declarations group the rules that have a constructor: there is one declaration for each of
their result categories, with the constructors of the rules for this category, both in the order of
first occurrence. This is so for the rules taken so far whenever one more of them is taken.

The categories of a grammar are those of all its rules, so a category can come to its place among
them by a rule without a constructor. Declarations are in the order of the categories exactly if no
category is overtaken by another in this way.
-/

namespace GrammarBindings

namespace Rule

/-- The result is a plain category, precedence levels aside, and the label is neither that of
coercions nor one for lists. A text in the place of the result, which no rule has that was read, is
taken for a plain category. -/
structure HasConstructor (r : Rule) : Prop where
  result : ∃ name, r.category.normalize = .plain name ∨ r.category.normalize = .stray name
  label : r.label ∉ ["_", "[]", "(:)", "(:[])"]

theorem hasDeclarableResult_iff {r : Rule} : r.hasDeclarableResult = true ↔
    ∃ name, r.category.normalize = .plain name ∨ r.category.normalize = .stray name := by
  rw [hasDeclarableResult]
  cases r.category with
  | _ => simp

theorem contributes_iff {r : Rule} : r.contributes = true ↔ r.HasConstructor := by
  have hlabel : (!r.label.isCoercion && !r.label.isList) = true ↔
      r.label ∉ ["_", "[]", "(:)", "(:[])"] := by
    simp [Label.isCoercion, Label.isList, Label.listLabels]
  rw [contributes, Bool.and_assoc, Bool.and_eq_true, hasDeclarableResult_iff, hlabel]
  exact ⟨fun h => ⟨h.1, h.2⟩, fun h => ⟨h.result, h.label⟩⟩

instance : DecidablePred HasConstructor := fun _ => decidable_of_iff _ contributes_iff

theorem filter_contributes (rules : List Rule) :
    rules.filter contributes = rules.filter fun r => r.HasConstructor :=
  List.filter_congr fun r _ => by rw [Bool.eq_iff_iff, contributes_iff, decide_eq_true_iff]

end Rule

/-- The result categories of rules, one for each rule, without precedence levels. -/
def resultCategories (rs : List Rule) : List Category := rs.map fun r => r.category.normalize

/-- The constructors of the rules for a category, one for each rule. -/
def constructorsFor (c : Category) (rs : List Rule) : List Constructor :=
  (rs.filter fun r => r.category.normalize = c).map Rule.constructor

theorem resultCategories_append (rs rs' : List Rule) :
    resultCategories (rs ++ rs') = resultCategories rs ++ resultCategories rs' := List.map_append

theorem constructorsFor_concat (c : Category) (rs : List Rule) (r : Rule) :
    constructorsFor c (rs ++ [r]) =
      constructorsFor c rs ++ if r.category.normalize = c then [r.constructor] else [] := by
  rw [constructorsFor, List.filter_append, List.map_append]
  by_cases h : r.category.normalize = c <;> simp [constructorsFor, h]

theorem constructorsFor_eq_nil {c : Category} {rs : List Rule} (h : c ∉ resultCategories rs) :
    constructorsFor c rs = [] := by
  rw [constructorsFor, List.map_eq_nil_iff, List.filter_eq_nil_iff]
  intro r hr hc
  exact h (List.mem_map.2 ⟨r, hr, of_decide_eq_true hc⟩)

theorem mem_constructorsFor {rs : List Rule} {r : Rule} (h : r ∈ rs) :
    r.constructor ∈ constructorsFor r.category.normalize rs :=
  List.mem_map.2 ⟨r, List.mem_filter.2 ⟨h, decide_eq_true rfl⟩, rfl⟩

namespace DataDecl

variable {c : Category} {k : Constructor} {d : DataDecl} {ds : List DataDecl}

@[simp] theorem category_insert : (d.insert k).category = d.category := by
  rw [insert]
  split <;> rfl

theorem constructors_insert : (d.insert k).constructors =
    if k ∈ d.constructors then d.constructors else d.constructors ++ [k] := by
  rw [insert]
  split <;> rfl

theorem map_category_insertInto : (insertInto c k ds).map category =
    if c ∈ ds.map category then ds.map category else ds.map category ++ [c] := by
  induction ds with
  | nil => rfl
  | cons d ds ih =>
    rw [insertInto]
    by_cases hd : d.category = c
    · simp [hd]
    · have hmem : c ∈ (d :: ds).map category ↔ c ∈ ds.map category := by
        rw [List.map_cons, List.mem_cons]
        exact ⟨fun hc => hc.resolve_left (Ne.symm hd), .inr⟩
      rw [if_neg hd, List.map_cons, ih]
      by_cases hc : c ∈ ds.map category
      · rw [if_pos hc, if_pos (hmem.2 hc), List.map_cons]
      · rw [if_neg hc, if_neg (mt hmem.1 hc), List.map_cons, List.cons_append]

/-- Only the declaration of the category changes, or a new one is opened for it. -/
theorem mem_insertInto (hnodup : (ds.map category).Nodup) (h : d ∈ insertInto c k ds) :
    (d ∈ ds ∧ d.category ≠ c) ∨ (∃ d' ∈ ds, d'.category = c ∧ d = d'.insert k) ∨
      (c ∉ ds.map category ∧ d = ⟨c, [k]⟩) := by
  induction ds with
  | nil => exact .inr (.inr ⟨List.not_mem_nil, List.mem_singleton.1 h⟩)
  | cons d₀ ds ih =>
    obtain ⟨hfresh, hnodup⟩ := List.nodup_cons.1 hnodup
    rw [insertInto] at h
    split at h
    · next hd₀ =>
      rcases List.mem_cons.1 h with rfl | h
      · exact .inr (.inl ⟨d₀, List.mem_cons_self, hd₀, rfl⟩)
      · refine .inl ⟨List.mem_cons_of_mem d₀ h, fun hd => hfresh ?_⟩
        rw [hd₀, ← hd]
        exact List.mem_map_of_mem h
    · next hd₀ =>
      rcases List.mem_cons.1 h with rfl | h
      · exact .inl ⟨List.mem_cons_self, hd₀⟩
      · rcases ih hnodup h with ⟨hd, hne⟩ | ⟨d', hd', hc, hd⟩ | ⟨hnew, hd⟩
        · exact .inl ⟨List.mem_cons_of_mem d₀ hd, hne⟩
        · exact .inr (.inl ⟨d', List.mem_cons_of_mem d₀ hd', hc, hd⟩)
        · refine .inr (.inr ⟨fun hc => ?_, hd⟩)
          rcases List.mem_cons.1 hc with hc | hc
          · exact hd₀ hc.symm
          · exact hnew hc

/-- The declarations are the groups of some rules by their result. -/
structure AreGroups (ds : List DataDecl) (rs : List Rule) : Prop where
  categories : FirstOccurrences (ds.map category) (resultCategories rs)
  constructors : ∀ d ∈ ds, FirstOccurrences d.constructors (constructorsFor d.category rs)

theorem AreGroups.nil : AreGroups [] [] := ⟨.nil, nofun⟩

theorem AreGroups.insertInto {rs : List Rule} (h : AreGroups ds rs) (r : Rule) :
    AreGroups (insertInto r.category.normalize r.constructor ds) (rs ++ [r]) := by
  constructor
  · rw [map_category_insertInto, resultCategories_append]
    exact h.categories.concat _
  · intro d hd
    rw [constructorsFor_concat]
    rcases mem_insertInto h.categories.nodup hd with ⟨hd, hne⟩ | ⟨d', hd', hc, rfl⟩ | ⟨hnew, rfl⟩
    · rw [if_neg hne.symm, List.append_nil]
      exact h.constructors d hd
    · rw [category_insert, if_pos hc.symm, constructors_insert]
      exact (h.constructors d' hd').concat _
    · rw [if_pos rfl, constructorsFor_eq_nil (mt (h.categories.mem_iff _).2 hnew)]
      exact FirstOccurrences.nil.concat r.constructor

theorem AreGroups.foldl_insertInto {rs : List Rule} (h : AreGroups ds rs) (rs' : List Rule) :
    AreGroups (rs'.foldl
      (fun ds r => DataDecl.insertInto r.category.normalize r.constructor ds) ds) (rs ++ rs') := by
  induction rs' generalizing ds rs with
  | nil => rwa [List.append_nil]
  | cons r rs' ih =>
    rw [List.append_cons]
    exact ih (h.insertInto r)

theorem AreGroups.constructors_ne_nil {rs : List Rule} (h : AreGroups ds rs) (hd : d ∈ ds) :
    d.constructors ≠ [] := by
  obtain ⟨r, hr, hc⟩ := List.mem_map.1 ((h.categories.mem_iff _).1 (List.mem_map_of_mem hd))
  have hmem : r.constructor ∈ d.constructors := by
    rw [(h.constructors d hd).mem_iff, ← hc]
    exact mem_constructorsFor hr
  exact List.ne_nil_of_mem hmem

end DataDecl

theorem areGroups_dataDeclarations (rules : List Rule) :
    DataDecl.AreGroups (dataDeclarations rules) (rules.filter fun r => r.HasConstructor) := by
  rw [dataDeclarations, Rule.filter_contributes]
  exact DataDecl.AreGroups.nil.foldl_insertInto _

/-- The declarations are exactly the groups of the rules that have a constructor: their categories
are distinct and those of these rules, each has at least one constructor, and its constructors are
distinct and those of the rules for its category, always in the order of first occurrence. -/
theorem dataDeclarations_groups (rules : List Rule) :
    let ds := dataDeclarations rules
    let rs := rules.filter fun r => r.HasConstructor
    (ds.map DataDecl.category).Nodup ∧
      FirstOccurrences (ds.map DataDecl.category) (rs.map fun r => r.category.normalize) ∧
      ∀ d ∈ ds, d.constructors ≠ [] ∧ d.constructors.Nodup ∧
        FirstOccurrences d.constructors
          ((rs.filter fun r => r.category.normalize = d.category).map fun r =>
            ⟨r.label, (r.items.filterMap Item.category?).map Category.normalize⟩) := by
  intro ds rs
  have hgroups : DataDecl.AreGroups ds rs := areGroups_dataDeclarations rules
  refine ⟨hgroups.categories.nodup, hgroups.categories, fun d hd => ?_⟩
  exact ⟨hgroups.constructors_ne_nil hd, (hgroups.constructors d hd).nodup,
    hgroups.constructors d hd⟩

/-- The number of rules in front of the first one for a category. -/
def firstRule (c : Category) (rs : List Rule) : Nat := (resultCategories rs).idxOf c

section Order

variable {a b c : Category} {r : Rule} {rs front : List Rule}

theorem mem_resultCategories_of_filter
    (h : c ∈ resultCategories (rs.filter fun r => r.HasConstructor)) : c ∈ resultCategories rs :=
  (List.filter_sublist.map _).subset h

theorem firstRule_append (h : c ∉ resultCategories front) (rs : List Rule) :
    firstRule c (front ++ rs) = front.length + firstRule c rs := by
  rw [firstRule, resultCategories_append, List.idxOf_append_of_notMem h, resultCategories,
    List.length_map]
  rfl

theorem firstRule_cons_self : firstRule r.category.normalize (r :: rs) = 0 := List.idxOf_cons_self

theorem notMem_of_length_le_firstRule (h : front.length ≤ firstRule c (front ++ rs)) :
    c ∉ resultCategories front := by
  intro hc
  have hlt : firstRule c (front ++ rs) < front.length := by
    rw [firstRule, resultCategories_append, List.idxOf_append_of_mem hc]
    simpa [resultCategories] using List.idxOf_lt_length_iff.2 hc
  omega

/-- A category whose first rule has a constructor is overtaken by no category behind it. -/
theorem firstRule_filter_lt (h : rs.find? (fun r => r.category.normalize = b) = some r)
    (hr : r.HasConstructor) (hlt : firstRule b rs < firstRule a rs) :
    firstRule b (rs.filter fun r => r.HasConstructor) <
      firstRule a (rs.filter fun r => r.HasConstructor) := by
  obtain ⟨hb, front, back, rfl, hfront⟩ := List.find?_eq_some_iff_append.1 h
  obtain rfl := of_decide_eq_true hb
  have hbfront : r.category.normalize ∉ resultCategories front := by
    intro hmem
    obtain ⟨r', hr', heq⟩ := List.mem_map.1 hmem
    simpa [heq] using hfront r' hr'
  rw [firstRule_append hbfront, firstRule_cons_self] at hlt
  have hafront : a ∉ resultCategories front := notMem_of_length_le_firstRule (Nat.le_of_lt hlt)
  rw [firstRule_append hafront] at hlt
  have hne : r.category.normalize ≠ a := by
    rintro rfl
    rw [firstRule_cons_self] at hlt
    exact Nat.lt_irrefl _ hlt
  rw [List.filter_append, List.filter_cons, if_pos (decide_eq_true hr),
    firstRule_append (mt mem_resultCategories_of_filter hbfront),
    firstRule_append (mt mem_resultCategories_of_filter hafront), firstRule_cons_self]
  have hpos : 0 < firstRule a (r :: back.filter fun r => r.HasConstructor) := by
    rw [firstRule, resultCategories, List.map_cons, List.idxOf_cons_ne _ hne]
    exact Nat.succ_pos _
  omega

end Order

namespace Grammar

/-- The categories of the declarations, in their order. -/
def declared (g : Grammar) : List Category := g.dataDeclarations.map DataDecl.category

/-- The declarations keep to the order of the categories exactly if no category whose first rule is
behind that of another comes before it by having its first constructor earlier. No category does so
when the first rule for each has a constructor. -/
theorem declared_sublist_categories_iff (g : Grammar) :
    let rs := g.rules.filter fun r => r.HasConstructor
    FirstOccurrences g.categories (resultCategories g.rules) ∧
      FirstOccurrences g.declared (resultCategories rs) ∧
      (∀ c ∈ g.declared, c ∈ g.categories) ∧
      (g.declared.Sublist g.categories ↔ ∀ a ∈ g.declared, ∀ b ∈ g.declared,
        firstRule a rs < firstRule b rs → firstRule a g.rules < firstRule b g.rules) ∧
      ((∀ c ∈ g.declared, ∀ r, g.rules.find? (fun r => r.category.normalize = c) = some r →
        r.HasConstructor) → g.declared.Sublist g.categories) := by
  intro rs
  have hall : FirstOccurrences g.categories (resultCategories g.rules) := .eraseDups _
  have hsome : FirstOccurrences g.declared (resultCategories rs) :=
    (areGroups_dataDeclarations g.rules).categories
  have hmem : ∀ c ∈ g.declared, c ∈ resultCategories g.rules := fun c hc =>
    mem_resultCategories_of_filter ((hsome.mem_iff c).1 hc)
  have hiff : g.declared.Sublist g.categories ↔ ∀ a ∈ g.declared, ∀ b ∈ g.declared,
      firstRule a rs < firstRule b rs → firstRule a g.rules < firstRule b g.rules :=
    (hall.sublist_iff hmem).trans hsome.pairwise_iff
  refine ⟨hall, hsome, fun c hc => (hall.mem_iff c).2 (hmem c hc), hiff, fun hfirst => ?_⟩
  refine hiff.2 fun a ha b hb hlt => ?_
  rcases Nat.lt_trichotomy (firstRule a g.rules) (firstRule b g.rules) with h | h | h
  · exact h
  · have heq : a = b := (List.idxOf_inj (hmem a ha)).1 h
    rw [heq] at hlt
    exact absurd hlt (Nat.lt_irrefl _)
  · obtain ⟨r, hr, hc⟩ := List.mem_map.1 (hmem b hb)
    have hfound : (g.rules.find? fun r => r.category.normalize = b).isSome := by
      rw [List.find?_isSome]
      exact ⟨r, hr, decide_eq_true hc⟩
    obtain ⟨first, hfind⟩ := Option.isSome_iff_exists.1 hfound
    exact absurd (firstRule_filter_lt hfind (hfirst b hb first hfind) h) (Nat.lt_asymm hlt)

/-- The coercion in front gives `A` the first place among the categories, but `B` has the first
constructor. -/
theorem read_coercions_overtaken :
    ∃ g, Grammar.read "coercions A 1 ; Foo . B ::= \"b\" ; Bar . A ::= \"a\" ;" = .ok g ∧
      g.categories = [.plain "A", .plain "B"] ∧ g.declared = [.plain "B", .plain "A"] ∧
      ¬ g.declared.Sublist g.categories := by
  have hread : Grammar.read "coercions A 1 ; Foo . B ::= \"b\" ; Bar . A ::= \"a\" ;" =
      .ok ⟨[⟨"_", .plain "A", [.category (.level "A" 1)], false⟩,
        ⟨"_", .level "A" 1, [.terminal "(", .category (.plain "A"), .terminal ")"], false⟩,
        ⟨"Foo", .plain "B", [.terminal "b"], false⟩,
        ⟨"Bar", .plain "A", [.terminal "a"], false⟩], [], []⟩ := by
    decide +kernel
  exact ⟨_, hread, by decide, by decide, by decide⟩

end Grammar
end GrammarBindings
