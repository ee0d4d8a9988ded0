import GrammarBindings.Proofs.Spelling
import GrammarBindings.Proofs.StatementSequence

/-!
# Where rules come from

Each rule of a grammar that was read is contributed by one of its statements: it is spelled there,
or it is one of those for lists or for precedence levels that a pragma stands for.
-/

namespace GrammarBindings

variable {declared : List String}

/-- The rules that a statement of these tokens can contribute. -/
inductive ContributedRule (declared : List String) (ts : List Token) : Rule → Prop where
  | spelled {used : List Token} {r : Rule} (tokens : used ⊆ ts)
      (rule : RuleSpelled declared used r) : ContributedRule declared ts r
  | list {used : List Token} {element : Category} {delimiter : String}
      {terminated nonempty : Bool} {r : Rule} (tokens : used ⊆ ts)
      (category : Category.Spelled declared used element)
      (mem : r ∈ listRules element delimiter terminated nonempty) : ContributedRule declared ts r
  | coercion {base : String} {levels : Nat} {r : Rule} (mem : r ∈ coercionRules base levels) :
      ContributedRule declared ts r

namespace ContributedRule

variable {lastLine : Nat} {ts us : List Token} {r : Rule}

theorem mono (h : ContributedRule declared ts r) (hts : ts ⊆ us) :
    ContributedRule declared us r := by
  cases h with
  | spelled tokens rule => exact .spelled (List.Subset.trans tokens hts) rule
  | list tokens category mem => exact .list (List.Subset.trans tokens hts) category mem
  | coercion mem => exact .coercion mem

theorem of_readRule {internal : Bool} {r' : Rule}
    (h : readRule declared lastLine internal ts = .ok r') (hr : r ∈ [r']) :
    ContributedRule declared ts r := by
  obtain rfl := List.mem_singleton.1 hr
  exact .spelled (List.Subset.refl ts) (readRule_eq_ok_iff.1 h).1

theorem of_readListRules {terminated : Bool} {rs : List Rule}
    (h : readListRules declared lastLine terminated ts = .ok rs) (hr : r ∈ rs) :
    ContributedRule declared ts r := by
  obtain ⟨⟨element, behind⟩, hcategory, h⟩ := bind_eq_ok_iff.1 h
  obtain ⟨⟨delimiter, rest⟩, -, h⟩ := bind_eq_ok_iff.1 h
  obtain rfl := pure_eq_ok_iff.1 h
  obtain ⟨used, hts, hspelled⟩ := readCategory_eq_ok_iff.1 hcategory
  refine .list (fun t ht => ?_) hspelled hr
  have hmem := hts ▸ List.mem_append_left behind ht
  split at hmem
  · exact List.mem_of_mem_tail hmem
  · exact hmem

theorem of_readCoercionRules {rs : List Rule} (h : readCoercionRules lastLine ts = .ok rs)
    (hr : r ∈ rs) : ContributedRule declared ts r := by
  obtain ⟨⟨base, behind⟩, -, h⟩ := bind_eq_ok_iff.1 h
  obtain ⟨⟨digits, rest⟩, -, h⟩ := bind_eq_ok_iff.1 h
  obtain ⟨levels, -, h⟩ := bind_eq_ok_iff.1 h
  obtain rfl := pure_eq_ok_iff.1 h
  exact .coercion hr

theorem of_interpret {s : Statement} {c : Contribution} (h : s.interpret declared = .ok c)
    (hr : r ∈ c.rules?) : ContributedRule declared s.tokens r := by
  have htail : s.tail ⊆ s.tokens := List.subset_cons_self _ _
  rw [Statement.interpret] at h
  split at h
  · cases h
    cases hr
  · cases h
    cases hr
  · obtain ⟨r', hread, rfl⟩ := map_eq_ok_iff.1 h
    exact (of_readRule hread hr).mono htail
  · obtain ⟨rs, hread, rfl⟩ := map_eq_ok_iff.1 h
    exact (of_readListRules hread hr).mono htail
  · obtain ⟨rs, hread, rfl⟩ := map_eq_ok_iff.1 h
    exact (of_readListRules hread hr).mono htail
  · obtain ⟨rs, hread, rfl⟩ := map_eq_ok_iff.1 h
    exact (of_readCoercionRules hread hr).mono htail
  · obtain ⟨cs, -, rfl⟩ := map_eq_ok_iff.1 h
    cases hr
  · cases h
  · obtain ⟨r', hread, rfl⟩ := map_eq_ok_iff.1 h
    exact of_readRule hread hr

end ContributedRule

/-- Each rule of a grammar that was read comes from one of the statements of its text. -/
theorem Grammar.exists_contributed_of_read {text : String} {g : Grammar}
    (h : Grammar.read text = .ok g) {r : Rule} (hr : r ∈ g.rules) :
    ∃ s ∈ statements text, ContributedRule g.tokens s.tokens r := by
  obtain ⟨cs, hcs, -, hrules, -⟩ := exists_contributions_of_read h
  rw [hrules] at hr
  obtain ⟨c, hc, hr⟩ := List.mem_flatMap.1 hr
  obtain ⟨s, hs, hinterpret⟩ := exists_mem_of_forall₂ hcs hc
  exact ⟨s, hs, .of_interpret hinterpret hr⟩

end GrammarBindings
