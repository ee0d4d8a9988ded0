import GrammarBindings.Proofs.CategoryNames
import GrammarBindings.Proofs.ContributedRules
import GrammarBindings.Proofs.DeclarationGroups
import GrammarBindings.Proofs.Pieces
import GrammarBindings.Proofs.WrittenTokens

/-!
# Names in grammars that were read

The names of a grammar that was read are words. Whether a name stands for a token is decided on the
name as it is written, with the digits behind it, so only a plain category is apart from all tokens:
the name in front of a precedence level is any word.

A rule that has a constructor was written as a rule, since the rules that pragmas stand for have
other labels. So its label is a word, and its categories were read from words.
-/

namespace GrammarBindings

open Text

theorem isWordChars_of_append {cs ds : List Char} (h : isWordChars (cs ++ ds) = true)
    (hne : cs ≠ []) : isWordChars cs = true := by
  cases cs with
  | nil => exact absurd rfl hne
  | cons c cs =>
    rw [List.cons_append, isWordChars, List.all_append, Bool.and_eq_true, Bool.and_eq_true] at h
    rw [isWordChars, h.1, h.2.1]
    rfl

section Tokens

/-- The tokens that count as words are words. -/
def HaveWords (ts : List Token) : Prop := ∀ t ∈ ts, t.kind = .word → isWord t.value = true

theorem haveWords_of_admits {ts : List Token} (h : ∀ t ∈ ts, t.kind.admits t.value = true) :
    HaveWords ts := fun t ht hkind => by
  have hword := h t ht
  rwa [hkind] at hword

theorem haveWords_tokenize (text : String) : HaveWords (tokenize text).tokens :=
  haveWords_of_admits fun _ => admits_of_mem_tokens

theorem Statement.haveWords_of_mem_split {ts : List Token} (h : HaveWords ts) {s : Statement}
    (hs : s ∈ Statement.split ts) : HaveWords s.tokens := fun t ht =>
  h t (Statement.mem_of_mem_split hs ht)

end Tokens

variable {declared : List String}

namespace Category

/-- The innermost name is a word. A plain category is not called as a token is, and a token is. -/
inductive Named (declared : List String) : Category → Prop where
  | plain {name : String} (word : isWord name = true)
      (unknown : name ∉ baseTokens ∧ name ∉ declared) : Named declared (plain name)
  | token {name : String} (word : isWord name = true)
      (known : name ∈ baseTokens ∨ name ∈ declared) : Named declared (token name)
  | level {name : String} {rank : Int} (word : isWord name = true) :
      Named declared (level name rank)
  | list {element : Category} (named : Named declared element) : Named declared (list element)

theorem named_of_ofName {cs : List Char} {c : Category} (hcs : isWordChars cs = true)
    (h : ofName declared cs = .ok c) : c.Named declared := by
  have hword : isWord (String.ofList cs) = true := by rwa [isWord, String.toList_ofList]
  rw [ofName] at h
  split at h
  · next hknown =>
    cases h
    refine .token hword ?_
    simpa only [Bool.or_eq_true, decide_eq_true_eq] using hknown
  · next hunknown =>
    split at h
    · next stem digits hparts =>
      obtain ⟨rank, -, rfl⟩ := map_eq_ok_iff.1 h
      obtain ⟨hne, -, rfl, -⟩ := levelParts?_eq_some hparts
      refine .level ?_
      rw [isWord, String.toList_ofList]
      rw [← List.rdropWhile_append_rtakeWhile (p := isAsciiDigit) (l := cs)] at hcs
      exact isWordChars_of_append hcs hne
    · cases h
      refine .plain hword ?_
      simpa only [Bool.or_eq_true, decide_eq_true_eq, not_or] using hunknown

theorem Spelled.named {ts : List Token} {c : Category} (h : Spelled declared ts c)
    (hts : HaveWords ts) : c.Named declared := by
  induction h with
  | @word t c kind name =>
    have hword : isWord t.value = true := hts t List.mem_cons_self kind
    rw [read_word hword] at name
    exact named_of_ofName hword name
  | list _ _ _ ih =>
    refine .list (ih fun t ht => hts t ?_)
    exact List.mem_append_left _ (List.mem_cons_of_mem _ ht)

/-- A category without its lists. -/
def leaf : Category → Category
  | list element => element.leaf
  | c => c

/-- Without lists and levels there is a plain category or a token. -/
theorem Named.leaf_normalize {c : Category} (h : c.Named declared) :
    ∃ name, isWord name = true ∧ (c.normalize.leaf = .plain name ∨
      c.normalize.leaf = .token name ∧ (name ∈ baseTokens ∨ name ∈ declared)) := by
  induction h with
  | @plain name word _ => exact ⟨name, word, .inl rfl⟩
  | @token name word known => exact ⟨name, word, .inr ⟨rfl, known⟩⟩
  | @level name _ word => exact ⟨name, word, .inl rfl⟩
  | list _ ih => exact ih

end Category

theorem HaveWords.mono {ts us : List Token} (h : HaveWords ts) (hsub : us ⊆ ts) : HaveWords us :=
  fun t ht => h t (hsub ht)

theorem ItemsSpelled.named {ts : List Token} {items : List Item}
    (h : ItemsSpelled declared ts items) (hts : HaveWords ts) {c : Category}
    (hc : .category c ∈ items) : c.Named declared := by
  induction h with
  | nil => cases hc
  | terminal _ _ ih =>
    rcases List.mem_cons.1 hc with hc | hc
    · cases hc
    · exact ih (hts.mono (List.subset_cons_self _ _)) hc
  | category hs _ ih =>
    rcases List.mem_cons.1 hc with hc | hc
    · cases hc
      exact hs.named (hts.mono (List.subset_append_left _ _))
    · exact ih (hts.mono (List.subset_append_right _ _)) hc

/-- The label of a rule and the names of its categories are words. -/
structure Rule.IsNamed (declared : List String) (r : Rule) : Prop where
  label : isWord r.label = true
  result : r.category.Named declared
  items : ∀ c, .category c ∈ r.items → c.Named declared

theorem LabelSpelled.isWord {ts : List Token} {label : Label} (h : LabelSpelled ts label)
    (hts : HaveWords ts) (hlabel : label ∉ Label.listLabels) : isWord label = true := by
  cases h with
  | @word t kind => exact hts t List.mem_cons_self kind
  | list _ hlist => exact absurd (of_decide_eq_true hlist) hlabel

/-- The categories in a constructor are lists of plain categories and of tokens. -/
theorem Rule.IsNamed.leaf_of_mem_arguments {r : Rule} (h : r.IsNamed declared) {c : Category}
    (hc : c ∈ r.arguments) :
    ∃ name, isWord name = true ∧ (c.leaf = .plain name ∨
      c.leaf = .token name ∧ (name ∈ Category.baseTokens ∨ name ∈ declared)) := by
  obtain ⟨c', hitem, rfl⟩ := mem_arguments_iff.1 hc
  exact (h.items c' hitem).leaf_normalize

theorem RuleSpelled.isNamed {ts : List Token} {r : Rule} (h : RuleSpelled declared ts r)
    (hts : HaveWords ts) (hr : r.HasConstructor) : r.IsNamed declared := by
  have hlabel : r.label ∉ Label.listLabels := fun hmem => hr.label (List.mem_cons_of_mem "_" hmem)
  cases h with
  | @mk label result items stop arrow r hlabelSpelled _ hresult _ hitems =>
    have hbehind := hts.mono (List.subset_append_right label _)
    have hright := hbehind.mono (List.subset_cons_self stop _)
    refine ⟨hlabelSpelled.isWord (hts.mono (List.subset_append_left _ _)) hlabel,
      hresult.named (hright.mono (List.subset_append_left _ _)), fun c hc => ?_⟩
    refine hitems.named ?_ hc
    exact (hright.mono (List.subset_append_right result _)).mono (List.subset_cons_self arrow _)

theorem not_hasConstructor_of_mem_listRules {element : Category} {delimiter : String}
    {terminated nonempty : Bool} {r : Rule}
    (h : r ∈ listRules element delimiter terminated nonempty) : ¬ r.HasConstructor := by
  have hlabel : r.label ∈ Label.listLabels := by
    obtain ⟨-, rfl⟩ | ⟨-, rfl⟩ | rfl := mem_listRules_iff.1 h <;> simp [Label.listLabels]
  exact fun hr => hr.label (List.mem_cons_of_mem "_" hlabel)

theorem not_hasConstructor_of_mem_coercionRules {base : String} {levels : Nat} {r : Rule}
    (h : r ∈ coercionRules base levels) : ¬ r.HasConstructor := by
  have hlabel : r.label = "_" := by
    rcases List.mem_append.1 h with h | h
    · obtain ⟨k, -, rfl⟩ := List.mem_map.1 h
      rfl
    · obtain rfl := List.mem_singleton.1 h
      rfl
  exact fun hr => hr.label (hlabel ▸ List.mem_cons_self)

/-- A rule that has a constructor was written as one. -/
theorem ContributedRule.isNamed {ts : List Token} {r : Rule} (h : ContributedRule declared ts r)
    (hts : HaveWords ts) (hr : r.HasConstructor) : r.IsNamed declared := by
  cases h with
  | spelled tokens rule => exact rule.isNamed (hts.mono tokens) hr
  | list _ _ mem => exact absurd hr (not_hasConstructor_of_mem_listRules mem)
  | coercion mem => exact absurd hr (not_hasConstructor_of_mem_coercionRules mem)

namespace Grammar

variable {text : String} {g : Grammar}

/-- The rules of a grammar that was read have words for their names, where they count. -/
theorem isNamed_of_read (h : read text = .ok g) {r : Rule} (hmem : r ∈ g.rules)
    (hr : r.HasConstructor) : r.IsNamed g.tokens := by
  obtain ⟨s, hs, hcontributed⟩ := exists_contributed_of_read h hmem
  exact hcontributed.isNamed (Statement.haveWords_of_mem_split (haveWords_tokenize text) hs) hr

end Grammar

end GrammarBindings
