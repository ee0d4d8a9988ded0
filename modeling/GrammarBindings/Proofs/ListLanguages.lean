import GrammarBindings.Grammar.Statement

/-!
# The languages of lists

The rules for the lists of a category derive words over the category, which is kept opaque, and the
delimiter. A list is derived by steps, each of which puts an element in front of what the rest of
the list derives, and it ends with the rule for no element or with the one for a single element.
The words are therefore the repetitions of a step with an end behind them. The labels of a
derivation spell a list value, which has as many members as the word has elements.
-/

namespace GrammarBindings

/-- A derivation: the items that are kept, and the uses of rules with what their items derive. -/
inductive DerivationTree where
  | leaf (item : Item)
  | node (rule : Rule) (children : List DerivationTree)

namespace DerivationTree

def root : DerivationTree → Item
  | leaf item => item
  | node rule _ => .category rule.category

mutual

def word : DerivationTree → List Item
  | leaf item => [item]
  | node _ children => wordAll children

def wordAll : List DerivationTree → List Item
  | [] => []
  | t :: ts => t.word ++ wordAll ts

end

mutual

/-- The length of the list value that the labels spell, the tail of a list being the last of the
parts that its rule has. -/
def listLength? : DerivationTree → Option Nat
  | leaf _ => none
  | node rule children =>
    if rule.label = "[]" then some 0
    else if rule.label = "(:[])" then some 1
    else if rule.label = "(:)" then (lastLength? children).map (· + 1)
    else none

def lastLength? : List DerivationTree → Option Nat
  | [] => none
  | [t] => t.listLength?
  | _ :: t :: ts => lastLength? (t :: ts)

end

variable {ts : List DerivationTree} {t : DerivationTree}

theorem wordAll_append (ts us : List DerivationTree) :
    wordAll (ts ++ us) = wordAll ts ++ wordAll us := by
  induction ts with
  | nil => rfl
  | cons t ts ih => rw [List.cons_append, wordAll, wordAll, ih, List.append_assoc]

theorem wordAll_eq_map_root (h : ∀ t ∈ ts, t.word = [t.root]) : wordAll ts = ts.map root := by
  induction ts with
  | nil => rfl
  | cons t ts ih =>
    rw [wordAll, h t List.mem_cons_self, ih fun u hu => h u (List.mem_cons_of_mem t hu)]
    rfl

theorem lastLength?_append_singleton (ts : List DerivationTree) (t : DerivationTree) :
    lastLength? (ts ++ [t]) = t.listLength? := by
  induction ts with
  | nil => rw [List.nil_append, lastLength?]
  | cons u us ih =>
    cases us with
    | nil => rw [List.singleton_append, lastLength?, lastLength?]
    | cons v vs => rw [List.cons_append, List.cons_append, lastLength?]; exact ih

/-- The trees that rules admit when an element category is not taken apart. -/
inductive IsDerivation (rules : List Rule) (element : Category) : DerivationTree → Prop where
  | terminal (text : String) : IsDerivation rules element (leaf (.terminal text))
  | element : IsDerivation rules element (leaf (.category element))
  | node {rule : Rule} {children : List DerivationTree} (mem : rule ∈ rules)
      (items : children.map root = rule.items)
      (derivations : ∀ t ∈ children, IsDerivation rules element t) :
      IsDerivation rules element (node rule children)

end DerivationTree

namespace ListLanguage

open DerivationTree

/-- What one more element puts in front of a word. -/
def stepItems (element : Category) (delimiter : String) (terminated : Bool) : List Item :=
  [.category element] ++ if terminated || delimiter ≠ "" then [.terminal delimiter] else []

/-- The word of a single element, where it has a rule of its own. -/
def oneItems (element : Category) (delimiter : String) (terminated : Bool) : List Item :=
  [.category element] ++ if terminated then [.terminal delimiter] else []

/-- The words that are derived without a step. -/
def IsEnd (element : Category) (delimiter : String) (terminated nonempty : Bool)
    (last : List Item) : Prop :=
  nonempty = false ∧ last = [] ∨
    (nonempty || !terminated) = true ∧ last = oneItems element delimiter terminated

/-- The trees that derive a list from its rules. -/
structure IsListDerivation (element : Category) (delimiter : String) (terminated nonempty : Bool)
    (t : DerivationTree) : Prop where
  derivation : IsDerivation (listRules element delimiter terminated nonempty) element t
  root_eq : t.root = .category (.list element)

def Generates (element : Category) (delimiter : String) (terminated nonempty : Bool)
    (w : List Item) : Prop :=
  ∃ t, IsListDerivation element delimiter terminated nonempty t ∧ t.word = w

def repeated (k : Nat) (w : List Item) : List Item := (List.replicate k w).flatten

theorem repeated_succ (k : Nat) (w : List Item) : repeated (k + 1) w = w ++ repeated k w := rfl

theorem repeated_append_self (k : Nat) (w : List Item) :
    repeated k w ++ w = repeated (k + 1) w := by
  rw [repeated, repeated, List.replicate_succ', List.flatten_concat]

theorem repeated_singleton (k : Nat) (item : Item) : repeated k [item] = List.replicate k item := by
  rw [repeated, List.flatten_replicate_singleton]

/-- A delimiter behind each element but the last is one in front of each element but the first. -/
theorem repeated_append_head (k : Nat) (x y : Item) :
    repeated k [x, y] ++ [x] = x :: repeated k [y, x] := by
  induction k with
  | zero => rfl
  | succ k ih =>
    rw [repeated_succ, repeated_succ, List.append_assoc, ih]
    rfl

theorem list_ne_self (c : Category) : Category.list c ≠ c := by
  intro h
  have hsize := congrArg sizeOf h
  simp at hsize

section Derivations

variable {element : Category} {delimiter : String} {terminated nonempty : Bool}
  {t : DerivationTree} {rule : Rule} {children : List DerivationTree} {w last : List Item}

theorem count_stepItems :
    (stepItems element delimiter terminated).count (.category element) = 1 := by
  rw [stepItems]
  split <;> simp

theorem count_oneItems :
    (oneItems element delimiter terminated).count (.category element) = 1 := by
  rw [oneItems]
  split <;> simp

theorem category_of_mem_listRules (h : rule ∈ listRules element delimiter terminated nonempty) :
    rule.category = .list element := by
  obtain ⟨-, rfl⟩ | ⟨-, rfl⟩ | rfl := mem_listRules_iff.1 h <;> rfl

/-- Only lists are taken apart. -/
theorem word_eq_singleton
    (h : IsDerivation (listRules element delimiter terminated nonempty) element t)
    (hroot : t.root ≠ .category (.list element)) : t.word = [t.root] := by
  cases h with
  | terminal text => rw [word, root]
  | element => rw [word, root]
  | node mem => exact absurd (congrArg Item.category (category_of_mem_listRules mem)) hroot

theorem eq_of_mem_oneItems {c : Category}
    (h : .category c ∈ oneItems element delimiter terminated) : c = element := by
  obtain h | h := List.mem_append.1 h
  · exact Item.category.inj (List.mem_singleton.1 h)
  · split at h <;> simp at h

theorem eq_of_mem_stepItems {c : Category}
    (h : .category c ∈ stepItems element delimiter terminated) : c = element := by
  obtain h | h := List.mem_append.1 h
  · exact Item.category.inj (List.mem_singleton.1 h)
  · split at h <;> simp at h

theorem wordAll_eq_items {items : List Item} (hitems : children.map root = items)
    (hchildren : ∀ t ∈ children,
      IsDerivation (listRules element delimiter terminated nonempty) element t)
    (h : ∀ c, .category c ∈ items → c = element) : wordAll children = items := by
  rw [← hitems]
  refine wordAll_eq_map_root fun t ht => word_eq_singleton (hchildren t ht) fun hroot => ?_
  have hmem : .category (.list element) ∈ items := by
    rw [← hitems, ← hroot]
    exact List.mem_map_of_mem ht
  exact list_ne_self element (h _ hmem)

/-- At its root a derivation ends, or it adds an element to what the tail derives. -/
theorem end_or_step (mem : rule ∈ listRules element delimiter terminated nonempty)
    (items : children.map root = rule.items)
    (derivations : ∀ t ∈ children,
      IsDerivation (listRules element delimiter terminated nonempty) element t) :
    (∃ last, IsEnd element delimiter terminated nonempty last ∧ (node rule children).word = last ∧
      (node rule children).listLength? = some (last.count (.category element))) ∨
    ∃ tail ∈ children, tail.root = .category (.list element) ∧
      (node rule children).word = stepItems element delimiter terminated ++ tail.word ∧
      (node rule children).listLength? = tail.listLength?.map (· + 1) := by
  rw [word]
  obtain ⟨hempty, rfl⟩ | ⟨hone, rfl⟩ | rfl := mem_listRules_iff.1 mem
  · obtain rfl := List.map_eq_nil_iff.1 items
    exact .inl ⟨[], .inl ⟨hempty, rfl⟩, by rw [wordAll], by rw [listLength?, if_pos rfl]; rfl⟩
  · have hword := wordAll_eq_items items derivations fun _ => eq_of_mem_oneItems
    refine .inl ⟨oneItems element delimiter terminated, .inr ⟨hone, rfl⟩, hword, ?_⟩
    rw [listLength?, if_neg (by simp), if_pos rfl, count_oneItems]
  · obtain ⟨front, back, rfl, hfront, hback⟩ := List.map_eq_append_iff.1 items
    obtain ⟨tail, rfl, htail⟩ := List.map_eq_singleton_iff.1 hback
    have hword := wordAll_eq_items hfront
      (fun t ht => derivations t (List.mem_append_left _ ht)) fun _ => eq_of_mem_stepItems
    refine .inr ⟨tail, List.mem_append_right front List.mem_cons_self, htail, ?_, ?_⟩
    · rw [wordAll_append, hword, wordAll, wordAll, List.append_nil]
      rfl
    · rw [listLength?, if_neg (by simp), if_neg (by simp), if_pos rfl, lastLength?_append_singleton]

theorem exists_steps
    (h : IsDerivation (listRules element delimiter terminated nonempty) element t)
    (hroot : t.root = .category (.list element)) :
    (∃ k last, IsEnd element delimiter terminated nonempty last ∧
      t.word = repeated k (stepItems element delimiter terminated) ++ last) ∧
    t.listLength? = some (t.word.count (.category element)) := by
  induction h with
  | terminal text => cases hroot
  | element => exact absurd (Item.category.inj hroot).symm (list_ne_self element)
  | node mem items derivations ih =>
    obtain ⟨last, hlast, hword, hlength⟩ | ⟨tail, hmem, htail, hword, hlength⟩ :=
      end_or_step mem items derivations
    · exact ⟨⟨0, last, hlast, hword⟩, hword ▸ hlength⟩
    · obtain ⟨⟨k, last, hlast, hsteps⟩, hcount⟩ := ih tail hmem htail
      refine ⟨⟨k + 1, last, hlast, ?_⟩, ?_⟩
      · rw [hword, hsteps, repeated_succ, List.append_assoc]
      · rw [hlength, hcount, hword, List.count_append, count_stepItems, Nat.add_comm]
        rfl

theorem map_root_leaves (items : List Item) : (items.map leaf).map root = items := by
  rw [List.map_map]
  exact List.map_id items

theorem wordAll_leaves (items : List Item) : wordAll (items.map leaf) = items := by
  rw [wordAll_eq_map_root, map_root_leaves]
  intro t ht
  obtain ⟨item, -, rfl⟩ := List.mem_map.1 ht
  rw [word, root]

theorem isDerivation_of_mem_leaves {rules : List Rule} {items : List Item}
    (h : ∀ c, .category c ∈ items → c = element) (ht : t ∈ items.map leaf) :
    IsDerivation rules element t := by
  obtain ⟨item, hitem, rfl⟩ := List.mem_map.1 ht
  cases item with
  | terminal text => exact .terminal text
  | category c =>
    obtain rfl := h c hitem
    exact .element

theorem generates_end (h : IsEnd element delimiter terminated nonempty last) :
    Generates element delimiter terminated nonempty last := by
  obtain ⟨hempty, rfl⟩ | ⟨hone, rfl⟩ := h
  · refine ⟨node ⟨"[]", .list element, [], false⟩ [], ⟨.node ?_ rfl (by simp), rfl⟩, ?_⟩
    · exact mem_listRules_iff.2 (.inl ⟨hempty, rfl⟩)
    · rw [word, wordAll]
  · refine ⟨node ⟨"(:[])", .list element, oneItems element delimiter terminated, false⟩
      ((oneItems element delimiter terminated).map leaf),
      ⟨.node ?_ (map_root_leaves _) ?_, rfl⟩, ?_⟩
    · exact mem_listRules_iff.2 (.inr (.inl ⟨hone, rfl⟩))
    · exact fun t => isDerivation_of_mem_leaves fun _ => eq_of_mem_oneItems
    · rw [word, wordAll_leaves]

theorem Generates.step (h : Generates element delimiter terminated nonempty w) :
    Generates element delimiter terminated nonempty
      (stepItems element delimiter terminated ++ w) := by
  obtain ⟨tail, ⟨htail, hroot⟩, rfl⟩ := h
  refine ⟨node ⟨"(:)", .list element,
      stepItems element delimiter terminated ++ [.category (.list element)], false⟩
    ((stepItems element delimiter terminated).map leaf ++ [tail]), ⟨.node ?_ ?_ ?_, rfl⟩, ?_⟩
  · exact mem_listRules_iff.2 (.inr (.inr rfl))
  · rw [List.map_append, map_root_leaves, List.map_singleton, hroot]
  · intro t ht
    obtain ht | ht := List.mem_append.1 ht
    · exact isDerivation_of_mem_leaves (fun _ => eq_of_mem_stepItems) ht
    · obtain rfl := List.mem_singleton.1 ht
      exact htail
  · rw [word, wordAll_append, wordAll_leaves, wordAll, wordAll, List.append_nil]

theorem generates_iff : Generates element delimiter terminated nonempty w ↔
    ∃ k last, IsEnd element delimiter terminated nonempty last ∧
      w = repeated k (stepItems element delimiter terminated) ++ last := by
  constructor
  · rintro ⟨t, ⟨hderivation, hroot⟩, rfl⟩
    exact (exists_steps hderivation hroot).1
  · rintro ⟨k, last, hlast, rfl⟩
    induction k with
    | zero => exact generates_end hlast
    | succ k ih =>
      rw [repeated_succ, List.append_assoc]
      exact ih.step

end Derivations

section Words

variable (element : Category) (d : String) (w : List Item)

theorem generates_terminated_iff : Generates element d true false w ↔
    ∃ k, w = repeated k [.category element, .terminal d] := by
  simp [generates_iff, IsEnd, stepItems]

theorem generates_terminated_nonempty_iff : Generates element d true true w ↔
    ∃ k, 1 ≤ k ∧ w = repeated k [.category element, .terminal d] := by
  have hone : ∀ k, repeated k (stepItems element d true) ++ oneItems element d true =
      repeated (k + 1) [.category element, .terminal d] := fun k => repeated_append_self k _
  rw [generates_iff]
  constructor
  · rintro ⟨k, last, ⟨hempty, -⟩ | ⟨-, rfl⟩, rfl⟩
    · cases hempty
    · exact ⟨k + 1, k.succ_pos, hone k⟩
  · rintro ⟨k, hk, rfl⟩
    obtain ⟨k, rfl⟩ := Nat.exists_eq_add_of_le' hk
    exact ⟨k, _, .inr ⟨rfl, rfl⟩, (hone k).symm⟩

theorem generates_separated_nonempty_iff (hd : d ≠ "") : Generates element d false true w ↔
    ∃ k, w = .category element :: repeated k [.terminal d, .category element] := by
  simp [generates_iff, IsEnd, stepItems, oneItems, hd, repeated_append_head]

/-- Every element may have a delimiter behind it here, the last one too. -/
theorem generates_separated_iff (hd : d ≠ "") : Generates element d false false w ↔
    w = [] ∨ (∃ k, w = .category element :: repeated k [.terminal d, .category element]) ∨
      ∃ k, w = repeated k [.category element, .terminal d] := by
  have hstep : stepItems element d false = [.category element, .terminal d] := by
    simp [stepItems, hd]
  have hone : ∀ k, repeated k (stepItems element d false) ++ oneItems element d false =
      .category element :: repeated k [.terminal d, .category element] := by
    intro k
    rw [hstep]
    exact repeated_append_head k _ _
  rw [generates_iff]
  constructor
  · rintro ⟨k, last, ⟨-, rfl⟩ | ⟨-, rfl⟩, rfl⟩
    · exact .inr (.inr ⟨k, by rw [hstep, List.append_nil]⟩)
    · exact .inr (.inl ⟨k, hone k⟩)
  · rintro (rfl | ⟨k, rfl⟩ | ⟨k, rfl⟩)
    · exact ⟨0, [], .inl ⟨rfl, rfl⟩, rfl⟩
    · exact ⟨k, _, .inr ⟨rfl, rfl⟩, (hone k).symm⟩
    · exact ⟨k, [], .inl ⟨rfl, rfl⟩, by rw [hstep, List.append_nil]⟩

theorem generates_undelimited_iff (nonempty : Bool) : Generates element "" false nonempty w ↔
    ∃ k, (nonempty = true → 1 ≤ k) ∧ w = List.replicate k (.category element) := by
  have hend : ∀ k, repeated k (stepItems element "" false) ++ [] =
      List.replicate k (.category element) := by
    intro k
    rw [List.append_nil]
    exact repeated_singleton k _
  have hone : ∀ k, repeated k (stepItems element "" false) ++ oneItems element "" false =
      List.replicate (k + 1) (.category element) := by
    intro k
    exact (repeated_append_self k [.category element]).trans (repeated_singleton (k + 1) _)
  rw [generates_iff]
  constructor
  · rintro ⟨k, last, ⟨hempty, rfl⟩ | ⟨-, rfl⟩, rfl⟩
    · exact ⟨k, fun h => absurd h (by simp [hempty]), hend k⟩
    · exact ⟨k + 1, fun _ => k.succ_pos, hone k⟩
  · rintro ⟨k, hk, rfl⟩
    cases k with
    | zero =>
      have hempty : nonempty = false := by simpa using hk
      exact ⟨0, [], .inl ⟨hempty, rfl⟩, rfl⟩
    | succ k => exact ⟨k, _, .inr ⟨by simp, rfl⟩, (hone k).symm⟩

end Words

/-- The words that the rules derive, for each kind of list, and the lengths of the derived lists. -/
theorem generates_iff_and_listLength (element : Category) (d : String) :
    (∀ w, Generates element d true false w ↔
      ∃ k, w = repeated k [.category element, .terminal d]) ∧
    (∀ w, Generates element d true true w ↔
      ∃ k, 1 ≤ k ∧ w = repeated k [.category element, .terminal d]) ∧
    (d ≠ "" → ∀ w, Generates element d false true w ↔
      ∃ k, w = .category element :: repeated k [.terminal d, .category element]) ∧
    (d ≠ "" → ∀ w, Generates element d false false w ↔
      w = [] ∨ (∃ k, w = .category element :: repeated k [.terminal d, .category element]) ∨
        ∃ k, w = repeated k [.category element, .terminal d]) ∧
    (∀ nonempty w, Generates element "" false nonempty w ↔
      ∃ k, (nonempty = true → 1 ≤ k) ∧ w = List.replicate k (.category element)) ∧
    ∀ terminated nonempty t, IsListDerivation element d terminated nonempty t →
      t.listLength? = some (t.word.count (.category element)) :=
  ⟨generates_terminated_iff element d, generates_terminated_nonempty_iff element d,
    fun hd w => generates_separated_nonempty_iff element d w hd,
    fun hd w => generates_separated_iff element d w hd,
    fun nonempty w => generates_undelimited_iff element w nonempty,
    fun _ _ _ h => (exists_steps h.derivation h.root_eq).2⟩

/-- Two expressions with a comma between them are derived, as a list of length two. -/
theorem generates_two_expressions : "," ≠ "" ∧ ∃ t,
    IsListDerivation (.plain "Exp") "," false true t ∧
      t.word = [.category (.plain "Exp"), .terminal ",", .category (.plain "Exp")] ∧
      t.listLength? = some 2 := by
  have hcomma : "," ≠ "" := by decide
  obtain ⟨-, -, hseparated, -, -, hlength⟩ := generates_iff_and_listLength (.plain "Exp") ","
  obtain ⟨t, ht, hword⟩ := (hseparated hcomma _).2 ⟨1, rfl⟩
  refine ⟨hcomma, t, ht, hword, ?_⟩
  rw [hlength _ _ t ht, hword]
  decide

end ListLanguage
end GrammarBindings
