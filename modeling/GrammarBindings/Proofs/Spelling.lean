import GrammarBindings.Grammar.Statement
import GrammarBindings.Proofs.Outcomes

/-!
# What the tokens of a statement spell

The syntax of categories, items, labels and rules as relations between tokens and what they stand
for, said without the functions that read them. Each function accepts what its relation allows and
nothing else: categories and single tokens at the front of a statement, the items of a rule and
rules as a whole up to its end.
-/

namespace GrammarBindings

variable {declared : List String}

/-- A name, between as many pairs of brackets as the category has lists around it. -/
inductive Category.Spelled (declared : List String) : List Token → Category → Prop where
  | word {t : Token} {c : Category} (kind : t.kind = .word)
      (name : Category.read declared t.value = .ok c) : Spelled declared [t] c
  | list {opening closing : Token} {ts : List Token} {c : Category}
      (isOpening : opening.isSymbol "[" = true) (element : Spelled declared ts c)
      (isClosing : closing.isSymbol "]" = true) :
      Spelled declared (opening :: ts ++ [closing]) (.list c)

/-- Literals for the terminals and spelled categories for the others, one behind the other. -/
inductive ItemsSpelled (declared : List String) : List Token → List Item → Prop where
  | nil : ItemsSpelled declared [] []
  | terminal {t : Token} {ts : List Token} {items : List Item} (kind : t.kind = .literal)
      (others : ItemsSpelled declared ts items) :
      ItemsSpelled declared (t :: ts) (.terminal t.value :: items)
  | category {used ts : List Token} {c : Category} {items : List Item}
      (spelled : Category.Spelled declared used c) (others : ItemsSpelled declared ts items) :
      ItemsSpelled declared (used ++ ts) (.category c :: items)

/-- One word, or symbols other than the full stop that make up the label of a list rule. -/
inductive LabelSpelled : List Token → Label → Prop where
  | word {t : Token} (kind : t.kind = .word) : LabelSpelled [t] t.value
  | list {ts : List Token} (symbols : ∀ t ∈ ts, t.kind = .symbol ∧ t.value ≠ ".")
      (label : Label.isList (String.join (ts.map Token.value)) = true) :
      LabelSpelled ts (String.join (ts.map Token.value))

inductive RuleSpelled (declared : List String) : List Token → Rule → Prop where
  | mk {label result items : List Token} {stop arrow : Token} {r : Rule}
      (labelSpelled : LabelSpelled label r.label) (isStop : stop.isSymbol "." = true)
      (resultSpelled : Category.Spelled declared result r.category)
      (isArrow : arrow.isSymbol "::=" = true)
      (itemsSpelled : ItemsSpelled declared items r.items) :
      RuleSpelled declared (label ++ stop :: (result ++ arrow :: items)) r

theorem isSymbol_iff {t : Token} {s : String} :
    t.isSymbol s = true ↔ t.kind = .symbol ∧ t.value = s := by
  simp [Token.isSymbol]

/-- A category begins with a word or an opening bracket. -/
theorem Category.Spelled.exists_cons {ts : List Token} {c : Category}
    (h : Category.Spelled declared ts c) :
    ∃ t us, ts = t :: us ∧ (t.kind = .word ∨ t.isSymbol "[" = true) := by
  cases h with
  | word hk _ => exact ⟨_, _, rfl, .inl hk⟩
  | list ho _ _ => exact ⟨_, _, rfl, .inr ho⟩

section Reading

variable {lastLine : Nat} {label : Label}

theorem readSymbol_eq_ok_iff {s : String} {ts rest : List Token} :
    readSymbol lastLine s ts = .ok rest ↔ ∃ t, ts = t :: rest ∧ t.isSymbol s = true := by
  cases ts with
  | nil => simp [readSymbol]
  | cons t ts =>
    rw [readSymbol]
    split
    · next ht => simp [ht]
    · next ht => simp [ht]

theorem readToken_eq_ok_iff {kind : TokenKind} {ts rest : List Token} {s : String} :
    readToken lastLine kind ts = .ok (s, rest) ↔
      ∃ t, ts = t :: rest ∧ t.kind = kind ∧ t.value = s := by
  cases ts with
  | nil => simp [readToken]
  | cons t ts =>
    rw [readToken]
    split
    · next ht => simp [ht, and_comm]
    · next ht => simp [ht]

theorem readCategory_append {used : List Token} {c : Category}
    (h : Category.Spelled declared used c) (rest : List Token) :
    readCategory declared lastLine (used ++ rest) = .ok (c, rest) := by
  induction h generalizing rest with
  | @word t c hk hn =>
    have ht : t.isSymbol "[" = false := by simp [Token.isSymbol, hk]
    simp [readCategory, ht, hk, hn]
  | @list o e ts c ho _ he ih =>
    have hs : readSymbol lastLine "]" (e :: rest) = .ok rest :=
      readSymbol_eq_ok_iff.2 ⟨e, rfl, he⟩
    rw [List.cons_append, List.cons_append, List.append_assoc, List.singleton_append,
      readCategory, if_pos ho]
    simp only [ih, hs]

theorem spelled_of_readCategory {ts rest : List Token} {c : Category}
    (h : readCategory declared lastLine ts = .ok (c, rest)) :
    ∃ used, ts = used ++ rest ∧ Category.Spelled declared used c := by
  induction ts generalizing c rest with
  | nil => cases h
  | cons t ts ih =>
    rw [readCategory] at h
    by_cases hb : t.isSymbol "[" = true
    · rw [if_pos hb] at h
      cases hc : readCategory declared lastLine ts with
      | error e => simp [hc] at h
      | ok p =>
        obtain ⟨element, more⟩ := p
        cases hs : readSymbol lastLine "]" more with
        | error e => simp [hc, hs] at h
        | ok rest' =>
          simp only [hc, hs, Except.ok.injEq, Prod.mk.injEq] at h
          obtain ⟨rfl, rfl⟩ := h
          obtain ⟨used, rfl, hu⟩ := ih hc
          obtain ⟨e, rfl, he⟩ := readSymbol_eq_ok_iff.1 hs
          exact ⟨t :: used ++ [e], by simp, .list hb hu he⟩
    · rw [if_neg hb] at h
      by_cases hw : t.kind = .word
      · rw [if_pos hw] at h
        cases hn : Category.read declared t.value with
        | error e => simp [hn] at h
        | ok c' =>
          simp only [hn, Except.ok.injEq, Prod.mk.injEq] at h
          obtain ⟨rfl, rfl⟩ := h
          exact ⟨[t], rfl, .word hw hn⟩
      · rw [if_neg hw] at h
        cases h

theorem readCategory_eq_ok_iff {ts rest : List Token} {c : Category} :
    readCategory declared lastLine ts = .ok (c, rest) ↔
      ∃ used, ts = used ++ rest ∧ Category.Spelled declared used c := by
  constructor
  · exact spelled_of_readCategory
  · rintro ⟨used, rfl, h⟩
    exact readCategory_append h rest

theorem spelled_of_readItems {ts : List Token} {items : List Item}
    (h : readItems declared lastLine label ts = .ok items) : ItemsSpelled declared ts items := by
  fun_induction readItems declared lastLine label ts generalizing items with
  | case1 =>
    cases h
    exact .nil
  | case2 t ts hk ih =>
    obtain ⟨others, ho, rfl⟩ := map_eq_ok_iff.1 h
    exact .terminal hk (ih ho)
  | case3 => cases h
  | case4 t ts _ _ c rest hc ih =>
    obtain ⟨others, ho, rfl⟩ := map_eq_ok_iff.1 h
    obtain ⟨used, he, hu⟩ := spelled_of_readCategory hc
    rw [he]
    exact .category hu (ih ho)
  | case5 => cases h

theorem not_literal_of_begins {t : Token} (h : t.kind = .word ∨ t.isSymbol "[" = true) :
    t.kind ≠ .literal := by
  rcases h with h | h
  · simp [h]
  · simp [(isSymbol_iff.1 h).1]

theorem readItems_cons {t : Token} (h : t.kind = .word ∨ t.isSymbol "[" = true)
    (ts : List Token) :
    readItems declared lastLine label (t :: ts) =
      readCategory declared lastLine (t :: ts) >>= fun p =>
        (readItems declared lastLine label p.2).map (Item.category p.1 :: ·) := by
  rw [readItems, if_neg (not_literal_of_begins h), if_pos h]
  split
  · next he =>
    rw [he]
    rfl
  · next he =>
    rw [he]
    rfl

/-- A category at the front is one item. -/
theorem readItems_append {used : List Token} {c : Category}
    (h : Category.Spelled declared used c) (rest : List Token) :
    readItems declared lastLine label (used ++ rest) =
      (readItems declared lastLine label rest).map (Item.category c :: ·) := by
  have hread : readCategory declared lastLine (used ++ rest) = .ok (c, rest) :=
    readCategory_append h rest
  obtain ⟨t, us, rfl, ht⟩ := h.exists_cons
  rw [List.cons_append] at hread ⊢
  rw [readItems_cons ht, hread, ok_bind]

theorem readItems_of_spelled {ts : List Token} {items : List Item}
    (h : ItemsSpelled declared ts items) : readItems declared lastLine label ts = .ok items := by
  induction h with
  | nil => rw [readItems]
  | terminal hk _ ih => rw [readItems, if_pos hk, ih, Except.map]
  | category hc _ ih => rw [readItems_append hc, ih, Except.map]

theorem readItems_eq_ok_iff {ts : List Token} {items : List Item} :
    readItems declared lastLine label ts = .ok items ↔ ItemsSpelled declared ts items :=
  ⟨spelled_of_readItems, readItems_of_spelled⟩

theorem readLabel_word {t : Token} (h : t.kind = .word) (ts : List Token) :
    readLabel lastLine (t :: ts) = .ok (t.value, ts) := by
  have ht : (t :: ts).head?.filter (fun t => t.kind = .word) = some t := by
    rw [List.head?_cons, Option.filter_some, if_pos (by simpa using h)]
  rw [readLabel, ht]
  rfl

theorem readLabel_symbols {used : List Token} {stop : Token} (hs : stop.isSymbol "." = true)
    (hu : ∀ t ∈ used, t.kind = .symbol ∧ t.value ≠ ".")
    (hl : Label.isList (String.join (used.map Token.value)) = true) (rest : List Token) :
    readLabel lastLine (used ++ stop :: rest) =
      .ok (String.join (used.map Token.value), stop :: rest) := by
  have hinside : ∀ t ∈ used, (!t.isSymbol ".") = true := by
    intro t ht
    simp [Token.isSymbol, (hu t ht).2]
  have hword : (used ++ stop :: rest).head?.filter (fun t => t.kind = .word) = none := by
    cases used with
    | nil => simp [(isSymbol_iff.1 hs).1]
    | cons t used => simp [(hu t (by simp)).1]
  have hfind : used.find? (fun t => t.kind ≠ .symbol) = none := by
    rw [List.find?_eq_none]
    intro t ht
    simp [(hu t ht).1]
  rw [readLabel, hword]
  simp only [List.takeWhile_append_of_pos hinside, List.dropWhile_append_of_pos hinside,
    List.takeWhile_cons, List.dropWhile_cons, hs, Bool.not_true, Bool.false_eq_true, if_false,
    List.append_nil, hfind, hl, if_true]

theorem readLabel_of_spelled {used : List Token} {stop : Token} (h : LabelSpelled used label)
    (hs : stop.isSymbol "." = true) (rest : List Token) :
    readLabel lastLine (used ++ stop :: rest) = .ok (label, stop :: rest) := by
  cases h with
  | word hk => exact readLabel_word hk _
  | list hu hl => exact readLabel_symbols hs hu hl _

/-- A label reaches up to the first full stop. -/
theorem labelSpelled_of_readLabel {ts rest : List Token}
    (h : readLabel lastLine ts = .ok (label, rest)) :
    ∃ used, ts = used ++ rest ∧ LabelSpelled used label := by
  rw [readLabel] at h
  split at h
  · next t ht =>
    obtain ⟨hhead, hk⟩ := Option.filter_eq_some_iff.1 ht
    obtain ⟨us, rfl⟩ := List.head?_eq_some_iff.1 hhead
    simp only [Except.ok.injEq, Prod.mk.injEq, List.tail_cons] at h
    obtain ⟨rfl, rfl⟩ := h
    exact ⟨[t], rfl, .word (by simpa using hk)⟩
  · dsimp only at h
    split at h
    · cases h
    · next hfind =>
      split at h
      · next hl =>
        simp only [Except.ok.injEq, Prod.mk.injEq] at h
        obtain ⟨rfl, rfl⟩ := h
        refine ⟨_, List.takeWhile_append_dropWhile.symm, .list ?_ hl⟩
        intro t ht
        have hk : t.kind = .symbol := by
          have := List.find?_eq_none.1 hfind t ht
          simpa using this
        have hstop := List.all_eq_true.1 List.all_takeWhile t ht
        refine ⟨hk, ?_⟩
        intro hv
        simp [Token.isSymbol, hk, hv] at hstop
      · cases h

theorem readRule_eq_ok_iff {internal : Bool} {ts : List Token} {r : Rule} :
    readRule declared lastLine internal ts = .ok r ↔
      RuleSpelled declared ts r ∧ r.internal = internal := by
  constructor
  · intro h
    obtain ⟨⟨label, ts₁⟩, hl, h⟩ := bind_eq_ok_iff.1 h
    obtain ⟨ts₂, hs, h⟩ := bind_eq_ok_iff.1 h
    obtain ⟨⟨c, ts₃⟩, hc, h⟩ := bind_eq_ok_iff.1 h
    obtain ⟨ts₄, ha, h⟩ := bind_eq_ok_iff.1 h
    obtain ⟨items, hi, h⟩ := bind_eq_ok_iff.1 h
    obtain rfl := pure_eq_ok_iff.1 h
    obtain ⟨used, rfl, hu⟩ := labelSpelled_of_readLabel hl
    obtain ⟨stop, rfl, hstop⟩ := readSymbol_eq_ok_iff.1 hs
    obtain ⟨result, rfl, hresult⟩ := readCategory_eq_ok_iff.1 hc
    obtain ⟨arrow, rfl, harrow⟩ := readSymbol_eq_ok_iff.1 ha
    exact ⟨.mk hu hstop hresult harrow (readItems_eq_ok_iff.1 hi), rfl⟩
  · rintro ⟨h, rfl⟩
    cases h with
    | @mk label result items stop arrow r hl hs hc ha hi =>
      refine bind_eq_ok_iff.2 ⟨_, readLabel_of_spelled hl hs _, ?_⟩
      refine bind_eq_ok_iff.2 ⟨_, readSymbol_eq_ok_iff.2 ⟨stop, rfl, hs⟩, ?_⟩
      refine bind_eq_ok_iff.2 ⟨_, readCategory_append hc _, ?_⟩
      refine bind_eq_ok_iff.2 ⟨_, readSymbol_eq_ok_iff.2 ⟨arrow, rfl, ha⟩, ?_⟩
      exact bind_eq_ok_iff.2 ⟨_, readItems_of_spelled hi, rfl⟩

theorem mem_of_mem_skipComma {ts : List Token} {t : Token} (h : t ∈ skipComma ts) : t ∈ ts := by
  cases ts with
  | nil => exact h
  | cons t' ts =>
    rw [skipComma] at h
    split at h
    · exact List.mem_cons_of_mem t' h
    · exact h

theorem readEntrypoints_of_ne_nil {ts : List Token} (h : ts ≠ []) :
    readEntrypoints declared lastLine ts =
      readCategory declared lastLine ts >>= fun p =>
        (readEntrypoints declared lastLine (skipComma p.2)).map (p.1.normalize :: ·) := by
  rw [readEntrypoints.eq_def, if_neg (by simpa using h)]
  split
  · next he =>
    rw [he]
    rfl
  · next he =>
    rw [he]
    rfl

/-- One entry point is read with the comma behind it, if there is one. -/
theorem readEntrypoints_append {used : List Token} {c : Category}
    (h : Category.Spelled declared used c) (rest : List Token) :
    readEntrypoints declared lastLine (used ++ rest) =
      (readEntrypoints declared lastLine (skipComma rest)).map (c.normalize :: ·) := by
  have hread : readCategory declared lastLine (used ++ rest) = .ok (c, rest) :=
    readCategory_append h rest
  obtain ⟨t, us, rfl, -⟩ := h.exists_cons
  rw [readEntrypoints_of_ne_nil (by simp), hread, ok_bind]

end Reading
end GrammarBindings
