import GrammarBindings.Proofs.BracketedNames

/-!
# The tokens of a rule

A rule is read from the tokens that it is written with, and from no others: its label and a full
stop, its result, the symbol between the two sides, and its items. A name stands for itself in them,
and a level may have zeros in front of its digits.
-/

namespace GrammarBindings

open Text

namespace Category

variable {declared : List String} {c : Category} {s : String} {ts : List Token}

/-- A level in decimal with zeros in front of it. -/
def padded (zeros rank : Nat) : String := String.ofList (List.replicate zeros '0') ++ toString rank

theorem padded_eq (zeros rank : Nat) :
    padded zeros rank = String.ofList (List.replicate zeros '0' ++ Nat.toDigits 10 rank) := by
  rw [padded, String.ofList_append, Nat.toString_eq_ofList_toDigits]

/-- The name of a category without lists, as a word from which it is read. A level stands behind its
name in decimal, with any number of zeros between them. -/
inductive ReadFrom (declared : List String) : String → Category → Prop where
  | plain {name : String} (unknown : name ∉ baseTokens ∧ name ∉ declared)
      (stem : endsInDigit name = false) : ReadFrom declared name (plain name)
  | token {name : String} (known : name ∈ baseTokens ∨ name ∈ declared) :
      ReadFrom declared name (token name)
  | level {name : String} {zeros rank : Nat} (stem : endsInDigit name = false)
      (unknown : name ++ padded zeros rank ∉ declared)
      (short : (padded zeros rank).length ≤ maxDigits) :
      ReadFrom declared (name ++ padded zeros rank) (level name rank)

theorem isAsciiDigit_of_mem_padded {zeros rank : Nat} {d : Char}
    (hd : d ∈ List.replicate zeros '0' ++ Nat.toDigits 10 rank) : isAsciiDigit d = true := by
  rcases List.mem_append.1 hd with hd | hd
  · rw [List.eq_of_mem_replicate hd]
    decide
  · exact isAsciiDigit_of_mem_toDigits hd

theorem ofDigitChars_padded (zeros rank : Nat) :
    Nat.ofDigitChars 10 (List.replicate zeros '0' ++ Nat.toDigits 10 rank) 0 = rank := by
  rw [Nat.ofDigitChars_append, Nat.ofDigitChars_replicate_zero, Nat.mul_zero,
    Nat.ofDigitChars_ten_toDigits]

theorem exists_padded {ds : List Char} (hne : ds ≠ []) (hds : ∀ d ∈ ds, isAsciiDigit d = true) :
    ∃ zeros, String.ofList ds = padded zeros (Nat.ofDigitChars 10 ds 0) := by
  obtain ⟨zeros, hzeros⟩ := exists_zeros ds
  refine ⟨zeros, ?_⟩
  rw [padded_eq, toDigits_ofDigitChars hds hne, ← hzeros]

theorem not_isAsciiDigit_of_beginsWord {d : Char} (h : beginsWord d = true) :
    isAsciiDigit d = false := by
  rw [Bool.eq_false_iff]
  intro hd
  rw [beginsWord_of_isDigit (isDigit_of_isAsciiDigit hd)] at h
  cases h

/-- A word has a first character in front of the digits at its end. -/
theorem rdropWhile_ne_nil {cs : List Char} (h : isWordChars cs = true) :
    cs.rdropWhile isAsciiDigit ≠ [] := by
  obtain ⟨d, ds, rfl, hd, -⟩ := exists_cons_of_isWordChars h
  intro hnil
  have hdigit := List.rdropWhile_eq_nil_iff.1 hnil d List.mem_cons_self
  rw [not_isAsciiDigit_of_beginsWord hd] at hdigit
  cases hdigit

theorem endsInDigit_rdropWhile (cs : List Char) :
    endsInDigit (String.ofList (cs.rdropWhile isAsciiDigit)) = false := by
  rw [endsInDigit, String.toList_ofList]
  cases hlast : (cs.rdropWhile isAsciiDigit).getLast? with
  | none => rfl
  | some d =>
    obtain ⟨ds, hds⟩ := List.getLast?_eq_some_iff.1 hlast
    have hne : cs.rdropWhile isAsciiDigit ≠ [] := by simp [hds]
    have hnot := List.rdropWhile_last_not isAsciiDigit cs hne
    simpa [hds] using hnot

/-- A word that has no level ends in no digit. -/
theorem endsInDigit_of_levelParts? (hs : isWord s = true) (h : levelParts? s.toList = none) :
    endsInDigit s = false := by
  have hparts : s.toList.rdropWhile isAsciiDigit ++ s.toList.rtakeWhile isAsciiDigit = s.toList :=
    List.rdropWhile_append_rtakeWhile
  have hstem := endsInDigit_rdropWhile s.toList
  by_cases hdigits : s.toList.rtakeWhile isAsciiDigit = []
  · rw [hdigits, List.append_nil] at hparts
    rwa [hparts, String.ofList_toList] at hstem
  · have hline : '\n' ∉ s.toList.rdropWhile isAsciiDigit := fun hmem =>
      lineEnd_notMem_of_isWordChars hs ((List.rdropWhile_prefix isAsciiDigit _).subset hmem)
    have hsome := levelParts?_append (fun d hd => List.mem_rtakeWhile_imp hd)
      (by simpa using not_digit_of_endsInDigit hstem) hdigits (rdropWhile_ne_nil hs) hline
    rw [hparts, h] at hsome
    cases hsome

theorem readFrom_of_digits (hdigits : s.toList.rtakeWhile isAsciiDigit ≠ [])
    (hshort : (s.toList.rtakeWhile isAsciiDigit).length ≤ maxDigits) (hu : s ∉ declared) :
    ReadFrom declared s (level (String.ofList (s.toList.rdropWhile isAsciiDigit))
      (Nat.ofDigitChars 10 (s.toList.rtakeWhile isAsciiDigit) 0 : Nat)) := by
  obtain ⟨zeros, hpadded⟩ := exists_padded hdigits fun d hd => List.mem_rtakeWhile_imp hd
  have hname : String.ofList (s.toList.rdropWhile isAsciiDigit) ++
      String.ofList (s.toList.rtakeWhile isAsciiDigit) = s := by
    rw [← String.ofList_append, List.rdropWhile_append_rtakeWhile, String.ofList_toList]
  rw [← String.length_ofList, hpadded] at hshort
  rw [hpadded] at hname
  have hunknown : String.ofList (s.toList.rdropWhile isAsciiDigit) ++
      padded zeros (Nat.ofDigitChars 10 (s.toList.rtakeWhile isAsciiDigit) 0) ∉ declared := by
    rwa [hname]
  have hlevel := ReadFrom.level (endsInDigit_rdropWhile s.toList) hunknown hshort
  rwa [hname] at hlevel

theorem readFrom_of_ofName (hs : isWord s = true) (h : ofName declared s.toList = .ok c) :
    ReadFrom declared s c := by
  rw [ofName, String.ofList_toList] at h
  split at h
  · next hknown =>
    cases h
    exact .token (by simpa using hknown)
  · next hunknown =>
    simp only [Bool.or_eq_true, decide_eq_true_eq, not_or] at hunknown
    split at h
    · next stem digits hparts =>
      obtain ⟨rank, hrank, rfl⟩ := map_eq_ok_iff.1 h
      obtain ⟨-, hdigits, rfl, rfl⟩ := levelParts?_eq_some hparts
      rw [readAsciiDigits] at hrank
      split at hrank
      · cases hrank
      · next hshort =>
        cases hrank
        exact readFrom_of_digits hdigits (Nat.not_lt.1 hshort) hunknown.2
    · next hnone =>
      cases h
      exact .plain hunknown (endsInDigit_of_levelParts? hs hnone)

theorem ReadFrom.ofName_eq (h : ReadFrom declared s c) (hs : isWord s = true) :
    ofName declared s.toList = .ok c := by
  cases h with
  | plain unknown stem => exact ofName_plain unknown stem
  | token known => exact ofName_token known
  | @level name zeros rank stem unknown short =>
    have hdigits : List.replicate zeros '0' ++ Nat.toDigits 10 rank ≠ [] ∧
        ∀ d ∈ List.replicate zeros '0' ++ Nat.toDigits 10 rank, isAsciiDigit d = true :=
      ⟨by simp [Nat.toDigits_ne_nil], fun d hd => isAsciiDigit_of_mem_padded hd⟩
    have hne : name.toList ≠ [] := by
      intro hnil
      refine rdropWhile_ne_nil hs (List.rdropWhile_eq_nil_iff.2 fun d hd => ?_)
      rw [String.toList_append, hnil, List.nil_append, padded_eq, String.toList_ofList] at hd
      exact hdigits.2 d hd
    have hword : isWord name = true := by
      rw [isWord, String.toList_append] at hs
      exact isWordChars_of_append hs hne
    rw [padded_eq] at unknown short ⊢
    rw [String.length_ofList] at short
    have hlevel := ofName_digits hword stem hdigits short unknown
    rwa [ofDigitChars_padded] at hlevel

/-- What a word is read as, said without the function that reads it. -/
theorem read_eq_ok_iff_readFrom (hs : isWord s = true) :
    read declared s = .ok c ↔ ReadFrom declared s c := by
  rw [read_word hs]
  exact ⟨readFrom_of_ofName hs, fun h => h.ofName_eq hs⟩

/-- The tokens of a category: its name between a pair of brackets for each list. -/
inductive HasTokens (declared : List String) : List (TokenKind × String) → Category → Prop where
  | name {s : String} {c : Category} (read : ReadFrom declared s c) :
      HasTokens declared [(.word, s)] c
  | list {ps : List (TokenKind × String)} {c : Category} (element : HasTokens declared ps c) :
      HasTokens declared ((.symbol, "[") :: (ps ++ [(.symbol, "]")])) (list c)

end Category

def Item.HasTokens (declared : List String) (ps : List (TokenKind × String)) : Item → Prop
  | terminal text => ps = [(.literal, text)]
  | category c => c.HasTokens declared ps

/-- One word, or the characters of a label for lists. -/
def Label.HasTokens (ps : List (TokenKind × String)) (l : Label) : Prop :=
  isWord l = true ∧ ps = [(.word, l)] ∨
    l.isList = true ∧ ps = l.toList.map fun c => (.symbol, String.singleton c)

inductive Rule.HasTokens (declared : List String) : List (TokenKind × String) → Rule → Prop where
  | mk {label result : List (TokenKind × String)} {items : List (List (TokenKind × String))}
      {r : Rule} (labelTokens : Label.HasTokens label r.label)
      (resultTokens : r.category.HasTokens declared result)
      (itemTokens : List.Forall₂ (Item.HasTokens declared) items r.items) :
      HasTokens declared
        (label ++ (.symbol, ".") :: (result ++ (.symbol, "::=") :: items.flatten)) r

section Spelled

variable {declared : List String} {ts : List Token} {ps : List (TokenKind × String)}

theorem exists_of_map_unplaced_eq_cons {p : TokenKind × String}
    (h : ts.map Token.unplaced = p :: ps) :
    ∃ t us, ts = t :: us ∧ (t.kind = p.1 ∧ t.value = p.2) ∧ us.map Token.unplaced = ps := by
  obtain ⟨t, us, rfl, rfl, hus⟩ := List.map_eq_cons_iff.1 h
  exact ⟨t, us, rfl, ⟨rfl, rfl⟩, hus⟩

theorem eq_singleton_of_map_unplaced {p : TokenKind × String}
    (h : ts.map Token.unplaced = [p]) : ∃ t, ts = [t] ∧ t.kind = p.1 ∧ t.value = p.2 := by
  obtain ⟨t, us, rfl, ht, hus⟩ := exists_of_map_unplaced_eq_cons h
  obtain rfl := List.map_eq_nil_iff.1 hus
  exact ⟨t, rfl, ht⟩

theorem unplaced_of_isSymbol {t : Token} {s : String} (h : t.isSymbol s = true) :
    t.unplaced = (.symbol, s) := by
  obtain ⟨hkind, hvalue⟩ := isSymbol_iff.1 h
  rw [Token.unplaced, hkind, hvalue]

namespace Category

variable {c : Category}

theorem Spelled.hasTokens (h : Spelled declared ts c) (hts : HaveWords ts) :
    HasTokens declared (ts.map Token.unplaced) c := by
  induction h with
  | @word t c hkind hname =>
    have hread := (read_eq_ok_iff_readFrom (hts t List.mem_cons_self hkind)).1 hname
    rw [List.map_singleton, Token.unplaced, hkind]
    exact .name hread
  | @list opening closing ts c hopening _ hclosing ih =>
    have helement := ih (hts.mono fun t ht => by simp [ht])
    rw [List.map_append, List.map_cons, List.map_singleton, unplaced_of_isSymbol hopening,
      unplaced_of_isSymbol hclosing]
    exact .list helement

theorem HasTokens.spelled (h : HasTokens declared ps c) (hts : HaveWords ts)
    (hps : ts.map Token.unplaced = ps) : Spelled declared ts c := by
  induction h generalizing ts with
  | @name s c hread =>
    obtain ⟨t, rfl, hkind, rfl⟩ := eq_singleton_of_map_unplaced hps
    exact .word hkind ((read_eq_ok_iff_readFrom (hts t List.mem_cons_self hkind)).2 hread)
  | @list ps c _ ih =>
    obtain ⟨opening, us, rfl, hopening, hus⟩ := exists_of_map_unplaced_eq_cons hps
    obtain ⟨inner, last, rfl, hinner, hlast⟩ := List.map_eq_append_iff.1 hus
    obtain ⟨closing, rfl, hclosing⟩ := eq_singleton_of_map_unplaced hlast
    exact .list (isSymbol_iff.2 hopening) (ih (hts.mono fun t ht => by simp [ht]) hinner)
      (isSymbol_iff.2 hclosing)

end Category

theorem ItemsSpelled.exists_hasTokens {items : List Item} (h : ItemsSpelled declared ts items)
    (hts : HaveWords ts) :
    ∃ pss, ts.map Token.unplaced = pss.flatten ∧
      List.Forall₂ (Item.HasTokens declared) pss items := by
  induction h with
  | nil => exact ⟨[], rfl, .nil⟩
  | @terminal t ts items hkind _ ih =>
    obtain ⟨pss, hpss, hitems⟩ := ih (hts.mono (List.subset_cons_self t ts))
    refine ⟨[(.literal, t.value)] :: pss, ?_, .cons rfl hitems⟩
    rw [List.map_cons, Token.unplaced, hkind, hpss]
    rfl
  | @category used ts c items hspelled _ ih =>
    obtain ⟨pss, hpss, hitems⟩ := ih (hts.mono (List.subset_append_right used ts))
    have hused := hspelled.hasTokens (hts.mono (List.subset_append_left used ts))
    refine ⟨used.map Token.unplaced :: pss, ?_, .cons hused hitems⟩
    rw [List.map_append, hpss, List.flatten_cons]

theorem itemsSpelled_of_hasTokens {pss : List (List (TokenKind × String))} {items : List Item}
    (h : List.Forall₂ (Item.HasTokens declared) pss items) (hts : HaveWords ts)
    (hpss : ts.map Token.unplaced = pss.flatten) : ItemsSpelled declared ts items := by
  induction h generalizing ts with
  | nil =>
    obtain rfl := List.map_eq_nil_iff.1 hpss
    exact .nil
  | @cons ps i pss items hi _ ih =>
    obtain ⟨used, rest, rfl, hused, hrest⟩ := List.map_eq_append_iff.1 hpss
    have hitems := ih (hts.mono (List.subset_append_right used rest)) hrest
    cases i with
    | terminal text =>
      obtain rfl : ps = [(.literal, text)] := hi
      obtain ⟨t, rfl, hkind, rfl⟩ := eq_singleton_of_map_unplaced hused
      exact .terminal hkind hitems
    | category c =>
      have hspelled : Category.Spelled declared used c :=
        Category.HasTokens.spelled hi (hts.mono (List.subset_append_left used rest)) hused
      exact .category hspelled hitems

/-- Symbols of one character each are known by what they spell. -/
theorem map_unplaced_of_symbols
    (h : ∀ t ∈ ts, t.kind = .symbol ∧ t.value.toList.length = 1) :
    ts.map Token.unplaced =
      (String.join (ts.map Token.value)).toList.map fun c => (.symbol, String.singleton c) := by
  induction ts with
  | nil => rfl
  | cons t ts ih =>
    obtain ⟨hkind, hlength⟩ := h t List.mem_cons_self
    obtain ⟨c, hc⟩ := List.length_eq_one_iff.1 hlength
    have hvalue : t.value = String.singleton c := by
      rw [← String.toList_inj, hc, String.toList_singleton]
    rw [List.map_cons, List.map_cons, String.join_cons, String.toList_append, hc,
      ih fun u hu => h u (List.mem_cons_of_mem t hu), Token.unplaced, hkind, hvalue]
    rfl

theorem LabelSpelled.hasTokens {l : Label} (h : LabelSpelled ts l)
    (hts : ∀ t ∈ ts, t.kind.admits t.value = true) :
    Label.HasTokens (ts.map Token.unplaced) l := by
  cases h with
  | @word t hkind =>
    have hword := hts t List.mem_cons_self
    rw [hkind] at hword
    refine .inl ⟨hword, ?_⟩
    rw [List.map_singleton, Token.unplaced, hkind]
  | @list ts hsymbols hlabel =>
    refine .inr ⟨hlabel, map_unplaced_of_symbols fun t ht => ⟨(hsymbols t ht).1, ?_⟩⟩
    have hadmits := hts t ht
    rw [(hsymbols t ht).1, TokenKind.admits, Bool.or_eq_true, Bool.and_eq_true,
      decide_eq_true_eq, decide_eq_true_eq] at hadmits
    rcases hadmits with harrow | ⟨hlength, -⟩
    · have hequals : '=' ∈ (String.join (ts.map Token.value)).toList := by
        rw [String.toList_join, List.mem_flatMap]
        exact ⟨t.value, List.mem_map_of_mem ht, by rw [harrow]; decide⟩
      exact absurd (Label.mem_of_isList hlabel hequals) (by decide)
    · exact hlength

theorem Label.HasTokens.spelled {l : Label} (h : Label.HasTokens ps l)
    (hps : ts.map Token.unplaced = ps) : LabelSpelled ts l := by
  rcases h with ⟨-, rfl⟩ | ⟨hl, rfl⟩
  · obtain ⟨t, rfl, hkind, rfl⟩ := eq_singleton_of_map_unplaced hps
    exact .word hkind
  · have hvalues : ts.map Token.value = l.toList.map String.singleton := by
      have hsnd := congrArg (List.map Prod.snd) hps
      rw [List.map_map, List.map_map] at hsnd
      exact hsnd
    have hjoin : String.join (ts.map Token.value) = l := by
      rw [hvalues, ← String.toList_inj, String.toList_join]
      simp [List.flatMap_map]
    have hsymbols : ∀ t ∈ ts, t.kind = .symbol ∧ t.value ≠ "." := by
      intro t ht
      have hmem : t.unplaced ∈ l.toList.map fun c => (TokenKind.symbol, String.singleton c) :=
        hps ▸ List.mem_map_of_mem ht
      obtain ⟨c, hc, hsymbol⟩ := List.mem_map.1 hmem
      obtain ⟨hkind, hvalue⟩ := Prod.mk.inj hsymbol
      refine ⟨hkind.symm, fun hstop => ?_⟩
      rw [hstop, ← String.toList_inj, String.toList_singleton] at hvalue
      obtain rfl : c = '.' := (List.cons.inj hvalue).1
      exact absurd (Label.mem_of_isList hl hc) (by decide)
    have hlabel := LabelSpelled.list hsymbols (by rw [hjoin]; exact hl)
    rwa [hjoin] at hlabel

theorem ruleSpelled_iff_hasTokens {r : Rule} (hts : ∀ t ∈ ts, t.kind.admits t.value = true) :
    RuleSpelled declared ts r ↔ r.HasTokens declared (ts.map Token.unplaced) := by
  have hwords : HaveWords ts := haveWords_of_admits hts
  constructor
  · intro h
    cases h with
    | @mk label result items stop arrow r hlabel hstop hresult harrow hitems =>
      have hright : HaveWords (result ++ arrow :: items) :=
        hwords.mono fun t ht => List.mem_append_right label (List.mem_cons_of_mem stop ht)
      obtain ⟨pss, hpss, hforall⟩ := hitems.exists_hasTokens
        (hright.mono fun t ht => List.mem_append_right result (List.mem_cons_of_mem arrow ht))
      rw [List.map_append, List.map_cons, List.map_append, List.map_cons, hpss,
        unplaced_of_isSymbol hstop, unplaced_of_isSymbol harrow]
      exact .mk (hlabel.hasTokens fun t ht => hts t (List.mem_append_left _ ht))
        (hresult.hasTokens (hright.mono (List.subset_append_left _ _))) hforall
  · intro h
    generalize hps : ts.map Token.unplaced = ps at h
    cases h with
    | @mk label result items r hlabel hresult hitems =>
      obtain ⟨used, rest, rfl, hused, hrest⟩ := List.map_eq_append_iff.1 hps
      obtain ⟨stop, rest, rfl, hstop, hrest⟩ := exists_of_map_unplaced_eq_cons hrest
      obtain ⟨middle, rest, rfl, hmiddle, hrest⟩ := List.map_eq_append_iff.1 hrest
      obtain ⟨arrow, rest, rfl, harrow, hrest⟩ := exists_of_map_unplaced_eq_cons hrest
      have hright : HaveWords (middle ++ arrow :: rest) :=
        hwords.mono fun t ht => List.mem_append_right used (List.mem_cons_of_mem stop ht)
      exact .mk (hlabel.spelled hused) (isSymbol_iff.2 hstop)
        (hresult.spelled (hright.mono (List.subset_append_left _ _)) hmiddle)
        (isSymbol_iff.2 harrow)
        (itemsSpelled_of_hasTokens hitems
          (hright.mono fun t ht => List.mem_append_right middle (List.mem_cons_of_mem arrow ht))
          hrest)

end Spelled

/-- The tokens of a text are read as a rule exactly if they are the tokens of that rule, one behind
the other: its label, a full stop, its result category, the symbol of three characters, and a
literal or a category for each of its items. -/
theorem readRule_eq_ok_iff_hasTokens {declared : List String} {lastLine : Nat} {internal : Bool}
    {ts : List Token} {r : Rule} (hts : ∀ t ∈ ts, ∃ text, t ∈ (tokenize text).tokens) :
    readRule declared lastLine internal ts = .ok r ↔
      r.HasTokens declared (ts.map Token.unplaced) ∧ r.internal = internal := by
  have hadmits : ∀ t ∈ ts, t.kind.admits t.value = true := fun t ht =>
    (hts t ht).elim fun _ hmem => admits_of_mem_tokens hmem
  rw [readRule_eq_ok_iff, ruleSpelled_iff_hasTokens hadmits]

/-- The label of a list rule, a level with a zero in front of it, and a token that is one only with
its digits. -/
theorem readRule_eq_ok_iff_hasTokens_padded :
    let ts := (tokenize "(:) . [Exp01] ::= Num2 \"+\" [[Exp]]").tokens
    let r : Rule := ⟨"(:)", .list (.level "Exp" 1), [.category (.token "Num2"), .terminal "+",
      .category (.list (.list (.plain "Exp")))], true⟩
    (∀ t ∈ ts, ∃ text, t ∈ (tokenize text).tokens) ∧ readRule ["Num2"] 1 true ts = .ok r ∧
      r.HasTokens ["Num2"] (ts.map Token.unplaced) ∧ r.internal = true := by
  intro ts r
  have hts : ∀ t ∈ ts, ∃ text, t ∈ (tokenize text).tokens := fun t ht => ⟨_, ht⟩
  have hread : readRule ["Num2"] 1 true ts = .ok r := by decide +kernel
  exact ⟨hts, hread, (readRule_eq_ok_iff_hasTokens hts).1 hread⟩

end GrammarBindings
