import GrammarBindings.Proofs.Pragmas
import GrammarBindings.Proofs.RuleTexts
import GrammarBindings.Proofs.RuleTokens
import GrammarBindings.Proofs.WrittenTokens
import Mathlib.Data.Nat.Digits.Defs

/-!
# Pragmas written out

What a pragma stands for can be written out as rules. The base category of coercions is written with
the digits of each level behind it, and each list between brackets; these texts are read as the
levels and the lists that the pragma makes. So the pragma and the rules contribute the same to a
grammar, wherever they stand between its other statements.
-/

namespace GrammarBindings

open Text

variable {declared : List String}

section Numerals

theorem decimalValue?_of_isAsciiDigit {c : Char} (h : isAsciiDigit c = true) :
    decimalValue? c = some (c.toNat - '0'.toNat) := by
  have hc : 48 ≤ c.toNat ∧ c.toNat ≤ 57 := Char.isDigit_iff_toNat.1 h
  rw [decimalValue?, decimalZeros, List.find?_cons_of_pos]
  · rfl
  · simp
    omega

theorem readDigits_of_isAsciiDigit {cs : List Char} (hne : cs ≠ [])
    (hdigits : ∀ c ∈ cs, isAsciiDigit c = true) (hshort : cs.length ≤ maxDigits) :
    readDigits cs = .ok (Nat.ofDigitChars 10 cs 0) := by
  have hdecimal : ∀ c ∈ cs, isDecimal c = true := fun c hc => by
    rw [isDecimal, decimalValue?_of_isAsciiDigit (hdigits c hc)]
    rfl
  have htake : cs.takeWhile isDecimal = cs := List.takeWhile_eq_self_iff.2 hdecimal
  have hvalues : cs.filterMap decimalValue? = cs.map fun c => c.toNat - '0'.toNat := by
    rw [← List.filterMap_eq_map]
    exact List.filterMap_congr fun c hc => decimalValue?_of_isAsciiDigit (hdigits c hc)
  rw [readDigits, htake, if_neg (Nat.not_lt.2 hshort), if_neg, hvalues, ofDecimals, List.foldl_map,
    Nat.ofDigitChars_eq_foldl]
  simpa [hne] using hdecimal

theorem ofDigitChars_lt {cs : List Char} (hdigits : ∀ c ∈ cs, isAsciiDigit c = true) (k : Nat) :
    Nat.ofDigitChars 10 cs k < (k + 1) * 10 ^ cs.length := by
  induction cs generalizing k with
  | nil => simp
  | cons c cs ih =>
    have hc : 10 * k + (c.toNat - '0'.toNat) + 1 ≤ (k + 1) * 10 := by
      have hlt := (digitChar_of_isAsciiDigit (hdigits c List.mem_cons_self)).1
      omega
    rw [Nat.ofDigitChars_cons, List.length_cons, Nat.pow_succ']
    calc Nat.ofDigitChars 10 cs (10 * k + (c.toNat - '0'.toNat))
        < (10 * k + (c.toNat - '0'.toNat) + 1) * 10 ^ cs.length :=
          ih (fun d hd => hdigits d (List.mem_cons_of_mem c hd)) _
      _ ≤ (k + 1) * 10 * 10 ^ cs.length := Nat.mul_le_mul_right _ hc
      _ = (k + 1) * (10 * 10 ^ cs.length) := Nat.mul_assoc _ _ _

/-- A number up to that with some digits is written with no more digits. -/
theorem length_toDigits_le {cs : List Char} (hne : cs ≠ [])
    (hdigits : ∀ c ∈ cs, isAsciiDigit c = true) {k : Nat} (hk : k ≤ Nat.ofDigitChars 10 cs 0) :
    (Nat.toDigits 10 k).length ≤ cs.length := by
  have hlt := ofDigitChars_lt hdigits 0
  rw [Nat.zero_add, Nat.one_mul] at hlt
  exact Nat.toDigits_length 10 k cs.length (List.length_pos_of_ne_nil hne) (by omega)

end Numerals

/-- A number of levels as it is written behind the base category. -/
structure IsLevelCount (digits : String) : Prop where
  ne_nil : digits.toList ≠ []
  ascii : ∀ c ∈ digits.toList, isAsciiDigit c = true
  short : digits.length ≤ maxDigits

def levelCount (digits : String) : Nat := Nat.ofDigitChars 10 digits.toList 0

def coercionsPragma (base digits : String) : String :=
  "coercions " ++ (base ++ (" " ++ (digits ++ " ;")))

def levelText (base : String) (k : Nat) : String := if k = 0 then base else base ++ toString k

def coercionTexts (base : String) (levels : Nat) : List RuleText :=
  (List.range levels).map
      (fun k => ⟨"_", levelText base k, [.category (levelText base (k + 1))]⟩) ++
    [⟨"_", levelText base levels, [.literal "(", .category base, .literal ")"]⟩]

def listKeyword (terminated : Bool) : String := if terminated then "terminator" else "separator"

def listPragma (terminated nonempty : Bool) (category delimiter : String) : String :=
  listKeyword terminated ++ (" " ++ ((if nonempty then "nonempty " else "") ++
    (category ++ (" " ++ (writtenLiteral delimiter ++ " ;")))))

/-- The rules of lists, written out for terminators and separators that are `nonempty` or not. -/
def listTexts (terminated nonempty : Bool) (category delimiter : String) : List RuleText :=
  let list := "[" ++ category ++ "]"
  let empty : RuleText := ⟨"[]", list, []⟩
  let one : RuleText := ⟨"(:[])", list, [.category category]⟩
  let oneTerminated : RuleText := ⟨"(:[])", list, [.category category, .literal delimiter]⟩
  let more : RuleText := ⟨"(:)", list, [.category category, .literal delimiter, .category list]⟩
  let moreUndelimited : RuleText := ⟨"(:)", list, [.category category, .category list]⟩
  match terminated, nonempty with
  | true, false => [empty, more]
  | true, true => [oneTerminated, more]
  | false, false => [empty, one, if delimiter = "" then moreUndelimited else more]
  | false, true => [one, if delimiter = "" then moreUndelimited else more]

/-- The items of the rules of lists, each beside its text. -/
inductive ListItemText (category delimiter : String) (element : Category) :
    ItemText → Item → Prop where
  | element : ListItemText category delimiter element (.category category) (.category element)
  | delimiter : ListItemText category delimiter element (.literal delimiter) (.terminal delimiter)
  | tail : ListItemText category delimiter element (.category ("[" ++ category ++ "]"))
      (.category (.list element))

inductive ListRuleText (category delimiter : String) (element : Category) :
    RuleText → Rule → Prop where
  | mk {label : Label} {texts : List ItemText} {items : List Item} (isList : label.isList = true)
      (each : List.Forall₂ (ListItemText category delimiter element) texts items) :
      ListRuleText category delimiter element ⟨label, "[" ++ category ++ "]", texts⟩
        ⟨label, .list element, items, false⟩

/-- The rules that are written out are, in order, those that the pragma makes. -/
theorem forall₂_listTexts (terminated nonempty : Bool) (category delimiter : String)
    (element : Category) :
    List.Forall₂ (ListRuleText category delimiter element)
      (listTexts terminated nonempty category delimiter)
      (listRules element delimiter terminated nonempty) := by
  have hempty : ListRuleText category delimiter element ⟨"[]", "[" ++ category ++ "]", []⟩
      ⟨"[]", .list element, [], false⟩ := .mk rfl .nil
  have hmore : ListRuleText category delimiter element
      ⟨"(:)", "[" ++ category ++ "]",
        [.category category, .literal delimiter, .category ("[" ++ category ++ "]")]⟩
      ⟨"(:)", .list element,
        [.category element, .terminal delimiter, .category (.list element)], false⟩ :=
    .mk rfl (.cons .element (.cons .delimiter (.cons .tail .nil)))
  cases terminated with
  | true =>
    have hone : ListRuleText category delimiter element
        ⟨"(:[])", "[" ++ category ++ "]", [.category category, .literal delimiter]⟩
        ⟨"(:[])", .list element, [.category element, .terminal delimiter], false⟩ :=
      .mk rfl (.cons .element (.cons .delimiter .nil))
    cases nonempty with
    | true => exact .cons hone (.cons hmore .nil)
    | false => exact .cons hempty (.cons hmore .nil)
  | false =>
    have hone : ListRuleText category delimiter element
        ⟨"(:[])", "[" ++ category ++ "]", [.category category]⟩
        ⟨"(:[])", .list element, [.category element], false⟩ := .mk rfl (.cons .element .nil)
    by_cases hd : delimiter = ""
    · subst hd
      have hmore' : ListRuleText category "" element
          ⟨"(:)", "[" ++ category ++ "]", [.category category, .category ("[" ++ category ++ "]")]⟩
          ⟨"(:)", .list element, [.category element, .category (.list element)], false⟩ :=
        .mk rfl (.cons .element (.cons .tail .nil))
      cases nonempty with
      | true => exact .cons hone (.cons hmore' .nil)
      | false => exact .cons hempty (.cons hone (.cons hmore' .nil))
    · have hdelimited : (false || decide (delimiter ≠ "")) = true := by simp [hd]
      cases nonempty with
      | true =>
        simp only [listTexts, listRules, if_neg hd, hdelimited]
        exact .cons hone (.cons hmore .nil)
      | false =>
        simp only [listTexts, listRules, if_neg hd, hdelimited]
        exact .cons hempty (.cons hone (.cons hmore .nil))

section Contributions

variable {base digits category : String}

theorem contributes_coercionsPragma (hbase : isWord base = true) (hdigits : IsLevelCount digits)
    (declared : List String) :
    Contributes declared (coercionsPragma base digits)
      (.ok (coercionRules base (levelCount digits))) := by
  refine .of_statement fun line => ⟨⟨⟨.word, "coercions", line⟩,
    [⟨.word, base, line⟩, ⟨.number, digits, line⟩]⟩, fun rest => ?_, ?_, rfl, ?_⟩
  · have hkeyword : isWord "coercions" = true := by decide +kernel
    have hadmits : TokenKind.number.admits digits = true := by
      rw [TokenKind.admits, Bool.and_eq_true, List.all_eq_true]
      refine ⟨by simpa using hdigits.ne_nil, fun c hc => ?_⟩
      exact isDigit_of_isAsciiDigit (hdigits.ascii c hc)
    have hnumber : Lexes line digits (" ;".toList ++ rest) [⟨.number, digits, line⟩] := by
      have hlexeme : Lexeme .number digits.toList digits.toList (" ;".toList ++ rest) :=
        lexeme_written hadmits (by simp)
      simpa using hlexeme.lexes line
    have hcount := (Lexes.space line _).append (hnumber.append (lexes_end line rest))
    have hname := (Lexes.word hbase (stops_append rfl rfl _ rest)).append hcount
    exact (lexes_keyword hkeyword rfl line _).append hname
  · simp [Statement.tokens, Token.isSymbol]
  · have hpragma : Statement.pragma? ⟨⟨.word, "coercions", line⟩,
        [⟨.word, base, line⟩, ⟨.number, digits, line⟩]⟩ = some .coercions := rfl
    have hlevels : readDigits digits.toList = .ok (levelCount digits) :=
      readDigits_of_isAsciiDigit hdigits.ne_nil hdigits.ascii hdigits.short
    have hspelled : CoercionsSpelled [⟨.word, base, line⟩, ⟨.number, digits, line⟩]
        (coercionRules base (levelCount digits)) := .mk rfl rfl hlevels
    rw [Statement.interpret, hpragma]
    exact congrArg (Except.map Contribution.rules) (readCoercionRules_of_spelled hspelled [])

theorem CategoryTokens.asksNonempty_append {line : Nat} {ts : List Token}
    (h : CategoryTokens line category ts) (hcategory : category ≠ "nonempty") (us : List Token) :
    asksNonempty (ts ++ us) = false := by
  obtain ⟨t, ts', rfl, ⟨-, rfl⟩ | ht⟩ := h.begins
  · simp [asksNonempty, hcategory]
  · simp [asksNonempty, (isSymbol_iff.1 ht).1]

def markTokens (line : Nat) (nonempty : Bool) : List Token :=
  if nonempty then [⟨.word, "nonempty", line⟩] else []

theorem CategoryTokens.readListRules_eq {line : Nat} {ts : List Token}
    (h : CategoryTokens line category ts) (hcategory : category ≠ "nonempty")
    (declared : List String) (lastLine : Nat) (terminated nonempty : Bool) (delimiter : String) :
    readListRules declared lastLine terminated
        (markTokens line nonempty ++ (ts ++ [⟨.literal, delimiter, line⟩])) =
      ((Category.read declared category).mapError ReadFailure.numeral).map fun element =>
        listRules element delimiter terminated nonempty := by
  let us : List Token := markTokens line nonempty ++ (ts ++ [⟨.literal, delimiter, line⟩])
  have hmark : us.head?.any (fun t => t.kind = .word && t.value = "nonempty") = nonempty := by
    cases nonempty with
    | false => exact h.asksNonempty_append hcategory _
    | true => rfl
  have hrest : (if nonempty then us.tail else us) = ts ++ [⟨.literal, delimiter, line⟩] := by
    cases nonempty <;> rfl
  rw [readListRules, hmark, hrest, h.reads]
  cases Category.read declared category <;> rfl

theorem interpret_listPragma {s : Statement} {terminated : Bool} (hkind : s.head.kind = .word)
    (hvalue : s.head.value = listKeyword terminated)
    (hnext : s.tail.head?.any (fun t => t.isSymbol ".") = false) :
    s.declaredToken? = none ∧ ∀ declared, s.interpret declared =
      (readListRules declared s.lastLine terminated s.tail).map .rules := by
  have hpragma : s.pragma? = some (if terminated then .terminator else .separator) := by
    rw [Statement.pragma?, hkind, hvalue, hnext]
    cases terminated <;> rfl
  refine ⟨Statement.declaredToken?_eq_none hpragma ?_, fun declared => ?_⟩
  · cases terminated <;> rfl
  · rw [Statement.interpret, hpragma]
    cases terminated <;> rfl

/-- A pragma for lists is read as its category is, whatever the delimiter. -/
theorem contributes_listPragma (h : IsCategoryText category) (hcategory : category ≠ "nonempty")
    (declared : List String) (terminated nonempty : Bool) (delimiter : String) :
    Contributes declared (listPragma terminated nonempty category delimiter)
      (((Category.read declared category).mapError ReadFailure.numeral).map fun element =>
        listRules element delimiter terminated nonempty) := by
  refine .of_statement fun line => ?_
  obtain ⟨ts, hts⟩ := h.exists_tokens line
  let tail : List Token := markTokens line nonempty ++ (ts ++ [⟨.literal, delimiter, line⟩])
  have hnext : tail.head?.any (fun t => t.isSymbol ".") = false := by
    cases nonempty with
    | true => rfl
    | false =>
      obtain ⟨t, us, rfl, ht⟩ := hts.begins
      obtain ⟨hkind, -⟩ | ht := ht
      · simp [tail, markTokens, Token.isSymbol, hkind]
      · simp [tail, markTokens, Token.isSymbol, (isSymbol_iff.1 ht).2]
  obtain ⟨hdeclared, hinterpret⟩ :=
    interpret_listPragma (s := ⟨⟨.word, listKeyword terminated, line⟩, tail⟩) rfl rfl hnext
  refine ⟨⟨⟨.word, listKeyword terminated, line⟩, tail⟩, fun rest => ?_, ?_, hdeclared, ?_⟩
  · have hkeyword : isWord (listKeyword terminated) = true := by cases terminated <;> decide +kernel
    have hmark (rest : List Char) :
        Lexes line (if nonempty then "nonempty " else "") rest (markTokens line nonempty) := by
      cases nonempty with
      | false => exact Lexes.empty line rest
      | true => exact lexes_keyword (by decide +kernel) rfl line rest
    have hdelimiter := (Lexes.space line _).append
      ((Lexes.literal delimiter _).append (lexes_end line rest))
    have hcategory := (hts.lexes (stops_append rfl rfl _ rest)).append hdelimiter
    have hall := (Lexes.word hkeyword (stops_append rfl rfl _ rest)).append
      ((Lexes.space line _).append ((hmark _).append hcategory))
    rw [listPragma]
    simpa [Statement.tokens, tail] using hall
  · have hmark : ∀ t ∈ markTokens line nonempty, t.isSymbol ";" = false := by
      cases nonempty with
      | false => simp [markTokens]
      | true => simp [markTokens, Token.isSymbol]
    refine List.forall_mem_cons.2 ⟨rfl, List.forall_mem_append.2 ⟨hmark, ?_⟩⟩
    exact List.forall_mem_append.2 ⟨hts.whole, by simp [Token.isSymbol]⟩
  · rw [hinterpret, hts.readListRules_eq hcategory]

theorem levelText_zero (base : String) : levelText base 0 = base := rfl

theorem isWord_levelText (hbase : isWord base = true) (k : Nat) :
    isWord (levelText base k) = true := by
  rw [levelText]
  split
  · exact hbase
  · exact Category.isWord_level hbase k

/-- The text of a level is read as the level, which is the base category for none. -/
theorem read_levelText (hbase : isWord base = true)
    (hread : Category.read declared base = .ok (.plain base)) {k : Nat}
    (hshort : (Nat.toDigits 10 k).length ≤ maxDigits)
    (hunknown : 1 ≤ k → levelText base k ∉ declared) :
    Category.read declared (levelText base k) = .ok (atLevel base k) := by
  rw [Category.read_word (isWord_levelText hbase k)]
  cases k with
  | zero => rwa [levelText_zero, ← Category.read_word hbase]
  | succ k =>
    have hstem : endsInDigit base = false := by
      cases (Category.read_eq_ok_iff_readFrom hbase).1 hread with
      | plain _ stem => exact stem
    exact Category.ofName_level hbase hstem hshort (hunknown k.succ_pos)

theorem RuleText.read_eq (label : Label) {result : String} {category : Category}
    {items : List ItemText} {items' : List Item}
    (hresult : Category.read declared result = .ok category)
    (hitems : List.Forall₂ (fun i i' => i.read declared = .ok i') items items') :
    RuleText.read declared ⟨label, result, items⟩ = .ok ⟨label, category, items', false⟩ := by
  rw [RuleText.read, hresult, mapM_eq_ok_iff.2 hitems]
  rfl

theorem ItemText.read_category {category : String} {c : Category}
    (h : Category.read declared category = .ok c) :
    (ItemText.category category).read declared = .ok (.category c) := by
  rw [ItemText.read, h]
  rfl

theorem read_brackets_of_read {element : Category}
    (h : Category.read declared category = .ok element) :
    Category.read declared ("[" ++ category ++ "]") = .ok (.list element) := by
  rw [Category.read_brackets, h]
  rfl

theorem mapM_read_coercionTexts {levels : Nat} (hbase : isWord base = true)
    (hread : Category.read declared base = .ok (.plain base))
    (hshort : ∀ k ≤ levels, (Nat.toDigits 10 k).length ≤ maxDigits)
    (hunknown : ∀ k, 1 ≤ k → k ≤ levels → levelText base k ∉ declared) :
    (coercionTexts base levels).mapM (RuleText.read declared) =
      .ok (coercionRules base levels) := by
  have hlevel : ∀ k ≤ levels, Category.read declared (levelText base k) = .ok (atLevel base k) :=
    fun k hk => read_levelText hbase hread (hshort k hk) fun hpos => hunknown k hpos hk
  rw [mapM_eq_ok_iff, coercionTexts, coercionRules]
  refine List.rel_append (forall₂_map_map fun k hk => ?_) (.cons ?_ .nil)
  · have hk' := List.mem_range.1 hk
    exact RuleText.read_eq "_" (hlevel k hk'.le)
      (.cons (ItemText.read_category (hlevel (k + 1) hk')) .nil)
  · exact RuleText.read_eq "_" (hlevel levels le_rfl)
      (.cons rfl (.cons (ItemText.read_category hread) (.cons rfl .nil)))

theorem ListItemText.read_eq {delimiter : String} {element : Category} {i : ItemText} {i' : Item}
    (h : ListItemText category delimiter element i i')
    (hread : Category.read declared category = .ok element) : i.read declared = .ok i' := by
  cases h with
  | element => exact ItemText.read_category hread
  | delimiter => rfl
  | tail => exact ItemText.read_category (read_brackets_of_read hread)

theorem ListRuleText.read_eq {delimiter : String} {element : Category} {r : RuleText} {r' : Rule}
    (h : ListRuleText category delimiter element r r')
    (hread : Category.read declared category = .ok element) : r.read declared = .ok r' := by
  cases h with
  | mk _ items =>
    have hitems := items.imp fun _ _ hi => hi.read_eq hread
    exact RuleText.read_eq _ (read_brackets_of_read hread) hitems

/-- The rules of lists are read as the pragma is: they all begin with the list. -/
theorem mapM_read_listTexts (declared : List String) (terminated nonempty : Bool)
    (category delimiter : String) :
    (listTexts terminated nonempty category delimiter).mapM (RuleText.read declared) =
      (Category.read declared category).map fun element =>
        listRules element delimiter terminated nonempty := by
  cases hread : Category.read declared category with
  | error f =>
    have hlist := Category.read_brackets declared category
    rw [hread] at hlist
    cases terminated <;> cases nonempty <;> simp [listTexts, RuleText.read, hlist] <;> rfl
  | ok element =>
    have htexts := forall₂_listTexts terminated nonempty category delimiter element
    exact mapM_eq_ok_iff.2 (htexts.imp fun _ _ hr => hr.read_eq hread)

theorem isProper_coercionTexts (hbase : isWord base = true) (levels : Nat) :
    ∀ r ∈ coercionTexts base levels, r.IsProper := by
  have hlabel : isWord "_" = true := by decide +kernel
  have hlevel (k : Nat) : IsCategoryText (levelText base k) := .name (isWord_levelText hbase k)
  refine List.forall_mem_append.2 ⟨List.forall_mem_map.2 fun k _ => ?_, ?_⟩
  · exact ⟨.inl hlabel, by simp, hlevel k, List.forall_mem_singleton.2 (hlevel (k + 1))⟩
  · refine List.forall_mem_singleton.2 ⟨.inl hlabel, by simp, hlevel levels, ?_⟩
    exact List.forall_mem_cons.2 ⟨trivial, List.forall_mem_cons.2 ⟨.name hbase,
      List.forall_mem_singleton.2 trivial⟩⟩

theorem ListRuleText.isProper {delimiter : String} {element : Category} {r : RuleText} {r' : Rule}
    (h : ListRuleText category delimiter element r r') (hcategory : IsCategoryText category) :
    r.IsProper := by
  cases h with
  | mk isList items =>
    refine ⟨.inr isList, ?_, hcategory.list, fun i hi => ?_⟩
    · rintro rfl
      cases isList
    · obtain ⟨i', h⟩ := exists_of_mem_forall₂ items hi
      cases h with
      | element => exact hcategory
      | delimiter => trivial
      | tail => exact hcategory.list

theorem isProper_listTexts (h : IsCategoryText category) (terminated nonempty : Bool)
    (delimiter : String) : ∀ r ∈ listTexts terminated nonempty category delimiter, r.IsProper := by
  intro r hr
  obtain ⟨r', hr'⟩ := exists_of_mem_forall₂
    (forall₂_listTexts terminated nonempty category delimiter (.plain category)) hr
  exact hr'.isProper h

end Contributions

namespace Grammar

/-- A pragma and the rules that it abbreviates are read alike, between whatever statements they
stand, and if these are read by themselves then the rules come in between theirs. -/
theorem read_pragma_eq_read_texts {before : String} (hbefore : IsClosed before) (behind : String) :
    (∀ base digits, isWord base = true → IsLevelCount digits →
      Category.read (namesAround before behind) base = .ok (.plain base) →
      (∀ k, 1 ≤ k → k ≤ levelCount digits → levelText base k ∉ namesAround before behind) →
        read (around before (coercionsPragma base digits) behind) =
          read (around before (RuleText.writtenAll (coercionTexts base (levelCount digits)))
            behind) ∧
        ∀ g, read (around before "" behind) = .ok g → ∃ front back, g.rules = front ++ back ∧
          read (around before (coercionsPragma base digits) behind) =
            .ok { g with rules := front ++ (coercionRules base (levelCount digits) ++ back) }) ∧
    ∀ terminated nonempty category delimiter, IsCategoryText category → category ≠ "nonempty" →
      read (around before (listPragma terminated nonempty category delimiter) behind) =
        read (around before
          (RuleText.writtenAll (listTexts terminated nonempty category delimiter)) behind) ∧
      ∀ element, Category.read (namesAround before behind) category = .ok element →
        ∀ g, read (around before "" behind) = .ok g → ∃ front back, g.rules = front ++ back ∧
          read (around before (listPragma terminated nonempty category delimiter) behind) =
            .ok { g with
              rules := front ++ (listRules element delimiter terminated nonempty ++ back) } := by
  constructor
  · intro base digits hbase hdigits hread hunknown
    have hpragma := contributes_coercionsPragma hbase hdigits (namesAround before behind)
    have htexts := RuleText.contributes_writtenAll
      (isProper_coercionTexts hbase (levelCount digits)) (namesAround before behind)
    have hshort : ∀ k ≤ levelCount digits, (Nat.toDigits 10 k).length ≤ maxDigits := fun k hk =>
      (length_toDigits_le hdigits.ne_nil hdigits.ascii hk).trans hdigits.short
    rw [mapM_read_coercionTexts hbase hread hshort hunknown] at htexts
    exact ⟨read_around_eq hbefore hpragma htexts, fun g => exists_read_around hbefore hpragma⟩
  · intro terminated nonempty category delimiter hcategory hne
    have hpragma := contributes_listPragma hcategory hne (namesAround before behind) terminated
      nonempty delimiter
    have htexts := RuleText.contributes_writtenAll
      (isProper_listTexts hcategory terminated nonempty delimiter) (namesAround before behind)
    rw [mapM_read_listTexts] at htexts
    refine ⟨read_around_eq hbefore hpragma ?_, fun element helement g =>
      exists_read_around hbefore ?_⟩
    · convert htexts using 1
      cases Category.read (namesAround before behind) category <;> rfl
    · rw [helement] at hpragma
      exact hpragma

/-- Two levels, the number of them with a zero in front, and lists of lists, behind the declaration
of a token and in front of a rule. -/
theorem read_pragma_eq_read_texts_levels :
    let before := "token Num letter ;"
    let behind := "ENum . Exp2 ::= Num ;"
    (IsClosed before ∧ isWord "Exp" = true ∧ IsLevelCount "02" ∧
      Category.read (namesAround before behind) "Exp" = .ok (.plain "Exp") ∧
      (∀ k, 1 ≤ k → k ≤ levelCount "02" → levelText "Exp" k ∉ namesAround before behind) ∧
      IsCategoryText "[Exp]" ∧ "[Exp]" ≠ "nonempty") ∧
    read (around before "coercions Exp 02 ;" behind) =
      read (around before
        "_. Exp ::= Exp1 ; _. Exp1 ::= Exp2 ; _. Exp2 ::= \"(\" Exp \")\" ;" behind) ∧
    read (around before "separator [Exp] \",\" ;" behind) =
      read (around before
        "[]. [[Exp]] ::= ; (:[]). [[Exp]] ::= [Exp] ; (:). [[Exp]] ::= [Exp] \",\" [[Exp]] ;"
        behind) := by
  intro before behind
  have hlast : (tokenize before).tokens.getLast? = some ⟨.symbol, ";", 1⟩ := by decide +kernel
  have hbefore : IsClosed before := by
    refine ⟨by decide +kernel, fun t ht => ?_⟩
    rw [hlast] at ht
    cases ht
    rfl
  have hbase : isWord "Exp" = true := by decide +kernel
  have hascii : "02".toList.all isAsciiDigit = true := by decide +kernel
  have hdigits : IsLevelCount "02" := ⟨by decide, List.all_eq_true.1 hascii, by decide⟩
  have hread : Category.read (namesAround before behind) "Exp" = .ok (.plain "Exp") := by
    decide +kernel
  have hlevels : ∀ k ≤ levelCount "02", levelText "Exp" k ∉ namesAround before behind := by
    decide +kernel
  have hcategory : IsCategoryText "[Exp]" := .list (.name hbase)
  obtain ⟨hcoercions, hlists⟩ := read_pragma_eq_read_texts hbefore behind
  have hpragma : coercionsPragma "Exp" "02" = "coercions Exp 02 ;" := by decide +kernel
  have htexts : RuleText.writtenAll (coercionTexts "Exp" (levelCount "02")) =
      "_. Exp ::= Exp1 ; _. Exp1 ::= Exp2 ; _. Exp2 ::= \"(\" Exp \")\" ;" := by decide +kernel
  have hpragma' : listPragma false false "[Exp]" "," = "separator [Exp] \",\" ;" := by
    decide +kernel
  have htexts' : RuleText.writtenAll (listTexts false false "[Exp]" ",") =
      "[]. [[Exp]] ::= ; (:[]). [[Exp]] ::= [Exp] ; (:). [[Exp]] ::= [Exp] \",\" [[Exp]] ;" := by
    decide +kernel
  have hne : "[Exp]" ≠ "nonempty" := by decide
  refine ⟨⟨hbefore, hbase, hdigits, hread, fun k _ hk => hlevels k hk, hcategory, hne⟩, ?_, ?_⟩
  · have hequal := (hcoercions "Exp" "02" hbase hdigits hread fun k _ hk => hlevels k hk).1
    rwa [hpragma, htexts] at hequal
  · have hequal := (hlists false false "[Exp]" "," hcategory hne).1
    rwa [hpragma', htexts'] at hequal

end Grammar
end GrammarBindings
