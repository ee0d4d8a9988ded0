import GrammarBindings.Proofs.Spelling
import GrammarBindings.Proofs.StatementSequence

/-!
# Pragmas that stand for rules

A `separator`, `terminator` or `coercions` statement has a documented form of its own, which decides
what rules it stands for. It is accepted when its tokens begin with that form. Whatever tokens stand
behind the form are not looked at, so a rule whose semicolon in front is missing gets lost.
-/

namespace GrammarBindings

open Text

variable {declared : List String}

/-- The pragmas that stand for rules. -/
def Pragma.generatesRules : Pragma → Bool
  | separator | terminator | coercions => true
  | _ => false

def asksNonempty (ts : List Token) : Bool :=
  ts.head?.any fun t => t.kind = .word && t.value = "nonempty"

/-- The tokens behind `separator` or `terminator`, and the rules that they stand for: the element
category and the delimiter, with an optional `nonempty` in front. -/
inductive ListPragmaSpelled (declared : List String) (terminated : Bool) :
    List Token → List Rule → Prop where
  | any {used : List Token} {element : Category} {delimiter : Token}
      (unmarked : asksNonempty used = false) (spelled : Category.Spelled declared used element)
      (kind : delimiter.kind = .literal) :
      ListPragmaSpelled declared terminated (used ++ [delimiter])
        (listRules element delimiter.value terminated false)
  | nonempty {used : List Token} {mark delimiter : Token} {element : Category}
      (isWord : mark.kind = .word) (value : mark.value = "nonempty")
      (spelled : Category.Spelled declared used element) (kind : delimiter.kind = .literal) :
      ListPragmaSpelled declared terminated (mark :: (used ++ [delimiter]))
        (listRules element delimiter.value terminated true)

/-- The tokens behind `coercions`: the base category and the highest level. -/
inductive CoercionsSpelled : List Token → List Rule → Prop where
  | mk {base number : Token} {levels : Nat} (isWord : base.kind = .word)
      (isNumber : number.kind = .number) (digits : readDigits number.value.toList = .ok levels) :
      CoercionsSpelled [base, number] (coercionRules base.value levels)

/-- The documented form of a pragma that stands for rules, behind its keyword. -/
def PragmaSpelled (declared : List String) : Pragma → List Token → List Rule → Prop
  | .separator => ListPragmaSpelled declared false
  | .terminator => ListPragmaSpelled declared true
  | .coercions => CoercionsSpelled
  | _ => fun _ _ => False

section Reading

variable {lastLine : Nat} {terminated : Bool} {ts used rest : List Token} {rs rs' : List Rule}

theorem asksNonempty_append (h : used ≠ []) (rest : List Token) :
    asksNonempty (used ++ rest) = asksNonempty used := by
  obtain ⟨t, us, rfl⟩ := List.exists_cons_of_ne_nil h
  rfl

theorem Category.Spelled.ne_nil {c : Category} (h : Category.Spelled declared ts c) : ts ≠ [] := by
  obtain ⟨t, us, rfl, -⟩ := h.exists_cons
  exact List.cons_ne_nil t us

theorem readListRules_eq {element : Category} {delimiter : Token}
    (hc : readCategory declared lastLine (if asksNonempty ts then ts.tail else ts) =
      .ok (element, delimiter :: rest)) (hk : delimiter.kind = .literal) :
    readListRules declared lastLine terminated ts =
      .ok (listRules element delimiter.value terminated (asksNonempty ts)) := by
  have hd : readToken lastLine .literal (delimiter :: rest) = .ok (delimiter.value, rest) :=
    readToken_eq_ok_iff.2 ⟨delimiter, rfl, hk, rfl⟩
  exact bind_eq_ok_iff.2 ⟨_, hc, bind_eq_ok_iff.2 ⟨_, hd, rfl⟩⟩

theorem readListRules_of_spelled (h : ListPragmaSpelled declared terminated used rs)
    (rest : List Token) : readListRules declared lastLine terminated (used ++ rest) = .ok rs := by
  cases h with
  | @any used element delimiter hmark hc hk =>
    have hnone : asksNonempty (used ++ delimiter :: rest) = false := by
      rw [asksNonempty_append hc.ne_nil, hmark]
    have hcategory : readCategory declared lastLine
        (if asksNonempty (used ++ delimiter :: rest) then (used ++ delimiter :: rest).tail
          else used ++ delimiter :: rest) = .ok (element, delimiter :: rest) := by
      rw [hnone]
      exact readCategory_append hc _
    rw [List.append_assoc, List.singleton_append, readListRules_eq hcategory hk, hnone]
  | @nonempty used mark delimiter element hw hv hc hk =>
    have hmark : asksNonempty (mark :: (used ++ delimiter :: rest)) = true := by
      simp [asksNonempty, hw, hv]
    have hcategory : readCategory declared lastLine
        (if asksNonempty (mark :: (used ++ delimiter :: rest)) then used ++ delimiter :: rest
          else mark :: (used ++ delimiter :: rest)) = .ok (element, delimiter :: rest) := by
      rw [hmark]
      exact readCategory_append hc _
    rw [List.cons_append, List.append_assoc, List.singleton_append,
      readListRules_eq hcategory hk, hmark]

theorem spelled_of_readListRules (h : readListRules declared lastLine terminated ts = .ok rs) :
    ∃ used rest, ts = used ++ rest ∧ ListPragmaSpelled declared terminated used rs := by
  obtain ⟨⟨element, ts₁⟩, hc, h⟩ := bind_eq_ok_iff.1 h
  obtain ⟨⟨value, rest⟩, hd, h⟩ := bind_eq_ok_iff.1 h
  obtain rfl := pure_eq_ok_iff.1 h
  obtain ⟨used, hused, hspelled⟩ := readCategory_eq_ok_iff.1 hc
  obtain ⟨delimiter, rfl, hk, rfl⟩ := readToken_eq_ok_iff.1 hd
  change (if asksNonempty ts then ts.tail else ts) = _ at hused
  change ∃ used rest, ts = used ++ rest ∧ ListPragmaSpelled declared terminated used
    (listRules element delimiter.value terminated (asksNonempty ts))
  cases hmark : asksNonempty ts with
  | false =>
    rw [hmark, if_neg Bool.false_ne_true] at hused
    have hnone : asksNonempty used = false := by
      rw [← hmark, hused, asksNonempty_append hspelled.ne_nil]
    exact ⟨used ++ [delimiter], rest, by simpa using hused, .any hnone hspelled hk⟩
  | true =>
    cases ts with
    | nil => cases hmark
    | cons mark ts =>
      rw [hmark, if_pos rfl, List.tail_cons] at hused
      have hword : mark.kind = .word ∧ mark.value = "nonempty" := by
        simpa [asksNonempty] using hmark
      refine ⟨mark :: (used ++ [delimiter]), rest, by simpa using hused, ?_⟩
      exact .nonempty hword.1 hword.2 hspelled hk

theorem readCoercionRules_of_spelled (h : CoercionsSpelled used rs) (rest : List Token) :
    readCoercionRules lastLine (used ++ rest) = .ok rs := by
  cases h with
  | @mk base number levels hw hn hd =>
    refine bind_eq_ok_iff.2 ⟨(base.value, number :: rest), ?_, ?_⟩
    · exact readToken_eq_ok_iff.2 ⟨base, rfl, hw, rfl⟩
    · refine bind_eq_ok_iff.2 ⟨(number.value, rest), ?_, ?_⟩
      · exact readToken_eq_ok_iff.2 ⟨number, rfl, hn, rfl⟩
      · refine bind_eq_ok_iff.2 ⟨levels, ?_, rfl⟩
        rw [hd]
        rfl

theorem spelled_of_readCoercionRules (h : readCoercionRules lastLine ts = .ok rs) :
    ∃ used rest, ts = used ++ rest ∧ CoercionsSpelled used rs := by
  obtain ⟨⟨base, ts₁⟩, hb, h⟩ := bind_eq_ok_iff.1 h
  obtain ⟨⟨digits, rest⟩, hn, h⟩ := bind_eq_ok_iff.1 h
  obtain ⟨levels, hd, h⟩ := bind_eq_ok_iff.1 h
  obtain rfl := pure_eq_ok_iff.1 h
  obtain ⟨b, rfl, hbk, rfl⟩ := readToken_eq_ok_iff.1 hb
  obtain ⟨n, rfl, hnk, rfl⟩ := readToken_eq_ok_iff.1 hn
  have hdigits : readDigits n.value.toList = .ok levels := by
    cases hr : readDigits n.value.toList with
    | error e => rw [hr] at hd; cases hd
    | ok k => rw [hr] at hd; cases hd; rfl
  exact ⟨[b, n], rest, rfl, .mk hbk hnk hdigits⟩

theorem readListRules_eq_ok_iff :
    readListRules declared lastLine terminated ts = .ok rs ↔
      ∃ used rest, ts = used ++ rest ∧ ListPragmaSpelled declared terminated used rs := by
  constructor
  · exact spelled_of_readListRules
  · rintro ⟨used, rest, rfl, h⟩
    exact readListRules_of_spelled h rest

theorem readCoercionRules_eq_ok_iff :
    readCoercionRules lastLine ts = .ok rs ↔
      ∃ used rest, ts = used ++ rest ∧ CoercionsSpelled used rs := by
  constructor
  · exact spelled_of_readCoercionRules
  · rintro ⟨used, rest, rfl, h⟩
    exact readCoercionRules_of_spelled h rest

/-- A category at the front of some tokens ends at one place only. -/
theorem Category.Spelled.rest_unique {used' rest' : List Token} {c c' : Category}
    (h : Category.Spelled declared used c) (h' : Category.Spelled declared used' c')
    (he : used ++ rest = used' ++ rest') : rest = rest' := by
  have hread : readCategory declared 0 (used ++ rest) = .ok (c, rest) := readCategory_append h rest
  have hread' : readCategory declared 0 (used' ++ rest') = .ok (c', rest') :=
    readCategory_append h' rest'
  rw [he, hread', Except.ok.injEq, Prod.mk.injEq] at hread
  exact hread.2.symm

theorem ListPragmaSpelled.rest_eq_nil (h : ListPragmaSpelled declared terminated used rs)
    (h' : ListPragmaSpelled declared terminated (used ++ rest) rs') : rest = [] := by
  generalize hts : used ++ rest = ts at h'
  cases h with
  | @any used element delimiter hmark hc hk =>
    rw [List.append_assoc, List.singleton_append] at hts
    cases h' with
    | any hmark' hc' hk' => exact (List.cons.inj (hc.rest_unique hc' hts)).2
    | @nonempty used' mark' delimiter' element' hw' hv' hc' hk' =>
      have hasks : asksNonempty (used ++ delimiter :: rest) = true := by
        rw [hts]
        simp [asksNonempty, hw', hv']
      rw [asksNonempty_append hc.ne_nil, hmark] at hasks
      cases hasks
  | @nonempty used mark delimiter element hw hv hc hk =>
    rw [List.cons_append, List.append_assoc, List.singleton_append] at hts
    cases h' with
    | @any used' element' delimiter' hmark' hc' hk' =>
      have hasks : asksNonempty (used' ++ [delimiter']) = true := by
        rw [← hts]
        simp [asksNonempty, hw, hv]
      rw [asksNonempty_append hc'.ne_nil, hmark'] at hasks
      cases hasks
    | nonempty hw' hv' hc' hk' =>
      exact (List.cons.inj (hc.rest_unique hc' (List.cons.inj hts).2)).2

theorem CoercionsSpelled.rest_eq_nil (h : CoercionsSpelled used rs)
    (h' : CoercionsSpelled (used ++ rest) rs') : rest = [] := by
  cases h with
  | mk hw hn hd =>
    rw [List.cons_append, List.cons_append, List.nil_append] at h'
    generalize rest = others at h'
    cases h'
    rfl

/-- No documented form goes on where another one ends. -/
theorem PragmaSpelled.rest_eq_nil {p : Pragma} (h : PragmaSpelled declared p used rs)
    (h' : PragmaSpelled declared p (used ++ rest) rs') : rest = [] := by
  cases p with
  | separator => exact ListPragmaSpelled.rest_eq_nil h h'
  | terminator => exact ListPragmaSpelled.rest_eq_nil h h'
  | coercions => exact CoercionsSpelled.rest_eq_nil h h'
  | _ => exact absurd h not_false

theorem PragmaSpelled.ne_nil {p : Pragma} (h : PragmaSpelled declared p used rs) : used ≠ [] := by
  rintro rfl
  have hlist : ∀ {terminated : Bool}, ¬ ListPragmaSpelled declared terminated [] rs := by
    intro terminated hl
    generalize hts : ([] : List Token) = ts at hl
    cases hl with
    | any _ _ _ => exact absurd hts.symm (by simp)
    | nonempty _ _ _ _ => cases hts
  cases p with
  | separator => exact hlist h
  | terminator => exact hlist h
  | coercions => cases h
  | _ => exact h

theorem map_rules_eq_ok_iff {x : Except ReadFailure (List Rule)}
    {Spelled : List Token → List Rule → Prop}
    (hx : ∀ rs, x = .ok rs ↔ ∃ used rest, ts = used ++ rest ∧ Spelled used rs)
    {c : Contribution} :
    x.map .rules = .ok c ↔
      ∃ used rest rs, ts = used ++ rest ∧ Spelled used rs ∧ c = .rules rs := by
  rw [map_eq_ok_iff]
  constructor
  · rintro ⟨rs, hrs, rfl⟩
    obtain ⟨used, rest, hts, h⟩ := (hx rs).1 hrs
    exact ⟨used, rest, rs, hts, h, rfl⟩
  · rintro ⟨used, rest, rs, hts, h, rfl⟩
    exact ⟨rs, (hx rs).2 ⟨used, rest, hts, h⟩, rfl⟩

end Reading

namespace Statement

theorem keyword_of_pragma? {s : Statement} {p : Pragma} (h : s.pragma? = some p) :
    Pragma.ofKeyword? s.head.value = some p := by
  rw [pragma?] at h
  split at h
  · exact h
  · cases h

/-- What follows the first token behind the keyword does not matter for which pragma it is. -/
theorem pragma?_append (head : Token) {used : List Token} (h : used ≠ [])
    (rest others : List Token) :
    (⟨head, used ++ rest⟩ : Statement).pragma? = (⟨head, used ++ others⟩ : Statement).pragma? := by
  obtain ⟨t, us, rfl⟩ := List.exists_cons_of_ne_nil h
  rfl

theorem declaredToken?_eq_none {s : Statement} {p : Pragma} (h : s.pragma? = some p)
    (hp : p.generatesRules = true) : s.declaredToken? = none := by
  have hkeyword := keyword_of_pragma? h
  have hdeclares : s.head.value ≠ "token" ∧ s.head.value ≠ "position" := by
    constructor
    · intro hv
      rw [hv] at hkeyword
      cases hkeyword
      cases hp
    · intro hv
      rw [hv] at hkeyword
      cases hkeyword
      cases hp
  rw [declaredToken?, tokens, List.map_cons]
  split
  · next hv => exact absurd (List.cons.inj hv).1 hdeclares.1
  · next hv => exact absurd (List.cons.inj hv).1 hdeclares.2
  · rfl

/-- A statement is accepted when its tokens begin with the documented form, whatever follows. -/
theorem interpret_eq_ok_iff {s : Statement} {p : Pragma} (h : s.pragma? = some p)
    (hp : p.generatesRules = true) {c : Contribution} :
    s.interpret declared = .ok c ↔
      ∃ used rest rs, s.tail = used ++ rest ∧ PragmaSpelled declared p used rs ∧ c = .rules rs := by
  rw [interpret, h]
  cases p with
  | separator => exact map_rules_eq_ok_iff fun rs => readListRules_eq_ok_iff
  | terminator => exact map_rules_eq_ok_iff fun rs => readListRules_eq_ok_iff
  | coercions => exact map_rules_eq_ok_iff fun rs => readCoercionRules_eq_ok_iff
  | _ => cases hp

end Statement

theorem forall₂_replace {α β : Type} {R : α → β → Prop} {before after : List α} {a a' : α}
    {bs : List β} (h : List.Forall₂ R (before ++ a :: after) bs) (ha : ∀ b, R a b → R a' b) :
    List.Forall₂ R (before ++ a' :: after) bs := by
  induction before generalizing bs with
  | nil =>
    cases h with
    | cons hb hbs => exact .cons (ha _ hb) hbs
  | cons c before ih =>
    cases h with
    | cons hb hbs => exact .cons hb (ih hbs)

namespace Reading

/-- Statements that are interpreted alike and declare the same can stand for one another. -/
theorem ofStatements_replace {before after : List Statement} {s s' : Statement} {g : Grammar}
    (h : (ofStatements (before ++ s :: after)).result = .ok g)
    (hdeclared : s.declaredToken? = s'.declaredToken?)
    (hinterpret : ∀ c, s.interpret g.tokens = .ok c → s'.interpret g.tokens = .ok c) :
    (ofStatements (before ++ s' :: after)).result = .ok g := by
  have hnames : declaredNames (before ++ s' :: after) = declaredNames (before ++ s :: after) := by
    rw [declaredNames, declaredNames, List.filterMap_append, List.filterMap_append,
      List.filterMap_cons, List.filterMap_cons, hdeclared]
  obtain ⟨cs, hcs, rfl⟩ := ofStatements_eq_ok_iff.1 h
  refine ofStatements_eq_ok_iff.2 ⟨cs, ?_, ?_⟩
  · rw [hnames]
    exact forall₂_replace hcs hinterpret
  · rw [hnames]

end Reading

/-- Every statement that stands for rules begins, in a text that was read, with its documented form,
and consists of it just when nothing stands behind. But whatever does stand there is not looked at:
with other tokens in its place, those of a whole statement included, the same grammar is read. -/
theorem Grammar.pragma_of_read {text : String} {g : Grammar} (h : read text = .ok g)
    {before after : List Statement} {s : Statement} (hs : statements text = before ++ s :: after)
    {p : Pragma} (hp : s.pragma? = some p) (hrules : p.generatesRules = true) :
    ∃ used rest rs, s.tail = used ++ rest ∧ PragmaSpelled g.tokens p used rs ∧
      s.interpret g.tokens = .ok (.rules rs) ∧
      ((∃ rs', PragmaSpelled g.tokens p s.tail rs') ↔ rest = []) ∧
      ∀ others,
        (Reading.ofStatements (before ++ ⟨s.head, used ++ others⟩ :: after)).result = .ok g := by
  obtain ⟨cs, hcs, -⟩ := exists_contributions_of_read h
  rw [read_of_fault?_eq_none (fault?_eq_none_of_read h), hs] at h
  obtain ⟨c, hc⟩ := exists_of_mem_forall₂ hcs (a := s) (by simp [hs])
  obtain ⟨used, rest, rs, htail, hspelled, rfl⟩ := (Statement.interpret_eq_ok_iff hp hrules).1 hc
  refine ⟨used, rest, rs, htail, hspelled, hc, ?_, ?_⟩
  · constructor
    · rintro ⟨rs', h'⟩
      rw [htail] at h'
      exact hspelled.rest_eq_nil h'
    · rintro rfl
      rw [htail, List.append_nil]
      exact ⟨rs, hspelled⟩
  · intro others
    have hpragma : (⟨s.head, used ++ others⟩ : Statement).pragma? = some p := by
      rw [Statement.pragma?_append s.head hspelled.ne_nil others rest, ← htail]
      exact hp
    apply Reading.ofStatements_replace h
    · rw [Statement.declaredToken?_eq_none hp hrules,
        Statement.declaredToken?_eq_none hpragma hrules]
    · intro c' hc'
      rw [hc, Except.ok.injEq] at hc'
      rw [← hc']
      exact (Statement.interpret_eq_ok_iff hpragma hrules).2 ⟨used, others, rs, rfl, hspelled, rfl⟩

/-- A separator by itself. -/
theorem Grammar.pragma_of_read_separator :
    ∃ used rest rs, [⟨.word, "Stm", 1⟩, ⟨.literal, ";", 1⟩] = used ++ rest ∧
      PragmaSpelled [] .separator used rs ∧
      Statement.interpret []
        ⟨⟨.word, "separator", 1⟩, [⟨.word, "Stm", 1⟩, ⟨.literal, ";", 1⟩]⟩ = .ok (.rules rs) ∧
      ((∃ rs', PragmaSpelled [] .separator [⟨.word, "Stm", 1⟩, ⟨.literal, ";", 1⟩] rs') ↔
        rest = []) ∧
      ∀ others, (Reading.ofStatements [⟨⟨.word, "separator", 1⟩, used ++ others⟩]).result =
        .ok ⟨listRules (.plain "Stm") ";" false false, [], []⟩ := by
  have hread : read "separator Stm \";\" ;" =
      .ok ⟨listRules (.plain "Stm") ";" false false, [], []⟩ := by
    decide +kernel
  have hstatements : statements "separator Stm \";\" ;" =
      [] ++ ⟨⟨.word, "separator", 1⟩, [⟨.word, "Stm", 1⟩, ⟨.literal, ";", 1⟩]⟩ :: [] := by
    decide +kernel
  exact pragma_of_read hread hstatements (p := .separator) (by decide) (by decide)

/-- Where the semicolon behind a separator is missing, the rule that follows it is lost. -/
theorem Grammar.read_separator_without_semicolon :
    read "separator Stm \";\" Foo . Stm ::= \"x\" ;" =
        .ok ⟨listRules (.plain "Stm") ";" false false, [], []⟩ ∧
      ∃ s ∈ statements "separator Stm \";\" Foo . Stm ::= \"x\" ;",
        s.pragma? = some .separator ∧ ¬ ∃ rs, PragmaSpelled [] .separator s.tail rs := by
  refine ⟨by decide +kernel, ⟨⟨.word, "separator", 1⟩, [⟨.word, "Stm", 1⟩, ⟨.literal, ";", 1⟩] ++
    [⟨.word, "Foo", 1⟩, ⟨.symbol, ".", 1⟩, ⟨.word, "Stm", 1⟩, ⟨.symbol, "::=", 1⟩,
      ⟨.literal, "x", 1⟩]⟩, by decide +kernel, by decide, ?_⟩
  rintro ⟨rs, h⟩
  have hname : Category.read [] "Stm" = .ok (.plain "Stm") := by decide +kernel
  have hspelled : ListPragmaSpelled [] false ([⟨.word, "Stm", 1⟩] ++ [⟨.literal, ";", 1⟩])
      (listRules (.plain "Stm") ";" false false) := .any rfl (.word rfl hname) rfl
  cases hspelled.rest_eq_nil h

end GrammarBindings
