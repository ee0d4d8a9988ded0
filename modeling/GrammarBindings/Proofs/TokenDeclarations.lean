import GrammarBindings.Proofs.Pragmas
import GrammarBindings.Proofs.WrittenRules

/-!
# Declarations of tokens

The names of tokens are collected from the values at the beginning of each statement, before the
statements are interpreted; declarations are passed over then. A statement that is interpreted has a
name collected from it if it is passed over as the declaration of this name. There is one exception:
a rule with the label `token` begins with the values of a declaration, so its full stop is collected
as if it was a name.
-/

namespace GrammarBindings

section Choices

variable {α β : Type} {f g : α → Option β} {as : List α}

theorem length_filterMap_le_of_extends (h : ∀ a ∈ as, ∀ b, g a = some b → f a = some b) :
    (as.filterMap g).length ≤ (as.filterMap f).length := by
  induction as with
  | nil => exact Nat.le_refl 0
  | cons a as ih =>
    have htail := ih fun a' ha' => h a' (List.mem_cons_of_mem a ha')
    cases hg : g a with
    | some b =>
      rw [List.filterMap_cons_some hg, List.filterMap_cons_some (h a List.mem_cons_self b hg)]
      exact Nat.succ_le_succ htail
    | none =>
      rw [List.filterMap_cons_none hg]
      exact Nat.le_trans htail ((List.sublist_cons_self a as).filterMap f).length_le

/-- Where one choice extends another, the same is chosen only if they are alike. -/
theorem filterMap_eq_iff_of_extends (h : ∀ a ∈ as, ∀ b, g a = some b → f a = some b) :
    as.filterMap f = as.filterMap g ↔ ∀ a ∈ as, f a = g a := by
  refine ⟨fun heq => ?_, fun heq => List.filterMap_congr heq⟩
  induction as with
  | nil => exact List.forall_mem_nil _
  | cons a as ih =>
    have htail : ∀ a' ∈ as, ∀ b, g a' = some b → f a' = some b := fun a' ha' =>
      h a' (List.mem_cons_of_mem a ha')
    rw [List.forall_mem_cons]
    cases hg : g a with
    | some b =>
      have hf := h a List.mem_cons_self b hg
      rw [List.filterMap_cons_some hf, List.filterMap_cons_some hg] at heq
      exact ⟨hf, ih htail (List.cons.inj heq).2⟩
    | none =>
      cases hf : f a with
      | none =>
        rw [List.filterMap_cons_none hf, List.filterMap_cons_none hg] at heq
        exact ⟨rfl, ih htail heq⟩
      | some b =>
        rw [List.filterMap_cons_some hf, List.filterMap_cons_none hg] at heq
        have hle := length_filterMap_le_of_extends htail
        rw [← heq, List.length_cons] at hle
        omega

end Choices

section Labels

variable {declared : List String} {t : Token} {ts : List Token} {r : Rule}

theorem RuleSpelled.exists_word (h : RuleSpelled declared ts r) (hlabel : r.label.isList = false) :
    ∃ t stop rest, ts = t :: stop :: rest ∧ (t.kind = .word ∧ t.value = r.label) ∧
      stop.isSymbol "." = true := by
  cases h with
  | @mk label result items stop arrow r labelSpelled isStop =>
    generalize hl : r.label = l at labelSpelled hlabel
    cases labelSpelled with
    | @word t kind => exact ⟨t, stop, _, rfl, ⟨kind, rfl⟩, isStop⟩
    | list _ isList =>
      rw [isList] at hlabel
      cases hlabel

theorem RuleSpelled.mem_of_isList (h : RuleSpelled declared (t :: ts) r)
    (hlabel : r.label.isList = true) {d : Char} (hd : d ∈ t.value.toList) :
    d ∈ ['[', ']', '(', ')', ':'] := by
  generalize hts : t :: ts = us at h
  cases h with
  | @mk label result items stop arrow r labelSpelled =>
    refine Label.mem_of_isList hlabel ?_
    generalize r.label = l at labelSpelled hlabel
    cases labelSpelled with
    | word kind =>
      obtain ⟨rfl, -⟩ := List.cons.inj hts
      exact hd
    | list symbols isList =>
      cases label with
      | nil => cases isList
      | cons t' label =>
        obtain ⟨rfl, -⟩ := List.cons.inj hts
        rw [List.map_cons, String.join_cons, String.toList_append]
        exact List.mem_append_left _ hd

end Labels

namespace Statement

variable {declared : List String} {s : Statement} {c : Contribution} {name : String}

/-- The keyword `token`, which `position` may stand in front of, with the name behind it. A full
stop would make a label of the keyword. -/
inductive Declares : Statement → String → Prop where
  | token {keyword name : Token} {ts : List Token}
      (isKeyword : keyword.kind = .word ∧ keyword.value = "token")
      (isNoLabel : name.isSymbol "." = false) : Declares ⟨keyword, name :: ts⟩ name.value
  | position {position keyword name : Token} {ts : List Token}
      (isPosition : position.kind = .word ∧ position.value = "position")
      (isKeyword : keyword.value = "token") :
      Declares ⟨position, keyword :: name :: ts⟩ name.value

/-- The name declared by a statement that is passed over as a declaration. -/
def passedOver? (s : Statement) : Option String :=
  if s.pragma? = some .declaration then s.declaredToken? else none

/-- The statement begins with the label `token` of a rule. -/
def isTokenRule (s : Statement) : Bool :=
  s.head.kind = .word && s.head.value = "token" && s.tail.head?.any fun t => t.isSymbol "."

theorem declaredToken?_eq_some_iff : s.declaredToken? = some name ↔
    (∃ t ts, s.tail = t :: ts ∧ s.head.value = "token" ∧ t.value = name) ∨
      ∃ k t ts, s.tail = k :: t :: ts ∧ s.head.value = "position" ∧ k.value = "token" ∧
        t.value = name := by
  obtain ⟨head, tail⟩ := s
  rw [declaredToken?, tokens, List.map_cons]
  constructor
  · intro h
    split at h
    · next hvalues =>
      obtain ⟨hhead, htail⟩ := List.cons.inj hvalues
      obtain ⟨t, ts, rfl, ht, -⟩ := List.map_eq_cons_iff.1 htail
      exact .inl ⟨t, ts, rfl, hhead, ht.trans (Option.some.inj h)⟩
    · next hvalues =>
      obtain ⟨hhead, htail⟩ := List.cons.inj hvalues
      obtain ⟨k, us, rfl, hk, hus⟩ := List.map_eq_cons_iff.1 htail
      obtain ⟨t, ts, rfl, ht, -⟩ := List.map_eq_cons_iff.1 hus
      exact .inr ⟨k, t, ts, rfl, hhead, hk, ht.trans (Option.some.inj h)⟩
    · cases h
  · rintro (⟨t, ts, rfl, hhead, rfl⟩ | ⟨k, t, ts, rfl, hhead, hk, rfl⟩)
    · rw [hhead]
      rfl
    · rw [hhead, List.map_cons, hk]
      rfl

theorem isTokenRule_iff : s.isTokenRule = true ↔ ∃ stop ts, s.tail = stop :: ts ∧
    (s.head.kind = .word ∧ s.head.value = "token") ∧ stop.isSymbol "." = true := by
  obtain ⟨head, tail⟩ := s
  cases tail with
  | nil => simp [isTokenRule]
  | cons stop ts => simp [isTokenRule]

theorem Declares.pragma?_eq (h : s.Declares name) : s.pragma? = some .declaration := by
  cases h with
  | token isKeyword isNoLabel => simp [pragma?, isKeyword, isNoLabel, Pragma.ofKeyword?]
  | position isPosition isKeyword =>
    simp [pragma?, isPosition, Token.isSymbol, isKeyword, Pragma.ofKeyword?]

theorem pragma?_of_isTokenRule (h : s.isTokenRule = true) : s.pragma? = none := by
  obtain ⟨head, tail⟩ := s
  obtain ⟨stop, ts, rfl, -, hstop⟩ := isTokenRule_iff.1 h
  simp [pragma?, hstop]

/-- The keyword of a statement that is passed over is a word. -/
theorem passedOver?_eq_some_iff : s.passedOver? = some name ↔ s.Declares name := by
  rw [passedOver?]
  constructor
  · intro h
    obtain ⟨hpragma, hname⟩ := Option.ite_none_right_eq_some.1 h
    rw [pragma?] at hpragma
    split at hpragma
    · next hkeyword =>
      rw [Bool.and_eq_true, decide_eq_true_eq, Bool.not_eq_true'] at hkeyword
      obtain ⟨hkind, hlabel⟩ := hkeyword
      obtain ⟨head, tail⟩ := s
      rcases declaredToken?_eq_some_iff.1 hname with
        ⟨t, ts, rfl, hhead, rfl⟩ | ⟨k, t, ts, rfl, hhead, hk, rfl⟩
      · exact .token ⟨hkind, hhead⟩ (by simpa using hlabel)
      · exact .position ⟨hkind, hhead⟩ hk
    · cases hpragma
  · intro h
    rw [if_pos h.pragma?_eq, declaredToken?_eq_some_iff]
    cases h with
    | token isKeyword _ => exact .inl ⟨_, _, rfl, isKeyword.2, rfl⟩
    | position isPosition isKeyword => exact .inr ⟨_, _, _, rfl, isPosition.2, isKeyword, rfl⟩

/-- A rule whose first value is not made of the characters of a list label begins with a word as its
label, and a full stop. -/
theorem exists_rule_of_interpret (h : s.interpret declared = .ok c) (hpragma : s.pragma? = none)
    (hletter : ∃ d ∈ s.head.value.toList, d ∉ ['[', ']', '(', ')', ':']) :
    ∃ r stop ts, c = .rules [r] ∧ s.tail = stop :: ts ∧
      (s.head.kind = .word ∧ s.head.value = r.label) ∧ stop.isSymbol "." = true := by
  rw [interpret, hpragma] at h
  obtain ⟨r, hr, rfl⟩ := map_eq_ok_iff.1 h
  obtain ⟨hspelled, -⟩ := readRule_eq_ok_iff.1 hr
  have hlabel : r.label.isList = false := by
    obtain ⟨d, hd, hnot⟩ := hletter
    rw [Bool.eq_false_iff]
    exact fun hlist => hnot (hspelled.mem_of_isList hlist hd)
  obtain ⟨t, stop, ts, htokens, ht, hstop⟩ := hspelled.exists_word hlabel
  obtain ⟨rfl, htail⟩ := List.cons.inj htokens
  exact ⟨r, stop, ts, rfl, htail, ht, hstop⟩

theorem isTokenRule_iff_of_interpret (h : s.interpret declared = .ok c) :
    s.isTokenRule = true ↔ s.pragma? = none ∧ ∃ r, c = .rules [r] ∧ r.label = "token" := by
  constructor
  · intro hrule
    have hpragma := pragma?_of_isTokenRule hrule
    obtain ⟨-, -, -, ⟨-, hhead⟩, -⟩ := isTokenRule_iff.1 hrule
    obtain ⟨r, -, -, rfl, -, ⟨-, hlabel⟩, -⟩ :=
      exists_rule_of_interpret h hpragma ⟨'k', by rw [hhead]; decide, by decide⟩
    exact ⟨hpragma, r, rfl, hlabel.symm.trans hhead⟩
  · rintro ⟨hpragma, r, rfl, hlabel⟩
    rw [interpret, hpragma] at h
    obtain ⟨r', hr, hrules⟩ := map_eq_ok_iff.1 h
    obtain rfl : r' = r := by simpa using hrules
    have hword : r'.label.isList = false := by
      rw [hlabel]
      decide
    obtain ⟨t, stop, ts, htokens, ⟨hkind, hvalue⟩, hstop⟩ :=
      (readRule_eq_ok_iff.1 hr).1.exists_word hword
    obtain ⟨rfl, htail⟩ := List.cons.inj htokens
    exact isTokenRule_iff.2 ⟨stop, ts, htail, ⟨hkind, hvalue.trans hlabel⟩, hstop⟩

theorem head_of_declaredToken? (h : s.declaredToken? = some name) :
    s.head.value = "token" ∨ s.head.value = "position" := by
  rcases declaredToken?_eq_some_iff.1 h with ⟨-, -, -, hhead, -⟩ | ⟨-, -, -, -, hhead, -⟩
  · exact .inl hhead
  · exact .inr hhead

/-- A name is collected from declarations and, as its full stop, from the label of a rule. -/
theorem passedOver?_or_isTokenRule (h : s.interpret declared = .ok c)
    (hname : s.declaredToken? = some name) :
    s.passedOver? = some name ∨ s.isTokenRule = true ∧ name = "." := by
  have hhead := head_of_declaredToken? hname
  cases hpragma : s.pragma? with
  | some p =>
    have hkeyword := keyword_of_pragma? hpragma
    obtain rfl : p = .declaration := by
      rcases hhead with hv | hv <;> rw [hv] at hkeyword <;> exact (Option.some.inj hkeyword).symm
    rw [passedOver?, if_pos hpragma]
    exact .inl hname
  | none =>
    have hletter : ∃ d ∈ s.head.value.toList, d ∉ ['[', ']', '(', ')', ':'] := by
      rcases hhead with hv | hv <;> rw [hv] <;> exact ⟨'o', by decide, by decide⟩
    obtain ⟨r, stop, ts, -, htail, ⟨hkind, -⟩, hstop⟩ := exists_rule_of_interpret h hpragma hletter
    have hvalue := (isSymbol_iff.1 hstop).2
    rcases declaredToken?_eq_some_iff.1 hname with
      ⟨t, ts', htail', hv, rfl⟩ | ⟨k, t, ts', htail', -, hk, -⟩
    · obtain ⟨rfl, -⟩ := List.cons.inj (htail.symm.trans htail')
      exact .inr ⟨isTokenRule_iff.2 ⟨stop, ts, htail, ⟨hkind, hv⟩, hstop⟩, hvalue⟩
    · obtain ⟨rfl, -⟩ := List.cons.inj (htail.symm.trans htail')
      rw [hvalue] at hk
      exact absurd hk (by decide)

theorem declaredToken?_of_isTokenRule (h : s.isTokenRule = true) : s.declaredToken? = some "." := by
  obtain ⟨stop, ts, htail, ⟨-, hhead⟩, hstop⟩ := isTokenRule_iff.1 h
  exact declaredToken?_eq_some_iff.2 (.inl ⟨stop, ts, htail, hhead, (isSymbol_iff.1 hstop).2⟩)

theorem passedOver?_of_isTokenRule (h : s.isTokenRule = true) : s.passedOver? = none := by
  rw [passedOver?, pragma?_of_isTokenRule h, if_neg nofun]

theorem declaredToken?_of_passedOver? (h : s.passedOver? = some name) :
    s.declaredToken? = some name :=
  (Option.ite_none_right_eq_some.1 h).2

theorem declaredToken?_eq_of_interpret (h : s.interpret declared = .ok c) :
    s.declaredToken? = if s.isTokenRule then some "." else s.passedOver? := by
  cases hrule : s.isTokenRule with
  | true => exact declaredToken?_of_isTokenRule hrule
  | false =>
    refine Option.ext fun name => ⟨fun hname => ?_, declaredToken?_of_passedOver?⟩
    rcases passedOver?_or_isTokenRule h hname with hpassed | ⟨hrule', -⟩
    · exact hpassed
    · rw [hrule] at hrule'
      cases hrule'

end Statement

namespace Grammar

/-- The tokens of a grammar are the names of the declarations that are passed over, and a full stop
for every rule with the label `token`; without such a rule they are these names. -/
theorem tokens_of_read {text : String} {g : Grammar} (h : read text = .ok g) :
    g.tokens = (statements text).filterMap
        (fun s => if s.isTokenRule then some "." else s.passedOver?) ∧
      (g.tokens = (statements text).filterMap Statement.passedOver? ↔
        ∀ s ∈ statements text, s.isTokenRule = false) ∧
      ∀ s ∈ statements text,
        (∀ name, s.passedOver? = some name ↔ s.Declares name) ∧
          (s.isTokenRule = true ↔ s.pragma? = none ∧
            ∃ r, s.interpret g.tokens = .ok (.rules [r]) ∧ r.label = "token") := by
  obtain ⟨cs, hcs, htokens, -⟩ := exists_contributions_of_read h
  have hread : ∀ s ∈ statements text, ∃ c, s.interpret g.tokens = .ok c := fun s hs =>
    exists_of_mem_forall₂ hcs hs
  have hcollected : g.tokens = (statements text).filterMap
      (fun s => if s.isTokenRule then some "." else s.passedOver?) := by
    rw [htokens]
    refine List.filterMap_congr fun s hs => ?_
    obtain ⟨c, hc⟩ := hread s hs
    exact Statement.declaredToken?_eq_of_interpret hc
  refine ⟨hcollected, ?_, fun s hs => ⟨fun name => Statement.passedOver?_eq_some_iff, ?_⟩⟩
  · rw [htokens, Reading.declaredNames,
      filterMap_eq_iff_of_extends fun s _ name => Statement.declaredToken?_of_passedOver?]
    refine forall₂_congr fun s hs => ?_
    obtain ⟨c, hc⟩ := hread s hs
    rw [Statement.declaredToken?_eq_of_interpret hc]
    cases hrule : s.isTokenRule with
    | true => simp [Statement.passedOver?_of_isTokenRule hrule]
    | false => simp
  · obtain ⟨c, hc⟩ := hread s hs
    rw [Statement.isTokenRule_iff_of_interpret hc, hc]
    simp only [Except.ok.injEq]

/-- A rule with this label between two declarations. -/
theorem tokens_of_read_between :
    let text := "token A ; token . T ::= A ; position token B ;"
    let g : Grammar :=
      ⟨[⟨"token", .plain "T", [.category (.token "A")], false⟩], ["A", ".", "B"], []⟩
    read text = .ok g ∧
      g.tokens = (statements text).filterMap
        (fun s => if s.isTokenRule then some "." else s.passedOver?) ∧
      g.tokens ≠ (statements text).filterMap Statement.passedOver? ∧
      ∃ s ∈ statements text, s.isTokenRule = true := by
  intro text g
  have hread : read text = .ok g := by decide +kernel
  have hrule : ∃ s ∈ statements text, s.isTokenRule = true := by decide +kernel
  obtain ⟨hcollected, hpassed, -⟩ := tokens_of_read hread
  refine ⟨hread, hcollected, fun heq => ?_, hrule⟩
  obtain ⟨s, hs, htrue⟩ := hrule
  rw [hpassed.1 heq s hs] at htrue
  cases htrue

/-- The full stop behind the label of a rule is a token of the grammar, and no statement is passed
over. -/
theorem read_token_label :
    read "token . T ::= \"x\" ;" =
        .ok ⟨[⟨"token", .plain "T", [.terminal "x"], false⟩], ["."], []⟩ ∧
      (statements "token . T ::= \"x\" ;").filterMap Statement.passedOver? = [] ∧
      ∀ s ∈ statements "token . T ::= \"x\" ;", ∀ name, ¬ s.Declares name := by
  have hpassed : (statements "token . T ::= \"x\" ;").filterMap Statement.passedOver? = [] := by
    decide +kernel
  refine ⟨by decide +kernel, hpassed, fun s hs name hdeclares => ?_⟩
  rw [List.filterMap_eq_nil_iff] at hpassed
  have hsome := Statement.passedOver?_eq_some_iff.2 hdeclares
  rw [hpassed s hs] at hsome
  cases hsome

end Grammar
end GrammarBindings
