import GrammarBindings.Proofs.BracketedNames
import GrammarBindings.Proofs.InsertedStatements
import GrammarBindings.Proofs.WrittenGrammar

/-!
# Rules as texts

A rule can be given by texts for its categories, which need not be those that categories are written
as: zeros may stand in front of a level, and what a name is read as depends on the declared names.
Such a rule is read part by part, and the numeral that cannot be read in the first of its parts is
what reading it fails with.
-/

namespace GrammarBindings

open Text

variable {declared : List String} {line : Nat}

/-- A word, possibly inside brackets. -/
inductive IsCategoryText : String → Prop where
  | name {text : String} (word : isWord text = true) : IsCategoryText text
  | list {text : String} (element : IsCategoryText text) : IsCategoryText ("[" ++ text ++ "]")

/-- An item of a rule: a terminal, or the text of a category. -/
inductive ItemText where
  | literal (text : String)
  | category (text : String)

namespace ItemText

def written : ItemText → String
  | literal text => writtenLiteral text
  | category text => text

def read (declared : List String) : ItemText → Except NumeralFault Item
  | literal text => .ok (.terminal text)
  | category text => (Category.read declared text).map .category

def IsProper : ItemText → Prop
  | literal _ => True
  | category text => IsCategoryText text

end ItemText

structure RuleText where
  label : Label
  result : String
  items : List ItemText

namespace RuleText

def written (r : RuleText) : String :=
  r.label ++ (". " ++ (r.result ++ (" ::=" ++
    (String.join (r.items.map fun i => " " ++ i.written) ++ " ;"))))

def read (declared : List String) (r : RuleText) : Except NumeralFault Rule := do
  let category ← Category.read declared r.result
  let items ← r.items.mapM (ItemText.read declared)
  return ⟨r.label, category, items, false⟩

/-- The label and the texts are as those of rules are, and the rule does not begin as the
declaration of a token does. -/
structure IsProper (r : RuleText) : Prop where
  label : isWord r.label = true ∨ r.label.isList = true
  label_ne : r.label ≠ "token"
  result : IsCategoryText r.result
  items : ∀ i ∈ r.items, i.IsProper

end RuleText

/-- The text of a category is lexed as these tokens, which are read as it is read as a whole. -/
structure CategoryTokens (line : Nat) (text : String) (ts : List Token) : Prop where
  lexes {rest : List Char} (stops : Stops rest) : Lexes line text rest ts
  whole : ∀ t ∈ ts, t.isSymbol ";" = false
  begins : ∃ t us, ts = t :: us ∧ (t.kind = .word ∧ t.value = text ∨ t.isSymbol "[" = true)
  reads (declared : List String) (lastLine : Nat) (rest : List Token) :
    readCategory declared lastLine (ts ++ rest) =
      ((Category.read declared text).mapError ReadFailure.numeral).map fun c => (c, rest)

namespace CategoryTokens

variable {text : String} {ts : List Token}

theorem name (word : isWord text = true) (line : Nat) :
    CategoryTokens line text [⟨.word, text, line⟩] where
  lexes := Lexes.word word
  whole := by simp [Token.isSymbol]
  begins := ⟨_, [], rfl, .inl ⟨rfl, rfl⟩⟩
  reads declared lastLine rest := by
    have hopening : (⟨.word, text, line⟩ : Token).isSymbol "[" = false := rfl
    rw [List.singleton_append, readCategory, hopening, if_neg Bool.false_ne_true, if_pos rfl]
    cases Category.read declared text <;> rfl

theorem list (h : CategoryTokens line text ts) : CategoryTokens line ("[" ++ text ++ "]")
    (⟨.symbol, "[", line⟩ :: ts ++ [⟨.symbol, "]", line⟩]) where
  lexes _ := lexes_brackets (fun _ => h.lexes) _
  whole := by
    simp only [List.cons_append, List.mem_cons, List.mem_append, List.not_mem_nil, or_false]
    rintro t (rfl | ht | rfl)
    · rfl
    · exact h.whole t ht
    · rfl
  begins := ⟨_, _, rfl, .inr rfl⟩
  reads declared lastLine rest := by
    have hopening : (⟨.symbol, "[", line⟩ : Token).isSymbol "[" = true := rfl
    rw [List.cons_append, List.cons_append, List.append_assoc, List.singleton_append, readCategory,
      if_pos hopening, h.reads, Category.read_brackets]
    cases Category.read declared text <;> rfl

end CategoryTokens

theorem IsCategoryText.exists_tokens {text : String} (h : IsCategoryText text) (line : Nat) :
    ∃ ts, CategoryTokens line text ts := by
  induction h with
  | name word => exact ⟨_, .name word line⟩
  | list _ ih =>
    obtain ⟨ts, hts⟩ := ih
    exact ⟨_, hts.list⟩

theorem CategoryTokens.readItems_append {text : String} {ts : List Token}
    (h : CategoryTokens line text ts) (declared : List String) (lastLine : Nat) (label : Label)
    (rest : List Token) :
    readItems declared lastLine label (ts ++ rest) =
      ((ItemText.category text).read declared).mapError ReadFailure.numeral >>= fun item =>
        (readItems declared lastLine label rest).map (item :: ·) := by
  have hread := h.reads declared lastLine rest
  obtain ⟨t, us, rfl, ht⟩ := h.begins
  have hbegins : t.kind = .word ∨ t.isSymbol "[" = true := ht.imp_left And.left
  rw [List.cons_append] at hread ⊢
  rw [readItems_cons hbegins, hread, ItemText.read]
  cases Category.read declared text <;> rfl

/-- Items with a space in front of each are lexed as these tokens, which are read one by one. -/
structure ItemTokens (line : Nat) (items : List ItemText) (ts : List Token) : Prop where
  lexes {rest : List Char} (stops : Stops rest) :
    Lexes line (String.join (items.map fun i => " " ++ i.written)) rest ts
  whole : ∀ t ∈ ts, t.isSymbol ";" = false
  reads (declared : List String) (lastLine : Nat) (label : Label) :
    readItems declared lastLine label ts =
      (items.mapM (ItemText.read declared)).mapError ReadFailure.numeral

namespace ItemTokens

variable {items : List ItemText} {ts us : List Token} {text : String}

theorem nil (line : Nat) : ItemTokens line [] [] where
  lexes _ := Lexes.empty line _
  whole := by simp
  reads declared lastLine label := by
    rw [readItems]
    rfl

theorem literal (h : ItemTokens line items ts) (text : String) :
    ItemTokens line (.literal text :: items) (⟨.literal, text, line⟩ :: ts) where
  lexes {rest} hr := by
    rw [List.map_cons, String.join_cons]
    exact ((Lexes.space line _).append (Lexes.literal text _)).append (h.lexes hr)
  whole := List.forall_mem_cons.2 ⟨rfl, h.whole⟩
  reads declared lastLine label := by
    rw [readItems, if_pos rfl, h.reads, List.mapM_cons]
    cases items.mapM (ItemText.read declared) <;> rfl

/-- A word ends at the space in front of the next item. -/
theorem stops_join (items : List ItemText) {rest : List Char} (hr : Stops rest) :
    Stops ((String.join (items.map fun i => " " ++ i.written)).toList ++ rest) := by
  cases items with
  | nil => exact hr
  | cons i items =>
    rw [List.map_cons, String.join_cons, String.append_assoc]
    exact stops_append rfl rfl _ rest

theorem category (h : ItemTokens line items ts) (htext : CategoryTokens line text us) :
    ItemTokens line (.category text :: items) (us ++ ts) where
  lexes {rest} hr := by
    rw [List.map_cons, String.join_cons]
    exact ((Lexes.space line _).append (htext.lexes (stops_join items hr))).append (h.lexes hr)
  whole := List.forall_mem_append.2 ⟨htext.whole, h.whole⟩
  reads declared lastLine label := by
    rw [htext.readItems_append, h.reads, List.mapM_cons]
    cases (ItemText.category text).read declared with
    | error f => rfl
    | ok item => cases items.mapM (ItemText.read declared) <;> rfl

end ItemTokens

theorem exists_itemTokens {items : List ItemText} (h : ∀ i ∈ items, i.IsProper) (line : Nat) :
    ∃ ts, ItemTokens line items ts := by
  induction items with
  | nil => exact ⟨[], .nil line⟩
  | cons i items ih =>
    obtain ⟨ts, hts⟩ := ih fun j hj => h j (List.mem_cons_of_mem i hj)
    have hi := h i List.mem_cons_self
    cases i with
    | literal text => exact ⟨_, hts.literal text⟩
    | category text =>
      obtain ⟨us, hus⟩ := IsCategoryText.exists_tokens hi line
      exact ⟨_, hts.category hus⟩

namespace RuleText

theorem lexes_stop (line : Nat) (rest : List Char) :
    Lexes line ". " rest [⟨.symbol, ".", line⟩] := by
  change tokenizeFrom line ('.' :: ' ' :: rest) = _
  have hspace : scan ' ' rest = .gap 0 rest := rfl
  rw [tokenizeFrom_symbol rfl rfl, tokenizeFrom_gap hspace]
  rfl

theorem readRule_eq {label : Label} (hlabel : isWord label = true ∨ label.isList = true)
    {text : String} {result items : List Token} (hresult : CategoryTokens line text result)
    (declared : List String) (lastLine : Nat) :
    readRule declared lastLine false (label.tokensAt line ++ ⟨.symbol, ".", line⟩ ::
        (result ++ ⟨.symbol, "::=", line⟩ :: items)) =
      (Category.read declared text).mapError ReadFailure.numeral >>= fun category =>
        (readItems declared lastLine label items).map fun items =>
          ⟨label, category, items, false⟩ := by
  rw [readRule, readLabel_of_spelled (Label.spelled hlabel) rfl, ok_bind]
  have hstop (ts : List Token) :
      readSymbol lastLine "." (⟨.symbol, ".", line⟩ :: ts) = .ok ts := rfl
  have harrow (ts : List Token) :
      readSymbol lastLine "::=" (⟨.symbol, "::=", line⟩ :: ts) = .ok ts := rfl
  dsimp only
  rw [hstop, ok_bind, hresult.reads]
  cases Category.read declared text with
  | error f => rfl
  | ok category =>
    simp only [mapError_ok, Except.map, ok_bind, harrow]
    cases readItems declared lastLine label items <;> rfl

/-- The text of a rule is one statement, which is interpreted as the rule is read. -/
theorem IsProper.contributes {r : RuleText} (h : r.IsProper) (declared : List String) :
    Contributes declared r.written
      (((r.read declared).mapError ReadFailure.numeral).map fun r' => [r']) := by
  refine .of_statement fun line => ?_
  obtain ⟨result, hresult⟩ := h.result.exists_tokens line
  obtain ⟨items, hitems⟩ := exists_itemTokens h.items line
  have hcons : ∃ t ts, r.label.tokensAt line = t :: ts ∧ t.isSymbol "." = false :=
    Label.exists_cons_tokensAt h.label
  obtain ⟨t, ts, hfirst, -⟩ := hcons
  let s : Statement := ⟨t, ts ++ ⟨.symbol, ".", line⟩ ::
    (result ++ ⟨.symbol, "::=", line⟩ :: items)⟩
  have hs : s.tokens = r.label.tokensAt line ++ ⟨.symbol, ".", line⟩ ::
      (result ++ ⟨.symbol, "::=", line⟩ :: items) := by
    rw [hfirst]
    rfl
  obtain ⟨hdeclares, hpragma⟩ := Label.declares_and_pragma h.label hs
  refine ⟨s, fun rest => ?_, ?_, ?_, ?_⟩
  · have hend := (hitems.lexes (stops_end rest)).append (lexes_end line rest)
    have harrow := (Rule.lexes_arrow line _).append hend
    have hcategory := (hresult.lexes (stops_append rfl rfl _ rest)).append harrow
    have hstop := (lexes_stop line _).append hcategory
    have hall := (Label.lexes h.label (stops_append rfl rfl _ rest)).append hstop
    rw [hs, written]
    simpa using hall
  · rw [hs]
    simp only [List.mem_append, List.mem_cons]
    rintro u (hu | rfl | hu | rfl | hu)
    · exact Label.whole_tokensAt h.label u hu
    · rfl
    · exact hresult.whole u hu
    · rfl
    · exact hitems.whole u hu
  · rw [hdeclares, if_neg h.label_ne]
  · rw [Statement.interpret, hpragma]
    dsimp only
    rw [hs, readRule_eq h.label hresult, hitems.reads, read]
    cases Category.read declared r.result with
    | error f => rfl
    | ok category => cases r.items.mapM (ItemText.read declared) <;> rfl

/-- Rules one behind the other. -/
def writtenAll (rs : List RuleText) : String := " ".intercalate (rs.map written)

theorem contributes_writtenAll {rs : List RuleText} (h : ∀ r ∈ rs, r.IsProper)
    (declared : List String) :
    Contributes declared (writtenAll rs)
      ((rs.mapM (read declared)).mapError ReadFailure.numeral) := by
  induction rs with
  | nil => exact contributes_empty declared
  | cons r rs ih =>
    have hr := (h r List.mem_cons_self).contributes declared
    have hrs := ih fun r' hr' => h r' (List.mem_cons_of_mem r hr')
    have hread : ((r :: rs).mapM (read declared)).mapError ReadFailure.numeral =
        (((r.read declared).mapError ReadFailure.numeral).map fun r' => [r']) >>= fun front =>
          ((rs.mapM (read declared)).mapError ReadFailure.numeral).map (front ++ ·) := by
      rw [List.mapM_cons]
      cases r.read declared with
      | error f => rfl
      | ok r' => cases rs.mapM (read declared) <;> rfl
    rw [hread]
    cases rs with
    | nil =>
      rw [writtenAll, List.map_singleton, String.intercalate_singleton]
      convert hr using 1
      cases r.read declared <;> rfl
    | cons r' rs =>
      rw [writtenAll, List.map_cons, List.map_cons, String.intercalate_cons_cons,
        String.append_assoc]
      exact hr.append hrs

end RuleText
end GrammarBindings
