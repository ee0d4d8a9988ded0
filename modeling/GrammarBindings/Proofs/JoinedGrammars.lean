import GrammarBindings.Proofs.JoinedTexts
import GrammarBindings.Proofs.Pragmas
import GrammarBindings.Proofs.ReadNames

/-!
# Grammars below each other

What a statement contributes does not depend on its lines, and on the declared names only as far as
words of the statement are among them. So two texts are read below each other as they are read by
themselves, provided that neither has a word which is declared in the other one only.
-/

namespace GrammarBindings

open Text

/-- The names in the tokens are read alike under the one and the other declared names. -/
def ReadAlike (declared known : List String) (ts : List Token) : Prop :=
  ∀ t ∈ ts, t.kind = .word → Category.read declared t.value = Category.read known t.value

def Statement.moved (k : Nat) (s : Statement) : Statement :=
  ⟨s.head.moved k, s.tail.map (Token.moved k)⟩

def Contribution.moved (k : Nat) : Contribution → Contribution
  | ignored keyword line => ignored keyword (line + k)
  | c => c

section Moved

variable {declared known : List String} {ts us : List Token} {k : Nat}

theorem ReadAlike.mono (h : ReadAlike declared known ts) (hsub : us ⊆ ts) :
    ReadAlike declared known us := fun t ht => h t (hsub ht)

/-- Words are read alike when they are declared alike. -/
theorem readAlike_of_mem_iff (hwords : HaveWords ts)
    (h : ∀ t ∈ ts, t.kind = .word → (t.value ∈ declared ↔ t.value ∈ known)) :
    ReadAlike declared known ts := by
  intro t ht hkind
  have hword := hwords t ht hkind
  rw [Category.read_word hword, Category.read_word hword, Category.ofName, Category.ofName,
    String.ofList_toList]
  simp only [h t ht hkind]

theorem Category.Spelled.moved {c : Category} (h : Spelled declared ts c)
    (hts : ReadAlike declared known ts) : Spelled known (ts.map (Token.moved k)) c := by
  induction h with
  | @word t c hk hn => exact .word hk ((hts t List.mem_cons_self hk).symm.trans hn)
  | @list opening closing ts c ho _ hc ih =>
    rw [List.map_append]
    exact .list ho (ih (hts.mono fun t ht => by simp [ht])) hc

theorem ItemsSpelled.moved {items : List Item} (h : ItemsSpelled declared ts items)
    (hts : ReadAlike declared known ts) : ItemsSpelled known (ts.map (Token.moved k)) items := by
  induction h with
  | nil => exact .nil
  | terminal hk _ ih => exact .terminal hk (ih (hts.mono (List.subset_cons_self _ _)))
  | category hc _ ih =>
    rw [List.map_append]
    exact .category (hc.moved (hts.mono (List.subset_append_left _ _)))
      (ih (hts.mono (List.subset_append_right _ _)))

theorem LabelSpelled.moved {label : Label} (h : LabelSpelled ts label) :
    LabelSpelled (ts.map (Token.moved k)) label := by
  cases h with
  | word hk => exact .word hk
  | list hsymbols hlabel =>
    have hvalues : (ts.map (Token.moved k)).map Token.value = ts.map Token.value := by
      rw [List.map_map]
      rfl
    rw [← hvalues] at hlabel ⊢
    exact .list (List.forall_mem_map.2 hsymbols) hlabel

theorem RuleSpelled.moved {r : Rule} (h : RuleSpelled declared ts r)
    (hts : ReadAlike declared known ts) : RuleSpelled known (ts.map (Token.moved k)) r := by
  cases h with
  | mk hl hs hc ha hi =>
    simp only [List.map_append, List.map_cons]
    exact .mk hl.moved hs (hc.moved (hts.mono fun t ht => by simp [ht])) ha
      (hi.moved (hts.mono fun t ht => by simp [ht]))

theorem asksNonempty_moved (ts : List Token) :
    asksNonempty (ts.map (Token.moved k)) = asksNonempty ts := by
  cases ts with
  | nil => rfl
  | cons t ts => rfl

theorem ListPragmaSpelled.moved {terminated : Bool} {rs : List Rule}
    (h : ListPragmaSpelled declared terminated ts rs) (hts : ReadAlike declared known ts) :
    ListPragmaSpelled known terminated (ts.map (Token.moved k)) rs := by
  cases h with
  | any hmark hc hk =>
    rw [List.map_append]
    exact .any ((asksNonempty_moved _).trans hmark)
      (hc.moved (hts.mono (List.subset_append_left _ _))) hk
  | nonempty hw hv hc hk =>
    rw [List.map_cons, List.map_append]
    exact .nonempty hw hv (hc.moved (hts.mono fun t ht => by simp [ht])) hk

theorem CoercionsSpelled.moved {rs : List Rule} (h : CoercionsSpelled ts rs) :
    CoercionsSpelled (ts.map (Token.moved k)) rs := by
  cases h with
  | mk hw hn hd => exact .mk hw hn hd

theorem skipComma_moved (ts : List Token) :
    skipComma (ts.map (Token.moved k)) = (skipComma ts).map (Token.moved k) := by
  cases ts with
  | nil => rfl
  | cons t ts =>
    rw [List.map_cons, skipComma, skipComma, Token.isSymbol_moved]
    split
    · rfl
    · rfl

theorem readEntrypoints_moved {lastLine : Nat} {cs : List Category}
    (h : readEntrypoints declared lastLine ts = .ok cs) (hts : ReadAlike declared known ts)
    (lastLine' : Nat) :
    readEntrypoints known lastLine' (ts.map (Token.moved k)) = .ok cs := by
  fun_induction readEntrypoints declared lastLine ts generalizing cs with
  | case1 ts hempty =>
    obtain rfl := List.isEmpty_iff.1 hempty
    cases h
    rw [List.map_nil, readEntrypoints]
    rfl
  | case2 => cases h
  | case3 ts _ c rest hc ih =>
    obtain ⟨used, rfl, hspelled⟩ := readCategory_eq_ok_iff.1 hc
    obtain ⟨others, hothers, rfl⟩ := map_eq_ok_iff.1 h
    have hrest : ReadAlike declared known (skipComma rest) := hts.mono fun t ht =>
      List.mem_append_right used (mem_of_mem_skipComma ht)
    have hspelled' : Category.Spelled known (used.map (Token.moved k)) c :=
      hspelled.moved (hts.mono (List.subset_append_left used rest))
    rw [List.map_append, readEntrypoints_append hspelled', skipComma_moved, ih hothers hrest]
    rfl

end Moved

namespace Statement

variable {declared known : List String} {s : Statement} {k : Nat}

theorem moved_zero (s : Statement) : s.moved 0 = s := by
  have hid : Token.moved 0 = id := rfl
  rw [moved, hid, List.map_id]
  rfl

theorem tokens_moved (k : Nat) (s : Statement) :
    (s.moved k).tokens = s.tokens.map (Token.moved k) := rfl

theorem pragma?_moved (k : Nat) (s : Statement) : (s.moved k).pragma? = s.pragma? := by
  obtain ⟨head, tail⟩ := s
  cases tail with
  | nil => rfl
  | cons t ts => rfl

theorem declaredToken?_moved (k : Nat) (s : Statement) :
    (s.moved k).declaredToken? = s.declaredToken? := by
  have hvalues : (s.moved k).tokens.map Token.value = s.tokens.map Token.value := by
    rw [tokens_moved, List.map_map]
    rfl
  rw [declaredToken?, declaredToken?, hvalues]

/-- Further down a statement contributes the same. -/
theorem interpret_moved {c : Contribution} (h : s.interpret declared = .ok c)
    (hs : ReadAlike declared known s.tokens) (k : Nat) :
    (s.moved k).interpret known = .ok (c.moved k) := by
  have htail : ReadAlike declared known s.tail := hs.mono (List.subset_cons_self s.head s.tail)
  have hrule : ∀ {lastLine : Nat} {internal : Bool} {ts : List Token} {r : Rule} (lastLine' : Nat),
      ReadAlike declared known ts → readRule declared lastLine internal ts = .ok r →
        readRule known lastLine' internal (ts.map (Token.moved k)) = .ok r := by
    intro lastLine internal ts r lastLine' hts hread
    obtain ⟨hspelled, hinternal⟩ := readRule_eq_ok_iff.1 hread
    exact readRule_eq_ok_iff.2 ⟨hspelled.moved hts, hinternal⟩
  have hlist : ∀ {terminated : Bool} {rs : List Rule},
      readListRules declared s.lastLine terminated s.tail = .ok rs →
        readListRules known (s.moved k).lastLine terminated (s.moved k).tail = .ok rs := by
    intro terminated rs hread
    obtain ⟨used, rest, hused, hspelled⟩ := readListRules_eq_ok_iff.1 hread
    rw [hused] at htail
    refine readListRules_eq_ok_iff.2 ⟨used.map (Token.moved k), rest.map (Token.moved k), ?_,
      hspelled.moved (htail.mono (List.subset_append_left used rest))⟩
    rw [moved, hused, List.map_append]
  rw [interpret] at h
  rw [interpret, pragma?_moved]
  split at h
  · cases h
    rfl
  · cases h
    rfl
  · obtain ⟨r, hread, rfl⟩ := map_eq_ok_iff.1 h
    exact map_eq_ok_iff.2 ⟨r, hrule _ htail hread, rfl⟩
  · obtain ⟨rs, hread, rfl⟩ := map_eq_ok_iff.1 h
    exact map_eq_ok_iff.2 ⟨rs, hlist hread, rfl⟩
  · obtain ⟨rs, hread, rfl⟩ := map_eq_ok_iff.1 h
    exact map_eq_ok_iff.2 ⟨rs, hlist hread, rfl⟩
  · obtain ⟨rs, hread, rfl⟩ := map_eq_ok_iff.1 h
    obtain ⟨used, rest, hused, hspelled⟩ := readCoercionRules_eq_ok_iff.1 hread
    refine map_eq_ok_iff.2 ⟨rs, readCoercionRules_eq_ok_iff.2 ⟨used.map (Token.moved k),
      rest.map (Token.moved k), ?_, hspelled.moved⟩, rfl⟩
    rw [moved, hused, List.map_append]
  · obtain ⟨cs, hread, rfl⟩ := map_eq_ok_iff.1 h
    exact map_eq_ok_iff.2 ⟨cs, readEntrypoints_moved hread htail _, rfl⟩
  · cases h
  · obtain ⟨r, hread, rfl⟩ := map_eq_ok_iff.1 h
    exact map_eq_ok_iff.2 ⟨r, hrule _ hs hread, rfl⟩

theorem split_moved (k : Nat) (ts : List Token) :
    split (ts.map (Token.moved k)) = (split ts).map (moved k) := by
  rw [split, splitOnP_map, List.filterMap_map, split, List.map_filterMap]
  refine List.filterMap_congr fun piece _ => ?_
  cases piece with
  | nil => rfl
  | cons t ts => rfl

end Statement

namespace Contribution

theorem rules?_moved (k : Nat) (c : Contribution) : (c.moved k).rules? = c.rules? := by
  cases c <;> rfl

theorem entrypoints?_moved (k : Nat) (c : Contribution) :
    (c.moved k).entrypoints? = c.entrypoints? := by
  cases c <;> rfl

end Contribution

namespace Grammar

/-- The one grammar, with what the other adds behind it. -/
def joined (g g' : Grammar) : Grammar :=
  ⟨g.rules ++ g'.rules, g.tokens ++ g'.tokens, g.entrypoints ++ g'.entrypoints⟩

/-- No word of the text is declared in the other grammar only. -/
def KnowsWords (text : String) (g g' : Grammar) : Prop :=
  ∀ t ∈ (tokenize text).tokens, t.kind = .word → t.value ∈ g'.tokens → t.value ∈ g.tokens

theorem readAlike_of_mem_statements {text : String} {s : Statement} (hs : s ∈ statements text)
    {declared known : List String}
    (h : ∀ t ∈ (tokenize text).tokens, t.kind = .word → (t.value ∈ declared ↔ t.value ∈ known)) :
    ReadAlike declared known s.tokens :=
  readAlike_of_mem_iff (Statement.haveWords_of_mem_split (haveWords_tokenize text) hs)
    fun t ht => h t (Statement.mem_of_mem_split hs ht)

theorem statements_joined {u v : String} {line k : Nat}
    (h : (tokenize (u ++ "\n;\n" ++ v)).tokens =
      (tokenize u).tokens ++ ⟨.symbol, ";", line⟩ :: (tokenize v).tokens.map (Token.moved k)) :
    statements (u ++ "\n;\n" ++ v) =
      (statements u).map (Statement.moved 0) ++ (statements v).map (Statement.moved k) := by
  have hzero : Statement.moved 0 = id := funext Statement.moved_zero
  rw [statements, h, Statement.split_append rfl, Statement.split_moved, hzero, List.map_id]
  rfl

/-- The contributions of the statements of a text, further down and under other declared names. -/
theorem forall₂_interpret_moved {text : String} {declared known : List String}
    {cs : List Contribution}
    (hcs : List.Forall₂ (fun s c => s.interpret declared = .ok c) (statements text) cs)
    (h : ∀ t ∈ (tokenize text).tokens, t.kind = .word → (t.value ∈ declared ↔ t.value ∈ known))
    (k : Nat) :
    List.Forall₂ (fun s c => s.interpret known = .ok c)
      ((statements text).map (Statement.moved k)) (cs.map (Contribution.moved k)) := by
  rw [List.forall₂_map_left_iff, List.forall₂_map_right_iff]
  have hmem := List.forall₂_and_left _ _ |>.2 ⟨fun s hs => hs, hcs⟩
  exact hmem.imp fun s c ⟨hs, hc⟩ => Statement.interpret_moved hc
    (readAlike_of_mem_statements hs h) k

theorem declaredNames_moved (k : Nat) (ss : List Statement) :
    Reading.declaredNames (ss.map (Statement.moved k)) = Reading.declaredNames ss := by
  rw [Reading.declaredNames, List.filterMap_map, Reading.declaredNames]
  exact List.filterMap_congr fun s _ => s.declaredToken?_moved k

/-- Two texts that are read give a text that is read when a semicolon is put on a line between them,
and its grammar is made of theirs, unless a word of the one is declared in the other only. -/
theorem read_joined {u v : String} {g g' : Grammar} (hu : read u = .ok g) (hv : read v = .ok g')
    (hknown : KnowsWords u g g') (hknown' : KnowsWords v g' g) :
    read (u ++ "\n;\n" ++ v) = .ok (g.joined g') := by
  obtain ⟨cs, hcs, htokens, hrules, hentries⟩ := exists_contributions_of_read hu
  obtain ⟨cs', hcs', htokens', hrules', hentries'⟩ := exists_contributions_of_read hv
  obtain ⟨line, k, hlexing⟩ :=
    exists_tokenize_joined (fault?_eq_none_of_read hu) (fault?_eq_none_of_read hv)
  have hstatements := statements_joined (congrArg Lexing.tokens hlexing)
  have hdeclared : Reading.declaredNames (statements (u ++ "\n;\n" ++ v)) =
      g.tokens ++ g'.tokens := by
    rw [hstatements, Reading.declaredNames_append, declaredNames_moved, declaredNames_moved,
      htokens, htokens']
  have hall : List.Forall₂ (fun s c => s.interpret (g.tokens ++ g'.tokens) = .ok c)
      (statements (u ++ "\n;\n" ++ v))
      (cs.map (Contribution.moved 0) ++ cs'.map (Contribution.moved k)) := by
    rw [hstatements]
    refine List.rel_append (forall₂_interpret_moved hcs (fun t ht hword => ?_) 0)
      (forall₂_interpret_moved hcs' (fun t ht hword => ?_) k)
    · rw [List.mem_append]
      exact ⟨.inl, fun h => h.elim id (hknown t ht hword)⟩
    · rw [List.mem_append]
      exact ⟨.inr, fun h => h.elim (hknown' t ht hword) id⟩
  rw [read_of_fault?_eq_none (congrArg Lexing.fault? hlexing), Reading.ofStatements_eq_ok_iff,
    hdeclared]
  refine ⟨_, hall, ?_⟩
  rw [ofContributions, joined, List.flatMap_append, List.flatMap_append, List.flatMap_map,
    List.flatMap_map, List.flatMap_map, List.flatMap_map, hrules, hrules', hentries, hentries']
  simp only [Contribution.rules?_moved, Contribution.entrypoints?_moved]

/-- The first text ends in a comment, and its token is declared behind its use. -/
theorem read_joined_comment :
    let u := "ENum . Exp ::= Num ; token Num digit -- numbers"
    let v := "token Word letter ; separator Word \",\" ; EWords . Exp ::= [Word] ; entrypoints Exp"
    let g : Grammar := ⟨[⟨"ENum", .plain "Exp", [.category (.token "Num")], false⟩], ["Num"], []⟩
    let g' : Grammar :=
      ⟨listRules (.token "Word") "," false false ++
        [⟨"EWords", .plain "Exp", [.category (.list (.token "Word"))], false⟩], ["Word"],
        [.plain "Exp"]⟩
    read u = .ok g ∧ read v = .ok g' ∧ read (u ++ "\n;\n" ++ v) = .ok (g.joined g') := by
  intro u v g g'
  have hu : read u = .ok g := by decide +kernel
  have hv : read v = .ok g' := by decide +kernel
  have hknown : KnowsWords u g g' := by
    have hwords : ∀ t ∈ (tokenize u).tokens, t.value ∉ g'.tokens := by decide +kernel
    exact fun t ht _ hmem => absurd hmem (hwords t ht)
  have hknown' : KnowsWords v g' g := by
    have hwords : ∀ t ∈ (tokenize v).tokens, t.value ∉ g.tokens := by decide +kernel
    exact fun t ht _ hmem => absurd hmem (hwords t ht)
  exact ⟨hu, hv, read_joined hu hv hknown hknown'⟩

end Grammar
end GrammarBindings
