import GrammarBindings.Proofs.StatementSequence
import GrammarBindings.Proofs.WrittenRules

/-!
# Writing a grammar

A grammar is written as one clause a line: its token declarations, its entry points and its rules.
A clause is lexed as a statement of its own, which contributes what the clause says. Reading
therefore gives back every grammar whose names are words and whose categories are canonical. Its
tokens come back too, followed by a full stop for each rule with the label `token`, whose first
words are those of a declaration.
-/

namespace GrammarBindings

open Text

variable {declared known : List String} {line : Nat} {rest : List Char}

def Rule.written (r : Rule) : String := (if r.internal then "internal " else "") ++ r.body

/-- What one statement of a written grammar says. -/
inductive Clause where
  | declaration (name : String)
  | entrypoints (cs : List Category)
  | rule (r : Rule)
  deriving DecidableEq, Repr

namespace Clause

def written : Clause → String
  | declaration name => "token " ++ (name ++ (" " ++ ("letter" ++ " ;")))
  | entrypoints cs => "entrypoints " ++ (", ".intercalate (cs.map Category.written) ++ " ;")
  | rule r => r.written ++ " ;"

/-- The name that the first words of the clause declare. -/
def declares? : Clause → Option String
  | declaration name => some name
  | entrypoints _ => none
  | rule r => if r.label = "token" ∧ r.internal = false then some "." else none

def contribution : Clause → Contribution
  | declaration _ => .declaration
  | entrypoints cs => .entrypoints cs
  | rule r => .rules [r]

def Canonical (declared : List String) : Clause → Prop
  | declaration name => isWord name = true
  | entrypoints cs => ∀ c ∈ cs, c.Canonical declared ∧ c.normalize = c
  | rule r => r.Canonical declared

/-- The clause is lexed as the statement, which says the same. -/
structure ReadsAs (known : List String) (line : Nat) (c : Clause) (s : Statement) : Prop where
  lexes (rest : List Char) : Lexes line c.written rest (s.tokens ++ [⟨.symbol, ";", line⟩])
  whole : ∀ t ∈ s.tokens, t.isSymbol ";" = false
  declares : s.declaredToken? = c.declares?
  contributes : s.interpret known = .ok c.contribution

end Clause

/-- A keyword with the space behind it. -/
theorem lexes_keyword {s w : String} (hw : isWord w = true) (hs : s.toList = w.toList ++ [' '])
    (line : Nat) (rest : List Char) : Lexes line s rest [⟨.word, w, line⟩] := by
  obtain rfl : s = w ++ " " := by
    rw [← String.toList_inj, hs, String.toList_append]
    rfl
  exact (Lexes.word hw (stops_cons rfl rest)).append (Lexes.space line rest)

theorem lexes_end (line : Nat) (rest : List Char) :
    Lexes line " ;" rest [⟨.symbol, ";", line⟩] := by
  change tokenizeFrom line (' ' :: ';' :: rest) = _
  have hspace : scan ' ' (';' :: rest) = .gap 0 (';' :: rest) := rfl
  rw [tokenizeFrom_gap hspace, tokenizeFrom_symbol rfl rfl]
  rfl

theorem stops_end (rest : List Char) : Stops (" ;".toList ++ rest) :=
  stops_cons (show continuesWord ' ' = false from rfl) (';' :: rest)

/-- The tokens of entry points, with commas between them. -/
def entryTokens (line : Nat) : List Category → List Token
  | [] => []
  | [c] => c.tokensAt line
  | c :: d :: cs => c.tokensAt line ++ ⟨.symbol, ",", line⟩ :: entryTokens line (d :: cs)

theorem lexes_comma (line : Nat) (rest : List Char) :
    Lexes line ", " rest [⟨.symbol, ",", line⟩] := by
  change tokenizeFrom line (',' :: ' ' :: rest) = _
  have hspace : scan ' ' rest = .gap 0 rest := rfl
  rw [tokenizeFrom_symbol rfl rfl, tokenizeFrom_gap hspace]
  rfl

theorem lexes_entries (hd : ∀ s ∈ declared, isWord s = true) {cs : List Category}
    (h : ∀ c ∈ cs, c.Canonical declared) (hr : Stops rest) :
    Lexes line (", ".intercalate (cs.map Category.written)) rest (entryTokens line cs) := by
  fun_induction entryTokens line cs with
  | case1 => exact Lexes.empty line rest
  | case2 c => exact (h c List.mem_cons_self).lexes_written hd hr
  | case3 c d cs ih =>
    have htail := ih fun e he => h e (List.mem_cons_of_mem c he)
    rw [List.map_cons, List.map_cons, String.intercalate_cons_cons, String.append_assoc]
    rw [List.map_cons] at htail
    have hcomma := (lexes_comma line _).append htail
    exact ((h c List.mem_cons_self).lexes_written hd (stops_append rfl rfl _ rest)).append hcomma

theorem readEntrypoints_entryTokens (hd : ∀ s ∈ declared, isWord s = true)
    (hk : Category.SameWords declared known) {cs : List Category}
    (h : ∀ c ∈ cs, c.Canonical declared) (lastLine : Nat) :
    readEntrypoints known lastLine (entryTokens line cs) = .ok (cs.map Category.normalize) := by
  fun_induction entryTokens line cs with
  | case1 =>
    rw [readEntrypoints]
    rfl
  | case2 c =>
    have hc : Category.Spelled known (c.tokensAt line) c :=
      (h c List.mem_cons_self).spelled_tokensAt hd hk
    rw [← List.append_nil (c.tokensAt line), readEntrypoints_append hc, skipComma, readEntrypoints]
    rfl
  | case3 c d cs ih =>
    have hc : Category.Spelled known (c.tokensAt line) c :=
      (h c List.mem_cons_self).spelled_tokensAt hd hk
    have hcomma : (⟨.symbol, ",", line⟩ : Token).isSymbol "," = true := rfl
    have htail := ih fun e he => h e (List.mem_cons_of_mem c he)
    rw [readEntrypoints_append hc, skipComma, if_pos hcomma, htail]
    rfl

theorem whole_entryTokens (cs : List Category) :
    ∀ t ∈ entryTokens line cs, t.isSymbol ";" = false := by
  fun_induction entryTokens line cs with
  | case1 => simp
  | case2 c => exact Category.whole_tokensAt c
  | case3 c d cs ih =>
    intro t ht
    rcases List.mem_append.1 ht with ht | ht
    · exact Category.whole_tokensAt c t ht
    · rcases List.mem_cons.1 ht with rfl | ht
      · rfl
      · exact ih t ht

theorem Label.exists_cons_tokensAt {l : Label} (h : isWord l = true ∨ l.isList = true) :
    ∃ t ts, l.tokensAt line = t :: ts ∧ t.isSymbol "." = false := by
  rcases h with h | h
  · exact ⟨_, _, tokensAt_word h line, rfl⟩
  · rcases isList_iff.1 h with rfl | rfl | rfl
    · exact ⟨⟨.symbol, "[", line⟩, _, rfl, rfl⟩
    · exact ⟨⟨.symbol, "(", line⟩, _, rfl, rfl⟩
    · exact ⟨⟨.symbol, "(", line⟩, _, rfl, rfl⟩

/-- The first words of a rule declare a name only by accident, and no keyword is in front of a full
stop. -/
theorem Label.declares_and_pragma {l : Label} (h : isWord l = true ∨ l.isList = true)
    {s : Statement} {ts : List Token}
    (hs : s.tokens = l.tokensAt line ++ ⟨.symbol, ".", line⟩ :: ts) :
    s.declaredToken? = (if l = "token" then some "." else none) ∧ s.pragma? = none := by
  obtain ⟨head, tail⟩ := s
  rw [Statement.tokens] at hs
  rw [Statement.declaredToken?, Statement.tokens, hs]
  rcases h with hw | hl
  · rw [tokensAt_word hw, List.singleton_append] at hs ⊢
    obtain ⟨rfl, rfl⟩ := List.cons.inj hs
    refine ⟨?_, rfl⟩
    by_cases ht : l = "token"
    · rw [if_pos ht, ht]
      rfl
    · rw [if_neg ht]
      simp only [List.map_cons]
      split
      · next he => exact absurd (List.cons.inj he).1 ht
      · next he => simp at he
      · rfl
  · rcases isList_iff.1 hl with rfl | rfl | rfl <;>
      obtain ⟨rfl, rfl⟩ := List.cons.inj hs <;> exact ⟨rfl, rfl⟩

namespace Clause

theorem readsAs_declaration {name : String} (h : isWord name = true) (known : List String)
    (line : Nat) :
    ReadsAs known line (.declaration name)
      ⟨⟨.word, "token", line⟩, [⟨.word, name, line⟩, ⟨.word, "letter", line⟩]⟩ where
  lexes rest := by
    have hkeyword : isWord "token" = true := by decide +kernel
    have hletter : isWord "letter" = true := by decide +kernel
    have hregex := (Lexes.word hletter (stops_end rest)).append (lexes_end line rest)
    have hspace := (Lexes.space line _).append hregex
    have hname := (Lexes.word h (stops_append rfl rfl _ rest)).append hspace
    exact (lexes_keyword hkeyword rfl line _).append hname
  whole := by simp [Statement.tokens, Token.isSymbol]
  declares := rfl
  contributes := rfl

theorem readsAs_entrypoints (hd : ∀ s ∈ declared, isWord s = true)
    (hk : Category.SameWords declared known) {cs : List Category}
    (h : ∀ c ∈ cs, c.Canonical declared ∧ c.normalize = c) (line : Nat) :
    ReadsAs known line (.entrypoints cs) ⟨⟨.word, "entrypoints", line⟩, entryTokens line cs⟩ where
  lexes rest := by
    have hkeyword : isWord "entrypoints" = true := by decide +kernel
    have hentries := (lexes_entries hd (fun c hc => (h c hc).1) (stops_end rest)).append
      (lexes_end line rest)
    exact (lexes_keyword hkeyword rfl line _).append hentries
  whole := by
    intro t ht
    rcases List.mem_cons.1 ht with rfl | ht
    · rfl
    · exact whole_entryTokens cs t ht
  declares := rfl
  contributes := by
    have hpragma : Statement.pragma? ⟨⟨.word, "entrypoints", line⟩, entryTokens line cs⟩ =
        some .entrypoints := by
      have hnext : (entryTokens line cs).head?.any (fun t => t.isSymbol ".") = false := by
        fun_induction entryTokens line cs with
        | case1 => rfl
        | case2 c =>
          rw [← List.append_nil (c.tokensAt line)]
          exact Category.head_tokensAt c []
        | case3 c d cs => exact Category.head_tokensAt c _
      rw [Statement.pragma?, hnext]
      rfl
    have hmap : cs.map Category.normalize = cs := by
      rw [List.map_congr_left fun c hc => (h c hc).2, List.map_id']
    rw [Statement.interpret, hpragma]
    simp only
    rw [readEntrypoints_entryTokens hd hk fun c hc => (h c hc).1, hmap]
    rfl

theorem readsAs_internal (hd : ∀ s ∈ declared, isWord s = true)
    (hk : Category.SameWords declared known) {r : Rule} (h : r.Canonical declared)
    (hi : r.internal = true) (line : Nat) :
    ReadsAs known line (.rule r) ⟨⟨.word, "internal", line⟩, r.tokensAt line⟩ where
  lexes rest := by
    have hkeyword : isWord "internal" = true := by decide +kernel
    have hbody := (h.lexes_body hd (stops_end rest)).append (lexes_end line rest)
    rw [written, Rule.written, hi, if_pos rfl, String.append_assoc]
    exact (lexes_keyword hkeyword rfl line _).append hbody
  whole := by
    intro t ht
    rcases List.mem_cons.1 ht with rfl | ht
    · rfl
    · exact h.whole_tokensAt t ht
  declares := by
    rw [declares?, hi, if_neg fun h => by cases h.2]
    rfl
  contributes := by
    have hpragma : Statement.pragma? ⟨⟨.word, "internal", line⟩, r.tokensAt line⟩ =
        some .internal := by
      obtain ⟨t, ts, he, ht⟩ := Label.exists_cons_tokensAt h.label
      have hnext : (r.tokensAt line).head?.any (fun t => t.isSymbol ".") = false := by
        rw [Rule.tokensAt, he]
        exact ht
      rw [Statement.pragma?, hnext]
      rfl
    rw [Statement.interpret, hpragma]
    simp only
    rw [readRule_eq_ok_iff.2 ⟨h.spelled_tokensAt hd hk, hi⟩]
    rfl

theorem readsAs_rule (hd : ∀ s ∈ declared, isWord s = true)
    (hk : Category.SameWords declared known) {r : Rule} (h : r.Canonical declared)
    (hi : r.internal = false) {s : Statement} (hs : s.tokens = r.tokensAt line) :
    ReadsAs known line (.rule r) s where
  lexes rest := by
    have hbody := (h.lexes_body hd (stops_end rest)).append (lexes_end line rest)
    rw [hs, written, Rule.written, hi, if_neg (by simp), String.empty_append]
    exact hbody
  whole := by
    rw [hs]
    exact h.whole_tokensAt
  declares := by
    rw [(Label.declares_and_pragma h.label hs).1, declares?, hi]
    simp
  contributes := by
    rw [Statement.interpret, (Label.declares_and_pragma h.label hs).2]
    simp only
    rw [hs, readRule_eq_ok_iff.2 ⟨h.spelled_tokensAt hd hk, hi⟩]
    rfl

theorem Canonical.exists_readsAs (hd : ∀ s ∈ declared, isWord s = true)
    (hk : Category.SameWords declared known) {c : Clause} (h : c.Canonical declared)
    (line : Nat) : ∃ s, ReadsAs known line c s := by
  cases c with
  | declaration name => exact ⟨_, readsAs_declaration h known line⟩
  | entrypoints cs => exact ⟨_, readsAs_entrypoints hd hk h line⟩
  | rule r =>
    cases hi : r.internal with
    | true => exact ⟨_, readsAs_internal hd hk h hi line⟩
    | false =>
      have hhead : ∃ t ts, r.label.tokensAt line = t :: ts ∧ t.isSymbol "." = false :=
        Label.exists_cons_tokensAt h.label
      obtain ⟨t, ts, he, -⟩ := hhead
      have htokens : (Statement.mk t (ts ++ ⟨.symbol, ".", line⟩ ::
          (r.category.tokensAt line ++ ⟨.symbol, "::=", line⟩ ::
            r.items.flatMap (Item.tokensAt line)))).tokens = r.tokensAt line := by
        rw [Rule.tokensAt, he]
        rfl
      exact ⟨_, readsAs_rule hd hk h hi htokens⟩

/-- Clauses on lines of their own are lexed as one statement after the other. -/
theorem exists_statements (hd : ∀ s ∈ declared, isWord s = true)
    (hk : Category.SameWords declared known) {cs : List Clause}
    (h : ∀ c ∈ cs, c.Canonical declared) (line : Nat) :
    ∃ ts ss,
      tokenizeFrom line (String.join (cs.map fun c => c.written ++ "\n")).toList = ⟨ts, none⟩ ∧
      Statement.split ts = ss ∧
      List.Forall₂ (fun s c => s.declaredToken? = declares? c ∧
        s.interpret known = .ok c.contribution) ss cs := by
  induction cs generalizing line with
  | nil => exact ⟨[], [], tokenizeFrom_nil line, rfl, .nil⟩
  | cons c cs ih =>
    obtain ⟨ts, ss, hts, hss, hcs⟩ := ih (fun d hd => h d (List.mem_cons_of_mem c hd)) (line + 1)
    obtain ⟨s, hs⟩ := (h c List.mem_cons_self).exists_readsAs hd hk line
    refine ⟨s.tokens ++ ⟨.symbol, ";", line⟩ :: ts, s :: ss, ?_, ?_, ?_⟩
    · have hline (rest : List Char) : scan '\n' rest = .gap 1 rest := rfl
      have hnewline : "\n".toList = ['\n'] := rfl
      have hlexes := hs.lexes ('\n' :: (String.join (cs.map fun c => c.written ++ "\n")).toList)
      rw [List.map_cons, String.join_cons, String.toList_append, String.toList_append,
        List.append_assoc, hnewline, List.singleton_append, hlexes, tokenizeFrom_gap (hline _), hts]
      simp [Lexing.prepend]
    · rw [Statement.split_append_stop hs.whole rfl, hss]
    · exact .cons ⟨hs.declares, hs.contributes⟩ hcs

end Clause

namespace Grammar

/-- Token declarations, entry points if there are any, and rules. -/
def clauses (g : Grammar) : List Clause :=
  g.tokens.map .declaration ++ (if g.entrypoints = [] then [] else [.entrypoints g.entrypoints]) ++
    g.rules.map .rule

def written (g : Grammar) : String := String.join (g.clauses.map fun c => c.written ++ "\n")

structure Canonical (g : Grammar) : Prop where
  tokens : ∀ s ∈ g.tokens, isWord s = true
  entrypoints : ∀ c ∈ g.entrypoints, c.Canonical g.tokens ∧ c.normalize = c
  rules : ∀ r ∈ g.rules, r.Canonical g.tokens

/-- A full stop for each rule that begins like the declaration of a token. -/
def strayTokens (g : Grammar) : List String :=
  (g.rules.filter fun r => r.label = "token" ∧ r.internal = false).map fun _ => "."

theorem Canonical.clauses {g : Grammar} (h : g.Canonical) :
    ∀ c ∈ g.clauses, c.Canonical g.tokens := by
  intro c hc
  rcases List.mem_append.1 hc with hc | hc
  · rcases List.mem_append.1 hc with hc | hc
    · obtain ⟨s, hs, rfl⟩ := List.mem_map.1 hc
      exact h.tokens s hs
    · split at hc
      · cases hc
      · obtain rfl := List.mem_singleton.1 hc
        exact h.entrypoints
  · obtain ⟨r, hr, rfl⟩ := List.mem_map.1 hc
    exact h.rules r hr

theorem declares_clauses (g : Grammar) :
    g.clauses.filterMap Clause.declares? = g.tokens ++ g.strayTokens := by
  have htokens (ts : List String) :
      (ts.map Clause.declaration).filterMap Clause.declares? = ts := by
    rw [List.filterMap_map]
    exact List.filterMap_some
  have hrules (rs : List Rule) : (rs.map Clause.rule).filterMap Clause.declares? =
      (rs.filter fun r => r.label = "token" ∧ r.internal = false).map fun _ => "." := by
    induction rs with
    | nil => rfl
    | cons r rs ih =>
      by_cases hr : r.label = "token" ∧ r.internal = false
      · simp [Clause.declares?, hr, ih]
      · simp [Clause.declares?, hr, ih]
  rw [clauses, List.filterMap_append, List.filterMap_append, htokens, hrules, strayTokens]
  split <;> simp [Clause.declares?]

theorem contributions_clauses (g : Grammar) (declared : List String) :
    ofContributions declared (g.clauses.map Clause.contribution) =
      { g with tokens := declared } := by
  have hrules : (g.clauses.map Clause.contribution).flatMap Contribution.rules? = g.rules := by
    rw [clauses]
    split <;> simp [List.flatMap_map, Clause.contribution, Contribution.rules?]
  have hentries : (g.clauses.map Clause.contribution).flatMap Contribution.entrypoints? =
      g.entrypoints := by
    have hnone {α : Type} (as : List α) : as.flatMap (fun _ => ([] : List Category)) = [] := by simp
    rw [clauses]
    split
    · next he => simp [List.flatMap_map, Clause.contribution, Contribution.entrypoints?, hnone, he]
    · simp [List.flatMap_map, Clause.contribution, Contribution.entrypoints?, hnone]
  rw [ofContributions, hrules, hentries]

theorem sameWords_strayTokens (g : Grammar) :
    Category.SameWords g.tokens (g.tokens ++ g.strayTokens) := by
  intro s hs
  rw [List.mem_append]
  refine or_iff_left fun h => ?_
  obtain ⟨r, -, rfl⟩ := List.mem_map.1 h
  cases hs

/-- Reading undoes writing. -/
theorem read_written {g : Grammar} (h : g.Canonical) :
    read g.written = .ok { g with tokens := g.tokens ++ g.strayTokens } := by
  obtain ⟨ts, ss, hts, hss, hcs⟩ :=
    Clause.exists_statements h.tokens (sameWords_strayTokens g) h.clauses 1
  have htokenize : tokenize g.written = ⟨ts, none⟩ := hts
  have hdeclared : Reading.declaredNames ss = g.tokens ++ g.strayTokens := by
    rw [← declares_clauses]
    exact filterMap_eq_of_forall₂ (hcs.imp fun _ _ hd => hd.1)
  have hread : List.Forall₂ (fun s c => s.interpret (Reading.declaredNames ss) = .ok c) ss
      (g.clauses.map Clause.contribution) := by
    rw [hdeclared, List.forall₂_map_right_iff]
    exact hcs.imp fun _ _ hd => hd.2
  rw [read_of_fault?_eq_none (by rw [htokenize]), statements, htokenize, hss,
    Reading.ofStatements_eq_ok_iff]
  exact ⟨_, hread, by rw [hdeclared, contributions_clauses]⟩

/-- A label that looks like a declaration, a text with all three escapes, a level of two digits,
and a list of a declared token. -/
theorem read_written_declared_levels :
    let g : Grammar :=
      ⟨[⟨"token", .level "Exp" 12, [.terminal "\"\\\n", .category (.list (.token "Num"))], false⟩,
        ⟨"(:[])", .list (.plain "Exp"), [.category (.token "Ident")], true⟩],
        ["Num"], [.list (.plain "Exp")]⟩
    g.Canonical ∧ read g.written = .ok { g with tokens := ["Num", "."] } := by
  intro g
  have hplain : Category.Canonical ["Num"] (.plain "Exp") :=
    .plain (by decide +kernel) (by decide) (by decide)
  have htoken : Rule.Canonical ["Num"]
      ⟨"token", .level "Exp" 12,
        [.terminal "\"\\\n", .category (.list (.token "Num"))], false⟩ := by
    refine ⟨.inl (by decide +kernel), ?_, ?_⟩
    · exact .level (by decide +kernel) (by decide) (by decide) (by decide) (by decide)
    · refine List.forall_mem_cons.2 ⟨trivial, List.forall_mem_singleton.2 ?_⟩
      exact .list (.token (by decide))
  have hone : Rule.Canonical ["Num"]
      ⟨"(:[])", .list (.plain "Exp"), [.category (.token "Ident")], true⟩ :=
    ⟨.inr rfl, .list hplain, List.forall_mem_singleton.2 (.token (by decide))⟩
  have h : g.Canonical := by
    refine ⟨?_, ?_, ?_⟩
    · exact List.forall_mem_singleton.2 (by decide +kernel)
    · exact List.forall_mem_singleton.2 ⟨.list hplain, rfl⟩
    · exact List.forall_mem_cons.2 ⟨htoken, List.forall_mem_singleton.2 hone⟩
  exact ⟨h, read_written h⟩

end Grammar
end GrammarBindings
