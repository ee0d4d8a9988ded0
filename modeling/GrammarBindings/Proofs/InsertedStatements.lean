import GrammarBindings.Proofs.JoinedTexts
import GrammarBindings.Proofs.StatementSequence

/-!
# Statements in the midst of a text

A text may be put on a line between two others when those in front of it end with a semicolon. What
counts of it is what its statements contribute, as long as they declare nothing: texts that
contribute the same can stand for one another, whether or not the whole is read, and the rules that
a text contributes come in between the others.
-/

namespace GrammarBindings

open Text

variable {declared : List String}

namespace Reading

/-- The rules and the entry points that statements contribute, unless one cannot be interpreted. -/
def contributed (declared : List String) (ss : List Statement) :
    Except ReadFailure (List Rule × List Category) :=
  (ss.mapM (Statement.interpret declared)).map fun cs =>
    (cs.flatMap Contribution.rules?, cs.flatMap Contribution.entrypoints?)

theorem mapM_interpret (ss : List Statement) :
    ss.mapM (Statement.interpret declared) =
      match interpretAll declared ss with
      | (cs, none) => .ok cs
      | (_, some e) => .error e := by
  induction ss with
  | nil => rfl
  | cons s ss ih =>
    rw [List.mapM_cons, ih, interpretAll]
    cases s.interpret declared with
    | error e => rfl
    | ok c =>
      cases interpretAll declared ss with
      | mk cs failure? => cases failure? <;> rfl

theorem result_ofStatements (ss : List Statement) :
    (ofStatements ss).result =
      (contributed (declaredNames ss) ss).map fun p => ⟨p.1, declaredNames ss, p.2⟩ := by
  rw [contributed, mapM_interpret, ofStatements]
  dsimp only
  rw [← declaredNames]
  cases interpretAll (declaredNames ss) ss with
  | mk cs failure? => cases failure? <;> rfl

theorem contributed_append (ss us : List Statement) :
    contributed declared (ss ++ us) = contributed declared ss >>= fun p =>
      (contributed declared us).map fun q => (p.1 ++ q.1, p.2 ++ q.2) := by
  rw [contributed, contributed, contributed, List.mapM_append]
  cases ss.mapM (Statement.interpret declared) with
  | error e => rfl
  | ok cs =>
    cases us.mapM (Statement.interpret declared) with
    | error e => rfl
    | ok ds =>
      simp only [ok_bind, Except.map, pure, Except.pure, List.flatMap_append]

theorem declaredNames_insert {before between behind : List Statement}
    (h : declaredNames between = []) :
    declaredNames (before ++ (between ++ behind)) = declaredNames (before ++ behind) := by
  rw [declaredNames_append, declaredNames_append, h, List.nil_append, declaredNames_append]

/-- A grammar of what statements contribute, with rules in the midst of theirs. -/
def withRules (declared : List String) (before behind : List Statement)
    (rules : Except ReadFailure (List Rule)) : Except ReadFailure Grammar := do
  let p ← contributed declared before
  let rs ← rules
  let q ← contributed declared behind
  return ⟨p.1 ++ (rs ++ q.1), declared, p.2 ++ q.2⟩

theorem result_ofStatements_insert {before between behind : List Statement}
    {rules : Except ReadFailure (List Rule)} (hdeclared : declaredNames between = [])
    (h : contributed (declaredNames (before ++ behind)) between = rules.map fun rs => (rs, [])) :
    (ofStatements (before ++ (between ++ behind))).result =
      withRules (declaredNames (before ++ behind)) before behind rules := by
  rw [result_ofStatements, declaredNames_insert hdeclared, contributed_append, contributed_append,
    h, withRules]
  cases contributed (declaredNames (before ++ behind)) before with
  | error e => rfl
  | ok p =>
    cases rules with
    | error e => rfl
    | ok rs =>
      cases contributed (declaredNames (before ++ behind)) behind with
      | error e => rfl
      | ok q => rfl

theorem exists_rules_of_withRules {before behind : List Statement} {g : Grammar}
    (h : withRules declared before behind (.ok []) = .ok g) :
    ∃ rs us, g.rules = rs ++ us ∧ ∀ rules, withRules declared before behind (.ok rules) =
      .ok { g with rules := rs ++ (rules ++ us) } := by
  obtain ⟨p, hp, h⟩ := bind_eq_ok_iff.1 h
  obtain ⟨rs, hrs, h⟩ := bind_eq_ok_iff.1 h
  obtain ⟨q, hq, h⟩ := bind_eq_ok_iff.1 h
  obtain rfl := pure_eq_ok_iff.1 h
  cases hrs
  refine ⟨p.1, q.1, rfl, fun rules => ?_⟩
  rw [withRules, hp, hq]
  rfl

end Reading

/-- The text is lexed as these statements, each up to its semicolon, whatever stands behind. -/
structure LexesAs (line : Nat) (text : String) (ss : List Statement) : Prop where
  lexes (rest : List Char) :
    Lexes line text rest (ss.flatMap fun s => s.tokens ++ [⟨.symbol, ";", line⟩])
  whole : ∀ s ∈ ss, ∀ t ∈ s.tokens, t.isSymbol ";" = false

/-- Another statement can follow. -/
structure IsClosed (text : String) : Prop where
  fault?_eq_none : (tokenize text).fault? = none
  last : ∀ t ∈ (tokenize text).tokens.getLast?, t.isSymbol ";" = true

/-- A text on the line below the one in front of it. -/
def around (before between behind : String) : String := before ++ ("\n" ++ (between ++ behind))

theorem LexesAs.empty (line : Nat) : LexesAs line "" [] where
  lexes rest := Lexes.empty line rest
  whole := by simp

theorem LexesAs.split_append {line : Nat} {text : String} {ss : List Statement}
    (h : LexesAs line text ss) (ts : List Token) :
    Statement.split ((ss.flatMap fun s => s.tokens ++ [⟨.symbol, ";", line⟩]) ++ ts) =
      ss ++ Statement.split ts := by
  have hwhole := h.whole
  clear h
  induction ss with
  | nil => rfl
  | cons s ss ih =>
    rw [List.flatMap_cons, List.append_assoc, List.append_assoc, List.singleton_append,
      Statement.split_append_stop (hwhole s List.mem_cons_self) rfl,
      ih fun u hu => hwhole u (List.mem_cons_of_mem s hu), List.cons_append]

theorem IsClosed.split_append {text : String} (h : IsClosed text) (ts : List Token) :
    Statement.split ((tokenize text).tokens ++ ts) =
      Statement.split (tokenize text).tokens ++ Statement.split ts := by
  obtain hnil | ⟨us, stop, hstop⟩ := List.eq_nil_or_concat (tokenize text).tokens
  · rw [hnil]
    rfl
  · rw [List.concat_eq_append] at hstop
    have hlast : stop.isSymbol ";" = true := h.last stop (by simp [hstop])
    have hempty : Statement.split [] = [] := rfl
    rw [hstop, List.append_assoc, List.singleton_append, Statement.split_append hlast,
      Statement.split_append hlast, hempty, List.append_nil]

/-- What surrounds a place in a text: the fault behind it, and the statements on its two sides. -/
theorem IsClosed.exists_surroundings {before : String} (h : IsClosed before) (behind : String) :
    ∃ line fault? ss us, ∀ text between, LexesAs line text between →
      (tokenize (around before text behind)).fault? = fault? ∧
        Grammar.statements (around before text behind) = ss ++ (between ++ us) := by
  obtain ⟨line, hbelow⟩ := exists_tokenizeFrom_below h.fault?_eq_none
  refine ⟨line + 1, (tokenizeFrom (line + 1) behind.toList).fault?,
    Statement.split (tokenize before).tokens,
    Statement.split (tokenizeFrom (line + 1) behind.toList).tokens, fun text between htext => ?_⟩
  have hlexing : tokenize (around before text behind) =
      ((tokenizeFrom (line + 1) behind.toList).prepend
        (between.flatMap fun s => s.tokens ++ [⟨.symbol, ";", line + 1⟩])).prepend
          (tokenize before).tokens := by
    have hchars : (around before text behind).toList =
        before.toList ++ '\n' :: (text.toList ++ behind.toList) := by
      simp [around]
    rw [tokenize, hchars, hbelow, htext.lexes]
  rw [Grammar.statements, hlexing]
  refine ⟨rfl, ?_⟩
  rw [Lexing.tokens_prepend, Lexing.tokens_prepend, h.split_append, htext.split_append]

/-- On whatever line the text stands, its statements declare nothing and contribute these rules. -/
def Contributes (declared : List String) (text : String)
    (rules : Except ReadFailure (List Rule)) : Prop :=
  ∀ line, ∃ ss, LexesAs line text ss ∧ Reading.declaredNames ss = [] ∧
    Reading.contributed declared ss = rules.map fun rs => (rs, [])

theorem contributes_empty (declared : List String) : Contributes declared "" (.ok []) :=
  fun line => ⟨[], LexesAs.empty line, rfl, rfl⟩

theorem Contributes.of_statement {text : String} {rules : Except ReadFailure (List Rule)}
    (h : ∀ line, ∃ s : Statement,
      (∀ rest, Lexes line text rest (s.tokens ++ [⟨.symbol, ";", line⟩])) ∧
      (∀ t ∈ s.tokens, t.isSymbol ";" = false) ∧ s.declaredToken? = none ∧
      s.interpret declared = rules.map .rules) : Contributes declared text rules := by
  intro line
  obtain ⟨s, hlexes, hwhole, hdeclared, hinterpret⟩ := h line
  refine ⟨[s], ⟨fun rest => ?_, List.forall_mem_singleton.2 hwhole⟩, ?_, ?_⟩
  · rw [List.flatMap_singleton]
    exact hlexes rest
  · rw [Reading.declaredNames, List.filterMap_cons, hdeclared, List.filterMap_nil]
  · rw [Reading.contributed, List.mapM_cons, List.mapM_nil, hinterpret]
    cases rules with
    | error e => rfl
    | ok rs => exact congrArg (fun rs => Except.ok (rs, [])) (List.append_nil rs)

theorem Contributes.append {text text' : String} {rules rules' : Except ReadFailure (List Rule)}
    (h : Contributes declared text rules) (h' : Contributes declared text' rules') :
    Contributes declared (text ++ (" " ++ text'))
      (rules >>= fun rs => rules'.map fun rs' => rs ++ rs') := by
  intro line
  obtain ⟨ss, hlexes, hdeclared, hcontributed⟩ := h line
  obtain ⟨us, hlexes', hdeclared', hcontributed'⟩ := h' line
  have hwhole := List.forall_mem_append.2 ⟨hlexes.whole, hlexes'.whole⟩
  refine ⟨ss ++ us, ⟨fun rest => ?_, hwhole⟩, ?_, ?_⟩
  · rw [List.flatMap_append]
    exact (hlexes.lexes _).append ((Lexes.space line _).append (hlexes'.lexes rest))
  · rw [Reading.declaredNames_append, hdeclared, hdeclared']
    rfl
  · rw [Reading.contributed_append, hcontributed, hcontributed']
    cases rules with
    | error e => rfl
    | ok rs => cases rules' <;> rfl

namespace Grammar

variable {before behind text text' : String} {rules : Except ReadFailure (List Rule)}

/-- The names that are declared around a place in a text. -/
def namesAround (before behind : String) : List String :=
  Reading.declaredNames (statements (around before "" behind))

/-- What is read depends on the rules alone that a text contributes, and they come in between. -/
theorem exists_outcome (h : IsClosed before) (behind : String) :
    ∃ outcome : Except ReadFailure (List Rule) → Except ReadFailure Grammar,
      (∀ text rules, Contributes (namesAround before behind) text rules →
        read (around before text behind) = outcome rules) ∧
      ∀ g, outcome (.ok []) = .ok g → ∃ rs us, g.rules = rs ++ us ∧
        ∀ rules, outcome (.ok rules) = .ok { g with rules := rs ++ (rules ++ us) } := by
  obtain ⟨line, fault?, ss, us, hsurroundings⟩ := h.exists_surroundings behind
  have hnames : namesAround before behind = Reading.declaredNames (ss ++ us) := by
    rw [namesAround, (hsurroundings "" [] (LexesAs.empty line)).2, List.nil_append]
  cases fault? with
  | some p =>
    refine ⟨fun _ => .error (.text p.1 p.2), fun text rules hrules => ?_, nofun⟩
    obtain ⟨between, hlexes, -⟩ := hrules line
    exact read_of_fault? (hsurroundings text between hlexes).1
  | none =>
    refine ⟨Reading.withRules (namesAround before behind) ss us, fun text rules hrules => ?_,
      fun g hg => Reading.exists_rules_of_withRules hg⟩
    obtain ⟨between, hlexes, hdeclared, hcontributed⟩ := hrules line
    obtain ⟨hfault, hstatements⟩ := hsurroundings text between hlexes
    rw [read_of_fault?_eq_none hfault, hstatements]
    rw [hnames] at hcontributed ⊢
    exact Reading.result_ofStatements_insert hdeclared hcontributed

/-- Texts that contribute the same can stand for one another. -/
theorem read_around_eq (h : IsClosed before)
    (htext : Contributes (namesAround before behind) text rules)
    (htext' : Contributes (namesAround before behind) text' rules) :
    read (around before text behind) = read (around before text' behind) := by
  obtain ⟨outcome, hread, -⟩ := exists_outcome h behind
  rw [hread text rules htext, hread text' rules htext']

theorem exists_read_around {rs : List Rule} (h : IsClosed before)
    (htext : Contributes (namesAround before behind) text (.ok rs)) {g : Grammar}
    (hg : read (around before "" behind) = .ok g) :
    ∃ front back, g.rules = front ++ back ∧ read (around before text behind) =
      .ok { g with rules := front ++ (rs ++ back) } := by
  obtain ⟨outcome, hread, hrules⟩ := exists_outcome h behind
  rw [hread "" _ (contributes_empty _)] at hg
  obtain ⟨front, back, hfront, hok⟩ := hrules g hg
  exact ⟨front, back, hfront, (hread text _ htext).trans (hok rs)⟩

end Grammar
end GrammarBindings
