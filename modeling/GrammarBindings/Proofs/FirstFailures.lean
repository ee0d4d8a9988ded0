import GrammarBindings.Proofs.BlamedLines
import GrammarBindings.Proofs.BracketedNames
import GrammarBindings.Proofs.UnreadableNumerals

/-!
# The first statement that fails

Only the set of the declared names counts when a statement is interpreted, not their order or how
often they are declared. So what a text is blamed for is settled by its statements up to the first
that cannot be interpreted and by this set, whatever follows behind. A text that cannot be taken
apart into tokens is blamed for that alone.
-/

namespace GrammarBindings

open Text

section SameNames

variable {declared known : List String} {lastLine : Nat} {label : Label}

namespace Category

theorem ofName_congr (h : ∀ name, name ∈ declared ↔ name ∈ known) (cs : List Char) :
    ofName declared cs = ofName known cs := by
  simp only [ofName, h]

theorem read_congr (h : ∀ name, name ∈ declared ↔ name ∈ known) (s : String) :
    read declared s = read known s := by
  obtain ⟨n, name, hname⟩ := exists_bracketed s.toList
  rw [read, read, hname.ofChars_eq, hname.ofChars_eq, ofName_congr h]

end Category

theorem readCategory_congr (h : ∀ name, name ∈ declared ↔ name ∈ known) (ts : List Token) :
    readCategory declared lastLine ts = readCategory known lastLine ts := by
  induction ts with
  | nil => rfl
  | cons t ts ih => rw [readCategory, readCategory, ih, Category.read_congr h]

theorem readItems_congr (h : ∀ name, name ∈ declared ↔ name ∈ known) (ts : List Token) :
    readItems declared lastLine label ts = readItems known lastLine label ts := by
  fun_induction readItems declared lastLine label ts with
  | case1 => rw [readItems]
  | case2 t ts hkind ih => rw [ih, readItems, if_pos hkind]
  | case3 t ts _ hbegins e hread =>
    rw [readItems_cons hbegins, ← readCategory_congr h, hread]
    rfl
  | case4 t ts _ hbegins c rest hread ih =>
    rw [ih, readItems_cons hbegins, ← readCategory_congr h, hread, ok_bind]
  | case5 t ts hkind hbegins => rw [readItems, if_neg hkind, if_neg hbegins]

theorem readEntrypoints_congr (h : ∀ name, name ∈ declared ↔ name ∈ known) (ts : List Token) :
    readEntrypoints declared lastLine ts = readEntrypoints known lastLine ts := by
  fun_induction readEntrypoints declared lastLine ts with
  | case1 ts hempty => rw [readEntrypoints, if_pos hempty]
  | case2 ts hmore e hread =>
    have hne : ts ≠ [] := by simpa using hmore
    rw [readEntrypoints_of_ne_nil hne, ← readCategory_congr h, hread]
    rfl
  | case3 ts hmore c rest hread ih =>
    have hne : ts ≠ [] := by simpa using hmore
    rw [ih, readEntrypoints_of_ne_nil hne, ← readCategory_congr h, hread, ok_bind]

theorem readRule_congr (h : ∀ name, name ∈ declared ↔ name ∈ known) (internal : Bool)
    (ts : List Token) :
    readRule declared lastLine internal ts = readRule known lastLine internal ts := by
  simp only [readRule, readCategory_congr h, readItems_congr h]

theorem readListRules_congr (h : ∀ name, name ∈ declared ↔ name ∈ known) (terminated : Bool)
    (ts : List Token) :
    readListRules declared lastLine terminated ts = readListRules known lastLine terminated ts := by
  simp only [readListRules, readCategory_congr h]

/-- Interpreting a statement depends on which names are declared, and on nothing else about them. -/
theorem Statement.interpret_congr (h : ∀ name, name ∈ declared ↔ name ∈ known) (s : Statement) :
    s.interpret declared = s.interpret known := by
  simp only [interpret, readRule_congr h, readListRules_congr h, readEntrypoints_congr h]

end SameNames

namespace Reading

variable {before after others : List Statement} {s : Statement} {e : ReadFailure}

/-- Any other sequence that is the same up to the first statement that fails, and that declares the
same names, fails with the same. -/
theorem ofStatements_eq_error_of_prefix
    (hbefore : ∀ s' ∈ before, ∃ c, s'.interpret (declaredNames (before ++ s :: after)) = .ok c)
    (hs : s.interpret (declaredNames (before ++ s :: after)) = .error e)
    (hnames : ∀ name, name ∈ declaredNames (before ++ s :: others) ↔
      name ∈ declaredNames (before ++ s :: after)) :
    (ofStatements (before ++ s :: others)).result = .error e := by
  refine ofStatements_eq_error_iff.2 ⟨before, s, others, rfl, fun s' hs' => ?_, ?_⟩
  · rw [Statement.interpret_congr hnames]
    exact hbefore s' hs'
  · rw [Statement.interpret_congr hnames]
    exact hs

end Reading

namespace Grammar

/-- A text that is taken apart into tokens, but not read, is blamed on a line of its first statement
that cannot be interpreted, unless a numeral breaks reading off. Every other text with the same
statements up to there and the same declared names fails with the same. In a text that is not taken
apart, no statement counts. -/
theorem read_eq_error_of_first (text : String) :
    ((tokenize text).fault? = none → ∀ e, read text = .error e → (∀ f, e ≠ .numeral f) →
      ∃ fault line before s after,
        e = .text fault line ∧
        e.message = "line " ++ toString line ++ ": " ++ fault.message ∧
        statements text = before ++ s :: after ∧
        (∃ t ∈ s.tokens, t.line = line) ∧
        (∀ s' ∈ before,
          ∃ c, s'.interpret (Reading.declaredNames (statements text)) = .ok c) ∧
        s.interpret (Reading.declaredNames (statements text)) = .error e ∧
        ∀ other others, (tokenize other).fault? = none →
          statements other = before ++ s :: others →
          (∀ name, name ∈ Reading.declaredNames (statements other) ↔
            name ∈ Reading.declaredNames (statements text)) →
          read other = .error e) ∧
      ∀ fault line, (tokenize text).fault? = some (fault, line) →
        read text = .error (.text fault line) := by
  refine ⟨fun hfault e h hnumeral => ?_, fun fault line => read_of_fault?⟩
  obtain ⟨fault, line, rfl⟩ : e.IsBlamed :=
    (blamed_or_meetsNumeral h).resolve_right fun ⟨f, he, _⟩ => hnumeral f he
  rw [read_of_fault?_eq_none hfault] at h
  obtain ⟨before, s, after, hss, hbefore, hs⟩ := Reading.ofStatements_eq_error_iff.1 h
  refine ⟨fault, line, before, s, after, rfl, rfl, hss, Statement.blamesLine_of_interpret hs rfl,
    hbefore, hs, fun other others hother hsame hnames => ?_⟩
  rw [hss] at hbefore hs hnames
  rw [hsame] at hnames
  rw [read_of_fault?_eq_none hother, hsame]
  exact Reading.ofStatements_eq_error_of_prefix hbefore hs hnames

/-- A rule without the symbol between its sides is blamed on the line of what stands there, whatever
follows behind it. A comment that is not closed is blamed although the rule in front of it is
malformed. -/
theorem read_eq_error_of_first_malformed :
    let text := "token A ; R . T ::= A ;\nS\n. T \"x\" ; rules U ::= ;"
    let e : ReadFailure := .text (.expected "::=" "x") 3
    (tokenize text).fault? = none ∧ read text = .error e ∧
      (∃ before s after, statements text = before ++ s :: after ∧ (∃ t ∈ s.tokens, t.line = 3) ∧
        ∀ other others, (tokenize other).fault? = none →
          statements other = before ++ s :: others →
          (∀ name, name ∈ Reading.declaredNames (statements other) ↔ name = "A") →
          read other = .error e) ∧
      (tokenize "R T ;\n\x7b- U").fault? = some (.unterminatedComment, 2) ∧
      read "R T ;\n\x7b- U" = .error (.text .unterminatedComment 2) := by
  intro text e
  have hfault : (tokenize text).fault? = none := by decide +kernel
  have hread : read text = .error e := by decide +kernel
  have hnames : Reading.declaredNames (statements text) = ["A"] := by decide +kernel
  have hcomment : (tokenize "R T ;\n\x7b- U").fault? = some (.unterminatedComment, 2) := by
    decide +kernel
  obtain ⟨fault, line, before, s, after, he, -, hss, hline, -, -, hother⟩ :=
    (read_eq_error_of_first text).1 hfault e hread nofun
  obtain ⟨-, rfl⟩ := ReadFailure.text.inj he
  refine ⟨hfault, hread, ⟨before, s, after, hss, hline, fun other others ho hso hno => ?_⟩,
    hcomment, (read_eq_error_of_first _).2 _ _ hcomment⟩
  refine hother other others ho hso fun name => ?_
  rw [hno name, hnames, List.mem_singleton]

end Grammar
end GrammarBindings
