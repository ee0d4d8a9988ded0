import GrammarBindings.Grammar.Reading
import GrammarBindings.Proofs.Outcomes
import GrammarBindings.Proofs.Pieces

/-!
# Reading statement by statement

A text is read when it has no fault of its own and each of its statements is interpreted under the
names declared in all of them; the grammar is what the statements contribute, in order. A statement
in front of a semicolon is cut off as it stands.
-/

namespace GrammarBindings

variable {declared : List String}

theorem interpretAll_eq_iff {ss : List Statement} {cs : List Contribution} :
    interpretAll declared ss = (cs, none) ↔
      List.Forall₂ (fun s c => s.interpret declared = .ok c) ss cs := by
  induction ss generalizing cs with
  | nil =>
    rw [interpretAll, List.forall₂_nil_left_iff, Prod.mk.injEq]
    simp [eq_comm]
  | cons s ss ih =>
    rw [interpretAll, List.forall₂_cons_left_iff]
    cases hs : s.interpret declared with
    | error e => simp
    | ok c =>
      simp only [Except.ok.injEq, Prod.mk.injEq]
      constructor
      · rintro ⟨rfl, hn⟩
        exact ⟨c, _, rfl, ih.1 (Prod.ext rfl hn), rfl⟩
      · rintro ⟨c', cs', rfl, hcs, rfl⟩
        rw [ih.2 hcs]
        exact ⟨rfl, rfl⟩

/-- Interpreting stops at the first statement that cannot be interpreted. -/
theorem interpretAll_eq_failure_iff {ss : List Statement} {cs : List Contribution}
    {e : ReadFailure} :
    interpretAll declared ss = (cs, some e) ↔
      ∃ before s after, ss = before ++ s :: after ∧
        List.Forall₂ (fun s c => s.interpret declared = .ok c) before cs ∧
        s.interpret declared = .error e := by
  constructor
  · intro h
    induction ss generalizing cs with
    | nil => cases h
    | cons s ss ih =>
      rw [interpretAll] at h
      cases hs : s.interpret declared with
      | error e' =>
        rw [hs] at h
        cases h
        exact ⟨[], s, ss, rfl, .nil, hs⟩
      | ok c =>
        rw [hs] at h
        obtain ⟨hcs, hfailure⟩ := Prod.mk.inj h
        obtain ⟨before, s', after, rfl, hbefore, hs'⟩ := ih (Prod.ext rfl hfailure)
        rw [← hcs]
        exact ⟨s :: before, s', after, rfl, .cons hs hbefore, hs'⟩
  · rintro ⟨before, s, after, rfl, hbefore, hs⟩
    induction hbefore with
    | nil => rw [List.nil_append, interpretAll, hs]
    | cons hc _ ih => rw [List.cons_append, interpretAll, hc, ih]

namespace Reading

/-- The names that the statements declare, wherever they stand. -/
def declaredNames (ss : List Statement) : List String := ss.filterMap Statement.declaredToken?

theorem declaredNames_append (ss us : List Statement) :
    declaredNames (ss ++ us) = declaredNames ss ++ declaredNames us :=
  List.filterMap_append

theorem ofStatements_eq_ok_iff {ss : List Statement} {g : Grammar} :
    (ofStatements ss).result = .ok g ↔
      ∃ cs, List.Forall₂ (fun s c => s.interpret (declaredNames ss) = .ok c) ss cs ∧
        Grammar.ofContributions (declaredNames ss) cs = g := by
  rw [ofStatements]
  dsimp only
  rw [← declaredNames]
  cases h : interpretAll (declaredNames ss) ss with
  | mk cs failure =>
    cases failure with
    | some e =>
      simp only [reduceCtorEq, false_iff, not_exists, not_and]
      intro cs' hcs'
      rw [interpretAll_eq_iff.2 hcs'] at h
      cases h
    | none =>
      simp only [Except.ok.injEq]
      constructor
      · rintro rfl
        exact ⟨cs, interpretAll_eq_iff.1 h, rfl⟩
      · rintro ⟨cs', hcs', rfl⟩
        rw [interpretAll_eq_iff.2 hcs'] at h
        cases h
        rfl

theorem ofStatements_eq_error_iff {ss : List Statement} {e : ReadFailure} :
    (ofStatements ss).result = .error e ↔
      ∃ before s after, ss = before ++ s :: after ∧
        (∀ s' ∈ before, ∃ c, s'.interpret (declaredNames ss) = .ok c) ∧
        s.interpret (declaredNames ss) = .error e := by
  have hfails : (ofStatements ss).result = .error e ↔
      ∃ cs, interpretAll (declaredNames ss) ss = (cs, some e) := by
    rw [ofStatements]
    dsimp only
    rw [← declaredNames]
    cases h : interpretAll (declaredNames ss) ss with
    | mk cs failure =>
      cases failure with
      | some e' => simp
      | none => simp
  rw [hfails]
  constructor
  · rintro ⟨cs, hcs⟩
    obtain ⟨before, s, after, hss, hbefore, hs⟩ := interpretAll_eq_failure_iff.1 hcs
    exact ⟨before, s, after, hss, fun s' hs' => exists_of_mem_forall₂ hbefore hs', hs⟩
  · rintro ⟨before, s, after, hss, hbefore, hs⟩
    obtain ⟨cs, hcs⟩ := exists_forall₂_of_mem hbefore
    exact ⟨cs, interpretAll_eq_failure_iff.2 ⟨before, s, after, hss, hcs, hs⟩⟩

end Reading

namespace Grammar

/-- The statements of a text, up to its end or its first fault. -/
def statements (text : String) : List Statement := Statement.split (tokenize text).tokens

theorem read_of_fault?_eq_none {text : String} (h : (tokenize text).fault? = none) :
    read text = (Reading.ofStatements (statements text)).result := by
  rw [read, Reading.ofText, h]
  rfl

theorem read_of_fault? {text : String} {fault : TextFault} {line : Nat}
    (h : (tokenize text).fault? = some (fault, line)) : read text = .error (.text fault line) := by
  rw [read, Reading.ofText, h]

theorem fault?_eq_none_of_read {text : String} {g : Grammar} (h : read text = .ok g) :
    (tokenize text).fault? = none := by
  cases hfault : (tokenize text).fault? with
  | none => rfl
  | some p =>
    rw [read_of_fault? hfault] at h
    cases h

/-- A grammar that was read consists of the contributions of its statements. -/
theorem exists_contributions_of_read {text : String} {g : Grammar} (h : read text = .ok g) :
    ∃ cs, List.Forall₂ (fun s c => s.interpret g.tokens = .ok c) (statements text) cs ∧
      g.tokens = Reading.declaredNames (statements text) ∧
      g.rules = cs.flatMap Contribution.rules? ∧
      g.entrypoints = cs.flatMap Contribution.entrypoints? := by
  rw [read_of_fault?_eq_none (fault?_eq_none_of_read h)] at h
  obtain ⟨cs, hcs, rfl⟩ := Reading.ofStatements_eq_ok_iff.1 h
  exact ⟨cs, hcs, rfl, rfl, rfl⟩

end Grammar

namespace Statement

theorem tokens_of_ofTokens? {ts : List Token} {s : Statement} (h : ofTokens? ts = some s) :
    s.tokens = ts := by
  cases ts with
  | nil => cases h
  | cons t ts =>
    cases h
    rfl

/-- The tokens of a statement are among those that were cut into statements. -/
theorem mem_of_mem_split {ts : List Token} {s : Statement} (hs : s ∈ split ts) {t : Token}
    (ht : t ∈ s.tokens) : t ∈ ts := by
  obtain ⟨piece, hpiece, hofTokens⟩ := List.mem_filterMap.1 hs
  rw [tokens_of_ofTokens? hofTokens] at ht
  exact mem_of_mem_splitOnP hpiece ht

theorem split_append {stop : Token} (hstop : stop.isSymbol ";" = true) (ts us : List Token) :
    split (ts ++ stop :: us) = split ts ++ split us := by
  have hpieces := List.splitOnP_append_cons (p := fun t : Token => t.isSymbol ";") ts us hstop
  rw [split, hpieces, List.filterMap_append, split, split]

theorem split_append_stop {s : Statement} {stop : Token}
    (hs : ∀ t ∈ s.tokens, t.isSymbol ";" = false) (hstop : stop.isSymbol ";" = true)
    (ts : List Token) : split (s.tokens ++ stop :: ts) = s :: split ts := by
  rw [split]
  rw [List.splitOnP_append_cons_of_forall_mem hs stop hstop]
  rfl

end Statement
end GrammarBindings
