import GrammarBindings.Options.SingleDash
import GrammarBindings.Proofs.WrittenOptions

/-!
# Lines of the single-dash style

Each setting has flags of its own, none of which begins like a package or a grammar does. So the set
of flags of a line says which settings have been told, in whatever order, and reading the line gives
the options back.
-/

namespace GrammarBindings

def isBlankFree (w : String) : Bool := w.toList.all fun c => !Text.isBlank c

theorem withoutBlanks_eq {w : String} (h : isBlankFree w = true) : Text.withoutBlanks w = w := by
  rw [Text.withoutBlanks, List.filter_eq_self.2 (List.all_eq_true.1 h), String.ofList_toList]

theorem isBlankFree_withoutBlanks (w : String) : isBlankFree (Text.withoutBlanks w) = true := by
  rw [isBlankFree, Text.withoutBlanks, String.toList_ofList]
  exact List.all_eq_true.2 fun c hc => (List.mem_filter.1 hc).2

namespace SingleDash

/-- What flags can tell: the language, the mark of a multilingual run, or an option. -/
inductive Setting where
  | language (t : Target)
  | multilingual
  | option (t : TargetOption)
  deriving DecidableEq

namespace Setting

def all : List Setting :=
  Target.all.map language ++ multilingual :: TargetOption.all.map option

theorem mem_all (s : Setting) : s ∈ all := by
  cases s with
  | language t => exact List.mem_append_left _ (List.mem_map_of_mem (Target.mem_all t))
  | multilingual => exact List.mem_append_right _ List.mem_cons_self
  | option t =>
    exact List.mem_append_right _
      (List.mem_cons_of_mem _ (List.mem_map_of_mem (TargetOption.mem_all t)))

/-- Options have the letter or the long word of the newer style behind one dash. -/
def flags : Setting → List String
  | language .c => ["-c"]
  | language .cpp => ["-cpp_no_stl"]
  | language .cppStl => ["-cpp_stl", "-cpp"]
  | language .cSharp => ["-csharp"]
  | language .haskell => ["-haskell"]
  | language .haskellGadt => ["-gadt"]
  | language .java => ["-java", "-java1.5"]
  | language .ocaml => ["-ocaml"]
  | language .profile => ["-prof"]
  | multilingual => ["-multi", "--multilingual"]
  | option .makefile => ["-m"]
  | option .inDirectory => ["-d"]
  | option .package => ["-p"]
  | option (.lexer .alex1) => ["-alex1"]
  | option (.lexer .alex2) => ["-alex2"]
  | option (.lexer .alex3) => ["-alex3"]
  | option .shareStrings => ["-sharestrings"]
  | option .byteStrings => ["-bytestrings"]
  | option .glr => ["-glr"]
  | option .xml => ["-xml"]
  | option .xmlExtended => ["-xmlt"]
  | option .cnf => ["-cnf"]
  | option .lineNumbers => ["-l"]
  | option .visualStudio => ["-vs"]
  | option .wcf => ["-wcf"]

theorem eq_of_mem_flags {s s' : Setting} {w : String} (h : w ∈ s.flags) (h' : w ∈ s'.flags) :
    s = s' := by
  have hall : ∀ s ∈ all, ∀ s' ∈ all, ∀ w ∈ s.flags, w ∈ s'.flags → s = s' := by decide +kernel
  exact hall s (mem_all s) s' (mem_all s') w h h'

theorem head?_of_mem_flags {s : Setting} {w : String} (h : w ∈ s.flags) :
    w.toList.head? = some '-' := by
  have hall : ∀ s ∈ all, ∀ w ∈ s.flags, w.toList.head? = some '-' := by decide +kernel
  exact hall s (mem_all s) w h

theorem isBlankFree_of_mem_flags {s : Setting} {w : String} (h : w ∈ s.flags) :
    isBlankFree w = true := by
  have hall : ∀ s ∈ all, ∀ w ∈ s.flags, isBlankFree w = true := by decide +kernel
  exact hall s (mem_all s) w h

def asked (o : Options) : Setting → Bool
  | language t => o.target = t
  | multilingual => o.multilingual
  | option t => o.asksFor t

/-- What is chosen where no flag says otherwise. -/
def understood : Setting → Bool
  | language t => t = .haskell
  | multilingual => false
  | option t => t.isDefault

def values (o : Options) : Setting → List String
  | option t => o.values t
  | language _ | multilingual => []

end Setting

open Setting

/-- Flags that tell the options, in any order and each as often as one likes. -/
def Tell (o : Options) (ws : List String) : Prop :=
  ∃ ss, Tells (asked o) understood ss ∧ Said flags (values o) ss ws

/-- There are no options that cannot be told. -/
theorem exists_tell (o : Options) : ∃ ws, Tell o ws := by
  have hflags : ∀ s : Setting, s.flags ≠ [] := by
    have hall : ∀ s ∈ all, s.flags ≠ [] := by decide
    exact fun s => hall s (mem_all s)
  obtain ⟨ws, hws⟩ := Said.exists_words hflags (all.filter (asked o))
  exact ⟨ws, _, .of_perm mem_all (.refl _) _, hws⟩

section

variable {o : Options} {ss : List Setting} {ws : List String} {path : String}

theorem exists_package_of_mem_values {s : Setting} {w : String} (h : w ∈ values o s) :
    ∃ p, o.package = some p ∧ p.text = w := by
  cases s with
  | language t => cases h
  | multilingual => cases h
  | option t =>
    cases t with
    | package => exact Option.map_eq_some_iff.1 (Option.mem_toList.1 h)
    | _ => cases h

theorem head?_of_mem_values {s : Setting} {w : String} (h : w ∈ values o s) :
    w.toList.head? ≠ some '-' := by
  obtain ⟨p, -, rfl⟩ := exists_package_of_mem_values h
  exact p.head?_text

/-- The flags of a setting occur in a line exactly if the setting is told by it. -/
theorem exists_flag_iff (h : Said flags (values o) ss ws) (hpath : path.toList.head? ≠ some '-')
    (s : Setting) : (∃ w ∈ s.flags, w ∈ ws ++ [path]) ↔ s ∈ ss := by
  constructor
  · rintro ⟨w, hw, hmem⟩
    rcases List.mem_append.1 hmem with hmem | hmem
    · obtain ⟨s', hs', hw' | hw'⟩ := h.exists_of_mem hmem
      · rwa [eq_of_mem_flags hw hw']
      · exact absurd (head?_of_mem_flags hw) (head?_of_mem_values hw')
    · obtain rfl := List.mem_singleton.1 hmem
      exact absurd (head?_of_mem_flags hw) hpath
  · intro hs
    obtain ⟨w, hw, hmem⟩ := h.exists_mem hs
    exact ⟨w, hw, List.mem_append_left _ hmem⟩

theorem isBlankFree_of_mem_line (h : Said flags (values o) ss ws)
    (hblank : ∀ p, o.package = some p → isBlankFree p.text = true) {w : String} (hw : w ∈ ws) :
    isBlankFree w = true := by
  obtain ⟨s, -, hw | hw⟩ := h.exists_of_mem hw
  · exact isBlankFree_of_mem_flags hw
  · obtain ⟨p, hp, rfl⟩ := exists_package_of_mem_values hw
    exact hblank p hp

theorem selectedTargets_eq {args : List String} {target : Target}
    (h : ∀ t, t ≠ .haskell → ((∃ w ∈ (language t).flags, w ∈ args) ↔ target = t)) :
    selectedTargets args = [target] := by
  have hc := h .c (by decide)
  have hcpp := h .cpp (by decide)
  have hcppStl := h .cppStl (by decide)
  have hcSharp := h .cSharp (by decide)
  have hgadt := h .haskellGadt (by decide)
  have hjava := h .java (by decide)
  have hocaml := h .ocaml (by decide)
  have hprofile := h .profile (by decide)
  simp only [flags, List.mem_cons, List.not_mem_nil, or_false, exists_eq_left, exists_eq_or_imp]
    at hc hcpp hcppStl hcSharp hgadt hjava hocaml hprofile
  -- the two flags of this language are looked for in the other order
  rw [or_comm] at hjava
  simp only [selectedTargets, hc, hcpp, hcSharp, hgadt, hocaml, hprofile, ← Bool.decide_or,
    hcppStl, hjava]
  cases target with
  | _ => rfl

theorem mem_flags_of_lexerOfFlag? {w : String} {tool : LexerTool}
    (h : lexerOfFlag? w = some tool) : w ∈ (option (.lexer tool)).flags := by
  unfold lexerOfFlag? at h
  split at h
  all_goals cases h
  all_goals exact List.mem_singleton_self _

theorem lexerOfFlag?_of_mem_flags {w : String} {tool : LexerTool}
    (h : w ∈ (option (.lexer tool)).flags) : lexerOfFlag? w = some tool := by
  cases tool
  all_goals
    obtain rfl := List.mem_singleton.1 h
    rfl

theorem packageText?_cons_of_ne {w : String} (h : w ≠ "-p") (args : List String) :
    packageText? (w :: args) = packageText? args := by
  rw [packageText?]
  exact h

theorem packageText?_singleton (h : path ≠ "-p") : packageText? [path] = none := by
  rw [packageText?_cons_of_ne h]
  rfl

theorem ne_flag_of_head? (h : path.toList.head? ≠ some '-') : path ≠ "-p" := by
  rintro rfl
  exact h rfl

theorem values_of_ne {s : Setting} (h : s ≠ option .package) : values o s = [] := by
  cases s with
  | language t => rfl
  | multilingual => rfl
  | option t =>
    cases t with
    | package => exact absurd rfl h
    | _ => rfl

/-- The first package flag of the line has the package behind it. -/
theorem packageText?_eq (h : Said flags (values o) ss ws) (hpath : path.toList.head? ≠ some '-')
    (hasked : ∀ s ∈ ss, asked o s = true) : packageText? (ws ++ [path]) =
      if option .package ∈ ss then o.package.map Package.text else none := by
  induction h with
  | nil =>
    rw [List.nil_append, packageText?_singleton (ne_flag_of_head? hpath)]
    rfl
  | @cons s ss w ws hspelling _ ih =>
    have ih := ih fun s' hs' => hasked s' (List.mem_cons_of_mem s hs')
    by_cases hs : s = option .package
    · subst hs
      obtain rfl := List.mem_singleton.1 hspelling
      obtain ⟨p, hp⟩ := Option.isSome_iff_exists.1 (hasked _ List.mem_cons_self)
      rw [if_pos List.mem_cons_self, hp]
      simp [values, Options.values, hp, packageText?]
    · -- a flag of another setting is passed over, and no value stands behind it
      have hw : w ≠ "-p" := by
        rintro rfl
        exact hs (eq_of_mem_flags hspelling (List.mem_singleton_self _))
      rw [values_of_ne hs, List.nil_append, List.cons_append, packageText?_cons_of_ne hw, ih]
      simp [Ne.symm hs]

theorem mapM_checkPackage (p? : Option Package) :
    (p?.map Package.text).mapM checkPackage = .ok p? := by
  cases p? with
  | none => rfl
  | some p => simp [checkPackage, Functor.map, Except.map]

theorem grammarPath?_eq_some_iff {args : List String} :
    grammarPath? args = some path ↔
      args.getLast? = some path ∧ path ≠ "" ∧ path.toList.head? ≠ some '-' := by
  rw [grammarPath?, Option.filter_eq_some_iff]
  simp

theorem grammarPath?_eq (hpath : path.toList.head? ≠ some '-')
    (hfile : Path.isGrammarFile path = true) : grammarPath? (ws ++ [path]) = some path := by
  have hne : path ≠ "" := by
    rintro rfl
    exact absurd hfile (by decide)
  exact grammarPath?_eq_some_iff.2 ⟨List.getLast?_concat, hne, hpath⟩

section Told

variable (h : Said flags (values o) ss ws) (hpath : path.toList.head? ≠ some '-')
  (htells : Tells (asked o) understood ss)

include h hpath htells

/-- An option that is not the default lexer is asked for exactly if its flag occurs. -/
theorem has_eq {t : TargetOption} {w : String} (ht : t.isDefault = false)
    (hw : (option t).flags = [w]) : decide (w ∈ ws ++ [path]) = o.asksFor t := by
  have hmem : w ∈ ws ++ [path] ↔ option t ∈ ss := by
    rw [← exists_flag_iff h hpath, hw]
    simp
  rw [Bool.eq_iff_iff, decide_eq_true_iff, hmem]
  exact htells.mem_iff ht

/-- All lexer flags of the line are flags of one lexer, so the last of them is too. -/
theorem lexer_eq : lexer (ws ++ [path]) = o.lexer := by
  have hof : ∀ tool ∈ (ws ++ [path]).filterMap lexerOfFlag?, tool = o.lexer := by
    intro tool htool
    obtain ⟨w, hw, hflag⟩ := List.mem_filterMap.1 htool
    have hs : option (.lexer tool) ∈ ss :=
      (exists_flag_iff h hpath _).1 ⟨w, mem_flags_of_lexerOfFlag? hflag, hw⟩
    exact (of_decide_eq_true (htells.asked _ hs)).symm
  rw [lexer]
  cases hlast : ((ws ++ [path]).filterMap lexerOfFlag?).getLast? with
  | some tool => exact hof tool (List.mem_of_getLast? hlast)
  | none =>
    rcases htells.said (option (.lexer o.lexer)) (decide_eq_true rfl) with hs | hs
    · obtain ⟨w, hw, hmem⟩ := (exists_flag_iff h hpath _).2 hs
      have htool := List.mem_filterMap.2 ⟨w, hmem, lexerOfFlag?_of_mem_flags hw⟩
      rw [List.getLast?_eq_none_iff.1 hlast] at htool
      cases htool
    · exact (TargetOption.lexer.inj (of_decide_eq_true hs)).symm

theorem xml_eq : xml (ws ++ [path]) = o.xml := by
  have hbasic : "-xml" ∈ ws ++ [path] ↔ o.xml = .basic :=
    decide_eq_decide.1 (has_eq h hpath htells (t := .xml) rfl rfl)
  have hextended : "-xmlt" ∈ ws ++ [path] ↔ o.xml = .extended :=
    decide_eq_decide.1 (has_eq h hpath htells (t := .xmlExtended) rfl rfl)
  simp only [xml, hbasic, hextended]
  cases o.xml with
  | _ => rfl

theorem parser_eq :
    (if decide ("-glr" ∈ ws ++ [path]) then ParserStyle.glr else .standard) = o.parser := by
  rw [has_eq h hpath htells (t := .glr) rfl rfl, Options.asksFor]
  cases o.parser with
  | _ => rfl

theorem multilingual_eq :
    (decide ("--multilingual" ∈ ws ++ [path]) || decide ("-multi" ∈ ws ++ [path])) =
      o.multilingual := by
  have hiff := (exists_flag_iff h hpath multilingual).trans (htells.mem_iff rfl)
  simp only [flags, List.mem_cons, List.not_mem_nil, or_false, exists_eq_or_imp, exists_eq_left,
    asked] at hiff
  rw [← Bool.decide_or, Bool.eq_iff_iff, decide_eq_true_iff, or_comm]
  exact hiff

theorem selectedTargets_line : selectedTargets (ws ++ [path]) = [o.target] := by
  refine selectedTargets_eq fun t ht => ?_
  have hasked : language t ∈ ss ↔ asked o (language t) = true := htells.mem_iff (decide_eq_false ht)
  rw [exists_flag_iff h hpath, hasked]
  exact decide_eq_true_iff

theorem packageText?_line : packageText? (ws ++ [path]) = o.package.map Package.text := by
  rw [packageText?_eq h hpath htells.asked]
  split
  · rfl
  · next hs =>
    have hasked : ¬ o.asksFor .package = true := mt (htells.mem_iff (s := option .package) rfl).2 hs
    rw [Options.package_eq_none hasked]
    rfl

end Told

/-- A line whose flags tell the options is read as these options. -/
theorem read_of_tell (h : Tell o ws) (hname : o.grammarName = Path.grammarName path)
    (hfile : Path.isGrammarFile path = true) (hpath : path.toList.head? ≠ some '-')
    (hpathBlank : isBlankFree path = true)
    (hblank : ∀ p, o.package = some p → isBlankFree p.text = true) :
    read (ws ++ [path]) = .ok (o, path) := by
  obtain ⟨ss, htells, hsaid⟩ := h
  have hwords : (ws ++ [path]).map Text.withoutBlanks = ws ++ [path] := by
    refine (List.map_congr_left fun w hw => withoutBlanks_eq ?_).trans (List.map_id _)
    rcases List.mem_append.1 hw with hw | hw
    · exact isBlankFree_of_mem_line hsaid hblank hw
    · rwa [List.mem_singleton.1 hw]
  have has {t : TargetOption} {w : String} (ht : t.isDefault = false)
      (hw : (option t).flags = [w]) := has_eq hsaid hpath htells ht hw
  rw [read, hwords, readWords, grammarPath?_eq hpath hfile,
    selectedTargets_line hsaid hpath htells]
  simp only [hfile, packageText?_line hsaid hpath htells, mapM_checkPackage,
    lexer_eq hsaid hpath htells, xml_eq hsaid hpath htells, parser_eq hsaid hpath htells,
    multilingual_eq hsaid hpath htells, has (t := .makefile) rfl rfl,
    has (t := .inDirectory) rfl rfl, has (t := .shareStrings) rfl rfl,
    has (t := .byteStrings) rfl rfl, has (t := .cnf) rfl rfl,
    has (t := .lineNumbers) rfl rfl, has (t := .visualStudio) rfl rfl,
    has (t := .wcf) rfl rfl, ← hname]
  rfl

end

end SingleDash
end GrammarBindings
