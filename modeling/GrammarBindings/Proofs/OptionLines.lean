import GrammarBindings.Proofs.Outcomes
import GrammarBindings.Proofs.SingleDashLines

/-!
# Option lines

Every spelling of an option is recognized as it stands, and what does not begin with a dash is an
operand. So a line that tells the options is taken word by word: each option is given, none of them
excludes another, the package is taken with its option, and the last word is left as the grammar.
Both styles of command line therefore read the same options from what tells them.
-/

namespace GrammarBindings

namespace TargetOption

/-- A word is a spelling of one option. -/
theorem ofSpelling?_of_mem {t : TargetOption} {w : String} (h : w ∈ t.spellings) :
    ofSpelling? w = some t := by
  have hall : ∀ t ∈ all, ∀ w ∈ t.spellings, ofSpelling? w = some t := by decide +kernel
  exact hall t (mem_all t) w h

theorem head?_of_mem_spellings {t : TargetOption} {w : String} (h : w ∈ t.spellings) :
    w.toList.head? = some '-' := by
  have hall : ∀ t ∈ all, ∀ w ∈ t.spellings, w.toList.head? = some '-' := by decide +kernel
  exact hall t (mem_all t) w h

/-- The word of an option as it is classified. -/
def spelled (t : TargetOption) (w : String) : OptionWord :=
  if w.length = 2 then .short t none else .long t none

end TargetOption

open TargetOption

theorem ne_dashes {w : String} (h : w.toList.head? ≠ some '-') : w ≠ "--" := by
  rintro rfl
  exact h rfl

theorem classifyWord_operand {w : String} (h : w.toList.head? ≠ some '-') :
    classifyWord w = .ok .operand := by
  rw [classifyWord, if_pos h]
  rfl

theorem classifyWord_spelling {t : TargetOption} {w : String} (h : w ∈ t.spellings) :
    classifyWord w = .ok (t.spelled w) := by
  have hdash := head?_of_mem_spellings h
  rw [classifyWord]
  simp only [hdash, OptionWord.ofSpelling?, ofSpelling?_of_mem h]
  rfl

theorem classifyWords_cons {w : String} {word : OptionWord} {ws : List String}
    {words : List (String × OptionWord)} (hw : w ≠ "--") (hword : classifyWord w = .ok word)
    (hwords : classifyWords ws = .ok words) :
    classifyWords (w :: ws) = .ok ((w, word) :: words) := by
  rw [classifyWords, if_neg hw, hword, hwords]
  rfl

theorem TargetOption.rivals_lexer (tool : LexerTool) :
    rivals (.lexer tool) = (LexerTool.all.filter (· ≠ tool)).map .lexer := by
  cases tool with
  | _ => decide

/-- No two options that exclude each other are asked for together. -/
theorem Options.asksFor_of_mem_rivals {o : Options} {t r : TargetOption}
    (ht : o.asksFor t = true) (hr : r ∈ t.rivals) : o.asksFor r = false := by
  cases t with
  | lexer tool =>
    rw [rivals_lexer] at hr
    obtain ⟨other, hother, rfl⟩ := List.mem_map.1 hr
    have htool : o.lexer = tool := of_decide_eq_true ht
    have hne : other ≠ tool := of_decide_eq_true (List.mem_filter.1 hother).2
    exact decide_eq_false (htool ▸ hne.symm)
  | xml =>
    obtain rfl := List.mem_singleton.1 hr
    have hxml : o.xml = .basic := of_decide_eq_true ht
    simp [asksFor, hxml]
  | xmlExtended =>
    obtain rfl := List.mem_singleton.1 hr
    have hxml : o.xml = .extended := of_decide_eq_true ht
    simp [asksFor, hxml]
  | _ => cases hr

/-- What a line says about the package. -/
def Options.packageText? (o : Options) : Option String := o.package.map Package.text

namespace OptionLine

variable {o : Options} {l : OptionLine} {t : TargetOption} {w path : String}
  {rest : List (String × OptionWord)}

/-- The line after an option of the options was told. -/
def tell (o : Options) (t : TargetOption) (l : OptionLine) : OptionLine :=
  { l with
    given := l.given.insert t
    package := if t = .package then .ok o.packageText? else l.package }

@[simp] theorem grammar?_tell : (l.tell o t).grammar? = l.grammar? := rfl

@[simp] theorem unrecognized_tell : (l.tell o t).unrecognized = l.unrecognized := rfl

@[simp] theorem mem_given_tell {t' : TargetOption} :
    t' ∈ (l.tell o t).given ↔ t' = t ∨ t' ∈ l.given := List.mem_insert_iff

theorem giveAll_singleton (h : ∀ r ∈ t.rivals, r ∉ l.given) :
    l.giveAll [t] = .ok { l with given := l.given.insert t } := by
  have hnone : t.rivals.find? (· ∈ l.given) = none :=
    List.find?_eq_none.2 fun r hr => by simpa using h r hr
  rw [giveAll, List.foldlM_cons, give, hnone]
  rfl

theorem takeWords_spelled (ht : t ≠ .package) (h : ∀ r ∈ t.rivals, r ∉ l.given) :
    l.takeWords false ((w, t.spelled w) :: rest) = (l.tell o t).takeWords false rest := by
  have hvalue : t.takesValue = false := decide_eq_false ht
  rw [TargetOption.spelled, tell, if_neg ht]
  split
  all_goals
    simp only [takeWords, OptionWord.occurrences, ok_bind, List.find?_cons, hvalue, List.find?_nil,
      giveAll_singleton h]

theorem takeWords_package {p : Package} (hp : o.package = some p) :
    l.takeWords false ((w, TargetOption.package.spelled w) :: (p.text, .operand) :: rest) =
      (l.tell o .package).takeWords false rest := by
  have hgive : l.giveAll [.package] = .ok { l with given := l.given.insert .package } :=
    giveAll_singleton nofun
  have hdashes : p.text ≠ "--" := ne_dashes p.head?_text
  rw [TargetOption.spelled, tell, if_pos rfl, Options.packageText?, hp, Option.map_some]
  split
  all_goals
    simp only [takeWords, OptionWord.occurrences, ok_bind, List.find?_cons, TargetOption.takesValue,
      hgive, givePackage, if_neg hdashes, decide_true]

/-- An option and its value are taken as they were told. -/
theorem exists_takeWords_cons {ws : List String} (hw : w ∈ t.spellings)
    (ht : o.asksFor t = true) (hwords : classifyWords ws = .ok rest) :
    ∃ words, classifyWords (w :: (o.values t ++ ws)) = .ok words ∧
      ∀ l : OptionLine, (∀ t ∈ l.given, o.asksFor t = true) →
        l.takeWords false words = (l.tell o t).takeWords false rest := by
  have hdashes : w ≠ "--" := by
    rintro rfl
    exact absurd (ofSpelling?_of_mem hw) nofun
  by_cases hpackage : t = .package
  · subst hpackage
    obtain ⟨p, hp⟩ := Option.isSome_iff_exists.1 ht
    have hvalues : o.values .package = [p.text] := by rw [Options.values, hp]; rfl
    have hvalue := classifyWords_cons (ne_dashes p.head?_text)
      (classifyWord_operand p.head?_text) hwords
    rw [hvalues]
    exact ⟨_, classifyWords_cons hdashes (classifyWord_spelling hw) hvalue,
      fun l _ => takeWords_package hp⟩
  · have hvalues : o.values t = [] := by
      cases t with
      | package => exact absurd rfl hpackage
      | _ => rfl
    rw [hvalues]
    refine ⟨_, classifyWords_cons hdashes (classifyWord_spelling hw) hwords, fun l hl => ?_⟩
    refine takeWords_spelled hpackage fun r hr hmem => ?_
    cases (Options.asksFor_of_mem_rivals ht hr).symm.trans (hl r hmem)

/-- The words that tell options are taken one after the other, and the last word is the grammar. -/
theorem exists_takeWords {ss : List TargetOption} {ws : List String}
    (h : Said spellings o.values ss ws) (hpath : path.toList.head? ≠ some '-')
    (hasked : ∀ t ∈ ss, o.asksFor t = true) :
    ∃ words, classifyWords (ws ++ [path]) = .ok words ∧
      ∀ l : OptionLine, (∀ t ∈ l.given, o.asksFor t = true) → l.grammar? = none →
        ∃ l', l.takeWords false words = .ok l' ∧ l'.grammar? = some path ∧
          l'.unrecognized = l.unrecognized ∧ (∀ t, t ∈ l'.given ↔ t ∈ ss ∨ t ∈ l.given) ∧
          l'.package = if .package ∈ ss then .ok o.packageText? else l.package := by
  induction h with
  | nil =>
    refine ⟨[(path, .operand)],
      classifyWords_cons (ne_dashes hpath) (classifyWord_operand hpath) rfl, ?_⟩
    intro l _ hl
    refine ⟨{ l with grammar? := some path }, ?_, rfl, rfl, by simp, rfl⟩
    simp only [takeWords, hl]
  | @cons t ss w ws hspelling _ ih =>
    have ht := hasked t List.mem_cons_self
    obtain ⟨rest, hrest, htake⟩ := ih fun t' ht' => hasked t' (List.mem_cons_of_mem t ht')
    obtain ⟨words, hwords, hstep⟩ := exists_takeWords_cons hspelling ht hrest
    rw [List.cons_append, List.append_assoc]
    refine ⟨words, hwords, fun l hl hgrammar => ?_⟩
    -- only options that are asked for are ever given, so the next one meets no rival
    have htold : ∀ t' ∈ (l.tell o t).given, o.asksFor t' = true := by
      intro t' ht'
      rcases mem_given_tell.1 ht' with rfl | ht'
      · exact ht
      · exact hl t' ht'
    obtain ⟨l', hl', hpath', hunrecognized, hgiven, hpackage⟩ := htake (l.tell o t) htold hgrammar
    refine ⟨l', (hstep l hl).trans hl', hpath', hunrecognized, fun t' => ?_, ?_⟩
    · rw [hgiven, mem_given_tell, List.mem_cons]
      tauto
    · rw [hpackage, tell]
      by_cases hss : .package ∈ ss
      · rw [if_pos hss, if_pos (List.mem_cons_of_mem t hss)]
      · simp [hss, eq_comm]

/-- Words that tell the options, in any order and each as often as one likes. -/
def Tell (o : Options) (ws : List String) : Prop :=
  ∃ ss, Tells o.asksFor TargetOption.isDefault ss ∧
    Said spellings o.values ss ws

/-- There are no options that cannot be told. -/
theorem exists_tell (o : Options) : ∃ ws, Tell o ws := by
  have hspellings : ∀ t : TargetOption, t.spellings ≠ [] := by
    have hall : ∀ t ∈ TargetOption.all, t.spellings ≠ [] := by decide
    exact fun t => hall t (mem_all t)
  obtain ⟨ws, hws⟩ := Said.exists_words hspellings (TargetOption.all.filter o.asksFor)
  exact ⟨ws, _, .of_perm mem_all (.refl _) _, hws⟩

theorem checkedPackage_eq (h : l.package = .ok o.packageText?) :
    l.checkedPackage = .ok o.package := by
  rw [checkedPackage, h, mapError_ok, ok_bind, Options.packageText?, SingleDash.mapM_checkPackage]

section Told

variable (hgiven : Tells o.asksFor TargetOption.isDefault l.given)

include hgiven

theorem has_eq (ht : t.isDefault = false) : l.has t = o.asksFor t := by
  rw [has, Bool.eq_iff_iff, decide_eq_true_iff]
  exact hgiven.mem_iff ht

theorem lexer_eq : l.lexer = o.lexer := by
  have h₁ : .lexer .alex1 ∈ l.given ↔ o.lexer = .alex1 :=
    decide_eq_decide.1 (has_eq hgiven (t := .lexer .alex1) rfl)
  have h₂ : .lexer .alex2 ∈ l.given ↔ o.lexer = .alex2 :=
    decide_eq_decide.1 (has_eq hgiven (t := .lexer .alex2) rfl)
  simp only [lexer, h₁, h₂]
  cases o.lexer with
  | _ => rfl

theorem xml_eq : l.xml = o.xml := by
  have hbasic : .xml ∈ l.given ↔ o.xml = .basic :=
    decide_eq_decide.1 (has_eq hgiven (t := .xml) rfl)
  have hextended : .xmlExtended ∈ l.given ↔ o.xml = .extended :=
    decide_eq_decide.1 (has_eq hgiven (t := .xmlExtended) rfl)
  simp only [xml, hbasic, hextended]
  cases o.xml with
  | _ => rfl

theorem parser_eq : (if l.has .glr then ParserStyle.glr else .standard) = o.parser := by
  rw [has_eq hgiven (t := .glr) rfl, Options.asksFor]
  cases o.parser with
  | _ => rfl

theorem options_eq (hpackage : l.package = .ok o.packageText?)
    (hname : o.grammarName = Path.grammarName path) :
    l.options o.target o.multilingual path = .ok o := by
  have has {t : TargetOption} (ht : t.isDefault = false) := has_eq hgiven ht
  rw [options, checkedPackage_eq hpackage, ok_bind]
  simp only [lexer_eq hgiven, xml_eq hgiven, parser_eq hgiven, has (t := .makefile) rfl,
    has (t := .inDirectory) rfl, has (t := .shareStrings) rfl,
    has (t := .byteStrings) rfl, has (t := .cnf) rfl, has (t := .lineNumbers) rfl,
    has (t := .visualStudio) rfl, has (t := .wcf) rfl, ← hname]
  rfl

end Told

/-- A line that tells the options is read as these options. -/
theorem readOptionLine_of_tell {ws : List String} (h : Tell o ws)
    (hname : o.grammarName = Path.grammarName path) (hfile : Path.isGrammarFile path = true)
    (hpath : path.toList.head? ≠ some '-') :
    readOptionLine o.target (ws ++ [path]) o.multilingual = .ok (o, path) := by
  obtain ⟨ss, htells, hsaid⟩ := h
  obtain ⟨words, hwords, htake⟩ := exists_takeWords hsaid hpath htells.asked
  obtain ⟨l, hl, hgrammar, hunrecognized, hmem, hpackage⟩ := htake {} nofun rfl
  have hgiven : Tells o.asksFor TargetOption.isDefault l.given := by
    have hss : ∀ t, t ∈ l.given ↔ t ∈ ss := fun t => by simp [hmem]
    exact ⟨fun t ht => htells.asked t ((hss t).1 ht),
      fun t ht => (htells.said t ht).imp_left (hss t).2⟩
  have hvalue : l.package = .ok o.packageText? := by
    rw [hpackage]
    split
    · rfl
    · next hs =>
      have hasked : ¬ o.asksFor .package = true := mt (htells.mem_iff rfl).2 hs
      rw [Options.packageText?, Options.package_eq_none hasked, Option.map_none]
  have hcomplete : l.complete = .ok path := by
    rw [complete, hgrammar, hunrecognized]
    rfl
  rw [readOptionLine, hwords, ok_bind, hl, ok_bind, hcomplete, ok_bind]
  simp only [hfile, options_eq hgiven hvalue hname]
  rfl

end OptionLine

/-- Flags of the older style and options of the newer one that tell the same options, each in any
order in front of a grammar, are both read as these options and this grammar. -/
theorem read_and_readOptionLine_of_tell {o : Options} {old new : List String} {path : String}
    (hold : SingleDash.Tell o old) (hnew : OptionLine.Tell o new)
    (hname : o.grammarName = Path.grammarName path) (hfile : Path.isGrammarFile path = true)
    (hpath : path.toList.head? ≠ some '-')
    (hpathBlank : isBlankFree path = true)
    (hblank : ∀ p, o.package = some p → isBlankFree p.text = true) :
    SingleDash.read (old ++ [path]) = .ok (o, path) ∧
      readOptionLine o.target (new ++ [path]) o.multilingual = .ok (o, path) :=
  ⟨SingleDash.read_of_tell hold hname hfile hpath hpathBlank hblank,
    OptionLine.readOptionLine_of_tell hnew hname hfile hpath⟩

/-- The package is named almost like a flag, and the language is told last. -/
theorem read_and_readOptionLine_of_tell_java :
    let o : Options :=
      { target := .java, makefile := true, lexer := .alex2, xml := .extended,
        package := some ⟨"xmlt.m", by decide⟩, grammarName := "m", multilingual := true }
    SingleDash.read ["-xmlt", "-p", "xmlt.m", "-m", "--multilingual", "-alex2", "-java", "m.n.cf"] =
        .ok (o, "m.n.cf") ∧
      readOptionLine .java ["--package", "xmlt.m", "--alex2", "-m", "--xmlt", "m.n.cf"] true =
        .ok (o, "m.n.cf") := by
  intro o
  have hold : SingleDash.Tell o
      ["-xmlt", "-p", "xmlt.m", "-m", "--multilingual", "-alex2", "-java"] :=
    ⟨[.option .xmlExtended, .option .package, .option .makefile, .multilingual,
      .option (.lexer .alex2), .language .java],
      .of_perm SingleDash.Setting.mem_all (by decide) _,
      .cons (by decide) (.cons (by decide) (.cons (by decide) (.cons (by decide)
        (.cons (by decide) (.cons (by decide) .nil)))))⟩
  have hnew : OptionLine.Tell o ["--package", "xmlt.m", "--alex2", "-m", "--xmlt"] :=
    ⟨[.package, .lexer .alex2, .makefile, .xmlExtended],
      .of_perm TargetOption.mem_all (by decide) _,
      .cons (by decide) (.cons (by decide) (.cons (by decide) (.cons (by decide) .nil)))⟩
  have hblank : ∀ p, o.package = some p → isBlankFree p.text = true := by
    intro p hp
    cases hp
    decide
  exact read_and_readOptionLine_of_tell hold hnew (by decide) (by decide) (by decide) (by decide)
    hblank

end GrammarBindings
