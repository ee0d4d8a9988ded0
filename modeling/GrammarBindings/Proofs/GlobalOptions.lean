import GrammarBindings.Options.Mode
import Mathlib.Data.List.Basic

/-!
# Options in front of the target

Each word in front of the target is read for itself: it names an option, which may be cut off where
no other option begins like it, or it is an error. A line is read word by word up to the first that
is no option, so the options found and the errors are those of its words in order. The mode is
decided by the first error, else by which options are found, in whatever order and spelling they
are given, and only then by what follows them.
-/

namespace GrammarBindings

/-- A dash with something behind it, other than the two dashes that end the options. -/
def IsOptionWord (w : String) : Prop := w.toList.head? = some '-' ∧ w ≠ "-" ∧ w ≠ "--"

/-- There is nothing, or the first word is no option. -/
def EndsOptions (rest : List String) : Prop := ∀ w ∈ rest.head?, ¬ IsOptionWord w

instance (w : String) : Decidable (IsOptionWord w) := inferInstanceAs (Decidable (_ ∧ _))

instance (rest : List String) : Decidable (EndsOptions rest) :=
  inferInstanceAs (Decidable (∀ w ∈ rest.head?, ¬ IsOptionWord w))

/-- Two dashes at the beginning are dropped. -/
def withoutSeparator : List String → List String
  | "--" :: ws => ws
  | ws => ws

namespace GlobalOption

theorem mem_all (o : GlobalOption) : o ∈ all := by cases o <;> decide

/-- The option's word begins with the name. -/
def BeginsWith (o : GlobalOption) (name : String) : Prop := name.toList <+: o.word.toList

/-- The option is the only one that begins with the name. -/
structure StandsFor (name : String) (o : GlobalOption) : Prop where
  begins : o.BeginsWith name
  only : ∀ o', o'.BeginsWith name → o' = o

/-- The options that begin with a name. -/
def candidates (name : String) : List GlobalOption :=
  all.filter fun o => name.toList.isPrefixOf o.word.toList

variable {name : String} {o o' : GlobalOption}

theorem mem_candidates_iff : o ∈ candidates name ↔ o.BeginsWith name := by
  rw [candidates, List.mem_filter, List.isPrefixOf_iff_prefix, BeginsWith]
  exact and_iff_right (mem_all o)

/-- No word of an option begins with that of another. -/
theorem standsFor_word (o : GlobalOption) : StandsFor o.word o := by
  have hall : ∀ o ∈ all, ∀ o' ∈ all, o.word.toList <+: o'.word.toList → o' = o := by decide
  exact ⟨List.prefix_rfl, fun o' => hall o (mem_all o) o' (mem_all o')⟩

theorem find?_word_eq_some (h : all.find? (fun o => o.word = name) = some o) :
    StandsFor name o := by
  have hword : o.word = name := by simpa using List.find?_some h
  exact hword ▸ standsFor_word o

theorem StandsFor.candidates_eq (h : StandsFor name o) : candidates name = [o] := by
  have hiff : ∀ o' ∈ all, name.toList.isPrefixOf o'.word.toList = decide (o' = o) := by
    intro o' _
    rw [Bool.eq_iff_iff, List.isPrefixOf_iff_prefix, decide_eq_true_eq]
    exact ⟨h.only o', fun he => he ▸ h.begins⟩
  rw [candidates, List.filter_congr hiff]
  cases o <;> rfl

theorem ofName_of_standsFor (h : StandsFor name o) : ofName name = .ok o := by
  rw [ofName]
  split
  · next o' hfind => rw [(find?_word_eq_some hfind).only o h.begins]
  · rw [← candidates, h.candidates_eq]

theorem ofName_of_unknown (h : ∀ o : GlobalOption, ¬ o.BeginsWith name) :
    ofName name = .error (.unrecognizedGlobal ("--" ++ name)) := by
  have hnone : candidates name = [] :=
    List.eq_nil_iff_forall_not_mem.2 fun o ho => h o (mem_candidates_iff.1 ho)
  rw [ofName]
  split
  · next o hfind => exact absurd (find?_word_eq_some hfind).begins (h o)
  · rw [← candidates, hnone]

theorem ofName_of_several (ho : o.BeginsWith name) (ho' : o'.BeginsWith name) (hne : o ≠ o') :
    ofName name = .error (.ambiguousGlobal name ((candidates name).map flag)) := by
  rw [ofName]
  split
  · next found hfind =>
    have honly := (find?_word_eq_some hfind).only
    exact absurd ((honly o ho).trans (honly o' ho').symm) hne
  · rw [← candidates]
    split
    · next hnil => exact absurd (mem_candidates_iff.2 ho) (hnil ▸ List.not_mem_nil)
    · next only honly =>
      have hmem : ∀ {o}, o.BeginsWith name → o = only := fun h =>
        List.mem_singleton.1 (honly ▸ mem_candidates_iff.2 h)
      exact absurd ((hmem ho).trans (hmem ho').symm) hne
    · rfl

/-- A name stands for one option, for none or for several. -/
theorem standsFor_cases (name : String) :
    (∃ o, StandsFor name o) ∨ (∀ o : GlobalOption, ¬ o.BeginsWith name) ∨
      ∃ o o' : GlobalOption, o.BeginsWith name ∧ o'.BeginsWith name ∧ o ≠ o' := by
  by_cases hnone : ∀ o : GlobalOption, ¬ o.BeginsWith name
  · exact .inr (.inl hnone)
  · obtain ⟨o, ho⟩ := not_forall_not.1 hnone
    by_cases honly : ∀ o' : GlobalOption, o'.BeginsWith name → o' = o
    · exact .inl ⟨o, ho, honly⟩
    · simp only [not_forall] at honly
      obtain ⟨o', ho', hne⟩ := honly
      exact .inr (.inr ⟨o', o, ho', ho, hne⟩)

end GlobalOption

open GlobalOption

/-- The word has two dashes, a name and, behind an equals sign, perhaps a value. -/
structure IsLong (w name : String) (value? : Option String) : Prop where
  isOption : w ≠ "--"
  plain : '=' ∉ name.toList
  written : w = "--" ++ name ++ (value?.map ("=" ++ ·)).getD ""

/-- What a word in front of the target says: the options that it gives, and its errors. -/
inductive Says (w : String) : List GlobalOption → List UsageError → Prop where
  | option {name : String} {o : GlobalOption} (long : IsLong w name none)
      (stands : StandsFor name o) : Says w [o] []
  | needless {name value : String} {o : GlobalOption} (long : IsLong w name (some value))
      (stands : StandsFor name o) : Says w [] [.needlessValue o.flag]
  | unknown {name : String} {value? : Option String} (long : IsLong w name value?)
      (none : ∀ o : GlobalOption, ¬ o.BeginsWith name) :
      Says w [] [.unrecognizedGlobal ("--" ++ name)]
  | ambiguous {name : String} {value? : Option String} {o o' : GlobalOption}
      (long : IsLong w name value?) (one : o.BeginsWith name) (other : o'.BeginsWith name)
      (ne : o ≠ o') : Says w [] [.ambiguousGlobal name ((candidates name).map flag)]
  | short {c : Char} {cs : List Char} (dash : c ≠ '-') (written : w.toList = '-' :: c :: cs) :
      Says w [] ((c :: cs).map fun d => .unrecognizedGlobal (String.ofList ['-', d]))

/-- What the words of a line say, one by one in order. -/
inductive SayAll : List String → List GlobalOption → List UsageError → Prop where
  | nil : SayAll [] [] []
  | cons {w : String} {ws : List String} {os os' : List GlobalOption} {es es' : List UsageError}
      (first : Says w os es) (others : SayAll ws os' es') :
      SayAll (w :: ws) (os ++ os') (es ++ es')

section Words

variable {w name : String} {value? : Option String} {ws pre rest : List String}
  {os found : List GlobalOption} {es errors : List UsageError} {o : GlobalOption}

theorem IsLong.toList_eq (h : IsLong w name value?) :
    w.toList = '-' :: '-' :: (name.toList ++ (value?.map fun v => '=' :: v.toList).getD []) := by
  rw [h.written]
  cases value? with
  | none => simp
  | some v => simp

/-- A word of two dashes and more has a name. -/
theorem exists_isLong {cs : List Char} (hw : w.toList = '-' :: '-' :: cs) (hne : w ≠ "--") :
    ∃ name value?, IsLong w name value? := by
  by_cases hmem : '=' ∈ cs
  · obtain ⟨front, value, rfl, hfront⟩ := List.eq_append_cons_of_mem hmem
    refine ⟨String.ofList front, some (String.ofList value), hne, by simpa using hfront, ?_⟩
    rw [← String.toList_inj, hw]
    simp
  · refine ⟨String.ofList cs, none, hne, by simpa using hmem, ?_⟩
    rw [← String.toList_inj, hw]
    simp

theorem IsLong.ofLong_eq {cs : List Char} (h : IsLong w name value?)
    (hcs : w.toList = '-' :: '-' :: cs) :
    ofLong cs = ofName name >>= fun o =>
      if value?.isSome then .error (.needlessValue o.flag) else .ok o := by
  obtain rfl : cs = name.toList ++ (value?.map fun v => '=' :: v.toList).getD [] := by
    simpa [h.toList_eq] using hcs.symm
  have hname : ∀ c ∈ name.toList, decide (c ≠ '=') = true := fun c hc =>
    decide_eq_true fun he => h.plain (he ▸ hc)
  rw [ofLong, List.takeWhile_append_of_pos hname]
  cases value? with
  | none =>
    simp only [Option.map_none, Option.getD_none, List.takeWhile_nil, List.append_nil,
      String.ofList_toList, if_neg h.plain]
    rfl
  | some v =>
    have hmem : '=' ∈ name.toList ++ '=' :: v.toList := by simp
    rw [Option.map_some, Option.getD_some, List.takeWhile_cons_of_neg (by simp), List.append_nil,
      String.ofList_toList]
    simp only [if_pos hmem]
    rfl

/-- A long word is read by its name, and then its value is refused. -/
theorem IsLong.ofWords_cons (h : IsLong w name value?) (ws : List String) :
    GlobalScan.ofWords (w :: ws) =
      match ofName name >>= fun o =>
        if value?.isSome then .error (.needlessValue o.flag) else .ok o with
      | .ok o => (GlobalScan.ofWords ws).find o
      | .error e => (GlobalScan.ofWords ws).fail [e] := by
  have hw := h.toList_eq
  rw [← h.ofLong_eq hw, GlobalScan.ofWords, hw]
  cases hcs : name.toList ++ (value?.map fun v => '=' :: v.toList).getD [] with
  | nil =>
    rw [hcs] at hw
    exact absurd (String.toList_inj.1 hw) h.isOption
  | cons c cs => rfl

theorem ofWords_short {c : Char} {cs : List Char} (hw : w.toList = '-' :: c :: cs) (hc : c ≠ '-')
    (ws : List String) :
    GlobalScan.ofWords (w :: ws) = (GlobalScan.ofWords ws).fail
      ((c :: cs).map fun d => .unrecognizedGlobal (String.ofList ['-', d])) := by
  have hne (cs' : List Char) : '-' :: c :: cs ≠ '-' :: '-' :: cs' := fun he =>
    hc (List.cons.inj (List.cons.inj he).2).1
  rw [GlobalScan.ofWords, hw]
  split
  · next hlist => exact absurd hlist (hne _)
  · next hlist => exact absurd hlist (hne _)
  · next hlist =>
    cases hlist
    rfl
  · next hother => exact absurd rfl (hother c cs)

/-- What a word says is put in front of what the others say. -/
theorem Says.ofWords_cons (h : Says w os es) (ws : List String) :
    GlobalScan.ofWords (w :: ws) =
      ⟨os ++ (GlobalScan.ofWords ws).found, (GlobalScan.ofWords ws).rest,
        es ++ (GlobalScan.ofWords ws).errors⟩ := by
  cases h with
  | option long stands =>
    rw [long.ofWords_cons, ofName_of_standsFor stands]
    rfl
  | needless long stands =>
    rw [long.ofWords_cons, ofName_of_standsFor stands]
    rfl
  | unknown long none =>
    rw [long.ofWords_cons, ofName_of_unknown none]
    rfl
  | ambiguous long one other ne =>
    rw [long.ofWords_cons, ofName_of_several one other ne]
    rfl
  | short dash written => exact ofWords_short written dash ws

/-- Every option word says something. -/
theorem exists_says (h : IsOptionWord w) : ∃ os es, Says w os es := by
  obtain ⟨hhead, hdash, hdashes⟩ := h
  obtain ⟨cs, hcs⟩ := List.head?_eq_some_iff.1 hhead
  cases cs with
  | nil => exact absurd (String.toList_inj.1 hcs) hdash
  | cons c cs =>
    by_cases hc : c = '-'
    · subst hc
      obtain ⟨name, value?, hlong⟩ := exists_isLong hcs hdashes
      rcases standsFor_cases name with ⟨o, ho⟩ | hnone | ⟨o, o', ho, ho', hne⟩
      · cases value? with
        | none => exact ⟨_, _, .option hlong ho⟩
        | some value => exact ⟨_, _, .needless hlong ho⟩
      · exact ⟨_, _, .unknown hlong hnone⟩
      · exact ⟨_, _, .ambiguous hlong ho ho' hne⟩
    · exact ⟨_, _, .short hc hcs⟩

/-- A word says one thing only. -/
theorem Says.unique {os' : List GlobalOption} {es' : List UsageError} (h : Says w os es)
    (h' : Says w os' es') : os = os' ∧ es = es' := by
  have heq := (h.ofWords_cons []).symm.trans (h'.ofWords_cons [])
  simpa [GlobalScan.ofWords] using heq

/-- A word without errors is an option. -/
theorem Says.exists_eq_singleton (h : Says w os []) : ∃ o, os = [o] := by
  cases h with
  | option _ _ => exact ⟨_, rfl⟩

theorem exists_sayAll (h : ∀ w ∈ pre, ∃ os es, Says w os es) :
    ∃ found errors, SayAll pre found errors := by
  induction pre with
  | nil => exact ⟨[], [], .nil⟩
  | cons w pre ih =>
    obtain ⟨⟨os, es, hword⟩, hpre⟩ := List.forall_mem_cons.1 h
    obtain ⟨found, errors, hothers⟩ := ih hpre
    exact ⟨_, _, .cons hword hothers⟩

theorem isOptionWord_of_toList {c : Char} {cs : List Char} (hw : w.toList = '-' :: c :: cs)
    (hne : w ≠ "--") : IsOptionWord w := by
  refine ⟨by rw [hw]; rfl, ?_, hne⟩
  rintro rfl
  simp at hw

theorem withoutSeparator_of_ne (h : w ≠ "--") (ws : List String) :
    withoutSeparator (w :: ws) = w :: ws := by
  rw [withoutSeparator]
  rintro ws' heq
  exact h (List.cons.inj heq).1

theorem ofWords_of_endsOptions (h : EndsOptions rest) :
    GlobalScan.ofWords rest = ⟨[], withoutSeparator rest, []⟩ := by
  cases rest with
  | nil => rfl
  | cons w rest =>
    have hw : ¬ IsOptionWord w := h w rfl
    by_cases hdashes : w = "--"
    · subst hdashes
      rfl
    · rw [withoutSeparator_of_ne hdashes, GlobalScan.ofWords]
      split
      · next hlist => exact absurd (String.toList_inj.1 hlist) hdashes
      · next hlist => exact absurd (isOptionWord_of_toList hlist hdashes) hw
      · next hlist => exact absurd (isOptionWord_of_toList hlist hdashes) hw
      · rfl

/-- The scan reads the options word by word and goes on with what is behind them. -/
theorem SayAll.ofWords_append_eq (h : SayAll pre found errors) (rest : List String) :
    GlobalScan.ofWords (pre ++ rest) =
      ⟨found ++ (GlobalScan.ofWords rest).found, (GlobalScan.ofWords rest).rest,
        errors ++ (GlobalScan.ofWords rest).errors⟩ := by
  induction h with
  | nil => rfl
  | cons first others ih =>
    rw [List.cons_append, first.ofWords_cons, ih, List.append_assoc, List.append_assoc]

theorem SayAll.ofWords_append (h : SayAll pre found errors) (hrest : EndsOptions rest) :
    GlobalScan.ofWords (pre ++ rest) = ⟨found, withoutSeparator rest, errors⟩ := by
  rw [h.ofWords_append_eq, ofWords_of_endsOptions hrest, List.append_nil, List.append_nil]

theorem SayAll.append {found' : List GlobalOption} {errors' : List UsageError}
    (h : SayAll pre found errors) (h' : SayAll rest found' errors') :
    SayAll (pre ++ rest) (found ++ found') (errors ++ errors') := by
  induction h with
  | nil => exact h'
  | cons first others ih =>
    rw [List.cons_append, List.append_assoc, List.append_assoc]
    exact .cons first ih

theorem SayAll.exists_of_append (h : SayAll (pre ++ rest) found errors) :
    ∃ found₁ errors₁ found₂ errors₂, SayAll pre found₁ errors₁ ∧ SayAll rest found₂ errors₂ ∧
      found = found₁ ++ found₂ ∧ errors = errors₁ ++ errors₂ := by
  induction pre generalizing found errors with
  | nil => exact ⟨[], [], found, errors, .nil, h, rfl, rfl⟩
  | cons w pre ih =>
    cases h with
    | cons first others =>
      obtain ⟨_, _, _, _, hpre, hrest, rfl, rfl⟩ := ih others
      exact ⟨_, _, _, _, .cons first hpre, hrest, (List.append_assoc ..).symm,
        (List.append_assoc ..).symm⟩

/-- An option is found exactly if a word says it. -/
theorem SayAll.mem_found_iff (h : SayAll pre found errors) :
    o ∈ found ↔ ∃ w ∈ pre, ∃ os es, Says w os es ∧ o ∈ os := by
  induction h with
  | nil => simp
  | @cons w ws os os' es es' first others ih =>
    rw [List.mem_append, ih, List.exists_mem_cons_iff]
    refine or_congr_left ⟨fun ho => ⟨os, es, first, ho⟩, ?_⟩
    rintro ⟨os'', es'', hword, ho⟩
    rwa [(first.unique hword).1]

/-- There are no errors exactly if no word says one. -/
theorem SayAll.errors_eq_nil_iff (h : SayAll pre found errors) :
    errors = [] ↔ ∀ w ∈ pre, ∃ o, Says w [o] [] := by
  induction h with
  | nil => simp
  | @cons w ws os os' es es' first others ih =>
    rw [List.append_eq_nil_iff, ih, List.forall_mem_cons]
    refine and_congr_left' ⟨?_, ?_⟩
    · rintro rfl
      obtain ⟨o, rfl⟩ := first.exists_eq_singleton
      exact ⟨o, first⟩
    · rintro ⟨o, hword⟩
      exact (first.unique hword).2

/-- An abbreviation says its option. -/
theorem GlobalOption.StandsFor.says_option (h : StandsFor name o) : Says ("--" ++ name) [o] [] := by
  have hequals : '=' ∉ o.word.toList := by cases o <;> decide
  refine .option ⟨?_, fun hmem => hequals (h.begins.subset hmem), by simp⟩ h
  intro hempty
  obtain rfl : name = "" := by simpa using hempty
  -- every option begins with nothing
  have hhelp := h.only help List.nil_prefix
  have hversion := h.only version List.nil_prefix
  cases hhelp.trans hversion.symm

end Words

namespace Mode

variable {name w : String} {pre pre' front behind rest tail : List String}
  {found found' : List GlobalOption} {e : UsageError} {es : List UsageError} {o : GlobalOption}
  {target : Target}

/-- The first error wins over everything. -/
theorem ofWords_of_error (h : SayAll pre found (e :: es)) (rest : List String) :
    ofWords (pre ++ rest) = failure e := by
  rw [ofWords, h.ofWords_append_eq]
  rfl

/-- Without errors, the options win over the words behind them. -/
theorem ofWords_of_options (h : SayAll pre found []) (hrest : EndsOptions rest) :
    ofWords (pre ++ rest) =
      if .help ∈ found then help
      else if .version ∈ found then version
      else ofScan ⟨found, withoutSeparator rest, []⟩ := by
  rw [ofWords, h.ofWords_append hrest]
  by_cases hhelp : .help ∈ found
  · simp [ofScan, hhelp]
  · by_cases hversion : .version ∈ found
    · simp [ofScan, hhelp, hversion]
    · rw [if_neg hhelp, if_neg hversion]

/-- Only which options are found makes a difference. -/
theorem ofWords_congr (h : SayAll pre found []) (h' : SayAll pre' found' [])
    (hfound : ∀ o, o ∈ found' ↔ o ∈ found) (hrest : EndsOptions rest) :
    ofWords (pre' ++ rest) = ofWords (pre ++ rest) := by
  rw [ofWords, ofWords, h.ofWords_append hrest, h'.ofWords_append hrest]
  simp only [ofScan, hfound]

/-- Neither the order of the words counts nor how often each of them stands there. -/
theorem ofWords_of_mem_iff (h : SayAll pre found []) (hmem : ∀ w, w ∈ pre' ↔ w ∈ pre)
    (hrest : EndsOptions rest) : ofWords (pre' ++ rest) = ofWords (pre ++ rest) := by
  have hword : ∀ w ∈ pre', ∃ o, Says w [o] [] := fun w hw =>
    h.errors_eq_nil_iff.1 rfl w ((hmem w).1 hw)
  obtain ⟨found', errors, h'⟩ := exists_sayAll fun w hw =>
    (hword w hw).elim fun o ho => ⟨[o], [], ho⟩
  obtain rfl := h'.errors_eq_nil_iff.2 hword
  refine ofWords_congr h h' (fun o => ?_) hrest
  rw [h.mem_found_iff, h'.mem_found_iff]
  simp only [hmem]

/-- An option may be abbreviated. -/
theorem ofWords_of_abbreviated (h : SayAll (front ++ w :: behind) found [])
    (hw : Says w [o] []) (hname : StandsFor name o) (hrest : EndsOptions rest) :
    ofWords (front ++ ("--" ++ name) :: behind ++ rest) =
      ofWords (front ++ w :: behind ++ rest) := by
  obtain ⟨found₁, errors₁, _, _, hfront, hbehind, hfound, herrors⟩ := h.exists_of_append
  cases hbehind with
  | @cons _ _ os found₂ es errors₂ first others =>
    obtain ⟨rfl, rfl⟩ := first.unique hw
    have h' : SayAll (front ++ ("--" ++ name) :: behind) found [] := by
      rw [hfound, herrors]
      exact hfront.append (.cons hname.says_option others)
    exact ofWords_congr h h' (fun o => Iff.rfl) hrest

/-- Only multilingual options are left in front of a target. -/
theorem ofWords_of_target (h : SayAll pre found []) (hhelp : .help ∉ found)
    (hversion : .version ∉ found) (hrest : EndsOptions rest)
    (htarget : withoutSeparator rest = target.word :: tail) :
    ofWords (pre ++ rest) = generate target tail (pre ≠ []) := by
  have hmultilingual : .multilingual ∈ found ↔ pre ≠ [] := by
    constructor
    · intro hmem
      obtain ⟨w, hw, -⟩ := h.mem_found_iff.1 hmem
      exact List.ne_nil_of_mem hw
    · intro hne
      obtain ⟨w, hw⟩ := List.exists_mem_of_ne_nil pre hne
      obtain ⟨o, ho⟩ := h.errors_eq_nil_iff.1 rfl w hw
      have hfound : o ∈ found := h.mem_found_iff.2 ⟨w, hw, [o], [], ho, List.mem_singleton_self o⟩
      cases o with
      | help => exact absurd hfound hhelp
      | version => exact absurd hfound hversion
      | multilingual => exact hfound
  rw [ofWords_of_options h hrest, if_neg hhelp, if_neg hversion, htarget]
  simp [ofScan, hhelp, hversion, hmultilingual]

/-- The words in front of the first one that is no option say the options and the errors of a line,
and the words from there on are its rest. If there is an error, the first one is the mode. Otherwise
neither order nor repetition nor abbreviation makes a difference, help and version win over the
rest, and a target gets exactly the words behind it, for a multilingual run if there is any word in
front. -/
theorem ofWords_options_append (hpre : ∀ w ∈ pre, IsOptionWord w) (hrest : EndsOptions rest) :
    ∃ found errors, SayAll pre found errors ∧
      GlobalScan.ofWords (pre ++ rest) = ⟨found, withoutSeparator rest, errors⟩ ∧
      (∀ e es, errors = e :: es → ofWords (pre ++ rest) = failure e) ∧
      (errors = [] →
        (∀ pre', (∀ w, w ∈ pre' ↔ w ∈ pre) →
          ofWords (pre' ++ rest) = ofWords (pre ++ rest)) ∧
        (∀ front w behind name o, pre = front ++ w :: behind → Says w [o] [] →
          StandsFor name o →
            ofWords (front ++ ("--" ++ name) :: behind ++ rest) = ofWords (pre ++ rest)) ∧
        (.help ∈ found → ofWords (pre ++ rest) = help) ∧
        (.help ∉ found → .version ∈ found → ofWords (pre ++ rest) = version) ∧
        (.help ∉ found → .version ∉ found → ∀ target tail,
          withoutSeparator rest = Target.word target :: tail →
            ofWords (pre ++ rest) = generate target tail (pre ≠ []))) := by
  obtain ⟨found, errors, hsay⟩ := exists_sayAll fun w hw => exists_says (hpre w hw)
  refine ⟨found, errors, hsay, hsay.ofWords_append hrest, ?_, ?_⟩
  · rintro e es rfl
    exact ofWords_of_error hsay rest
  · rintro rfl
    refine ⟨fun pre' hmem => ofWords_of_mem_iff hsay hmem hrest, ?_, ?_, ?_, ?_⟩
    · rintro front w behind name o rfl hw hname
      exact ofWords_of_abbreviated hsay hw hname hrest
    · intro hhelp
      rw [ofWords_of_options hsay hrest, if_pos hhelp]
    · intro hhelp hversion
      rw [ofWords_of_options hsay hrest, if_neg hhelp, if_pos hversion]
    · intro hhelp hversion target tail htarget
      exact ofWords_of_target hsay hhelp hversion hrest htarget

theorem ofWords_options_append_multilingual :
    let pre := ["--multi", "--m"]
    let rest := ["--", "cpp-stl", "--help", "Calc.cf"]
    (∀ w ∈ pre, IsOptionWord w) ∧ EndsOptions rest ∧
      ofWords (pre ++ rest) = generate .cppStl ["--help", "Calc.cf"] true ∧
      ofWords (["--m", "--multi", "--m"] ++ rest) = ofWords (pre ++ rest) ∧
      (∀ w ∈ ["--v", "-xh", "--help"], IsOptionWord w) ∧
      ofWords (["--v", "-xh", "--help"] ++ rest) = failure (.unrecognizedGlobal "-x") := by
  intro pre rest
  have hpre : ∀ w ∈ pre, IsOptionWord w := by decide
  have hrest : EndsOptions rest := by decide
  have hwrong : ∀ w ∈ ["--v", "-xh", "--help"], IsOptionWord w := by decide
  obtain ⟨found, errors, -, hscan, -, hmode⟩ := ofWords_options_append hpre hrest
  obtain ⟨found', errors', -, hscan', hfailure, -⟩ := ofWords_options_append hwrong hrest
  have hfound : GlobalScan.ofWords (pre ++ rest) =
      ⟨[.multilingual, .multilingual], withoutSeparator rest, []⟩ := by decide
  have hfound' : GlobalScan.ofWords (["--v", "-xh", "--help"] ++ rest) =
      ⟨[.version, .help], withoutSeparator rest,
        [.unrecognizedGlobal "-x", .unrecognizedGlobal "-h"]⟩ := by decide
  rw [hscan, GlobalScan.mk.injEq] at hfound
  rw [hscan', GlobalScan.mk.injEq] at hfound'
  obtain ⟨rfl, -, rfl⟩ := hfound
  obtain ⟨hreorder, -, -, -, htarget⟩ := hmode rfl
  exact ⟨hpre, hrest, htarget (by decide) (by decide) .cppStl _ rfl, hreorder _ (by simp [pre]),
    hwrong, hfailure _ _ hfound'.2.2⟩

end Mode
end GrammarBindings
