import GrammarBindings.Proofs.CategoryNames
import GrammarBindings.Proofs.Pragmas

/-!
# Numerals that break reading off

A text that is no grammar is blamed on a fault in it, at a line. There is one exception: where a
level has too many digits, or digits that are not decimal, the failure of the numeral is passed on
as it is. The relations of this module say where in a statement such a numeral is met: everything in
front of it is spelled as it should be, and nothing behind it is looked at. A text fails with a
numeral exactly when the first statement that cannot be interpreted meets one.
-/

namespace GrammarBindings

open Text

variable {declared : List String} {f : NumeralFault}

/-- The fault is one of the text, at a line. -/
def ReadFailure.IsBlamed (e : ReadFailure) : Prop := ∃ fault line, e = .text fault line

/-- A category begins here whose innermost name ends in an unreadable level. -/
inductive Category.Breaks (declared : List String) (f : NumeralFault) : List Token → Prop where
  | word {t : Token} {ts : List Token} (kind : t.kind = .word)
      (name : Category.read declared t.value = .error f) : Breaks declared f (t :: ts)
  | list {opening : Token} {ts : List Token} (isOpening : opening.isSymbol "[" = true)
      (element : Breaks declared f ts) : Breaks declared f (opening :: ts)

/-- Behind some items a category has an unreadable level. -/
def ItemsBreak (declared : List String) (f : NumeralFault) (ts : List Token) : Prop :=
  ∃ used items rest, ts = used ++ rest ∧ ItemsSpelled declared used items ∧
    Category.Breaks declared f rest

/-- The result of the rule has an unreadable level, or one of its items has. -/
inductive RuleBreaks (declared : List String) (f : NumeralFault) : List Token → Prop where
  | result {label ts : List Token} {l : Label} {stop : Token} (labelSpelled : LabelSpelled label l)
      (isStop : stop.isSymbol "." = true) (result : Category.Breaks declared f ts) :
      RuleBreaks declared f (label ++ stop :: ts)
  | item {label result ts : List Token} {l : Label} {c : Category} {stop arrow : Token}
      (labelSpelled : LabelSpelled label l) (isStop : stop.isSymbol "." = true)
      (resultSpelled : Category.Spelled declared result c) (isArrow : arrow.isSymbol "::=" = true)
      (items : ItemsBreak declared f ts) :
      RuleBreaks declared f (label ++ stop :: (result ++ arrow :: ts))

/-- The number of levels behind the base category is unreadable. -/
inductive CoercionsBreak (f : NumeralFault) : List Token → Prop where
  | mk {base number : Token} {ts : List Token} (isWord : base.kind = .word)
      (isNumber : number.kind = .number) (digits : readDigits number.value.toList = .error f) :
      CoercionsBreak f (base :: number :: ts)

/-- Behind some entry points a category has an unreadable level. -/
inductive EntrypointsBreak (declared : List String) (f : NumeralFault) : List Token → Prop where
  | first {ts : List Token} (category : Category.Breaks declared f ts) :
      EntrypointsBreak declared f ts
  | later {used ts : List Token} {c : Category} (spelled : Category.Spelled declared used c)
      (others : EntrypointsBreak declared f (skipComma ts)) :
      EntrypointsBreak declared f (used ++ ts)

/-- The element category of a list pragma has an unreadable level. -/
def ListPragmaBreaks (declared : List String) (f : NumeralFault) (ts : List Token) : Prop :=
  Category.Breaks declared f (if asksNonempty ts then ts.tail else ts)

/-- Interpreting the statement comes to a numeral that cannot be read. -/
def Statement.Breaks (declared : List String) (f : NumeralFault) (s : Statement) : Prop :=
  match s.pragma? with
  | none => RuleBreaks declared f s.tokens
  | some .internal => RuleBreaks declared f s.tail
  | some .separator | some .terminator => ListPragmaBreaks declared f s.tail
  | some .coercions => CoercionsBreak f s.tail
  | some .entrypoints => EntrypointsBreak declared f s.tail
  | some .declaration | some .ignored | some .rules => False

/-- The failure is blamed on the text, or it is that of a numeral which is met. -/
def Explains (Breaks : NumeralFault → List Token → Prop) (ts : List Token) (e : ReadFailure) :
    Prop :=
  e.IsBlamed ∨ ∃ f, e = .numeral f ∧ Breaks f ts

theorem isBlamed_text (fault : TextFault) (line : Nat) : (ReadFailure.text fault line).IsBlamed :=
  ⟨fault, line, rfl⟩

section Reading

variable {lastLine : Nat} {label : Label} {ts rest : List Token} {e : ReadFailure}

theorem isBlamed_of_readSymbol {s : String} (h : readSymbol lastLine s ts = .error e) :
    e.IsBlamed := by
  cases ts with
  | nil =>
    cases h
    exact isBlamed_text _ _
  | cons t ts =>
    rw [readSymbol] at h
    split at h
    · cases h
    · cases h
      exact isBlamed_text _ _

theorem isBlamed_of_readToken {kind : TokenKind} (h : readToken lastLine kind ts = .error e) :
    e.IsBlamed := by
  cases ts with
  | nil =>
    cases h
    exact isBlamed_text _ _
  | cons t ts =>
    rw [readToken] at h
    split at h
    · cases h
    · cases h
      exact isBlamed_text _ _

theorem isBlamed_of_readLabel (h : readLabel lastLine ts = .error e) : e.IsBlamed := by
  rw [readLabel] at h
  split at h
  · cases h
  · dsimp only at h
    split at h
    · cases h
      exact isBlamed_text _ _
    · split at h
      · cases h
      · cases h
        exact isBlamed_text _ _

theorem explains_readCategory (h : readCategory declared lastLine ts = .error e) :
    Explains (Category.Breaks declared) ts e := by
  induction ts generalizing e with
  | nil =>
    cases h
    exact .inl (isBlamed_text _ _)
  | cons t ts ih =>
    rw [readCategory] at h
    by_cases hb : t.isSymbol "[" = true
    · rw [if_pos hb] at h
      split at h
      · next he =>
        cases h
        rcases ih he with hblamed | ⟨f, rfl, hbreaks⟩
        · exact .inl hblamed
        · exact .inr ⟨f, rfl, .list hb hbreaks⟩
      · split at h
        · next hs =>
          cases h
          exact .inl (isBlamed_of_readSymbol hs)
        · cases h
    · rw [if_neg hb] at h
      by_cases hw : t.kind = .word
      · rw [if_pos hw] at h
        split at h
        · next f hn =>
          cases h
          exact .inr ⟨f, rfl, .word hw hn⟩
        · cases h
      · rw [if_neg hw] at h
        cases h
        exact .inl (isBlamed_text _ _)

theorem readCategory_of_breaks (h : Category.Breaks declared f ts) :
    readCategory declared lastLine ts = .error (.numeral f) := by
  induction h with
  | @word t ts hk hn =>
    have ht : t.isSymbol "[" = false := by simp [Token.isSymbol, hk]
    simp only [readCategory, ht, Bool.false_eq_true, if_false, if_pos hk, hn]
  | list ho _ ih => simp only [readCategory, if_pos ho, ih]

/-- A category that breaks off begins as one that is spelled out does. -/
theorem Category.Breaks.exists_cons (h : Category.Breaks declared f ts) :
    ∃ t us, ts = t :: us ∧ (t.kind = .word ∨ t.isSymbol "[" = true) := by
  cases h with
  | word hk _ => exact ⟨_, _, rfl, .inl hk⟩
  | list ho _ => exact ⟨_, _, rfl, .inr ho⟩

theorem explains_readItems (h : readItems declared lastLine label ts = .error e) :
    Explains (ItemsBreak declared) ts e := by
  fun_induction readItems declared lastLine label ts with
  | case1 => cases h
  | case2 t ts hk ih =>
    rcases ih (map_eq_error_iff.1 h) with hblamed | ⟨f, rfl, used, items, rest, rfl, hu, hbreaks⟩
    · exact .inl hblamed
    · exact .inr ⟨f, rfl, t :: used, _, rest, rfl, .terminal hk hu, hbreaks⟩
  | case3 t ts _ _ e' he =>
    cases h
    rcases explains_readCategory he with hblamed | ⟨f, rfl, hbreaks⟩
    · exact .inl hblamed
    · exact .inr ⟨f, rfl, [], [], t :: ts, rfl, .nil, hbreaks⟩
  | case4 t ts _ _ c rest' hc ih =>
    obtain ⟨used', he, hspelled⟩ := readCategory_eq_ok_iff.1 hc
    rcases ih (map_eq_error_iff.1 h) with hblamed | ⟨f, rfl, used, items, rest, rfl, hu, hbreaks⟩
    · exact .inl hblamed
    · refine .inr ⟨f, rfl, used' ++ used, _, rest, ?_, .category hspelled hu, hbreaks⟩
      rw [he, List.append_assoc]
  | case5 =>
    cases h
    exact .inl (isBlamed_text _ _)

theorem readItems_of_breaks (h : ItemsBreak declared f ts) :
    readItems declared lastLine label ts = .error (.numeral f) := by
  obtain ⟨used, items, rest, rfl, hu, hbreaks⟩ := h
  induction hu with
  | nil =>
    have hread : readCategory declared lastLine rest = .error (.numeral f) :=
      readCategory_of_breaks hbreaks
    obtain ⟨t, us, rfl, ht⟩ := hbreaks.exists_cons
    rw [List.nil_append, readItems_cons ht, hread]
    rfl
  | terminal hk _ ih => rw [List.cons_append, readItems, if_pos hk, ih, Except.map]
  | category hc _ ih => rw [List.append_assoc, readItems_append hc, ih, Except.map]

theorem explains_readRule {internal : Bool}
    (h : readRule declared lastLine internal ts = .error e) :
    Explains (RuleBreaks declared) ts e := by
  rcases bind_eq_error_iff.1 h with hl | ⟨⟨label, ts₁⟩, hl, h₁⟩
  · exact .inl (isBlamed_of_readLabel hl)
  obtain ⟨used, rfl, hlabel⟩ := labelSpelled_of_readLabel hl
  rcases bind_eq_error_iff.1 h₁ with hs | ⟨ts₂, hs, h₂⟩
  · exact .inl (isBlamed_of_readSymbol hs)
  obtain ⟨stop, rfl, hstop⟩ := readSymbol_eq_ok_iff.1 hs
  rcases bind_eq_error_iff.1 h₂ with hc | ⟨⟨c, ts₃⟩, hc, h₃⟩
  · rcases explains_readCategory hc with hblamed | ⟨f, rfl, hbreaks⟩
    · exact .inl hblamed
    · exact .inr ⟨f, rfl, .result hlabel hstop hbreaks⟩
  obtain ⟨result, rfl, hresult⟩ := readCategory_eq_ok_iff.1 hc
  rcases bind_eq_error_iff.1 h₃ with ha | ⟨ts₄, ha, h₄⟩
  · exact .inl (isBlamed_of_readSymbol ha)
  obtain ⟨arrow, rfl, harrow⟩ := readSymbol_eq_ok_iff.1 ha
  rcases bind_eq_error_iff.1 h₄ with hi | ⟨items, hi, h₅⟩
  · rcases explains_readItems hi with hblamed | ⟨f, rfl, hbreaks⟩
    · exact .inl hblamed
    · exact .inr ⟨f, rfl, .item hlabel hstop hresult harrow hbreaks⟩
  · cases h₅

theorem readRule_of_breaks {internal : Bool} (h : RuleBreaks declared f ts) :
    readRule declared lastLine internal ts = .error (.numeral f) := by
  cases h with
  | result hl hs hbreaks =>
    refine bind_eq_error_iff.2 (.inr ⟨_, readLabel_of_spelled hl hs _, ?_⟩)
    refine bind_eq_error_iff.2 (.inr ⟨_, readSymbol_eq_ok_iff.2 ⟨_, rfl, hs⟩, ?_⟩)
    exact bind_eq_error_iff.2 (.inl (readCategory_of_breaks hbreaks))
  | item hl hs hc ha hbreaks =>
    refine bind_eq_error_iff.2 (.inr ⟨_, readLabel_of_spelled hl hs _, ?_⟩)
    refine bind_eq_error_iff.2 (.inr ⟨_, readSymbol_eq_ok_iff.2 ⟨_, rfl, hs⟩, ?_⟩)
    refine bind_eq_error_iff.2 (.inr ⟨_, readCategory_append hc _, ?_⟩)
    refine bind_eq_error_iff.2 (.inr ⟨_, readSymbol_eq_ok_iff.2 ⟨_, rfl, ha⟩, ?_⟩)
    exact bind_eq_error_iff.2 (.inl (readItems_of_breaks hbreaks))

theorem explains_readListRules {terminated : Bool}
    (h : readListRules declared lastLine terminated ts = .error e) :
    Explains (ListPragmaBreaks declared) ts e := by
  rcases bind_eq_error_iff.1 h with hc | ⟨⟨element, ts₁⟩, -, h₁⟩
  · exact explains_readCategory hc
  rcases bind_eq_error_iff.1 h₁ with hd | ⟨⟨delimiter, rest⟩, -, h₂⟩
  · exact .inl (isBlamed_of_readToken hd)
  · cases h₂

theorem readListRules_of_breaks {terminated : Bool} (h : ListPragmaBreaks declared f ts) :
    readListRules declared lastLine terminated ts = .error (.numeral f) :=
  bind_eq_error_iff.2 (.inl (readCategory_of_breaks h))

theorem explains_readCoercionRules (h : readCoercionRules lastLine ts = .error e) :
    Explains CoercionsBreak ts e := by
  rcases bind_eq_error_iff.1 h with hb | ⟨⟨base, ts₁⟩, hb, h₁⟩
  · exact .inl (isBlamed_of_readToken hb)
  obtain ⟨b, rfl, hbk, rfl⟩ := readToken_eq_ok_iff.1 hb
  rcases bind_eq_error_iff.1 h₁ with hn | ⟨⟨digits, rest⟩, hn, h₂⟩
  · exact .inl (isBlamed_of_readToken hn)
  obtain ⟨n, rfl, hnk, rfl⟩ := readToken_eq_ok_iff.1 hn
  rcases bind_eq_error_iff.1 h₂ with hd | ⟨levels, -, h₃⟩
  · obtain ⟨f, hf, rfl⟩ := mapError_eq_error_iff.1 hd
    exact .inr ⟨f, rfl, .mk hbk hnk hf⟩
  · cases h₃

theorem readCoercionRules_of_breaks (h : CoercionsBreak f ts) :
    readCoercionRules lastLine ts = .error (.numeral f) := by
  cases h with
  | @mk base number rest hb hn hd =>
    refine bind_eq_error_iff.2 (.inr ⟨_, readToken_eq_ok_iff.2 ⟨base, rfl, hb, rfl⟩, ?_⟩)
    refine bind_eq_error_iff.2 (.inr ⟨_, readToken_eq_ok_iff.2 ⟨number, rfl, hn, rfl⟩, ?_⟩)
    exact bind_eq_error_iff.2 (.inl (mapError_eq_error_iff.2 ⟨f, hd, rfl⟩))

theorem explains_readEntrypoints (h : readEntrypoints declared lastLine ts = .error e) :
    Explains (EntrypointsBreak declared) ts e := by
  fun_induction readEntrypoints declared lastLine ts with
  | case1 => cases h
  | case2 ts _ e' he =>
    cases h
    rcases explains_readCategory he with hblamed | ⟨f, rfl, hbreaks⟩
    · exact .inl hblamed
    · exact .inr ⟨f, rfl, .first hbreaks⟩
  | case3 ts _ c rest hc ih =>
    obtain ⟨used, rfl, hspelled⟩ := readCategory_eq_ok_iff.1 hc
    rcases ih (map_eq_error_iff.1 h) with hblamed | ⟨f, rfl, hbreaks⟩
    · exact .inl hblamed
    · exact .inr ⟨f, rfl, .later hspelled hbreaks⟩

theorem readEntrypoints_of_breaks (h : EntrypointsBreak declared f ts) :
    readEntrypoints declared lastLine ts = .error (.numeral f) := by
  induction h with
  | first hbreaks =>
    have hread : readCategory declared lastLine _ = .error (.numeral f) :=
      readCategory_of_breaks hbreaks
    obtain ⟨t, us, rfl, -⟩ := hbreaks.exists_cons
    rw [readEntrypoints_of_ne_nil (by simp), hread]
    rfl
  | later hc _ ih => rw [readEntrypoints_append hc, ih, Except.map]

end Reading

namespace Statement

variable {s : Statement} {e : ReadFailure}

theorem explains_interpret (h : s.interpret declared = .error e) :
    e.IsBlamed ∨ ∃ f, e = .numeral f ∧ s.Breaks declared f := by
  rw [interpret] at h
  simp only [Breaks]
  split at h
  · cases h
  · cases h
  · next hp =>
    rw [hp]
    exact explains_readRule (map_eq_error_iff.1 h)
  · next hp =>
    rw [hp]
    exact explains_readListRules (map_eq_error_iff.1 h)
  · next hp =>
    rw [hp]
    exact explains_readListRules (map_eq_error_iff.1 h)
  · next hp =>
    rw [hp]
    exact explains_readCoercionRules (map_eq_error_iff.1 h)
  · next hp =>
    rw [hp]
    exact explains_readEntrypoints (map_eq_error_iff.1 h)
  · cases h
    exact .inl (isBlamed_text _ _)
  · next hp =>
    rw [hp]
    exact explains_readRule (map_eq_error_iff.1 h)

theorem interpret_of_breaks (h : s.Breaks declared f) :
    s.interpret declared = .error (.numeral f) := by
  rw [interpret]
  rw [Breaks] at h
  split at h
  · next hp =>
    rw [hp]
    exact map_eq_error_iff.2 (readRule_of_breaks h)
  · next hp =>
    rw [hp]
    exact map_eq_error_iff.2 (readRule_of_breaks h)
  · next hp =>
    rw [hp]
    exact map_eq_error_iff.2 (readListRules_of_breaks h)
  · next hp =>
    rw [hp]
    exact map_eq_error_iff.2 (readListRules_of_breaks h)
  · next hp =>
    rw [hp]
    exact map_eq_error_iff.2 (readCoercionRules_of_breaks h)
  · next hp =>
    rw [hp]
    exact map_eq_error_iff.2 (readEntrypoints_of_breaks h)
  · cases h
  · cases h
  · cases h

theorem interpret_eq_numeral_iff :
    s.interpret declared = .error (.numeral f) ↔ s.Breaks declared f := by
  constructor
  · intro h
    rcases explains_interpret h with ⟨fault, line, he⟩ | ⟨f', he, hbreaks⟩
    · cases he
    · cases he
      exact hbreaks
  · exact interpret_of_breaks

end Statement

section Tokens

variable {ts : List Token} {cs : List Char}

theorem tooLong_of_ofName (h : Category.ofName declared cs = .error f) :
    ∃ n, f = .tooLong n ∧ maxDigits < n ∧ n ≤ cs.length := by
  rw [Category.ofName] at h
  split at h
  · cases h
  · split at h
    · next stem digits hparts =>
      have hf := map_eq_error_iff.1 h
      rw [readAsciiDigits] at hf
      split at hf
      · next hlong =>
        cases hf
        obtain ⟨-, -, -, rfl⟩ := Category.levelParts?_eq_some hparts
        exact ⟨_, rfl, hlong, (List.rtakeWhile_suffix isAsciiDigit cs).length_le⟩
      · cases hf
    · cases h

/-- A name is only refused for the number of its digits. -/
theorem tooLong_of_ofChars (h : Category.ofChars declared cs = .error f) :
    ∃ n, f = .tooLong n ∧ maxDigits < n ∧ n ≤ cs.length := by
  have htrim := length_trimWith_le isBlank
  fun_induction Category.ofChars declared cs with
  | case1 cs inner hb ih =>
    obtain ⟨n, hf, hn, hle⟩ := ih (map_eq_error_iff.1 h)
    have hinner := Category.length_of_bracketed? hb
    have hcs := htrim cs
    rw [trimBlanks] at hinner
    exact ⟨n, hf, hn, by omega⟩
  | case2 cs hb =>
    obtain ⟨n, hf, hn, hle⟩ := tooLong_of_ofName h
    exact ⟨n, hf, hn, Nat.le_trans hle (htrim cs)⟩

/-- The token is a name with more digits at its end than are read, or a number that is not read. -/
def Token.IsUnreadable (f : NumeralFault) (t : Token) : Prop :=
  (t.kind = .word ∧ ∃ n, f = .tooLong n ∧ maxDigits < n ∧ n ≤ t.value.length) ∨
    (t.kind = .number ∧ readDigits t.value.toList = .error f)

theorem Category.Breaks.exists_isUnreadable (h : Category.Breaks declared f ts) :
    ∃ t ∈ ts, t.IsUnreadable f := by
  induction h with
  | @word t ts hk hn => exact ⟨t, List.mem_cons_self, .inl ⟨hk, tooLong_of_ofChars hn⟩⟩
  | list _ _ ih =>
    obtain ⟨t, ht, hu⟩ := ih
    exact ⟨t, List.mem_cons_of_mem _ ht, hu⟩

theorem RuleBreaks.exists_isUnreadable (h : RuleBreaks declared f ts) :
    ∃ t ∈ ts, t.IsUnreadable f := by
  cases h with
  | result _ _ hbreaks =>
    obtain ⟨t, ht, hu⟩ := hbreaks.exists_isUnreadable
    exact ⟨t, by simp [ht], hu⟩
  | item _ _ _ _ hitems =>
    obtain ⟨used, items, rest, rfl, -, hbreaks⟩ := hitems
    obtain ⟨t, ht, hu⟩ := hbreaks.exists_isUnreadable
    exact ⟨t, by simp [ht], hu⟩

theorem ListPragmaBreaks.exists_isUnreadable (h : ListPragmaBreaks declared f ts) :
    ∃ t ∈ ts, t.IsUnreadable f := by
  obtain ⟨t, ht, hu⟩ := Category.Breaks.exists_isUnreadable h
  refine ⟨t, ?_, hu⟩
  split at ht
  · exact List.mem_of_mem_tail ht
  · exact ht

theorem CoercionsBreak.exists_isUnreadable (h : CoercionsBreak f ts) :
    ∃ t ∈ ts, t.IsUnreadable f := by
  cases h with
  | @mk base number ts _ hn hd => exact ⟨number, by simp, .inr ⟨hn, hd⟩⟩

theorem EntrypointsBreak.exists_isUnreadable (h : EntrypointsBreak declared f ts) :
    ∃ t ∈ ts, t.IsUnreadable f := by
  induction h with
  | first hbreaks => exact hbreaks.exists_isUnreadable
  | @later used ts c _ _ ih =>
    obtain ⟨t, ht, hu⟩ := ih
    exact ⟨t, List.mem_append_right used (mem_of_mem_skipComma ht), hu⟩

theorem Statement.Breaks.exists_isUnreadable {s : Statement} (h : s.Breaks declared f) :
    ∃ t ∈ s.tokens, t.IsUnreadable f := by
  have htail : (∃ t ∈ s.tail, t.IsUnreadable f) → ∃ t ∈ s.tokens, t.IsUnreadable f := by
    rintro ⟨t, ht, hu⟩
    exact ⟨t, List.mem_cons_of_mem s.head ht, hu⟩
  rw [Statement.Breaks] at h
  split at h
  · exact h.exists_isUnreadable
  · exact htail h.exists_isUnreadable
  · exact htail h.exists_isUnreadable
  · exact htail h.exists_isUnreadable
  · exact htail h.exists_isUnreadable
  · exact htail h.exists_isUnreadable
  all_goals cases h

end Tokens

namespace Grammar

/-- The first statement of the text that cannot be interpreted meets a numeral which cannot be
read. -/
def MeetsNumeral (f : NumeralFault) (text : String) : Prop :=
  (tokenize text).fault? = none ∧
    ∃ before s after, statements text = before ++ s :: after ∧
      (∀ s' ∈ before, ∃ c, s'.interpret (Reading.declaredNames (statements text)) = .ok c) ∧
      s.Breaks (Reading.declaredNames (statements text)) f

theorem read_eq_numeral_iff {text : String} :
    read text = .error (.numeral f) ↔ MeetsNumeral f text := by
  cases hfault : (tokenize text).fault? with
  | some p => simp [read_of_fault? hfault, MeetsNumeral, hfault]
  | none =>
    rw [read_of_fault?_eq_none hfault, Reading.ofStatements_eq_error_iff, MeetsNumeral]
    simp only [hfault, true_and, Statement.interpret_eq_numeral_iff]

theorem blamed_or_meetsNumeral {text : String} {e : ReadFailure} (h : read text = .error e) :
    e.IsBlamed ∨ ∃ f, e = .numeral f ∧ MeetsNumeral f text := by
  cases hfault : (tokenize text).fault? with
  | some p =>
    rw [read_of_fault? hfault] at h
    cases h
    exact .inl (isBlamed_text _ _)
  | none =>
    have hread := h
    rw [read_of_fault?_eq_none hfault] at h
    obtain ⟨before, s, after, -, -, hs⟩ := Reading.ofStatements_eq_error_iff.1 h
    rcases Statement.explains_interpret hs with hblamed | ⟨f, rfl, -⟩
    · exact .inl hblamed
    · exact .inr ⟨f, rfl, read_eq_numeral_iff.1 hread⟩

theorem MeetsNumeral.exists_isUnreadable {text : String} (h : MeetsNumeral f text) :
    ∃ s ∈ statements text, ∃ t ∈ s.tokens, t.IsUnreadable f := by
  obtain ⟨-, before, s, after, hss, -, hbreaks⟩ := h
  exact ⟨s, by simp [hss], hbreaks.exists_isUnreadable⟩

end Grammar
end GrammarBindings
