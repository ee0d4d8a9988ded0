import GrammarBindings.Proofs.Spelling
import GrammarBindings.Proofs.StatementSequence
import GrammarBindings.Proofs.TokenLines

/-!
# Lines that are blamed

A fault in a statement is blamed on the line of one of its tokens, and a statement that ends too
early on that of the last one. These lines, and the line of a literal or comment that is not closed,
are the true ones unless a literal in front of them has a line end in its value.
-/

namespace GrammarBindings

open Text

/-- The failure has no line, or that of one of the tokens, or the one where the statement ends. -/
def BlamesLineOf (lastLine : Nat) (ts : List Token) (e : ReadFailure) : Prop :=
  ∀ line, e.line? = some line → line = lastLine ∨ ∃ t ∈ ts, t.line = line

section Reading

variable {declared : List String} {lastLine : Nat} {label : Label} {ts us : List Token}
  {e : ReadFailure}

theorem BlamesLineOf.mono (h : BlamesLineOf lastLine us e) (hsub : us ⊆ ts) :
    BlamesLineOf lastLine ts e := fun line hline =>
  (h line hline).imp_right fun ⟨t, ht, hl⟩ => ⟨t, hsub ht, hl⟩

theorem blamesLineOf_last (fault : TextFault) (ts : List Token) :
    BlamesLineOf lastLine ts (.text fault lastLine) := fun _ hline => by
  cases hline
  exact .inl rfl

theorem blamesLineOf_mem (fault : TextFault) {t : Token} (ht : t ∈ ts) :
    BlamesLineOf lastLine ts (.text fault t.line) := fun _ hline => by
  cases hline
  exact .inr ⟨t, ht, rfl⟩

theorem blamesLineOf_numeral (f : NumeralFault) (ts : List Token) :
    BlamesLineOf lastLine ts (.numeral f) := nofun

theorem blamesLineOf_of_readSymbol {s : String} (h : readSymbol lastLine s ts = .error e) :
    BlamesLineOf lastLine ts e := by
  cases ts with
  | nil =>
    cases h
    exact blamesLineOf_last _ _
  | cons t ts =>
    rw [readSymbol] at h
    split at h
    · cases h
    · cases h
      exact blamesLineOf_mem _ List.mem_cons_self

theorem blamesLineOf_of_readToken {kind : TokenKind} (h : readToken lastLine kind ts = .error e) :
    BlamesLineOf lastLine ts e := by
  cases ts with
  | nil =>
    cases h
    exact blamesLineOf_last _ _
  | cons t ts =>
    rw [readToken] at h
    split at h
    · cases h
    · cases h
      exact blamesLineOf_mem _ List.mem_cons_self

theorem blamesLineOf_of_readLabel (h : readLabel lastLine ts = .error e) :
    BlamesLineOf lastLine ts e := by
  rw [readLabel] at h
  split at h
  · cases h
  · dsimp only at h
    split at h
    · next t hfind =>
      cases h
      have hmem := List.mem_of_find?_eq_some hfind
      exact blamesLineOf_mem _ ((List.takeWhile_sublist _).subset hmem)
    · split at h
      · cases h
      · cases h
        cases hhead : (ts.dropWhile fun t => !t.isSymbol ".").head? with
        | none => exact blamesLineOf_last _ _
        | some t =>
          have hmem := List.mem_of_head? hhead
          exact blamesLineOf_mem _ ((List.dropWhile_sublist _).subset hmem)

theorem blamesLineOf_of_readCategory (h : readCategory declared lastLine ts = .error e) :
    BlamesLineOf lastLine ts e := by
  induction ts generalizing e with
  | nil =>
    cases h
    exact blamesLineOf_last _ _
  | cons t ts ih =>
    rw [readCategory] at h
    split at h
    · split at h
      · next he =>
        cases h
        exact (ih he).mono (List.subset_cons_self t ts)
      · next hc =>
        obtain ⟨used, rfl, -⟩ := readCategory_eq_ok_iff.1 hc
        split at h
        · next hs =>
          cases h
          exact (blamesLineOf_of_readSymbol hs).mono fun t' ht' =>
            List.mem_cons_of_mem t (List.mem_append_right used ht')
        · cases h
    · split at h
      · split at h
        · cases h
          exact blamesLineOf_numeral _ _
        · cases h
      · cases h
        exact blamesLineOf_mem _ List.mem_cons_self

theorem blamesLineOf_of_readItems (h : readItems declared lastLine label ts = .error e) :
    BlamesLineOf lastLine ts e := by
  fun_induction readItems declared lastLine label ts with
  | case1 => cases h
  | case2 t ts _ ih => exact (ih (map_eq_error_iff.1 h)).mono (List.subset_cons_self t ts)
  | case3 t ts _ _ e' he =>
    cases h
    exact blamesLineOf_of_readCategory he
  | case4 t ts _ _ c rest hc ih =>
    obtain ⟨used, hused, -⟩ := readCategory_eq_ok_iff.1 hc
    rw [hused]
    exact (ih (map_eq_error_iff.1 h)).mono (List.subset_append_right used rest)
  | case5 =>
    cases h
    exact blamesLineOf_mem _ List.mem_cons_self

theorem blamesLineOf_of_readRule {internal : Bool}
    (h : readRule declared lastLine internal ts = .error e) : BlamesLineOf lastLine ts e := by
  rcases bind_eq_error_iff.1 h with hl | ⟨⟨label, ts₁⟩, hl, h₁⟩
  · exact blamesLineOf_of_readLabel hl
  obtain ⟨used, rfl, -⟩ := labelSpelled_of_readLabel hl
  refine BlamesLineOf.mono ?_ (List.subset_append_right used ts₁)
  rcases bind_eq_error_iff.1 h₁ with hs | ⟨ts₂, hs, h₂⟩
  · exact blamesLineOf_of_readSymbol hs
  obtain ⟨stop, rfl, -⟩ := readSymbol_eq_ok_iff.1 hs
  refine BlamesLineOf.mono ?_ (List.subset_cons_self stop ts₂)
  rcases bind_eq_error_iff.1 h₂ with hc | ⟨⟨c, ts₃⟩, hc, h₃⟩
  · exact blamesLineOf_of_readCategory hc
  obtain ⟨result, rfl, -⟩ := readCategory_eq_ok_iff.1 hc
  refine BlamesLineOf.mono ?_ (List.subset_append_right result ts₃)
  rcases bind_eq_error_iff.1 h₃ with ha | ⟨ts₄, ha, h₄⟩
  · exact blamesLineOf_of_readSymbol ha
  obtain ⟨arrow, rfl, -⟩ := readSymbol_eq_ok_iff.1 ha
  refine BlamesLineOf.mono ?_ (List.subset_cons_self arrow ts₄)
  rcases bind_eq_error_iff.1 h₄ with hi | ⟨items, -, h₅⟩
  · exact blamesLineOf_of_readItems hi
  · cases h₅

theorem blamesLineOf_of_readListRules {terminated : Bool}
    (h : readListRules declared lastLine terminated ts = .error e) :
    BlamesLineOf lastLine ts e := by
  have hsub : (if ts.head?.any fun t => t.kind = .word && t.value = "nonempty" then ts.tail
      else ts) ⊆ ts := by
    split
    · exact fun _ => List.mem_of_mem_tail
    · exact List.Subset.refl ts
  refine BlamesLineOf.mono ?_ hsub
  rcases bind_eq_error_iff.1 h with hc | ⟨⟨element, rest⟩, hc, h₁⟩
  · exact blamesLineOf_of_readCategory hc
  obtain ⟨used, hused, -⟩ := readCategory_eq_ok_iff.1 hc
  rw [hused]
  refine BlamesLineOf.mono ?_ (List.subset_append_right used rest)
  rcases bind_eq_error_iff.1 h₁ with hd | ⟨⟨delimiter, more⟩, -, h₂⟩
  · exact blamesLineOf_of_readToken hd
  · cases h₂

theorem blamesLineOf_of_readCoercionRules (h : readCoercionRules lastLine ts = .error e) :
    BlamesLineOf lastLine ts e := by
  rcases bind_eq_error_iff.1 h with hb | ⟨⟨base, ts₁⟩, hb, h₁⟩
  · exact blamesLineOf_of_readToken hb
  obtain ⟨b, rfl, -, -⟩ := readToken_eq_ok_iff.1 hb
  refine BlamesLineOf.mono ?_ (List.subset_cons_self b ts₁)
  rcases bind_eq_error_iff.1 h₁ with hn | ⟨⟨digits, rest⟩, -, h₂⟩
  · exact blamesLineOf_of_readToken hn
  rcases bind_eq_error_iff.1 h₂ with hd | ⟨levels, -, h₃⟩
  · obtain ⟨f, -, rfl⟩ := mapError_eq_error_iff.1 hd
    exact blamesLineOf_numeral f _
  · cases h₃

theorem blamesLineOf_of_readEntrypoints (h : readEntrypoints declared lastLine ts = .error e) :
    BlamesLineOf lastLine ts e := by
  fun_induction readEntrypoints declared lastLine ts with
  | case1 => cases h
  | case2 ts _ e' he =>
    cases h
    exact blamesLineOf_of_readCategory he
  | case3 ts _ c rest hc ih =>
    obtain ⟨used, rfl, -⟩ := readCategory_eq_ok_iff.1 hc
    exact (ih (map_eq_error_iff.1 h)).mono fun t ht =>
      List.mem_append_right used (mem_of_mem_skipComma ht)

end Reading

namespace Statement

theorem lastLine_mem (s : Statement) : ∃ t ∈ s.tokens, t.line = s.lastLine := by
  rw [lastLine]
  cases hlast : s.tail.getLast? with
  | none => exact ⟨s.head, List.mem_cons_self, rfl⟩
  | some t => exact ⟨t, List.mem_cons_of_mem s.head (List.mem_of_getLast? hlast), rfl⟩

/-- A statement that cannot be interpreted is blamed on the line of one of its tokens. -/
theorem blamesLine_of_interpret {declared : List String} {s : Statement} {e : ReadFailure}
    (h : s.interpret declared = .error e) {line : Nat} (hline : e.line? = some line) :
    ∃ t ∈ s.tokens, t.line = line := by
  have htail : s.tail ⊆ s.tokens := List.subset_cons_self s.head s.tail
  have hblames : BlamesLineOf s.lastLine s.tokens e := by
    rw [interpret] at h
    split at h
    · cases h
    · cases h
    · exact (blamesLineOf_of_readRule (map_eq_error_iff.1 h)).mono htail
    · exact (blamesLineOf_of_readListRules (map_eq_error_iff.1 h)).mono htail
    · exact (blamesLineOf_of_readListRules (map_eq_error_iff.1 h)).mono htail
    · exact (blamesLineOf_of_readCoercionRules (map_eq_error_iff.1 h)).mono htail
    · exact (blamesLineOf_of_readEntrypoints (map_eq_error_iff.1 h)).mono htail
    · cases h
      exact blamesLineOf_mem _ List.mem_cons_self
    · exact blamesLineOf_of_readRule (map_eq_error_iff.1 h)
  rcases hblames line hline with rfl | hmem
  · exact s.lastLine_mem
  · exact hmem

end Statement

/-- A text that cannot be read is blamed on the line of what is not closed in it, or on that of one
of its tokens. -/
theorem Grammar.blamesLine_of_read {text : String} {e : ReadFailure} (h : read text = .error e)
    {line : Nat} (hline : e.line? = some line) :
    (∃ fault, (tokenize text).fault? = some (fault, line)) ∨
      ∃ t ∈ (tokenize text).tokens, t.line = line := by
  cases hfault : (tokenize text).fault? with
  | some p =>
    obtain ⟨fault, n⟩ := p
    rw [read_of_fault? hfault] at h
    cases h
    cases hline
    exact .inl ⟨fault, rfl⟩
  | none =>
    rw [read_of_fault?_eq_none hfault] at h
    obtain ⟨before, s, after, hss, -, hs⟩ := Reading.ofStatements_eq_error_iff.1 h
    obtain ⟨t, ht, hl⟩ := Statement.blamesLine_of_interpret hs hline
    have hmem : s ∈ statements text := hss ▸ List.mem_append_right before List.mem_cons_self
    exact .inr ⟨t, Statement.mem_of_mem_split hmem ht, hl⟩

/-- Every token, and every literal or comment that is not closed, is come to behind the tokens in
front of it. The line that it carries falls behind by the line ends in the values of these, so it is
the true one exactly if there are none. A text that cannot be read is blamed on one of these
lines. -/
theorem lines_of_tokenize (text : String) :
    (∀ earlier t later, (tokenize text).tokens = earlier ++ t :: later →
      ∃ front left, text.toList = front ++ left ∧ t.IsAt left ∧
        ComesTo 1 text.toList earlier t.line left ∧
        t.line + lineEndsOf earlier = 1 + front.count '\n' ∧
        (t.line = 1 + front.count '\n' ↔ ∀ s ∈ earlier, '\n' ∉ s.value.toList)) ∧
      (∀ fault line, (tokenize text).fault? = some (fault, line) →
        ∃ front left, text.toList = front ++ left ∧ fault.IsAt left ∧
          ComesTo 1 text.toList (tokenize text).tokens line left ∧
          line + lineEndsOf (tokenize text).tokens = 1 + front.count '\n' ∧
          (line = 1 + front.count '\n' ↔
            ∀ s ∈ (tokenize text).tokens, '\n' ∉ s.value.toList)) ∧
      ∀ e line, Grammar.read text = .error e → e.line? = some line →
        (∃ fault, (tokenize text).fault? = some (fault, line)) ∨
          ∃ t ∈ (tokenize text).tokens, t.line = line := by
  have htrue : ∀ {line : Nat} {earlier : List Token} {front : List Char},
      line + lineEndsOf earlier = 1 + front.count '\n' →
        (line = 1 + front.count '\n' ↔ ∀ s ∈ earlier, '\n' ∉ s.value.toList) := by
    intro line earlier front hsum
    rw [← lineEndsOf_eq_zero_iff]
    omega
  refine ⟨fun earlier t later htokens => ?_, fun fault line hfault => ?_,
    fun e line h hline => Grammar.blamesLine_of_read h hline⟩
  · obtain ⟨left, hcomes, ht⟩ := exists_comesTo_of_tokens htokens
    obtain ⟨front, hfront, hsum⟩ := hcomes.exists_front
    exact ⟨front, left, hfront, ht, hcomes, hsum, htrue hsum⟩
  · obtain ⟨left, hcomes, hf⟩ := exists_comesTo_of_fault hfault
    obtain ⟨front, hfront, hsum⟩ := hcomes.exists_front
    exact ⟨front, left, hfront, hf, hcomes, hsum, htrue hsum⟩

/-- Behind a literal with a line end in it, a token carries the line on which the literal began. -/
theorem tokenize_escaped_lineEnd :
    let text := "\"a\\\nb\" X"
    ¬ ∀ earlier t later front left, (tokenize text).tokens = earlier ++ t :: later →
      text.toList = front ++ left → ComesTo 1 text.toList earlier t.line left → t.IsAt left →
        t.line = 1 + front.count '\n' := by
  intro text h
  have htokens : (tokenize text).tokens = [⟨.literal, "a\nb", 1⟩] ++ ⟨.word, "X", 1⟩ :: [] := by
    decide +kernel
  obtain ⟨left, hcomes, ht⟩ := exists_comesTo_of_tokens htokens
  obtain ⟨front, hfront, hsum⟩ := hcomes.exists_front
  have hline := h _ _ _ front left htokens hfront hcomes ht
  have hends : lineEndsOf [⟨.literal, "a\nb", 1⟩] = 1 := by decide
  rw [hends, ← hline] at hsum
  cases hsum

end GrammarBindings
