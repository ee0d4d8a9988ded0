import GrammarBindings.Text.Numeral
import GrammarBindings.Proofs.Margins
import GrammarBindings.Proofs.Pieces

/-!
# Signed numerals

An integer is written in groups of decimal digits, joined by single underscores, behind at most one
sign and between margins. Exactly such texts are read, if they do not have too many digits.
-/

namespace GrammarBindings.Text

/-- Groups of decimal digits as they are written, joined by single underscores. -/
structure AreGrouped (groups : List (List Char)) (cs : List Char) : Prop where
  ne_nil : groups ≠ []
  digits : ∀ g ∈ groups, g ≠ [] ∧ ∀ c ∈ g, isDecimal c = true
  joined : cs = ['_'].intercalate groups

/-- The number that is written by a text of grouped digits. -/
inductive SpellsNatural (cs : List Char) : Nat → Prop where
  | mk {groups : List (List Char)} (grouped : AreGrouped groups cs)
      (short : groups.flatten.length ≤ maxDigits) :
      SpellsNatural cs (ofDecimals (groups.flatten.filterMap decimalValue?))

inductive SpellsSigned : List Char → Int → Prop where
  | bare {cs : List Char} {n : Nat} (h : SpellsNatural cs n) : SpellsSigned cs n
  | plus {cs : List Char} {n : Nat} (h : SpellsNatural cs n) : SpellsSigned ('+' :: cs) n
  | minus {cs : List Char} {n : Nat} (h : SpellsNatural cs n) : SpellsSigned ('-' :: cs) (-n)

/-- The text is an integer between margins. -/
def SpellsInteger (text : String) (e : Int) : Prop :=
  ∃ front cs back, text.toList = front ++ (cs ++ back) ∧
    (∀ c ∈ front, isNumeralMargin c = true) ∧ (∀ c ∈ back, isNumeralMargin c = true) ∧
      SpellsSigned cs e

variable {c : Char} {cs ds : List Char} {groups : List (List Char)} {n : Nat} {e : Int}
  {text : String}

theorem isDecimal_iff : isDecimal c = true ↔ ∃ z ∈ decimalZeros, z ≤ c.toNat ∧ c.toNat < z + 10 := by
  simp [isDecimal, decimalValue?]

theorem isNumeralMargin_of_isDecimal (h : isDecimal c = true) : isNumeralMargin c = false := by
  obtain ⟨z, hz, hlo, hhi⟩ := isDecimal_iff.1 h
  have hapart : ∀ z ∈ decimalZeros, ∀ p ∈ blankRanges, p.2 < z ∨ z + 10 ≤ p.1 := by decide
  rw [isNumeralMargin, Bool.and_eq_false_iff, Bool.eq_false_iff]
  refine .inl fun hblank => ?_
  obtain ⟨p, hp, hlo', hhi'⟩ := CodeRanges.exists_of_contains hblank
  have := hapart z hz p hp
  omega

theorem AreGrouped.isDecimal_or_eq (h : AreGrouped groups cs) (hc : c ∈ cs) :
    isDecimal c = true ∨ c = '_' := by
  rw [h.joined] at hc
  rcases exists_mem_of_mem_intercalate hc with hmark | ⟨g, hg, hc⟩
  · exact .inr (List.mem_singleton.1 hmark)
  · exact .inl ((h.digits g hg).2 c hc)

theorem ungroup?_eq_some_iff :
    ungroup? cs = some ds ↔ ∃ groups, AreGrouped groups cs ∧ ds = groups.flatten := by
  rw [ungroup?]
  constructor
  · intro h
    split at h
    · next hall =>
      refine ⟨cs.splitOn '_', ⟨List.splitOn_ne_nil _ _, ?_, ?_⟩, (Option.some.inj h).symm⟩
      · simpa using hall
      · exact (List.intercalate_splitOn '_').symm
    · cases h
  · rintro ⟨groups, hgroups, rfl⟩
    have hmark : ∀ g ∈ groups, '_' ∉ g := fun g hg hmem =>
      absurd ((hgroups.digits g hg).2 _ hmem) (by decide)
    have hsplit : cs.splitOn '_' = groups := by
      rw [hgroups.joined, List.splitOn_intercalate '_' hmark hgroups.ne_nil]
    rw [hsplit, if_pos]
    simpa using hgroups.digits

theorem natural?_eq_some_iff : readSigned?.natural? cs = some n ↔ SpellsNatural cs n := by
  rw [readSigned?.natural?, Option.bind_eq_some_iff]
  constructor
  · rintro ⟨ds, hds, hn⟩
    obtain ⟨groups, hgroups, rfl⟩ := ungroup?_eq_some_iff.1 hds
    split at hn
    · cases hn
    · next hlong =>
      cases hn
      exact .mk hgroups (Nat.not_lt.1 hlong)
  · rintro ⟨hgroups, hshort⟩
    exact ⟨_, ungroup?_eq_some_iff.2 ⟨_, hgroups, rfl⟩, if_neg (Nat.not_lt.2 hshort)⟩

theorem SpellsNatural.isDecimal_or_eq (h : SpellsNatural cs n) (hc : c ∈ cs) :
    isDecimal c = true ∨ c = '_' := by
  obtain ⟨hgroups, -⟩ := h
  exact hgroups.isDecimal_or_eq hc

theorem SpellsSigned.isNumeralMargin_eq_false (h : SpellsSigned cs e) (hc : c ∈ cs) :
    isNumeralMargin c = false := by
  have hnatural {cs : List Char} {n : Nat} (h : SpellsNatural cs n) (hc : c ∈ cs) :
      isNumeralMargin c = false := by
    rcases h.isDecimal_or_eq hc with hdecimal | rfl
    · exact isNumeralMargin_of_isDecimal hdecimal
    · rfl
  cases h with
  | bare h => exact hnatural h hc
  | plus h =>
    rcases List.mem_cons.1 hc with rfl | hc
    · rfl
    · exact hnatural h hc
  | minus h =>
    rcases List.mem_cons.1 hc with rfl | hc
    · rfl
    · exact hnatural h hc

/-- No sign is taken for a part of the digits. -/
theorem not_spellsNatural_cons (hdecimal : isDecimal c = false) (hmark : c ≠ '_') :
    ¬ SpellsNatural (c :: cs) n := by
  intro h
  rcases h.isDecimal_or_eq List.mem_cons_self with htrue | heq
  · cases hdecimal.symm.trans htrue
  · exact hmark heq

/-- What is left without the margins is read by its sign. -/
theorem readSigned?_eq_some_iff_signed :
    readSigned? text = some e ↔ SpellsSigned (trimWith isNumeralMargin text.toList) e := by
  rw [readSigned?]
  generalize trimWith isNumeralMargin text.toList = signed
  split
  · next cs =>
    simp only [Option.map_eq_some_iff, Option.bind_eq_bind, Option.bind_eq_some_iff,
      natural?_eq_some_iff]
    constructor
    · rintro ⟨_, ⟨n, hn, hpure⟩, rfl⟩
      cases hpure
      exact .minus hn
    · intro h
      cases h with
      | bare h => exact absurd h (not_spellsNatural_cons (by decide) (by decide))
      | minus h => exact ⟨_, ⟨_, h, rfl⟩, rfl⟩
  · next cs =>
    simp only [Option.map_eq_some_iff, natural?_eq_some_iff]
    constructor
    · rintro ⟨n, hn, rfl⟩
      exact .plus hn
    · intro h
      cases h with
      | bare h => exact absurd h (not_spellsNatural_cons (by decide) (by decide))
      | plus h => exact ⟨_, h, rfl⟩
  · next hminus hplus =>
    simp only [Option.map_eq_some_iff, natural?_eq_some_iff]
    constructor
    · rintro ⟨n, hn, rfl⟩
      exact .bare hn
    · intro h
      cases h with
      | bare h => exact ⟨_, h, rfl⟩
      | plus h => exact absurd rfl (hplus _)
      | minus h => exact absurd rfl (hminus _)

theorem readSigned?_eq_some_iff : readSigned? text = some e ↔ SpellsInteger text e := by
  rw [readSigned?_eq_some_iff_signed]
  constructor
  · intro h
    obtain ⟨front, back, htext, hfront, hback⟩ := exists_margins isNumeralMargin text.toList
    exact ⟨front, _, back, htext, hfront, hback, h⟩
  · rintro ⟨front, cs, back, htext, hfront, hback, h⟩
    rw [htext, trimWith_margins hfront hback]
    · exact h
    · exact fun c hc => h.isNumeralMargin_eq_false (List.mem_of_mem_head? hc)
    · exact fun c hc => h.isNumeralMargin_eq_false (List.mem_of_getLast? hc)

end GrammarBindings.Text
