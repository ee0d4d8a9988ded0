import GrammarBindings.Grammar.Category
import GrammarBindings.Proofs.Words
import Mathlib.Data.List.DropRight

/-!
# Reading the written form of a category

A category is canonical for the declared tokens when its innermost name is classified as it says:
a token is a known one, a plain name is none and does not end in a digit, and a level stands behind
such a name without making a token of it. The written form of a canonical category is read as that
category.
-/

namespace GrammarBindings

open Text

theorem isAsciiDigit_of_mem_toDigits {k : Nat} {c : Char} (h : c ∈ Nat.toDigits 10 k) :
    isAsciiDigit c = true :=
  Nat.isDigit_of_mem_toDigits (by decide) (by decide) h

theorem continuesWord_of_isAsciiDigit {c : Char} (h : isAsciiDigit c = true) :
    continuesWord c = true := by
  have hc : 48 ≤ c.toNat ∧ c.toNat ≤ 57 := Char.isDigit_iff_toNat.1 h
  have hn : isNumeral c = true := by
    rw [isNumeral, numeralRanges, CodeRanges.contains]
    rw [if_neg (by omega), if_pos hc.2]
  simp [continuesWord, hn]

theorem isDigit_of_isAsciiDigit {c : Char} (h : isAsciiDigit c = true) : isDigit c = true := by
  have hc : 48 ≤ c.toNat ∧ c.toNat ≤ 57 := Char.isDigit_iff_toNat.1 h
  rw [isDigit, digitRanges, CodeRanges.contains, if_neg (by omega), if_pos hc.2]

def endsInDigit (s : String) : Bool := s.toList.getLast?.any isAsciiDigit

/-- The digits at the end of a name are those behind its last character of another kind. -/
theorem span_trailing_digits {stem digits : List Char} (hd : ∀ c ∈ digits, isAsciiDigit c = true)
    (hs : ∀ c ∈ stem.getLast?, isAsciiDigit c = false) :
    (stem ++ digits).reverse.takeWhile isAsciiDigit = digits.reverse ∧
      (stem ++ digits).reverse.dropWhile isAsciiDigit = stem.reverse := by
  have hd' : ∀ c ∈ digits.reverse, isAsciiDigit c = true := fun c hc => hd c (List.mem_reverse.1 hc)
  rw [List.reverse_append, List.takeWhile_append_of_pos hd', List.dropWhile_append_of_pos hd']
  rw [← List.head?_reverse] at hs
  cases hr : stem.reverse with
  | nil => simp
  | cons c cs =>
    have hc : isAsciiDigit c = false := hs c (by rw [hr]; rfl)
    simp [hc]

theorem not_digit_of_endsInDigit {s : String} (h : endsInDigit s = false) :
    ∀ c ∈ s.toList.getLast?, isAsciiDigit c = false := by
  intro c hc
  rw [Option.mem_def] at hc
  rw [endsInDigit, hc] at h
  exact h

namespace Category

theorem levelParts?_append {stem digits : List Char} (hd : ∀ c ∈ digits, isAsciiDigit c = true)
    (hs : ∀ c ∈ stem.getLast?, isAsciiDigit c = false) (hdigits : digits ≠ [])
    (hstem : stem ≠ []) (hline : '\n' ∉ stem) :
    levelParts? (stem ++ digits) = some (stem, digits) := by
  obtain ⟨ht, hdrop⟩ := span_trailing_digits hd hs
  have hline' : '\n' ∉ stem.dropLast := fun h =>
    hline ((List.dropLast_sublist stem).subset h)
  rw [levelParts?]
  rw [ht, hdrop, List.reverse_reverse, List.reverse_reverse]
  simp [hdigits, hstem, hline']

theorem levelParts?_eq_some {cs stem digits : List Char}
    (h : levelParts? cs = some (stem, digits)) :
    stem ≠ [] ∧ digits ≠ [] ∧ stem = cs.rdropWhile isAsciiDigit ∧
      digits = cs.rtakeWhile isAsciiDigit := by
  rw [levelParts?] at h
  split at h
  · cases h
  · next hparts =>
    obtain ⟨rfl, rfl⟩ := Prod.mk.inj (Option.some.inj h)
    simp only [Bool.or_eq_true, not_or, List.isEmpty_iff] at hparts
    exact ⟨hparts.1.2, hparts.1.1, rfl, rfl⟩

theorem levelParts?_eq_none {cs : List Char}
    (h : ∀ c ∈ cs.getLast?, isAsciiDigit c = false) : levelParts? cs = none := by
  obtain ⟨ht, -⟩ := span_trailing_digits (List.forall_mem_nil _) h
  rw [List.append_nil] at ht
  simp [levelParts?, ht]

/-- A word is a name without brackets, and nothing of it is trimmed. -/
theorem ofChars_word {cs : List Char} (h : isWordChars cs = true) (declared : List String) :
    ofChars declared cs = ofName declared cs := by
  have hb : bracketed? cs = none := by
    obtain ⟨c, cs, rfl, hc, -⟩ := exists_cons_of_isWordChars h
    have hne : c ≠ '[' := ne_of_class hc rfl
    rw [bracketed?]
    intro inner he
    exact hne (List.cons.inj he).1
  rw [ofChars, trimBlanks_of_isWordChars h]
  split
  · next he => rw [hb] at he; cases he
  · rfl

/-- What a word is read as depends on the declared names and its last characters alone. -/
theorem read_word {s : String} (h : isWord s = true) (declared : List String) :
    read declared s = ofName declared s.toList :=
  ofChars_word h declared

/-- The innermost name of a canonical category has one reading, which is the category's leaf. -/
inductive Canonical (declared : List String) : Category → Prop where
  | plain {name : String} (word : isWord name = true)
      (unknown : name ∉ baseTokens ∧ name ∉ declared) (stem : endsInDigit name = false) :
      Canonical declared (plain name)
  | token {name : String} (known : name ∈ baseTokens ∨ name ∈ declared) :
      Canonical declared (token name)
  | level {name : String} {rank : Int} (word : isWord name = true) (stem : endsInDigit name = false)
      (rank_nonneg : 0 ≤ rank) (short : (toString rank).length ≤ maxDigits)
      (unknown : name ++ toString rank ∉ declared) : Canonical declared (level name rank)
  | list {element : Category} (element_canonical : Canonical declared element) :
      Canonical declared (list element)

theorem isWord_of_mem_baseTokens {s : String} (h : s ∈ baseTokens) : isWord s = true := by
  simp only [baseTokens, List.mem_cons, List.not_mem_nil, or_false] at h
  rcases h with rfl | rfl | rfl | rfl | rfl <;> decide +kernel

theorem endsInDigit_of_mem_baseTokens {s : String} (h : s ∈ baseTokens) :
    endsInDigit s = false := by
  simp only [baseTokens, List.mem_cons, List.not_mem_nil, or_false] at h
  rcases h with rfl | rfl | rfl | rfl | rfl <;> decide +kernel

theorem ofName_token {declared : List String} {s : String}
    (h : s ∈ baseTokens ∨ s ∈ declared) : ofName declared s.toList = .ok (token s) := by
  rw [ofName, String.ofList_toList, if_pos (by simpa using h)]

theorem ofName_plain {declared : List String} {s : String}
    (h : s ∉ baseTokens ∧ s ∉ declared) (hs : endsInDigit s = false) :
    ofName declared s.toList = .ok (plain s) := by
  rw [ofName, String.ofList_toList, if_neg (by simpa using h),
    levelParts?_eq_none (not_digit_of_endsInDigit hs)]

theorem toString_natCast (k : Nat) : (toString (k : Int)).toList = Nat.toDigits 10 k := by
  change (Nat.repr k).toList = _
  exact Nat.toList_repr

/-- A name with digits behind it is a level, unless it is declared with them. -/
theorem ofName_digits {declared : List String} {s : String} {ds : List Char}
    (hw : isWord s = true) (hs : endsInDigit s = false)
    (hd : ds ≠ [] ∧ ∀ c ∈ ds, isAsciiDigit c = true) (hshort : ds.length ≤ maxDigits)
    (hu : s ++ String.ofList ds ∉ declared) :
    ofName declared (s ++ String.ofList ds).toList = .ok (level s (Nat.ofDigitChars 10 ds 0)) := by
  -- A base token ends in a letter, this name in a digit.
  have hb : s ++ String.ofList ds ∉ baseTokens := by
    intro h
    have hlast := endsInDigit_of_mem_baseTokens h
    obtain ⟨c, hc⟩ := Option.ne_none_iff_exists'.1 (mt List.getLast?_eq_none_iff.1 hd.1)
    rw [endsInDigit, String.toList_append, String.toList_ofList, List.getLast?_append, hc] at hlast
    simp [hd.2 c (List.mem_of_getLast? hc)] at hlast
  have hn : s.toList ≠ [] := by
    obtain ⟨c, cs, he, -, -⟩ := exists_cons_of_isWordChars hw
    simp [he]
  have hline : '\n' ∉ s.toList := lineEnd_notMem_of_isWordChars hw
  rw [ofName, String.ofList_toList,
    if_neg (by simpa only [Bool.or_eq_true, decide_eq_true_eq, not_or] using ⟨hb, hu⟩),
    String.toList_append, String.toList_ofList,
    levelParts?_append hd.2 (not_digit_of_endsInDigit hs) hd.1 hn hline]
  simp only [readAsciiDigits, if_neg (Nat.not_lt.2 hshort), String.ofList_toList]
  rfl

theorem ofName_level {declared : List String} {s : String} {k : Nat} (hw : isWord s = true)
    (hs : endsInDigit s = false) (hk : (Nat.toDigits 10 k).length ≤ maxDigits)
    (hu : s ++ toString (k : Int) ∉ declared) :
    ofName declared (s ++ toString (k : Int)).toList = .ok (level s k) := by
  have hdigits : toString (k : Int) = String.ofList (Nat.toDigits 10 k) := by
    rw [← String.toList_inj, toString_natCast, String.toList_ofList]
  rw [hdigits] at hu ⊢
  have hlevel := ofName_digits hw hs
    ⟨Nat.toDigits_ne_nil, fun _ hc => isAsciiDigit_of_mem_toDigits hc⟩ hk hu
  rwa [Nat.ofDigitChars_ten_toDigits] at hlevel

theorem isWord_level {s : String} (hw : isWord s = true) (k : Nat) :
    isWord (s ++ toString (k : Int)) = true := by
  rw [isWord, String.toList_append, toString_natCast]
  exact isWordChars_append hw fun c hc =>
    continuesWord_of_isAsciiDigit (isAsciiDigit_of_mem_toDigits hc)

/-- Two collections of declared names that make tokens of the same words. -/
def SameWords (declared known : List String) : Prop :=
  ∀ s, isWord s = true → (s ∈ known ↔ s ∈ declared)

/-- The written form of a canonical leaf is a word, and it is read as that leaf. -/
theorem Canonical.read_leaf {declared known : List String}
    (hd : ∀ s ∈ declared, isWord s = true) (hk : SameWords declared known) {c : Category}
    (h : c.Canonical declared) (hc : c.isList = false) :
    isWord c.written = true ∧ read known c.written = .ok c := by
  cases h with
  | @plain name hw hu hs =>
    have hu' : name ∉ baseTokens ∧ name ∉ known := ⟨hu.1, fun h => hu.2 ((hk name hw).1 h)⟩
    refine ⟨hw, ?_⟩
    rw [written, read_word hw, ofName_plain hu' hs]
  | @token name hn =>
    have hw : isWord name = true := hn.elim isWord_of_mem_baseTokens (hd name)
    refine ⟨hw, ?_⟩
    rw [written, read_word hw, ofName_token (hn.imp_right (hk name hw).2)]
  | @level name rank hw hs hr hshort hu =>
    obtain ⟨k, rfl⟩ := Int.eq_ofNat_of_zero_le hr
    have hlen : (Nat.toDigits 10 k).length ≤ maxDigits := by
      rwa [← String.length_toList, toString_natCast] at hshort
    have hword := isWord_level hw k
    refine ⟨hword, ?_⟩
    rw [written, read_word hword, ofName_level hw hs hlen fun h => hu ((hk _ hword).1 h)]
  | list _ => cases hc

end Category
end GrammarBindings
