import GrammarBindings.Proofs.Margins
import GrammarBindings.Proofs.ReadNames
import GrammarBindings.Proofs.WrittenRules
import Mathlib.Logic.Function.Iterate

/-!
# Names between brackets

A text is a name between some pairs of brackets, with blanks around the name and around each pair.
It is read as as many lists of what the name is read as. So the written form of a category that was
read is the text without these blanks, and without the zeros in front of a level. The other way
round, a canonical category is read from its written form, whether this is read as one text or is
cut into tokens before.
-/

namespace GrammarBindings

open Text

section LeadingZeros

/-- The digits without the zeros in front of them, of which the last is kept. -/
def withoutLeadingZeros : List Char → List Char
  | '0' :: d :: ds => withoutLeadingZeros (d :: ds)
  | ds => ds

variable {c : Char} {ds : List Char}

theorem digitChar_of_isAsciiDigit (h : isAsciiDigit c = true) :
    c.toNat - '0'.toNat < 10 ∧ Nat.digitChar (c.toNat - '0'.toNat) = c := by
  have hc : 48 ≤ c.toNat ∧ c.toNat ≤ 57 := Char.isDigit_iff_toNat.1 h
  have hzero : '0'.toNat = 48 := rfl
  have hlt : c.toNat - '0'.toNat < 10 := by omega
  refine ⟨hlt, Char.toNat_inj.1 ?_⟩
  rw [Nat.toNat_digitChar_of_lt_ten hlt]
  omega

/-- Behind a number that is not zero, digits are those of the longer number. -/
theorem toDigits_ofDigitChars_of_pos (hds : ∀ d ∈ ds, isAsciiDigit d = true) {k : Nat}
    (hk : 0 < k) : Nat.toDigits 10 (Nat.ofDigitChars 10 ds k) = Nat.toDigits 10 k ++ ds := by
  induction ds generalizing k with
  | nil => simp
  | cons d ds ih =>
    obtain ⟨hlt, hd⟩ := digitChar_of_isAsciiDigit (hds d List.mem_cons_self)
    have hone : Nat.toDigits 10 (10 * k + (d.toNat - '0'.toNat)) = Nat.toDigits 10 k ++ [d] := by
      rw [← Nat.toDigits_append_toDigits (by decide) hk hlt, Nat.toDigits_of_lt_base hlt, hd]
    rw [Nat.ofDigitChars_cons, ih (fun d' hd' => hds d' (List.mem_cons_of_mem d hd')) (by omega),
      hone, List.append_assoc, List.singleton_append]

theorem toDigits_ofDigitChars (hds : ∀ d ∈ ds, isAsciiDigit d = true) (hne : ds ≠ []) :
    Nat.toDigits 10 (Nat.ofDigitChars 10 ds 0) = withoutLeadingZeros ds := by
  fun_induction withoutLeadingZeros ds with
  | case1 d ds ih =>
    rw [Nat.ofDigitChars_cons]
    exact ih (fun d' hd' => hds d' (List.mem_cons_of_mem '0' hd')) (List.cons_ne_nil d ds)
  | case2 ds hzeros =>
    obtain ⟨d, ds, rfl⟩ := List.exists_cons_of_ne_nil hne
    obtain ⟨hlt, hd⟩ := digitChar_of_isAsciiDigit (hds d List.mem_cons_self)
    have hfirst : Nat.toDigits 10 (10 * 0 + (d.toNat - '0'.toNat)) = [d] := by
      rw [Nat.mul_zero, Nat.zero_add, Nat.toDigits_of_lt_base hlt, hd]
    rw [Nat.ofDigitChars_cons]
    cases ds with
    | nil => rw [Nat.ofDigitChars_nil, hfirst]
    | cons d' ds =>
      have hpos : 0 < 10 * 0 + (d.toNat - '0'.toNat) := by
        refine Nat.pos_of_ne_zero fun hzero => hzeros d' ds ?_
        rw [hzero, Nat.toDigits_zero] at hfirst
        rw [(List.cons.inj hfirst).1]
      rw [toDigits_ofDigitChars_of_pos (fun e he => hds e (List.mem_cons_of_mem d he)) hpos,
        hfirst, List.singleton_append]

theorem exists_zeros (ds : List Char) :
    ∃ zeros, ds = List.replicate zeros '0' ++ withoutLeadingZeros ds := by
  fun_induction withoutLeadingZeros ds with
  | case1 d ds ih =>
    obtain ⟨zeros, hzeros⟩ := ih
    refine ⟨zeros + 1, ?_⟩
    rw [List.replicate_succ, List.cons_append, ← hzeros]
  | case2 ds => exact ⟨0, rfl⟩

end LeadingZeros

section Trimming

/-- The text is the name with blanks at the two ends, which are not those of the name. -/
structure IsTrimOf (name text : List Char) : Prop where
  margins : ∃ front back, text = front ++ (name ++ back) ∧ (∀ c ∈ front, isBlank c = true) ∧
    ∀ c ∈ back, isBlank c = true
  first : ∀ c ∈ name.head?, isBlank c = false
  last : ∀ c ∈ name.getLast?, isBlank c = false

variable {name text : List Char}

theorem isTrimOf_trimBlanks (text : List Char) : IsTrimOf (trimBlanks text) text where
  margins := exists_margins isBlank text
  first := head?_trimWith isBlank text
  last := getLast?_trimWith isBlank text

theorem IsTrimOf.trimBlanks_eq (h : IsTrimOf name text) : trimBlanks text = name := by
  obtain ⟨⟨front, back, rfl, hfront, hback⟩, hfirst, hlast⟩ := h
  exact trimWith_margins hfront hback hfirst hlast

end Trimming

namespace Category

variable {declared : List String} {text name inner : List Char} {c : Category} {n : Nat}

theorem bracketed?_eq_some_iff :
    bracketed? text = some inner ↔ text = '[' :: (inner ++ [']']) := by
  constructor
  · intro h
    rw [bracketed?.eq_def] at h
    split at h
    · next cs =>
      obtain ⟨hlast, h⟩ := Option.ite_none_right_eq_some.1 h
      obtain ⟨ds, rfl⟩ := List.getLast?_eq_some_iff.1 hlast
      rw [List.dropLast_concat, Option.some.injEq] at h
      rw [h]
    · cases h
  · rintro rfl
    rw [bracketed?, if_pos (by simp), List.dropLast_concat]

/-- The text is a name between pairs of brackets, of which there are as many as is said. -/
inductive Bracketed : List Char → Nat → List Char → Prop where
  | bare {text name : List Char} (trim : IsTrimOf name text)
      (isBare : ∀ inner, name ≠ '[' :: (inner ++ [']'])) : Bracketed text 0 name
  | brackets {text inner name : List Char} {n : Nat}
      (trim : IsTrimOf ('[' :: (inner ++ [']'])) text) (within : Bracketed inner n name) :
      Bracketed text (n + 1) name

theorem exists_bracketed (text : List Char) : ∃ n name, Bracketed text n name := by
  fun_induction ofChars [] text with
  | case1 text inner hinner ih =>
    obtain ⟨n, name, hwithin⟩ := ih
    refine ⟨n + 1, name, .brackets ?_ hwithin⟩
    rw [← bracketed?_eq_some_iff.1 hinner]
    exact isTrimOf_trimBlanks text
  | case2 text hbare =>
    refine ⟨0, trimBlanks text, .bare (isTrimOf_trimBlanks text) fun inner hinner => ?_⟩
    rw [bracketed?_eq_some_iff.2 hinner] at hbare
    cases hbare

theorem ofChars_bare (trim : IsTrimOf name text) (bare : ∀ inner, name ≠ '[' :: (inner ++ [']']))
    (declared : List String) : ofChars declared text = ofName declared name := by
  have hnone : bracketed? (trimBlanks text) = none := by
    rw [trim.trimBlanks_eq, Option.eq_none_iff_forall_ne_some]
    exact fun inner hinner => bare inner (bracketed?_eq_some_iff.1 hinner)
  rw [ofChars]
  split
  · next hsome => cases hnone.symm.trans hsome
  · rw [trim.trimBlanks_eq]

/-- A pair of brackets makes a list of what is read between them. -/
theorem ofChars_brackets (trim : IsTrimOf ('[' :: (inner ++ [']'])) text)
    (declared : List String) : ofChars declared text = (ofChars declared inner).map list := by
  have hsome : bracketed? (trimBlanks text) = some inner := by
    rw [trim.trimBlanks_eq, bracketed?_eq_some_iff]
  rw [ofChars]
  split
  · next inner' hinner =>
    cases hsome.symm.trans hinner
    rfl
  · next hnone => cases hsome.symm.trans hnone

theorem Bracketed.ofChars_eq (h : Bracketed text n name) (declared : List String) :
    ofChars declared text = (ofName declared name).map (list^[n]) := by
  induction h with
  | bare trim isBare =>
    rw [ofChars_bare trim isBare]
    cases ofName declared _ <;> rfl
  | brackets trim _ ih =>
    rw [ofChars_brackets trim, ih, Function.iterate_succ']
    cases ofName declared _ <;> rfl

theorem written_iterate_list (n : Nat) (c : Category) :
    (list^[n] c).written.toList =
      List.replicate n '[' ++ c.written.toList ++ List.replicate n ']' := by
  induction n with
  | zero => simp
  | succ n ih =>
    rw [Function.iterate_succ_apply', written, String.toList_append, String.toList_append, ih,
      List.replicate_succ, List.replicate_succ']
    simp

theorem leaf_iterate_list (n : Nat) (c : Category) : (list^[n] c).leaf = c.leaf := by
  induction n with
  | zero => rfl
  | succ n ih => rw [Function.iterate_succ_apply', leaf, ih]

def isLevel : Category → Bool
  | level _ _ => true
  | _ => false

/-- The name without the zeros in front of the digits at its end. -/
def withoutZeros (name : List Char) : List Char :=
  name.rdropWhile isAsciiDigit ++ withoutLeadingZeros (name.rtakeWhile isAsciiDigit)

/-- A name that is read is shown as it is, a level without the zeros in front of it. -/
theorem written_of_ofName (h : ofName declared name = .ok c) :
    c.leaf = c ∧ c.written.toList = if c.isLevel = true then withoutZeros name else name := by
  rw [ofName] at h
  split at h
  · cases h
    exact ⟨rfl, String.toList_ofList⟩
  · split at h
    · next stem digits hparts =>
      obtain ⟨rank, hrank, rfl⟩ := map_eq_ok_iff.1 h
      obtain ⟨hstem, hdigits, rfl, rfl⟩ := levelParts?_eq_some hparts
      rw [readAsciiDigits] at hrank
      split at hrank
      · cases hrank
      · cases hrank
        refine ⟨rfl, ?_⟩
        rw [written, String.toList_append, String.toList_ofList, toString_natCast,
          toDigits_ofDigitChars (fun d hd => List.mem_rtakeWhile_imp hd) hdigits]
        rfl
    · cases h
      exact ⟨rfl, String.toList_ofList⟩

theorem length_withoutLeadingZeros_le (ds : List Char) :
    (withoutLeadingZeros ds).length ≤ ds.length := by
  obtain ⟨zeros, hzeros⟩ := exists_zeros ds
  have hlength := congrArg List.length hzeros
  rw [List.length_append] at hlength
  omega

theorem length_rank_of_ofName {stem : String} {rank : Int}
    (h : ofName declared name = .ok (level stem rank)) : (toString rank).length ≤ maxDigits := by
  rw [ofName] at h
  split at h
  · cases h
  · split at h
    · next stem digits hparts =>
      obtain ⟨k, hk, heq⟩ := map_eq_ok_iff.1 h
      cases heq
      obtain ⟨-, hdigits, -, rfl⟩ := levelParts?_eq_some hparts
      rw [readAsciiDigits] at hk
      split at hk
      · cases hk
      · next hshort =>
        cases hk
        rw [← String.length_toList, toString_natCast,
          toDigits_ofDigitChars (fun d hd => List.mem_rtakeWhile_imp hd) hdigits]
        exact (length_withoutLeadingZeros_le _).trans (Nat.not_lt.1 hshort)
    · cases h

/-- A level that was read has no more digits than a numeral may have, so it can be shown. -/
theorem length_rank_of_read {s stem : String} {rank : Int} (h : read declared s = .ok c)
    (hleaf : c.leaf = level stem rank) : (toString rank).length ≤ maxDigits := by
  obtain ⟨n, name, hbracketed⟩ := exists_bracketed s.toList
  rw [read, hbracketed.ofChars_eq] at h
  obtain ⟨c, hname, rfl⟩ := map_eq_ok_iff.1 h
  rw [leaf_iterate_list, (written_of_ofName hname).1] at hleaf
  exact length_rank_of_ofName (hleaf ▸ hname)

theorem exists_ofName (declared : List String)
    (h : (name.rtakeWhile isAsciiDigit).length ≤ maxDigits) :
    ∃ c, ofName declared name = .ok c := by
  rw [ofName]
  split
  · exact ⟨_, rfl⟩
  · split
    · next stem digits hparts =>
      obtain ⟨-, -, -, rfl⟩ := levelParts?_eq_some hparts
      rw [readAsciiDigits, if_neg (Nat.not_lt.2 h)]
      exact ⟨_, rfl⟩
    · exact ⟨_, rfl⟩

/-- A text with few enough digits at the end of its name is read, and what was read is written
without the blanks and without the zeros of a level. -/
theorem Bracketed.exists_read {s : String} (h : Bracketed s.toList n name)
    (hshort : (name.rtakeWhile isAsciiDigit).length ≤ maxDigits) (declared : List String) :
    ∃ c, read declared s = .ok c ∧ c.written.toList = List.replicate n '[' ++
      (if c.leaf.isLevel = true then withoutZeros name else name) ++ List.replicate n ']' := by
  obtain ⟨c, hc⟩ := exists_ofName declared hshort
  obtain ⟨hleaf, hwritten⟩ := written_of_ofName hc
  refine ⟨list^[n] c, ?_, ?_⟩
  · rw [read, h.ofChars_eq, hc]
    rfl
  · rw [written_iterate_list, leaf_iterate_list, hleaf, hwritten]

theorem isTrimOf_brackets (inner : List Char) :
    IsTrimOf ('[' :: (inner ++ [']'])) ('[' :: (inner ++ [']'])) where
  margins := ⟨[], [], by simp⟩
  first := by simp [show isBlank '[' = false by decide]
  last := by
    rw [← List.cons_append, List.getLast?_append]
    simp [show isBlank ']' = false by decide]

/-- A text between brackets is read as a list of what the text is read as. -/
theorem read_brackets (declared : List String) (s : String) :
    read declared ("[" ++ s ++ "]") = (read declared s).map list := by
  have htext : ("[" ++ s ++ "]").toList = '[' :: (s.toList ++ [']']) := by simp
  rw [read, htext, ofChars_brackets (isTrimOf_brackets _), read]

theorem Canonical.read_written_self (hd : ∀ s ∈ declared, isWord s = true)
    (h : c.Canonical declared) : read declared c.written = .ok c := by
  induction c with
  | list element ih =>
    cases h with
    | list helement =>
      rw [written, read_brackets, ih helement]
      rfl
  | _ => exact (h.read_leaf hd (SameWords.refl declared) rfl).2

/-- Every canonical category is read from its written form, as one text and from its tokens, none of
which is left over. Every text is a name between some pairs of brackets, and what is read from it is
written as this name between these brackets, a level without the zeros in front of it. -/
theorem names_round_trip (declared : List String) (hd : ∀ s ∈ declared, isWord s = true) :
    (∀ c : Category, c.Canonical declared → read declared c.written = .ok c ∧
      ∃ ts, tokenize c.written = ⟨ts, none⟩ ∧
        ∀ lastLine rest, readCategory declared lastLine (ts ++ rest) = .ok (c, rest)) ∧
      ∀ s : String, (∃ n name, Bracketed s.toList n name) ∧
        ∀ n name, Bracketed s.toList n name →
          (name.rtakeWhile isAsciiDigit).length ≤ maxDigits →
            ∃ c, read declared s = .ok c ∧ c.written.toList = List.replicate n '[' ++
              (if c.leaf.isLevel = true then withoutZeros name else name) ++
                List.replicate n ']' := by
  refine ⟨fun c hc => ⟨hc.read_written_self hd, c.tokensAt 1, ?_, fun lastLine rest => ?_⟩,
    fun s => ⟨exists_bracketed s.toList, fun n name h hshort => h.exists_read hshort declared⟩⟩
  · have hlexes : Lexes 1 c.written [] (c.tokensAt 1) := hc.lexes_written hd (by simp [Stops])
    rw [Lexes, List.append_nil, tokenizeFrom_nil] at hlexes
    rw [tokenize, hlexes, Lexing.prepend, List.append_nil]
  · exact readCategory_append (hc.spelled_tokensAt hd (SameWords.refl declared)) rest

/-- A level is told from a declared token by its digits, and the zeros in front of it get lost. -/
theorem names_round_trip_padded :
    let declared := ["Exp7"]
    let c : Category := .list (.list (.level "Exp" 12))
    (∀ s ∈ declared, isWord s = true) ∧ c.Canonical declared ∧
      (read declared "[[Exp12]]" = .ok c ∧ ∃ ts, tokenize "[[Exp12]]" = ⟨ts, none⟩ ∧
        ∀ lastLine rest, readCategory declared lastLine (ts ++ rest) = .ok (c, rest)) ∧
      Bracketed " [\tExp007 ]".toList 1 "Exp007".toList ∧
      ∃ c', read declared " [\tExp007 ]" = .ok c' ∧ c'.written.toList = List.replicate 1 '[' ++
        (if c'.leaf.isLevel = true then withoutZeros "Exp007".toList else "Exp007".toList) ++
          List.replicate 1 ']' := by
  intro declared c
  have hd : ∀ s ∈ declared, isWord s = true := by decide +kernel
  have hc : c.Canonical declared :=
    .list (.list (.level (by decide +kernel) (by decide) (by decide) (by decide) (by decide)))
  have hinner : trimBlanks "\tExp007 ".toList = "Exp007".toList := by decide +kernel
  have houter : trimBlanks " [\tExp007 ]".toList = '[' :: ("\tExp007 ".toList ++ [']']) := by
    decide +kernel
  have hname : Bracketed "\tExp007 ".toList 0 "Exp007".toList :=
    .bare (hinner ▸ isTrimOf_trimBlanks _) (by simp)
  have hs : Bracketed " [\tExp007 ]".toList 1 "Exp007".toList :=
    .brackets (houter ▸ isTrimOf_trimBlanks _) hname
  have hwritten : c.written = "[[Exp12]]" := by decide +kernel
  obtain ⟨hread, htext⟩ := names_round_trip declared hd
  exact ⟨hd, hc, hwritten ▸ hread c hc, hs, (htext _).2 1 _ hs (by decide)⟩

end Category
end GrammarBindings
