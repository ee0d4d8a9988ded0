import GrammarBindings.Grammar.Token

/-!
# Words

A word begins with a letter or an underscore and goes on with letters, numerals, underscores and
apostrophes. The blanks are apart from all of these, so a word has nothing to trim. It is lexed as
one token in front of any text that does not continue it.
-/

namespace GrammarBindings

open Text

namespace Text.CodeRanges

/-- No range of the one set meets a range of the other. -/
def apart (r s : CodeRanges) : Bool :=
  r.all fun p => s.all fun q => p.2 < q.1 || q.2 < p.1

theorem contains_eq_false_of_apart {r s : CodeRanges} (h : r.apart s = true) {n : Nat}
    (hn : s.contains n = true) : r.contains n = false := by
  rw [Bool.eq_false_iff]
  intro hr
  obtain ⟨p, hp, hlo, hhi⟩ := exists_of_contains hr
  obtain ⟨q, hq, hlo', hhi'⟩ := exists_of_contains hn
  have hpq := List.all_eq_true.1 (List.all_eq_true.1 h p hp) q hq
  simp only [Bool.or_eq_true, decide_eq_true_eq] at hpq
  omega

/-- The same for long tables in ascending order, each of which is gone through once. -/
def clearOf : CodeRanges → CodeRanges → Bool
  | [], _ => true
  | (lo, hi) :: r, s =>
    let above := s.dropWhile fun q => q.2 < lo
    (above.head?.all fun q => hi < q.1) && clearOf r above

theorem contains_dropWhile {s : CodeRanges} {n lo : Nat} (h : s.contains n = true) (hn : lo ≤ n) :
    contains (s.dropWhile fun q => q.2 < lo) n = true := by
  induction s with
  | nil => exact h
  | cons q s ih =>
    obtain ⟨a, b⟩ := q
    rw [List.dropWhile_cons]
    split
    · next hb =>
      have hb : b < lo := by simpa using hb
      rw [contains] at h
      split at h
      · cases h
      · rw [if_neg (by omega)] at h
        exact ih h
    · exact h

theorem contains_eq_false_of_clearOf {r s : CodeRanges} (h : r.clearOf s = true) {n : Nat}
    (hn : s.contains n = true) : r.contains n = false := by
  induction r generalizing s with
  | nil => rfl
  | cons p r ih =>
    obtain ⟨lo, hi⟩ := p
    obtain ⟨hfirst, hlater⟩ := Bool.and_eq_true_iff.1 h
    rw [contains]
    split
    · rfl
    · next hlo =>
      have habove := contains_dropWhile hn (Nat.le_of_not_lt hlo)
      have hhi : ¬n ≤ hi := by
        intro hle
        generalize (s.dropWhile fun q => decide (q.2 < lo)) = above at habove hfirst
        cases above with
        | nil => cases habove
        | cons q above =>
          have hq : hi < q.1 := by simpa using hfirst
          rw [contains, if_pos (by omega)] at habove
          cases habove
      rw [if_neg hhi]
      exact ih hlater habove

end Text.CodeRanges

theorem blanks_apart_letters : blankRanges.apart letterRanges = true := by decide +kernel

theorem blanks_apart_numerals : blankRanges.apart numeralRanges = true := by decide +kernel

theorem continuesWord_of_beginsWord {c : Char} (h : beginsWord c = true) :
    continuesWord c = true := by
  simp only [beginsWord, Bool.or_eq_true] at h
  rcases h with h | h <;> simp [continuesWord, h]

theorem isBlank_of_continuesWord {c : Char} (h : continuesWord c = true) : isBlank c = false := by
  simp only [continuesWord, Bool.or_eq_true, decide_eq_true_eq] at h
  rcases h with ((h | h) | rfl) | rfl
  · exact CodeRanges.contains_eq_false_of_apart blanks_apart_letters h
  · exact CodeRanges.contains_eq_false_of_apart blanks_apart_numerals h
  · rfl
  · rfl

theorem isBlank_of_beginsWord {c : Char} (h : beginsWord c = true) : isBlank c = false :=
  isBlank_of_continuesWord (continuesWord_of_beginsWord h)

/-- Two characters differ when a class has only the first of them. -/
theorem ne_of_class {p : Char → Bool} {c d : Char} (hc : p c = true) (hd : p d = false) :
    c ≠ d := by
  rintro rfl
  rw [hc] at hd
  cases hd

/-- A nonempty sequence of characters that is lexed as one word. -/
def isWordChars : List Char → Bool
  | [] => false
  | c :: cs => beginsWord c && cs.all continuesWord

def isWord (s : String) : Bool := isWordChars s.toList

theorem exists_cons_of_isWordChars {cs : List Char} (h : isWordChars cs = true) :
    ∃ d ds, cs = d :: ds ∧ beginsWord d = true ∧ ∀ e ∈ ds, continuesWord e = true := by
  cases cs with
  | nil => cases h
  | cons d ds =>
    simp only [isWordChars, Bool.and_eq_true, List.all_eq_true] at h
    exact ⟨d, ds, rfl, h.1, h.2⟩

theorem continuesWord_of_mem {cs : List Char} (h : isWordChars cs = true) {c : Char}
    (hc : c ∈ cs) : continuesWord c = true := by
  obtain ⟨d, ds, rfl, hd, hds⟩ := exists_cons_of_isWordChars h
  rcases List.mem_cons.1 hc with rfl | hc
  · exact continuesWord_of_beginsWord hd
  · exact hds c hc

theorem lineEnd_notMem_of_isWordChars {cs : List Char} (h : isWordChars cs = true) : '\n' ∉ cs :=
  fun hmem => by cases continuesWord_of_mem h hmem

theorem isWordChars_append {cs ds : List Char} (h : isWordChars cs = true)
    (hd : ∀ d ∈ ds, continuesWord d = true) : isWordChars (cs ++ ds) = true := by
  obtain ⟨e, es, rfl, he, hes⟩ := exists_cons_of_isWordChars h
  simp only [List.cons_append, isWordChars, he, Bool.true_and, List.all_append, Bool.and_eq_true,
    List.all_eq_true]
  exact ⟨hes, hd⟩

/-- Trimming removes nothing when neither end belongs to the class. -/
theorem trimWith_eq_self {p : Char → Bool} {cs : List Char} (h : ∀ c ∈ cs, p c = false) :
    trimWith p cs = cs := by
  have front {ds : List Char} (hd : ∀ c ∈ ds, p c = false) : ds.dropWhile p = ds := by
    cases ds with
    | nil => rfl
    | cons d ds => simp [hd d (by simp)]
  rw [trimWith, front h, front (fun c hc => h c (List.mem_reverse.1 hc)), List.reverse_reverse]

theorem trimBlanks_of_isWordChars {cs : List Char} (h : isWordChars cs = true) :
    trimBlanks cs = cs :=
  trimWith_eq_self fun _ hc => isBlank_of_continuesWord (continuesWord_of_mem h hc)

/-- What follows does not continue a word. -/
def Stops (rest : List Char) : Prop := ∀ c ∈ rest.head?, continuesWord c = false

theorem stops_cons {c : Char} (h : continuesWord c = false) (cs : List Char) : Stops (c :: cs) := by
  simpa [Stops] using h

theorem Stops.append {cs rest : List Char} (h : Stops cs) (hr : Stops rest) :
    Stops (cs ++ rest) := by
  cases cs with
  | nil => exact hr
  | cons c cs => simpa [Stops] using h

/-- Characters of a class are taken as far as they go. -/
theorem span_append {p : Char → Bool} {cs rest : List Char} (h : ∀ c ∈ cs, p c = true)
    (hr : ∀ c ∈ rest.head?, p c = false) :
    (cs ++ rest).takeWhile p = cs ∧ (cs ++ rest).dropWhile p = rest := by
  rw [List.takeWhile_append_of_pos h, List.dropWhile_append_of_pos h]
  cases rest with
  | nil => simp
  | cons c rest =>
    have hc : p c = false := hr c rfl
    simp [hc]

/-- A word is taken as a whole and no further. -/
theorem span_continuesWord {cs rest : List Char} (h : ∀ c ∈ cs, continuesWord c = true)
    (hr : Stops rest) :
    (cs ++ rest).takeWhile continuesWord = cs ∧ (cs ++ rest).dropWhile continuesWord = rest :=
  span_append h hr

theorem scan_word {c : Char} {cs rest : List Char} (hc : beginsWord c = true)
    (hcs : ∀ d ∈ cs, continuesWord d = true) (hr : Stops rest) :
    scan c (cs ++ rest) = .lexeme .word (c :: cs) rest := by
  have hne (d : Char) (hd : beginsWord d = false) : c ≠ d := ne_of_class hc hd
  have hb : isBlank c = false := isBlank_of_beginsWord hc
  obtain ⟨ht, hd⟩ := span_continuesWord hcs hr
  rw [scan, if_neg (hne '\n' rfl), if_neg (by simp [hb]), if_neg fun h => hne '-' rfl h.1,
    if_neg fun h => hne '\x7b' rfl h.1, if_neg (hne quotationMark rfl),
    if_neg (hne apostrophe rfl), if_pos hc, ht, hd]

end GrammarBindings
