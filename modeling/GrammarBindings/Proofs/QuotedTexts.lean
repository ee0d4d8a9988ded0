import GrammarBindings.Grammar.Token

/-!
# Quoted texts

What stands between two marks, and the value that is written by it. A literal is closed by the first
mark that no backslash takes away; it is not closed if and only if its line, or the text, ends
in it. Every value can be written between marks, and is read back as it was.
-/

namespace GrammarBindings

open Text

/-- The characters that cannot stand for themselves between two marks. -/
def needsEscape (mark c : Char) : Bool := c = '\\' || c = mark || c = '\n'

def escapeChars (mark : Char) (cs : List Char) : List Char :=
  cs.flatMap fun c => if needsEscape mark c then ['\\', c] else [c]

/-- The text between two marks and the value that is written by it. A backslash stands for the
character behind it, whichever it is, and every other character for itself. -/
inductive Unescapes (mark : Char) : List Char → List Char → Prop where
  | nil : Unescapes mark [] []
  | escaped {body value : List Char} (c : Char) (later : Unescapes mark body value) :
      Unescapes mark ('\\' :: c :: body) (c :: value)
  | plain {body value : List Char} {c : Char} (ordinary : needsEscape mark c = false)
      (later : Unescapes mark body value) : Unescapes mark (c :: body) (c :: value)

/-- Where a literal can go on no further without having been closed. A backslash at the end of the
text has no character behind it. -/
def BreaksOff (rest : List Char) : Prop := rest = [] ∨ rest = ['\\'] ∨ rest.head? = some '\n'

variable {mark : Char} {cs value rest : List Char}

theorem eq_cons_of_scanQuoted (h : scanQuoted mark cs = some (value, rest)) :
    ∃ d ds, cs = d :: ds := by
  cases cs with
  | nil => cases h
  | cons d ds => exact ⟨d, ds, rfl⟩

theorem needsEscape_eq_false_iff {c : Char} :
    needsEscape mark c = false ↔ c ≠ '\\' ∧ c ≠ mark ∧ c ≠ '\n' := by
  simp [needsEscape, and_assoc]

theorem scanQuoted_plain {c : Char} (h : needsEscape mark c = false) (cs : List Char) :
    scanQuoted mark (c :: cs) =
      (scanQuoted mark cs).map fun (value, rest) => (c :: value, rest) := by
  obtain ⟨hbackslash, hmark, hline⟩ := needsEscape_eq_false_iff.1 h
  rw [scanQuoted.eq_2 _ _ _ (by simp [hbackslash]), if_neg hmark, if_neg hline]

theorem Unescapes.scanQuoted_append {body : List Char} (h : Unescapes mark body value)
    (cs : List Char) :
    scanQuoted mark (body ++ cs) =
      (scanQuoted mark cs).map fun (v, rest) => (value ++ v, rest) := by
  induction h with
  | nil => simp
  | escaped c _ ih => simp [scanQuoted, ih, Function.comp_def]
  | plain hc _ ih => simp [scanQuoted_plain hc, ih, Function.comp_def]

theorem exists_unescapes_of_scanQuoted (h : scanQuoted mark cs = some (value, rest)) :
    ∃ body, cs = body ++ mark :: rest ∧ Unescapes mark body value := by
  fun_induction scanQuoted mark cs generalizing value with
  | case1 c cs ih =>
    obtain ⟨⟨value', rest'⟩, hscan, heq⟩ := Option.map_eq_some_iff.1 h
    cases heq
    obtain ⟨body, rfl, hbody⟩ := ih hscan
    exact ⟨'\\' :: c :: body, rfl, .escaped c hbody⟩
  | case2 c cs =>
    cases h
    exact ⟨[], rfl, .nil⟩
  | case3 => cases h
  | case4 c cs hescape hmark hline ih =>
    obtain ⟨⟨value', rest'⟩, hscan, heq⟩ := Option.map_eq_some_iff.1 h
    cases heq
    obtain ⟨d, ds, hcons⟩ := eq_cons_of_scanQuoted hscan
    have hbackslash : c ≠ '\\' := fun hc => hescape d ds hc hcons
    obtain ⟨body, rfl, hbody⟩ := ih hscan
    exact ⟨c :: body, rfl, .plain (needsEscape_eq_false_iff.2 ⟨hbackslash, hmark, hline⟩) hbody⟩
  | case5 => cases h

theorem scanQuoted_eq_some_iff (hmark : mark ≠ '\\') :
    scanQuoted mark cs = some (value, rest) ↔
      ∃ body, cs = body ++ mark :: rest ∧ Unescapes mark body value := by
  refine ⟨exists_unescapes_of_scanQuoted, ?_⟩
  rintro ⟨body, rfl, hbody⟩
  rw [hbody.scanQuoted_append, scanQuoted.eq_2 _ _ _ (by simp [hmark])]
  simp

theorem exists_breaksOff_of_scanQuoted (h : scanQuoted mark cs = none) :
    ∃ body value rest, cs = body ++ rest ∧ Unescapes mark body value ∧ BreaksOff rest := by
  fun_induction scanQuoted mark cs with
  | case1 c cs ih =>
    obtain ⟨body, value, rest, rfl, hbody, hrest⟩ := ih (Option.map_eq_none_iff.1 h)
    exact ⟨'\\' :: c :: body, c :: value, rest, rfl, .escaped c hbody, hrest⟩
  | case2 => cases h
  | case3 => exact ⟨[], [], _, rfl, .nil, .inr (.inr rfl)⟩
  | case4 c cs hescape hmark hline ih =>
    by_cases hbackslash : c = '\\'
    · cases cs with
      | nil => exact ⟨[], [], _, rfl, .nil, .inr (.inl (by rw [hbackslash]))⟩
      | cons d ds => exact absurd rfl (hescape d ds hbackslash)
    · obtain ⟨body, value, rest, rfl, hbody, hrest⟩ := ih (Option.map_eq_none_iff.1 h)
      have hplain := needsEscape_eq_false_iff.2 ⟨hbackslash, hmark, hline⟩
      exact ⟨c :: body, c :: value, rest, rfl, .plain hplain hbody, hrest⟩
  | case5 => exact ⟨[], [], [], rfl, .nil, .inl rfl⟩

theorem scanQuoted_of_breaksOff (hmark : mark ≠ '\\') (hline : mark ≠ '\n')
    (h : BreaksOff rest) : scanQuoted mark rest = none := by
  rcases h with rfl | rfl | h
  · rfl
  · rw [scanQuoted.eq_2 _ _ _ (by simp), if_neg hmark.symm, if_neg (by decide)]
    rfl
  · obtain ⟨cs, rfl⟩ := List.head?_eq_some_iff.1 h
    rw [scanQuoted.eq_2 _ _ _ (by simp), if_neg hline.symm, if_pos rfl]

/-- A literal is not closed if and only if its line, or the text, ends in it. -/
theorem scanQuoted_eq_none_iff (hmark : mark ≠ '\\') (hline : mark ≠ '\n') :
    scanQuoted mark cs = none ↔
      ∃ body value rest, cs = body ++ rest ∧ Unescapes mark body value ∧ BreaksOff rest := by
  refine ⟨exists_breaksOff_of_scanQuoted, ?_⟩
  rintro ⟨body, value, rest, rfl, hbody, hrest⟩
  rw [hbody.scanQuoted_append, scanQuoted_of_breaksOff hmark hline hrest]
  rfl

theorem unescapes_escapeChars (mark : Char) (value : List Char) :
    Unescapes mark (escapeChars mark value) value := by
  induction value with
  | nil => exact .nil
  | cons c value ih =>
    rw [escapeChars, List.flatMap_cons, ← escapeChars]
    cases hc : needsEscape mark c with
    | true => exact .escaped c ih
    | false => exact .plain hc ih

theorem scanQuoted_escapeChars (hmark : mark ≠ '\\') (cs rest : List Char) :
    scanQuoted mark (escapeChars mark cs ++ mark :: rest) = some (cs, rest) :=
  (scanQuoted_eq_some_iff hmark).2 ⟨_, rfl, unescapes_escapeChars mark cs⟩

theorem ofQuoted_closed {kind : TokenKind} {body : List Char} (hmark : mark ≠ '\\')
    (h : Unescapes mark body value) (rest : List Char) :
    Scan.ofQuoted kind mark (body ++ [mark] ++ rest) = .lexeme kind value rest := by
  have hscan : scanQuoted mark (body ++ [mark] ++ rest) = some (value, rest) :=
    (scanQuoted_eq_some_iff hmark).2 ⟨body, by simp, h⟩
  rw [Scan.ofQuoted, hscan]

theorem ofQuoted_open {kind : TokenKind} {body : List Char} (hmark : mark ≠ '\\')
    (hline : mark ≠ '\n') (h : Unescapes mark body value) (ends : BreaksOff rest) :
    Scan.ofQuoted kind mark (body ++ rest) = .fault (.unterminatedLiteral mark) := by
  have hscan : scanQuoted mark (body ++ rest) = none :=
    (scanQuoted_eq_none_iff hmark hline).2 ⟨body, value, rest, rfl, h, ends⟩
  rw [Scan.ofQuoted, hscan]

end GrammarBindings
