import GrammarBindings.Proofs.Lexemes

/-!
# Scanned pieces

What stands at the front of a text, said without the lexer: a blank or a comment, which is passed
over; the slice of a token, which is as long as it can be; or a literal or block comment that is not
closed. A scan finds the one that is there, and there is always one of them and never two.
-/

namespace GrammarBindings

open Text

def commentEnd : List Char := ['-', '\x7d']

/-- What is passed over in front of the rest of a text. -/
inductive Skipped : List Char → List Char → Prop where
  | blank {c : Char} (h : isBlank c = true) (rest : List Char) : Skipped [c] rest
  | lineComment {body rest : List Char} (within : '\n' ∉ body)
      (ends : ∀ c ∈ rest.head?, c = '\n') : Skipped ('-' :: '-' :: body) rest
  | blockComment {body : List Char} (within : ¬commentEnd <:+: body) (rest : List Char) :
      Skipped ('\x7b' :: '-' :: (body ++ commentEnd)) rest

/-- A kind and a value, and the slice that is their token in front of the rest of a text. -/
inductive Lexeme : TokenKind → List Char → List Char → List Char → Prop where
  | word {slice rest : List Char} (h : isWordChars slice = true) (ends : Stops rest) :
      Lexeme .word slice slice rest
  | number {c : Char} {slice rest : List Char} (first : isDigit c = true)
      (h : ∀ d ∈ slice, isDigit d = true) (ends : ∀ d ∈ rest.head?, isDigit d = false) :
      Lexeme .number (c :: slice) (c :: slice) rest
  | literal {body value : List Char} (h : Unescapes quotationMark body value)
      (rest : List Char) :
      Lexeme .literal value (quotationMark :: (body ++ [quotationMark])) rest
  | character {body value : List Char} (h : Unescapes apostrophe body value)
      (rest : List Char) : Lexeme .character value (apostrophe :: (body ++ [apostrophe])) rest
  | arrow (rest : List Char) : Lexeme .symbol [':', ':', '='] [':', ':', '='] rest
  | symbol {c : Char} {rest : List Char} (h : isSymbolChar c = true)
      (ends : ¬BeginsLonger c rest) : Lexeme .symbol [c] [c] rest

/-- The text begins with what the fault complains of. -/
inductive TextFault.Unclosed : TextFault → List Char → Prop where
  | literal {mark : Char} {body value rest : List Char}
      (hmark : mark = quotationMark ∨ mark = apostrophe) (h : Unescapes mark body value)
      (ends : BreaksOff rest) : Unclosed (.unterminatedLiteral mark) (mark :: (body ++ rest))
  | comment {cs : List Char} (h : ¬commentEnd <:+: cs) :
      Unclosed .unterminatedComment ('\x7b' :: '-' :: cs)

section Comments

variable {cs body rest : List Char} {c : Char} {n : Nat}

theorem commentEnd_infix_cons_iff :
    commentEnd <:+: c :: cs ↔ (c = '-' ∧ cs.head? = some '\x7d') ∨ commentEnd <:+: cs := by
  have hfront : commentEnd <+: c :: cs ↔ c = '-' ∧ cs.head? = some '\x7d' := by
    cases cs with
    | nil => simp [commentEnd, List.cons_prefix_cons]
    | cons d ds => simp [commentEnd, List.cons_prefix_cons, eq_comm]
  rw [List.infix_cons_iff, hfront]

theorem scanComment_cons (h : ¬(c = '-' ∧ cs.head? = some '\x7d')) :
    scanComment (c :: cs) =
      (scanComment cs).map fun (n, rest) => (if c = '\n' then n + 1 else n, rest) := by
  refine scanComment.eq_2 _ _ fun ds hc hds => h ⟨hc, ?_⟩
  rw [hds, List.head?_cons]

theorem scanComment_closed (h : ¬commentEnd <:+: body) (rest : List Char) :
    scanComment (body ++ commentEnd ++ rest) = some (body.count '\n', rest) := by
  induction body with
  | nil => rfl
  | cons c body ih =>
    obtain ⟨hfront, hbody⟩ := not_or.1 (mt commentEnd_infix_cons_iff.2 h)
    have hopen : ¬(c = '-' ∧ (body ++ commentEnd ++ rest).head? = some '\x7d') := by
      rintro ⟨hc, hd⟩
      cases body with
      | nil => cases hd
      | cons d body => exact hfront ⟨hc, hd⟩
    rw [List.cons_append, List.cons_append, scanComment_cons hopen, ih hbody, List.count_cons]
    by_cases hc : c = '\n' <;> simp [hc]

theorem exists_body_of_scanComment (h : scanComment cs = some (n, rest)) :
    ∃ body, cs = body ++ commentEnd ++ rest ∧ ¬commentEnd <:+: body := by
  fun_induction scanComment cs generalizing n with
  | case1 cs =>
    cases h
    exact ⟨[], rfl, by simp [commentEnd]⟩
  | case2 c cs hopen ih =>
    obtain ⟨⟨n', rest'⟩, hscan, heq⟩ := Option.map_eq_some_iff.1 h
    cases heq
    obtain ⟨body, rfl, hbody⟩ := ih hscan
    refine ⟨c :: body, rfl, ?_⟩
    rw [commentEnd_infix_cons_iff]
    rintro (⟨hc, hd⟩ | hinfix)
    · obtain ⟨ds, rfl⟩ := List.head?_eq_some_iff.1 hd
      exact hopen _ hc rfl
    · exact hbody hinfix
  | case3 => cases h

/-- A block comment goes up to the first closing mark behind its opening one. -/
theorem scanComment_eq_some_iff :
    scanComment cs = some (n, rest) ↔
      ∃ body, cs = body ++ commentEnd ++ rest ∧ ¬commentEnd <:+: body ∧ n = body.count '\n' := by
  constructor
  · intro h
    obtain ⟨body, rfl, hbody⟩ := exists_body_of_scanComment h
    rw [scanComment_closed hbody, Option.some.injEq, Prod.mk.injEq] at h
    exact ⟨body, rfl, hbody, h.1.symm⟩
  · rintro ⟨body, rfl, hbody, rfl⟩
    exact scanComment_closed hbody rest

/-- A block comment is not closed if and only if there is no closing mark behind its opening one. -/
theorem scanComment_eq_none_iff : scanComment cs = none ↔ ¬commentEnd <:+: cs := by
  fun_induction scanComment cs with
  | case1 cs => simpa [commentEnd] using ⟨[], cs, rfl⟩
  | case2 c cs hopen ih =>
    have hfront : ¬(c = '-' ∧ cs.head? = some '\x7d') := by
      rintro ⟨hc, hd⟩
      obtain ⟨ds, rfl⟩ := List.head?_eq_some_iff.1 hd
      exact hopen _ hc rfl
    rw [Option.map_eq_none_iff, ih, commentEnd_infix_cons_iff, or_iff_right hfront]
  | case3 => simp [commentEnd]

end Comments

section Scans

variable {c : Char} {cs piece slice value rest : List Char} {kind : TokenKind} {f : TextFault}

theorem blanks_clear_of_digits : blankRanges.clearOf digitRanges = true := by decide +kernel

theorem letters_clear_of_digits : letterRanges.clearOf digitRanges = true := by decide +kernel

theorem isBlank_of_isDigit (h : isDigit c = true) : isBlank c = false :=
  CodeRanges.contains_eq_false_of_clearOf blanks_clear_of_digits h

theorem beginsWord_of_isDigit (h : isDigit c = true) : beginsWord c = false := by
  rw [beginsWord, Bool.or_eq_false_iff]
  refine ⟨CodeRanges.contains_eq_false_of_clearOf letters_clear_of_digits h, ?_⟩
  simpa using ne_of_class h (d := '_') rfl

theorem scan_blank (h : isBlank c = true) (cs : List Char) :
    scan c cs = .gap ([c].count '\n') cs := by
  rw [scan, if_pos h]
  by_cases hc : c = '\n' <;> simp [hc]

theorem span_spec (p : Char → Bool) (cs : List Char) :
    cs = cs.takeWhile p ++ cs.dropWhile p ∧ (∀ d ∈ cs.takeWhile p, p d = true) ∧
      ∀ d ∈ (cs.dropWhile p).head?, p d = false := by
  refine ⟨List.takeWhile_append_dropWhile.symm, fun d hd => ?_, fun d hd => ?_⟩
  · exact List.all_eq_true.1 List.all_takeWhile d hd
  · have := List.head?_dropWhile_not p cs
    rw [Option.mem_def.1 hd] at this
    exact this

theorem scan_number (hc : isDigit c = true) (h : ∀ d ∈ slice, isDigit d = true)
    (ends : ∀ d ∈ rest.head?, isDigit d = false) :
    scan c (slice ++ rest) = .lexeme .number (c :: slice) rest := by
  have hne (d : Char) (hd : isDigit d = false) : c ≠ d := ne_of_class hc hd
  obtain ⟨htake, hdrop⟩ := span_append h ends
  rw [scan, if_neg (hne '\n' rfl), if_neg (by simp [isBlank_of_isDigit hc]),
    if_neg fun h => hne '-' rfl h.1, if_neg fun h => hne '\x7b' rfl h.1,
    if_neg (hne quotationMark rfl), if_neg (hne apostrophe rfl),
    if_neg (by simp [beginsWord_of_isDigit hc]), if_pos hc, htake, hdrop]

theorem Skipped.exists_scan (h : Skipped piece rest) :
    ∃ d ds, piece = d :: ds ∧ scan d (ds ++ rest) = .gap (piece.count '\n') rest := by
  cases h with
  | blank h rest => exact ⟨_, _, rfl, scan_blank h rest⟩
  | @lineComment body rest within ends =>
    refine ⟨_, _, rfl, ?_⟩
    have hbody : ∀ d ∈ '-' :: body, decide (d ≠ '\n') = true := by
      simpa using fun d hd => ne_of_mem_of_not_mem hd within
    have hends : ∀ d ∈ rest.head?, decide (d ≠ '\n') = false := by simpa using ends
    have hcount : ('-' :: '-' :: body).count '\n' = 0 := List.count_eq_zero.2 (by simp [within])
    rw [hcount]
    change Scan.gap 0 (('-' :: body ++ rest).dropWhile fun d => d ≠ '\n') = _
    rw [(span_append hbody hends).2]
  | @blockComment body within rest =>
    refine ⟨_, _, rfl, ?_⟩
    have hcount : ('\x7b' :: '-' :: (body ++ commentEnd)).count '\n' = body.count '\n' := by
      simp [commentEnd]
    rw [hcount]
    change Scan.ofComment (body ++ commentEnd ++ rest) = _
    rw [Scan.ofComment, scanComment_closed within]

theorem Lexeme.exists_scan (h : Lexeme kind value slice rest) :
    ∃ d ds, slice = d :: ds ∧ scan d (ds ++ rest) = .lexeme kind value rest := by
  cases h with
  | word h ends =>
    obtain ⟨d, ds, rfl, hd, hds⟩ := exists_cons_of_isWordChars h
    exact ⟨d, ds, rfl, scan_word hd hds ends⟩
  | number first h ends => exact ⟨_, _, rfl, scan_number first h ends⟩
  | literal h rest => exact ⟨_, _, rfl, ofQuoted_closed (by decide) h rest⟩
  | character h rest => exact ⟨_, _, rfl, ofQuoted_closed (by decide) h rest⟩
  | arrow rest => exact ⟨_, _, rfl, rfl⟩
  | symbol h ends => exact ⟨_, _, rfl, scan_symbolChar h ends⟩

theorem TextFault.Unclosed.exists_scan (h : f.Unclosed cs) :
    ∃ d ds, cs = d :: ds ∧ scan d ds = .fault f := by
  cases h with
  | literal hmark h ends =>
    refine ⟨_, _, rfl, ?_⟩
    rcases hmark with rfl | rfl
    · exact ofQuoted_open (by decide) (by decide) h ends
    · exact ofQuoted_open (by decide) (by decide) h ends
  | @comment cs h =>
    refine ⟨_, _, rfl, ?_⟩
    change Scan.ofComment cs = _
    rw [Scan.ofComment, scanComment_eq_none_iff.2 h]

/-- What a scan finds at the front of a text. -/
def Scan.Finds : Scan → List Char → Prop
  | gap n rest, text =>
    ∃ piece, text = piece ++ rest ∧ Skipped piece rest ∧ n = piece.count '\n'
  | lexeme kind value rest, text => ∃ slice, text = slice ++ rest ∧ Lexeme kind value slice rest
  | fault f, text => f.Unclosed text

theorem finds_ofQuoted {kind : TokenKind} {mark : Char}
    (hmark : mark = quotationMark ∨ mark = apostrophe)
    (h : ∀ {body value : List Char} (_ : Unescapes mark body value) (rest : List Char),
      Lexeme kind value (mark :: (body ++ [mark])) rest) (cs : List Char) :
    (Scan.ofQuoted kind mark cs).Finds (mark :: cs) := by
  have hbackslash : mark ≠ '\\' := by rcases hmark with rfl | rfl <;> decide
  have hline : mark ≠ '\n' := by rcases hmark with rfl | rfl <;> decide
  rw [Scan.ofQuoted]
  split
  · next value rest hscan =>
    obtain ⟨body, rfl, hbody⟩ := (scanQuoted_eq_some_iff hbackslash).1 hscan
    exact ⟨_, by simp, h hbody rest⟩
  · next hscan =>
    obtain ⟨body, value, rest, rfl, hbody, hrest⟩ :=
      (scanQuoted_eq_none_iff hbackslash hline).1 hscan
    exact .literal hmark hbody hrest

theorem finds_ofComment (cs : List Char) :
    (Scan.ofComment cs).Finds ('\x7b' :: '-' :: cs) := by
  rw [Scan.ofComment]
  split
  · next n rest hscan =>
    obtain ⟨body, rfl, hbody, rfl⟩ := scanComment_eq_some_iff.1 hscan
    exact ⟨_, by simp, .blockComment hbody rest, by simp [commentEnd]⟩
  · next hscan => exact .comment (scanComment_eq_none_iff.1 hscan)

theorem finds_ofSymbol (hc : isSymbolChar c = true)
    (h : ¬((c = '-' ∨ c = '\x7b') ∧ cs.head? = some '-')) :
    (Scan.ofSymbol c cs).Finds (c :: cs) := by
  rw [Scan.ofSymbol.eq_def]
  split
  · next rest => exact ⟨_, rfl, .arrow rest⟩
  · next harrow =>
    refine ⟨[c], rfl, .symbol hc (not_or.2 ⟨h, ?_⟩)⟩
    rintro ⟨hcolon, rest, hrest⟩
    exact harrow rest hcolon hrest.symm

/-- A scan finds what is there. -/
theorem finds_scan (c : Char) (cs : List Char) : (scan c cs).Finds (c :: cs) := by
  rw [scan]
  split
  · next hline =>
    subst hline
    exact ⟨['\n'], rfl, .blank rfl cs, rfl⟩
  next hline =>
  split
  · next hblank => exact ⟨[c], rfl, .blank hblank cs, by simp [hline]⟩
  next hblank =>
  split
  · next hdash =>
    obtain ⟨rfl, hd⟩ := hdash
    obtain ⟨ds, rfl⟩ := List.head?_eq_some_iff.1 hd
    obtain ⟨hspan, hbody, hends⟩ := span_spec (fun d => decide (d ≠ '\n')) ds
    have hnone : '\n' ∉ ds.takeWhile (· ≠ '\n') := fun hmem => by simpa using hbody _ hmem
    refine ⟨'-' :: '-' :: ds.takeWhile (· ≠ '\n'), by simp, .lineComment hnone ?_, ?_⟩
    · simpa using hends
    · exact (List.count_eq_zero.2 (by simpa using hnone)).symm
  next hdash =>
  split
  · next hbrace =>
    obtain ⟨rfl, hd⟩ := hbrace
    obtain ⟨ds, rfl⟩ := List.head?_eq_some_iff.1 hd
    exact finds_ofComment ds
  next hbrace =>
  split
  · next hc =>
    subst hc
    exact finds_ofQuoted (.inl rfl) .literal cs
  next hquotation =>
  split
  · next hc =>
    subst hc
    exact finds_ofQuoted (.inr rfl) .character cs
  next hapostrophe =>
  split
  · next hword =>
    obtain ⟨hspan, hbody, hends⟩ := span_spec continuesWord cs
    refine ⟨_, by rw [List.cons_append, ← hspan], .word ?_ hends⟩
    rw [isWordChars, hword, Bool.true_and, List.all_eq_true]
    exact hbody
  next hword =>
  split
  · next hdigit =>
    obtain ⟨hspan, hbody, hends⟩ := span_spec isDigit cs
    exact ⟨_, by rw [List.cons_append, ← hspan], .number hdigit hbody hends⟩
  next hdigit =>
  refine finds_ofSymbol ?_ ?_
  · simp [isSymbolChar, hblank, hword, hdigit, hquotation, hapostrophe]
  · rintro ⟨rfl | rfl, hd⟩
    · exact hdash ⟨rfl, hd⟩
    · exact hbrace ⟨rfl, hd⟩

end Scans

end GrammarBindings
