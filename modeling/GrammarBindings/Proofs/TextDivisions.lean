import GrammarBindings.Proofs.ScannedPieces

/-!
# Divisions of texts

A text is made of gaps and lexemes in turn, and every character belongs to one of them, up to the
end of the text or to a literal or block comment that is not closed. The lexer finds a division of
every text, and there is no other.
-/

namespace GrammarBindings

open Text

/-- A sequence of blanks and comments in front of the rest of a text. -/
inductive IsGap : List Char → List Char → Prop where
  | nil (rest : List Char) : IsGap [] rest
  | cons {piece gap rest : List Char} (first : Skipped piece (gap ++ rest))
      (later : IsGap gap rest) : IsGap (piece ++ gap) rest

/-- A text with its tokens, each in its place between two gaps, up to what is left of the text. -/
inductive Division : List Char → List Token → List Char → Prop where
  | last {gap left : List Char} (h : IsGap gap left) : Division (gap ++ left) [] left
  | cons {gap slice rest left : List Char} {t : Token} {ts : List Token}
      (before : IsGap gap (slice ++ rest)) (lexeme : Lexeme t.kind t.value.toList slice rest)
      (later : Division rest ts left) : Division (gap ++ (slice ++ rest)) (t :: ts) left

/-- A token wherever it stands. -/
def Token.unplaced (t : Token) : TokenKind × String := (t.kind, t.value)

variable {text left piece rest : List Char} {ts : List Token}

theorem Division.skip (h : Division rest ts left) (hpiece : Skipped piece rest) :
    Division (piece ++ rest) ts left := by
  cases h with
  | last hgap =>
    rw [← List.append_assoc]
    exact .last (.cons hpiece hgap)
  | cons before lexeme later =>
    rw [← List.append_assoc]
    exact .cons (.cons hpiece before) lexeme later

/-- What is left of a text that is lexed without a fault, or up to one. -/
def EndsAt : Option TextFault → List Char → Prop
  | none, left => left = []
  | some fault, left => fault.Unclosed left

theorem exists_division (line : Nat) (text : List Char) :
    ∃ left, Division text (tokenizeFrom line text).tokens left ∧
      EndsAt ((tokenizeFrom line text).fault?.map Prod.fst) left := by
  fun_induction tokenizeFrom line text with
  | case1 line => exact ⟨[], .last (.nil []), rfl⟩
  | case2 line c cs n rest hscan ih =>
    obtain ⟨left, hdivision, hleft⟩ := ih
    obtain ⟨piece, htext, hpiece, -⟩ : (Scan.gap n rest).Finds (c :: cs) := hscan ▸ finds_scan c cs
    exact ⟨left, htext ▸ hdivision.skip hpiece, hleft⟩
  | case3 line c cs kind value rest hscan ih =>
    obtain ⟨left, hdivision, hleft⟩ := ih
    obtain ⟨slice, htext, hslice⟩ : (Scan.lexeme kind value rest).Finds (c :: cs) :=
      hscan ▸ finds_scan c cs
    refine ⟨left, ?_, hleft⟩
    rw [htext, Lexing.tokens_cons]
    exact .cons (.nil _) (by rwa [String.toList_ofList]) hdivision
  | case4 line c cs fault hscan =>
    have hfault : (Scan.fault fault).Finds (c :: cs) := hscan ▸ finds_scan c cs
    exact ⟨c :: cs, .last (.nil _), hfault⟩

theorem tokenizeFrom_fault {c : Char} {cs : List Char} {fault : TextFault}
    (h : scan c cs = .fault fault) (line : Nat) :
    tokenizeFrom line (c :: cs) = ⟨[], some (fault, line)⟩ := by
  rw [tokenizeFrom]
  split <;> simp_all

/-- A gap changes nothing but the line. -/
theorem IsGap.tokenizeFrom_append {gap : List Char} (h : IsGap gap rest) (line : Nat) :
    tokenizeFrom line (gap ++ rest) = tokenizeFrom (line + gap.count '\n') rest := by
  induction h generalizing line with
  | nil => rfl
  | cons first _ ih =>
    obtain ⟨d, ds, rfl, hscan⟩ := first.exists_scan
    rw [List.append_assoc, List.cons_append, tokenizeFrom_gap hscan, ih, List.count_append,
      Nat.add_assoc]

/-- The lexer comes to the end of every division. -/
theorem Division.exists_tokenizeFrom (h : Division text ts left) (line : Nat) :
    ∃ us line', us.map Token.unplaced = ts.map Token.unplaced ∧
      tokenizeFrom line text = (tokenizeFrom line' left).prepend us := by
  induction h generalizing line with
  | last hgap => exact ⟨[], _, rfl, hgap.tokenizeFrom_append line⟩
  | @cons gap slice rest left t ts before lexeme _ ih =>
    obtain ⟨d, ds, rfl, hscan⟩ := lexeme.exists_scan
    obtain ⟨us, line', hus, hlater⟩ := ih (line + gap.count '\n')
    refine ⟨⟨t.kind, t.value, line + gap.count '\n'⟩ :: us, line', ?_, ?_⟩
    · rw [List.map_cons, List.map_cons, hus]
      rfl
    · rw [before.tokenizeFrom_append, List.cons_append, tokenizeFrom_lexeme hscan, hlater,
        String.ofList_toList, Lexing.cons_eq_prepend, Lexing.prepend_prepend,
        List.singleton_append]

theorem EndsAt.tokenizeFrom_eq {fault? : Option TextFault} (h : EndsAt fault? left) (line : Nat) :
    (tokenizeFrom line left).tokens = [] ∧
      (tokenizeFrom line left).fault?.map Prod.fst = fault? := by
  cases fault? with
  | none =>
    obtain rfl : left = [] := h
    rw [tokenizeFrom_nil]
    exact ⟨rfl, rfl⟩
  | some fault =>
    obtain ⟨d, ds, rfl, hscan⟩ := TextFault.Unclosed.exists_scan h
    rw [tokenizeFrom_fault hscan]
    exact ⟨rfl, rfl⟩

/-- Every text is divided into gaps and lexemes without a character over, up to its end if it is
accepted, and if not, up to a literal or block comment that is not closed. No other tokens divide
it up to there, and nothing else of the kind is come to. -/
theorem division_of_tokenize (text : String) :
    (∃ left, Division text.toList (tokenize text).tokens left ∧
      EndsAt ((tokenize text).fault?.map Prod.fst) left) ∧
      ∀ ts fault? left, Division text.toList ts left → EndsAt fault? left →
        (tokenize text).tokens.map Token.unplaced = ts.map Token.unplaced ∧
          (tokenize text).fault?.map Prod.fst = fault? := by
  refine ⟨exists_division 1 text.toList, fun ts fault? left hdivision hends => ?_⟩
  obtain ⟨us, line, hus, hlexing⟩ := hdivision.exists_tokenizeFrom 1
  obtain ⟨htokens, hfault⟩ := hends.tokenizeFrom_eq line
  rw [tokenize, hlexing, Lexing.tokens_prepend, Lexing.fault?_prepend, htokens, List.append_nil]
  exact ⟨hus, hfault⟩

/-- Two dashes begin a comment; a single one is a symbol, here with a block comment behind it. -/
theorem division_of_tokenize_dashes :
    let text := "-\x7b-a-\x7d- --"
    let ts : List Token := [⟨.symbol, "-", 1⟩, ⟨.symbol, "-", 1⟩]
    Division text.toList ts [] ∧ EndsAt none [] ∧
      (tokenize text).tokens.map Token.unplaced = ts.map Token.unplaced := by
  intro text ts
  obtain ⟨⟨left, hdivision, hends⟩, honly⟩ := division_of_tokenize text
  have htokens : tokenize text = ⟨ts, none⟩ := by decide +kernel
  rw [htokens] at hdivision hends
  obtain rfl : left = [] := hends
  exact ⟨hdivision, rfl, (honly ts none [] hdivision rfl).1⟩

end GrammarBindings
