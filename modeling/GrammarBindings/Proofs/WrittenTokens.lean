import GrammarBindings.Proofs.TextDivisions

/-!
# Written tokens

A kind and a value make a token if the value is spelled as tokens of the kind are, and literals may
have any value. The tokens of a text are such tokens, and tokens that are written one behind the
other, with single blanks between them, are lexed as what they were.
-/

namespace GrammarBindings

open Text

namespace TokenKind

/-- Whether a token of the kind can have the value. -/
def admits : TokenKind → String → Bool
  | word, s => isWord s
  | number, s => !s.isEmpty && s.toList.all isDigit
  | literal, _ | character, _ => true
  | symbol, s => s = "::=" || s.toList.length = 1 && s.toList.all isSymbolChar

/-- A value between two marks, in which it is escaped where it has to be. -/
def between (mark : Char) (s : String) : String :=
  String.ofList (mark :: (escapeChars mark s.toList ++ [mark]))

/-- A token as it is written. -/
def written : TokenKind → String → String
  | literal, s => between quotationMark s
  | character, s => between apostrophe s
  | word, s | number, s | symbol, s => s

end TokenKind

section Lexed

variable {text left value slice rest : List Char} {kind : TokenKind} {ts : List Token} {t : Token}

theorem Lexeme.admits (h : Lexeme kind value slice rest) :
    kind.admits (String.ofList value) = true := by
  cases h with
  | word h ends => rwa [TokenKind.admits, isWord, String.toList_ofList]
  | @number c slice rest first h ends =>
    have hall : (c :: slice).all isDigit = true := by
      rw [List.all_cons, first, Bool.true_and, List.all_eq_true]
      exact h
    rw [TokenKind.admits, String.toList_ofList, hall]
    simp
  | literal h rest => rfl
  | character h rest => rfl
  | arrow rest => rfl
  | symbol h ends => simp [TokenKind.admits, h]

theorem Division.admits (h : Division text ts left) (ht : t ∈ ts) :
    t.kind.admits t.value = true := by
  induction h with
  | last => cases ht
  | cons before lexeme later ih =>
    rcases List.mem_cons.1 ht with rfl | ht
    · have hadmits := lexeme.admits
      rwa [String.ofList_toList] at hadmits
    · exact ih ht

/-- The tokens of a text have values as their kinds have them. -/
theorem admits_of_mem_tokens {text : String} (ht : t ∈ (tokenize text).tokens) :
    t.kind.admits t.value = true := by
  obtain ⟨left, hdivision, -⟩ := exists_division 1 text.toList
  exact hdivision.admits ht

end Lexed

variable {kind : TokenKind} {s : String} {value rest : List Char}

/-- In front of a blank, or of the end of the text, a token is lexed as it was written. -/
theorem lexeme_written (h : kind.admits s = true) (hr : ∀ c ∈ rest.head?, c = ' ') :
    Lexeme kind s.toList (kind.written s).toList rest := by
  have hstops {p : Char → Bool} (hp : p ' ' = false) : ∀ c ∈ rest.head?, p c = false :=
    fun c hc => hr c hc ▸ hp
  cases kind with
  | word => exact .word h (hstops rfl)
  | number =>
    obtain ⟨hne, hdigits⟩ := Bool.and_eq_true_iff.1 h
    rw [List.all_eq_true] at hdigits
    rw [TokenKind.written]
    cases hs : s.toList with
    | nil => simp_all
    | cons c cs =>
      rw [hs] at hdigits
      exact .number (hdigits c List.mem_cons_self)
        (fun d hd => hdigits d (List.mem_cons_of_mem c hd)) (hstops rfl)
  | literal =>
    rw [TokenKind.written, TokenKind.between, String.toList_ofList]
    exact .literal (unescapes_escapeChars _ _) rest
  | character =>
    rw [TokenKind.written, TokenKind.between, String.toList_ofList]
    exact .character (unescapes_escapeChars _ _) rest
  | symbol =>
    rw [TokenKind.written]
    rcases Bool.or_eq_true_iff.1 h with harrow | hsymbol
    · obtain rfl := of_decide_eq_true harrow
      exact .arrow rest
    · obtain ⟨hlength, hall⟩ := Bool.and_eq_true_iff.1 hsymbol
      obtain ⟨c, hc⟩ := List.length_eq_one_iff.1 (of_decide_eq_true hlength)
      rw [hc] at hall ⊢
      refine .symbol (List.all_eq_true.1 hall c List.mem_cons_self) ?_
      rintro (⟨-, hdash⟩ | ⟨-, more, rfl⟩)
      · cases hr _ hdash
      · cases hr _ rfl

theorem Lexeme.lexes (h : Lexeme kind value s.toList rest) (line : Nat) :
    Lexes line s rest [⟨kind, String.ofList value, line⟩] := by
  obtain ⟨d, ds, hs, hscan⟩ := h.exists_scan
  rw [Lexes, hs, List.cons_append, tokenizeFrom_lexeme hscan, Lexing.cons_eq_prepend]

theorem lexes_written (line : Nat) {ps : List (TokenKind × String)}
    (h : ∀ p ∈ ps, p.1.admits p.2 = true) :
    Lexes line (" ".intercalate (ps.map fun p => p.1.written p.2)) []
      (ps.map fun p => ⟨p.1, p.2, line⟩) := by
  have hfirst (p : TokenKind × String) (hp : p.1.admits p.2 = true) (rest : List Char)
      (hr : ∀ c ∈ rest.head?, c = ' ') :
      Lexes line (p.1.written p.2) rest [⟨p.1, p.2, line⟩] := by
    have hlexes := (lexeme_written hp hr).lexes line
    rwa [String.ofList_toList] at hlexes
  induction ps with
  | nil => exact .empty line []
  | cons p ps ih =>
    have hp := h p List.mem_cons_self
    have hps := ih fun q hq => h q (List.mem_cons_of_mem p hq)
    cases ps with
    | nil => exact hfirst p hp [] (by simp)
    | cons q ps =>
      rw [List.map_cons, List.map_cons, String.intercalate_cons_cons]
      exact ((hfirst p hp _ (by simp)).append (Lexes.space line _)).append hps

/-- Whatever tokens are written with single blanks between them, they are all on one line, and are
lexed as what they were. -/
theorem tokenize_written (ps : List (TokenKind × String))
    (h : ∀ p ∈ ps, p.1.admits p.2 = true) :
    tokenize (" ".intercalate (ps.map fun p => p.1.written p.2)) =
      ⟨ps.map fun p => ⟨p.1, p.2, 1⟩, none⟩ := by
  have hlexes := lexes_written 1 h
  rw [Lexes, List.append_nil, tokenizeFrom_nil] at hlexes
  rw [tokenize, hlexes, Lexing.prepend, List.append_nil]

/-- Dashes and braces make no comment, and colons no longer symbol, when they are written apart. -/
theorem tokenize_written_dashes :
    let ps : List (TokenKind × String) :=
      [(.symbol, "-"), (.symbol, "-"), (.symbol, "\x7b"), (.symbol, "-"), (.symbol, ":"),
        (.symbol, "::="), (.word, "x'²"), (.number, "²3"), (.literal, "a\"\\\n"), (.character, "'")]
    (∀ p ∈ ps, p.1.admits p.2 = true) ∧
      tokenize "- - \x7b - : ::= x'² ²3 \"a\\\"\\\\\\\n\" '\\''" =
        ⟨ps.map fun p => ⟨p.1, p.2, 1⟩, none⟩ := by
  intro ps
  have hadmits : ∀ p ∈ ps, p.1.admits p.2 = true := by decide +kernel
  have hwritten : " ".intercalate (ps.map fun p => p.1.written p.2) =
      "- - \x7b - : ::= x'² ²3 \"a\\\"\\\\\\\n\" '\\''" := by decide +kernel
  exact ⟨hadmits, hwritten ▸ tokenize_written ps hadmits⟩

end GrammarBindings
