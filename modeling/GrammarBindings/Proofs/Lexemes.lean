import GrammarBindings.Proofs.QuotedTexts
import GrammarBindings.Proofs.Words

/-!
# Lexing what was written

`Lexes line s rest ts` says that the text `s` gives the tokens `ts` in front of `rest`, which is
lexed as it would be by itself. Such texts can be joined; only a word needs that what follows does
not continue it. A quoted literal is lexed as the text that was escaped in it.
-/

namespace GrammarBindings

open Text

namespace Lexing

/-- Tokens in front of those of a lexing. -/
def prepend (ts : List Token) (l : Lexing) : Lexing := { l with tokens := ts ++ l.tokens }

@[simp] theorem prepend_prepend (ts us : List Token) (l : Lexing) :
    (l.prepend us).prepend ts = l.prepend (ts ++ us) := by
  simp [prepend]

@[simp] theorem tokens_prepend (ts : List Token) (l : Lexing) :
    (l.prepend ts).tokens = ts ++ l.tokens := rfl

@[simp] theorem fault?_prepend (ts : List Token) (l : Lexing) :
    (l.prepend ts).fault? = l.fault? := rfl

theorem cons_eq_prepend (t : Token) (l : Lexing) : l.cons t = l.prepend [t] := rfl

end Lexing

/-- A literal as it is written between quotation marks. -/
def writtenLiteral (s : String) : String :=
  String.ofList (quotationMark :: escapeChars quotationMark s.toList ++ [quotationMark])

/-- A character that is a symbol by itself, unless a comment or a longer symbol begins with it. -/
def isSymbolChar (c : Char) : Bool :=
  !(isBlank c || beginsWord c || isDigit c || c = quotationMark || c = apostrophe)

/-- Whether a comment or the symbol of three characters begins with a character. -/
def BeginsLonger (c : Char) (rest : List Char) : Prop :=
  (c = '-' ∨ c = '\x7b') ∧ rest.head? = some '-' ∨ c = ':' ∧ [':', '='] <+: rest

/-- In front of what makes nothing longer of it, a symbol is taken by itself. -/
theorem scan_symbolChar {c : Char} {rest : List Char} (hc : isSymbolChar c = true)
    (hr : ¬BeginsLonger c rest) : scan c rest = .lexeme .symbol [c] rest := by
  obtain ⟨hcomment, harrow⟩ := not_or.1 hr
  simp only [isSymbolChar, Bool.not_eq_true', Bool.or_eq_false_iff, decide_eq_false_iff_not] at hc
  obtain ⟨⟨⟨⟨hblank, hword⟩, hdigit⟩, hquotation⟩, hapostrophe⟩ := hc
  have hline : c ≠ '\n' := by
    rintro rfl
    cases hblank
  rw [scan, if_neg hline, if_neg (by simp [hblank]), if_neg fun h => hcomment ⟨.inl h.1, h.2⟩,
    if_neg fun h => hcomment ⟨.inr h.1, h.2⟩, if_neg hquotation, if_neg hapostrophe,
    if_neg (by simp [hword]), if_neg (by simp [hdigit])]
  rw [Scan.ofSymbol]
  rintro rest' rfl rfl
  exact harrow ⟨rfl, rest', rfl⟩

/-- Whether a comment or the symbol of three characters may begin with the character. -/
def continuesSymbol (c : Char) (rest : List Char) : Bool :=
  (c = '-' || c = '\x7b') && rest.head? = some '-' || c = ':' && rest.head? = some ':'

theorem scan_symbol {c : Char} {rest : List Char} (hc : isSymbolChar c = true)
    (hr : continuesSymbol c rest = false) : scan c rest = .lexeme .symbol [c] rest := by
  refine scan_symbolChar hc fun h => Bool.eq_false_iff.1 hr ?_
  rcases h with ⟨hopening, hdash⟩ | ⟨hcolon, more, rfl⟩
  · simp [continuesSymbol, hopening, hdash]
  · simp [continuesSymbol, hcolon]

theorem tokenizeFrom_symbol {c : Char} {rest : List Char} (hc : isSymbolChar c = true)
    (hr : continuesSymbol c rest = false) (line : Nat) :
    tokenizeFrom line (c :: rest) =
      (tokenizeFrom line rest).prepend [⟨.symbol, String.singleton c, line⟩] := by
  rw [tokenizeFrom_lexeme (scan_symbol hc hr), ← String.singleton_eq_ofList,
    Lexing.cons_eq_prepend]

def Lexes (line : Nat) (s : String) (rest : List Char) (ts : List Token) : Prop :=
  tokenizeFrom line (s.toList ++ rest) = (tokenizeFrom line rest).prepend ts

namespace Lexes

variable {line : Nat} {s s' : String} {rest : List Char} {ts ts' : List Token}

theorem append (h : Lexes line s (s'.toList ++ rest) ts) (h' : Lexes line s' rest ts') :
    Lexes line (s ++ s') rest (ts ++ ts') := by
  rw [Lexes] at h h' ⊢
  rw [String.toList_append, List.append_assoc, h, h', Lexing.prepend_prepend]

theorem empty (line : Nat) (rest : List Char) : Lexes line "" rest [] := rfl

theorem space (line : Nat) (rest : List Char) : Lexes line " " rest [] := by
  have h : scan ' ' rest = .gap 0 rest := rfl
  exact tokenizeFrom_gap h line

theorem word (h : isWord s = true) (hr : Stops rest) : Lexes line s rest [⟨.word, s, line⟩] := by
  obtain ⟨c, cs, hcs, hc, hd⟩ := exists_cons_of_isWordChars h
  rw [Lexes, hcs, List.cons_append, tokenizeFrom_lexeme (scan_word hc hd hr), ← hcs,
    String.ofList_toList, Lexing.cons_eq_prepend]

theorem literal (s : String) (rest : List Char) :
    Lexes line (writtenLiteral s) rest [⟨.literal, s, line⟩] := by
  have hs : scan quotationMark (escapeChars quotationMark s.toList ++ quotationMark :: rest) =
      .lexeme .literal s.toList rest := by
    change Scan.ofQuoted _ _ _ = _
    rw [Scan.ofQuoted, scanQuoted_escapeChars (by decide)]
  rw [Lexes, writtenLiteral, String.toList_ofList, List.append_assoc, List.singleton_append,
    List.cons_append, tokenizeFrom_lexeme hs, String.ofList_toList, Lexing.cons_eq_prepend]

theorem symbol {c : Char} (hs : s.toList = [c]) (hc : isSymbolChar c = true)
    (hr : continuesSymbol c rest = false) : Lexes line s rest [⟨.symbol, s, line⟩] := by
  obtain rfl : s = String.singleton c := String.toList_inj.1 (by rw [hs, String.toList_singleton])
  rw [Lexes, hs, List.singleton_append, tokenizeFrom_symbol hc hr]

/-- A sequence of texts, each lexed in front of those behind it. -/
theorem join {α : Type} {text : α → String} {tokens : α → List Token} {as : List α}
    (hs : ∀ a ∈ as, ∀ rest, Stops rest → Stops ((text a).toList ++ rest))
    (h : ∀ a ∈ as, ∀ rest, Stops rest → Lexes line (text a) rest (tokens a)) (hr : Stops rest) :
    Lexes line (String.join (as.map text)) rest (as.flatMap tokens) ∧
      Stops ((String.join (as.map text)).toList ++ rest) := by
  induction as with
  | nil => exact ⟨empty line rest, hr⟩
  | cons a as ih =>
    obtain ⟨hl, hj⟩ := ih (fun b hb => hs b (List.mem_cons_of_mem a hb))
      (fun b hb => h b (List.mem_cons_of_mem a hb))
    rw [List.map_cons, String.join_cons, List.flatMap_cons]
    refine ⟨(h a List.mem_cons_self _ hj).append hl, ?_⟩
    rw [String.toList_append, List.append_assoc]
    exact hs a List.mem_cons_self _ hj

end Lexes

end GrammarBindings
