import GrammarBindings.Proofs.TokenLines

/-!
# Texts below each other

No lexeme and no gap goes on behind the end of a text when a line end follows there: a comment of
one line ends, and what is closed was closed before. So a text without a fault is lexed in front of
a line end as it is by itself, and what stands behind it is lexed as it would be further up, on
other lines.
-/

namespace GrammarBindings

open Text

section Scanning

variable {c : Char} {cs piece slice value rest : List Char} {kind : TokenKind} {s : Scan}

/-- More of the text behind what is left of it. -/
def Scan.append : Scan → List Char → Scan
  | gap n rest, behind => gap n (rest ++ behind)
  | lexeme kind value rest, behind => lexeme kind value (rest ++ behind)
  | fault f, _ => fault f

/-- What stops in front of a text and of a line end stops when the line end follows the text. -/
theorem stops_append_line {P : Char → Prop} (h : ∀ d ∈ rest.head?, P d) (hline : P '\n')
    (behind : List Char) : ∀ d ∈ (rest ++ '\n' :: behind).head?, P d := by
  cases rest with
  | nil => simpa using hline
  | cons d rest => simpa using h

theorem Skipped.append_line (h : Skipped piece rest) (behind : List Char) :
    Skipped piece (rest ++ '\n' :: behind) := by
  cases h with
  | blank h rest => exact .blank h _
  | lineComment within ends => exact .lineComment within (stops_append_line ends rfl behind)
  | blockComment within rest => exact .blockComment within _

/-- A line end does not complete a comment mark or the symbol of three characters. -/
theorem beginsLonger_append_line (behind : List Char) :
    BeginsLonger c (rest ++ '\n' :: behind) ↔ BeginsLonger c rest := by
  match rest with
  | [] => simp [BeginsLonger]
  | [d] => simp [BeginsLonger, List.cons_prefix_cons]
  | d :: e :: rest => simp [BeginsLonger, List.cons_prefix_cons]

theorem Lexeme.append_line (h : Lexeme kind value slice rest) (behind : List Char) :
    Lexeme kind value slice (rest ++ '\n' :: behind) := by
  cases h with
  | word h ends => exact .word h (stops_append_line ends rfl behind)
  | number first h ends => exact .number first h (stops_append_line ends rfl behind)
  | literal h rest => exact .literal h _
  | character h rest => exact .character h _
  | arrow rest => exact .arrow _
  | symbol h ends => exact .symbol h (mt (beginsLonger_append_line behind).1 ends)

/-- What is read off the front of a text is not changed by a line end behind the text. -/
theorem scan_append_line (hs : scan c cs = s) (hrest : s.rest? = some rest) (behind : List Char) :
    scan c (cs ++ '\n' :: behind) = s.append ('\n' :: behind) := by
  have hfinds : s.Finds (c :: cs) := hs ▸ finds_scan c cs
  cases s with
  | gap n rest' =>
    obtain ⟨piece, htext, hpiece, rfl⟩ := hfinds
    obtain ⟨d, ds, rfl, hscan⟩ := (hpiece.append_line behind).exists_scan
    obtain ⟨rfl, htail⟩ := List.cons.inj htext
    have htext' : cs ++ '\n' :: behind = ds ++ (rest' ++ '\n' :: behind) := by simp [htail]
    rw [htext', hscan]
    rfl
  | lexeme kind value rest' =>
    obtain ⟨slice, htext, hslice⟩ := hfinds
    obtain ⟨d, ds, rfl, hscan⟩ := (hslice.append_line behind).exists_scan
    obtain ⟨rfl, htail⟩ := List.cons.inj htext
    have htext' : cs ++ '\n' :: behind = ds ++ (rest' ++ '\n' :: behind) := by simp [htail]
    rw [htext', hscan]
    rfl
  | fault f => cases hrest

end Scanning

/-- The token further down. -/
def Token.moved (k : Nat) (t : Token) : Token := { t with line := t.line + k }

section Moved

variable (k : Nat) (t : Token)

@[simp] theorem Token.kind_moved : (t.moved k).kind = t.kind := rfl

@[simp] theorem Token.value_moved : (t.moved k).value = t.value := rfl

@[simp] theorem Token.isSymbol_moved (s : String) : (t.moved k).isSymbol s = t.isSymbol s := rfl

end Moved

namespace ComesTo

variable {line line' : Nat} {cs left : List Char} {ts : List Token}

theorem append_line (h : ComesTo line cs ts line' left) (behind : List Char) :
    ComesTo line (cs ++ '\n' :: behind) ts line' (left ++ '\n' :: behind) := by
  induction h with
  | start => exact .start _ _
  | gap hscan _ ih => exact .gap (scan_append_line hscan rfl behind) ih
  | lexeme hscan _ ih => exact .lexeme (scan_append_line hscan rfl behind) ih

theorem moved (h : ComesTo line cs ts line' left) (k : Nat) :
    ComesTo (line + k) cs (ts.map (Token.moved k)) (line' + k) left := by
  induction h with
  | start => exact .start _ _
  | @gap line line' n c cs rest left ts hscan _ ih =>
    refine .gap hscan ?_
    rwa [Nat.add_right_comm]
  | lexeme hscan _ ih => exact .lexeme hscan ih

end ComesTo

theorem scan_lineEnd (rest : List Char) : scan '\n' rest = .gap 1 rest := rfl

/-- Below a text that has no fault, what follows is lexed as it is on some line. -/
theorem exists_tokenizeFrom_below {u : String} (hu : (tokenize u).fault? = none) :
    ∃ line, ∀ behind, tokenizeFrom 1 (u.toList ++ '\n' :: behind) =
      (tokenizeFrom (line + 1) behind).prepend (tokenize u).tokens := by
  obtain ⟨line, hcomes⟩ := exists_comesTo_end hu
  refine ⟨line, fun behind => ?_⟩
  rw [(hcomes.append_line behind).tokenizeFrom_eq, List.nil_append,
    tokenizeFrom_gap (scan_lineEnd _)]
  rfl

/-- Two texts with a semicolon on a line between them are lexed one after the other. -/
theorem exists_tokenize_joined {u v : String} (hu : (tokenize u).fault? = none)
    (hv : (tokenize v).fault? = none) :
    ∃ line k, tokenize (u ++ "\n;\n" ++ v) =
      ⟨(tokenize u).tokens ++ ⟨.symbol, ";", line⟩ :: (tokenize v).tokens.map (Token.moved k),
        none⟩ := by
  obtain ⟨line, hbelow⟩ := exists_tokenizeFrom_below hu
  obtain ⟨line', hcomes'⟩ := exists_comesTo_end hv
  have htext : (u ++ "\n;\n" ++ v).toList = u.toList ++ '\n' :: ';' :: '\n' :: v.toList := by
    simp
  have hstop : tokenizeFrom (line + 1) (';' :: '\n' :: v.toList) =
      (tokenizeFrom (line + 1) ('\n' :: v.toList)).prepend [⟨.symbol, ";", line + 1⟩] :=
    tokenizeFrom_symbol (by decide +kernel) rfl _
  have hbehind : tokenizeFrom (1 + (line + 1)) v.toList =
      ⟨(tokenize v).tokens.map (Token.moved (line + 1)), none⟩ := by
    rw [(hcomes'.moved (line + 1)).tokenizeFrom_eq, tokenizeFrom_nil, Lexing.prepend,
      List.append_nil]
    rfl
  refine ⟨line + 1, line + 1, ?_⟩
  rw [tokenize, htext, hbelow, hstop, tokenizeFrom_gap (scan_lineEnd _), Nat.add_comm (line + 1),
    hbehind]
  rfl

end GrammarBindings
