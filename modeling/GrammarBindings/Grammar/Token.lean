import GrammarBindings.Grammar.Failure
import GrammarBindings.Text.Letter

/-!
# Tokens

A grammar text is a sequence of lexemes with gaps between them. A gap is a blank, a comment from
two dashes to the end of its line, or a block comment in braces; block comments do not nest. Every
other character begins a lexeme: a word, a number, a quoted literal, or a symbol of one character,
or the symbol of three that separates the two sides of a rule.

`scan` reads one gap or lexeme off the front of a text, and `tokenizeFrom` repeats it, counting the
line ends of the gaps. It stops at the first literal or block comment that is not closed.
-/

namespace GrammarBindings

open Text

inductive TokenKind where
  | word | number | literal | character | symbol
  deriving DecidableEq, Repr

/-- The short form by which messages call a kind. -/
def TokenKind.code : TokenKind → String
  | word => "ID"
  | number => "INT"
  | literal => "STR"
  | character => "CHR"
  | symbol => "SYM"

structure Token where
  kind : TokenKind
  value : String
  line : Nat
  deriving DecidableEq, Repr

def Token.isSymbol (t : Token) (s : String) : Bool := t.kind = .symbol && t.value = s

def beginsWord (c : Char) : Bool := isLetter c || c = '_'

def continuesWord (c : Char) : Bool := isLetter c || isNumeral c || c = '_' || c = apostrophe

/-- What the front of a text is, with the text behind it. -/
inductive Scan where
  | gap (lineEnds : Nat) (rest : List Char)
  | lexeme (kind : TokenKind) (value rest : List Char)
  | fault (f : TextFault)

def Scan.rest? : Scan → Option (List Char)
  | gap _ rest => some rest
  | lexeme _ _ rest => some rest
  | fault _ => none

/-- Reads up to the closing mark. A backslash stands for the character behind it, whichever it is;
apart from that no literal goes on past the end of its line. -/
def scanQuoted (mark : Char) : List Char → Option (List Char × List Char)
  | '\\' :: c :: cs => (scanQuoted mark cs).map fun (value, rest) => (c :: value, rest)
  | c :: cs =>
    if c = mark then some ([], cs)
    else if c = '\n' then none
    else (scanQuoted mark cs).map fun (value, rest) => (c :: value, rest)
  | [] => none

/-- Reads up to the end of a block comment and counts the line ends before it. -/
def scanComment : List Char → Option (Nat × List Char)
  | '-' :: '}' :: cs => some (0, cs)
  | c :: cs => (scanComment cs).map fun (n, rest) => (if c = '\n' then n + 1 else n, rest)
  | [] => none

def Scan.ofQuoted (kind : TokenKind) (mark : Char) (cs : List Char) : Scan :=
  match scanQuoted mark cs with
  | some (value, rest) => lexeme kind value rest
  | none => fault (.unterminatedLiteral mark)

def Scan.ofComment (cs : List Char) : Scan :=
  match scanComment cs with
  | some (n, rest) => gap n rest
  | none => fault .unterminatedComment

def Scan.ofSymbol (c : Char) (cs : List Char) : Scan :=
  match c, cs with
  | ':', ':' :: '=' :: rest => lexeme .symbol [':', ':', '='] rest
  | _, _ => lexeme .symbol [c] cs

def scan (c : Char) (cs : List Char) : Scan :=
  if c = '\n' then .gap 1 cs
  else if isBlank c then .gap 0 cs
  else if c = '-' ∧ cs.head? = some '-' then .gap 0 (cs.dropWhile (· ≠ '\n'))
  else if c = '{' ∧ cs.head? = some '-' then Scan.ofComment cs.tail
  else if c = quotationMark then Scan.ofQuoted .literal c cs
  else if c = apostrophe then Scan.ofQuoted .character c cs
  else if beginsWord c then
    .lexeme .word (c :: cs.takeWhile continuesWord) (cs.dropWhile continuesWord)
  else if isDigit c then .lexeme .number (c :: cs.takeWhile isDigit) (cs.dropWhile isDigit)
  else Scan.ofSymbol c cs

theorem length_le_of_scanQuoted {mark : Char} {cs value rest : List Char}
    (h : scanQuoted mark cs = some (value, rest)) : rest.length ≤ cs.length := by
  fun_induction scanQuoted mark cs generalizing value with
  | case1 c cs ih =>
    obtain ⟨⟨v, r⟩, hv, he⟩ := Option.map_eq_some_iff.1 h
    cases he
    have := ih hv
    simp only [List.length_cons]
    omega
  | case2 => simp_all
  | case3 => simp at h
  | case4 c cs _ _ _ ih =>
    obtain ⟨⟨v, r⟩, hv, he⟩ := Option.map_eq_some_iff.1 h
    cases he
    have := ih hv
    simp only [List.length_cons]
    omega
  | case5 => simp at h

theorem length_le_of_scanComment {cs rest : List Char} {n : Nat}
    (h : scanComment cs = some (n, rest)) : rest.length ≤ cs.length := by
  fun_induction scanComment cs generalizing n with
  | case1 => simp_all; omega
  | case2 c cs _ ih =>
    obtain ⟨⟨v, r⟩, hv, he⟩ := Option.map_eq_some_iff.1 h
    cases he
    have := ih hv
    simp only [List.length_cons]
    omega
  | case3 => simp at h

theorem length_le_of_rest? {c : Char} {cs rest : List Char} (h : (scan c cs).rest? = some rest) :
    rest.length ≤ cs.length := by
  have drop (p : Char → Bool) : (cs.dropWhile p).length ≤ cs.length :=
    (List.dropWhile_sublist p).length_le
  unfold scan at h
  split at h
  · cases h; simp
  · split at h
    · cases h; simp
    · split at h
      · cases h; exact drop _
      · split at h
        · unfold Scan.ofComment at h
          split at h
          · rename_i hs
            cases h
            have := length_le_of_scanComment hs
            have := List.length_tail (l := cs)
            omega
          · simp [Scan.rest?] at h
        · split at h
          · unfold Scan.ofQuoted at h
            split at h
            · rename_i hs
              cases h
              exact length_le_of_scanQuoted hs
            · simp [Scan.rest?] at h
          · split at h
            · unfold Scan.ofQuoted at h
              split at h
              · rename_i hs
                cases h
                exact length_le_of_scanQuoted hs
              · simp [Scan.rest?] at h
            · split at h
              · cases h; exact drop _
              · split at h
                · cases h; exact drop _
                · unfold Scan.ofSymbol at h
                  split at h
                  · cases h; simp; omega
                  · cases h; simp

/-- The tokens of a text, up to its end or to a fault and the line of that fault. -/
structure Lexing where
  tokens : List Token
  fault? : Option (TextFault × Nat)
  deriving DecidableEq, Repr

def Lexing.cons (t : Token) (l : Lexing) : Lexing := { l with tokens := t :: l.tokens }

@[simp] theorem Lexing.tokens_cons (t : Token) (l : Lexing) : (l.cons t).tokens = t :: l.tokens :=
  rfl

@[simp] theorem Lexing.fault?_cons (t : Token) (l : Lexing) : (l.cons t).fault? = l.fault? := rfl

def tokenizeFrom (line : Nat) : List Char → Lexing
  | [] => ⟨[], none⟩
  | c :: cs =>
    match _h : scan c cs with
    | .gap n rest => tokenizeFrom (line + n) rest
    | .lexeme kind value rest =>
      (tokenizeFrom line rest).cons ⟨kind, String.ofList value, line⟩
    | .fault f => ⟨[], some (f, line)⟩
termination_by cs => cs.length
decreasing_by
  all_goals
    have hr : (scan c cs).rest? = some rest := by simp [_h, Scan.rest?]
    have := length_le_of_rest? hr
    simp only [List.length_cons]
    omega

@[simp] theorem tokenizeFrom_nil (line : Nat) : tokenizeFrom line [] = ⟨[], none⟩ := by
  rw [tokenizeFrom]

theorem tokenizeFrom_gap {c : Char} {cs rest : List Char} {k : Nat}
    (h : scan c cs = .gap k rest) (line : Nat) :
    tokenizeFrom line (c :: cs) = tokenizeFrom (line + k) rest := by
  rw [tokenizeFrom]
  split <;> simp_all

theorem tokenizeFrom_lexeme {c : Char} {cs value rest : List Char} {kind : TokenKind}
    (h : scan c cs = .lexeme kind value rest) (line : Nat) :
    tokenizeFrom line (c :: cs) =
      (tokenizeFrom line rest).cons ⟨kind, String.ofList value, line⟩ := by
  rw [tokenizeFrom]
  split <;> simp_all

/-- Lines are counted from one. -/
def tokenize (text : String) : Lexing := tokenizeFrom 1 text.toList

end GrammarBindings
