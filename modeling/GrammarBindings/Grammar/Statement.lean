import GrammarBindings.Grammar.Token

/-!
# Statements

Semicolons cut the tokens of a grammar into statements. A statement that begins with a keyword is a
pragma, unless a full stop makes the keyword the label of a rule; every other statement is a rule.

Each reading function takes the tokens of a statement that are left, and the line of its last token,
which is where a statement that ends too early is blamed. It returns what it read and the tokens
behind it. A pragma looks at no token beyond those that it needs.
-/

namespace GrammarBindings

open Text

structure Statement where
  head : Token
  tail : List Token
  deriving DecidableEq, Repr

namespace Statement

def ofTokens? : List Token → Option Statement
  | [] => none
  | t :: ts => some ⟨t, ts⟩

def tokens (s : Statement) : List Token := s.head :: s.tail

def lastLine (s : Statement) : Nat := (s.tail.getLast?.getD s.head).line

/-- The nonempty pieces between semicolons. -/
def split (ts : List Token) : List Statement :=
  (ts.splitOnP fun t => t.isSymbol ";").filterMap ofTokens?

/-- The name that a token declaration declares. Only the values of its first tokens count. -/
def declaredToken? (s : Statement) : Option String :=
  match s.tokens.map Token.value with
  | "token" :: name :: _ => some name
  | "position" :: "token" :: name :: _ => some name
  | _ => none

end Statement

inductive Pragma where
  | declaration | ignored | internal | separator | terminator | coercions | entrypoints | rules
  deriving DecidableEq, Repr

def Pragma.ofKeyword? : String → Option Pragma
  | "token" | "position" => some declaration
  | "comment" | "layout" | "define" | "delimiters" => some ignored
  | "internal" => some internal
  | "separator" => some separator
  | "terminator" => some terminator
  | "coercions" => some coercions
  | "entrypoints" => some entrypoints
  | "rules" => some rules
  | _ => none

def Statement.pragma? (s : Statement) : Option Pragma :=
  if s.head.kind = .word && !(s.tail.head?.any fun t => t.isSymbol ".") then
    Pragma.ofKeyword? s.head.value
  else none

section Reading

variable (declared : List String) (lastLine : Nat)

def readToken (kind : TokenKind) : List Token → Except ReadFailure (String × List Token)
  | [] => .error (.text .endOfStatement lastLine)
  | t :: ts =>
    if t.kind = kind then .ok (t.value, ts)
    else .error (.text (.expected kind.code t.value) t.line)

def readSymbol (symbol : String) : List Token → Except ReadFailure (List Token)
  | [] => .error (.text .endOfStatement lastLine)
  | t :: ts =>
    if t.isSymbol symbol then .ok ts else .error (.text (.expected symbol t.value) t.line)

def readCategory : List Token → Except ReadFailure (Category × List Token)
  | [] => .error (.text .endOfStatement lastLine)
  | t :: ts =>
    if t.isSymbol "[" then
      match readCategory ts with
      | .error e => .error e
      | .ok (element, rest) =>
        match readSymbol lastLine "]" rest with
        | .error e => .error e
        | .ok rest => .ok (.list element, rest)
    else if t.kind = .word then
      match Category.read declared t.value with
      | .error e => .error (.numeral e)
      | .ok c => .ok (c, ts)
    else .error (.text (.expected TokenKind.word.code t.value) t.line)

/-- A word, or the symbols in front of the full stop where they spell the label of a list rule. -/
def readLabel (ts : List Token) : Except ReadFailure (Label × List Token) :=
  match ts.head?.filter fun t => t.kind = .word with
  | some t => .ok (t.value, ts.tail)
  | none =>
    let symbols := ts.takeWhile fun t => !t.isSymbol "."
    let rest := ts.dropWhile fun t => !t.isSymbol "."
    match symbols.find? fun t => t.kind ≠ .symbol with
    | some t => .error (.text (.labelWord t.value) t.line)
    | none =>
      let label : Label := String.join (symbols.map Token.value)
      if label.isList then .ok (label, rest)
      else .error (.text (.label label) ((rest.head?.map Token.line).getD lastLine))

theorem length_lt_of_readSymbol {symbol : String} {ts rest : List Token}
    (h : readSymbol lastLine symbol ts = .ok rest) : rest.length < ts.length := by
  unfold readSymbol at h
  split at h
  · simp at h
  · split at h
    · cases h; simp
    · simp at h

theorem length_lt_of_readCategory {ts rest : List Token} {c : Category}
    (h : readCategory declared lastLine ts = .ok (c, rest)) : rest.length < ts.length := by
  induction ts generalizing c rest with
  | nil => simp [readCategory] at h
  | cons t ts ih =>
    unfold readCategory at h
    split at h
    · split at h
      · simp at h
      · rename_i hc
        split at h
        · simp at h
        · rename_i hs
          cases h
          have h₁ := ih hc
          have h₂ := length_lt_of_readSymbol lastLine hs
          simp only [List.length_cons]
          omega
    · split at h
      · split at h
        · simp at h
        · cases h; simp
      · simp at h

/-- The items of a rule, up to the end of its statement. -/
def readItems (label : Label) : List Token → Except ReadFailure (List Item)
  | [] => .ok []
  | t :: ts =>
    if t.kind = .literal then (readItems label ts).map (Item.terminal t.value :: ·)
    else if t.kind = .word ∨ t.isSymbol "[" then
      match _h : readCategory declared lastLine (t :: ts) with
      | .error e => .error e
      | .ok (c, rest) => (readItems label rest).map (Item.category c :: ·)
    else .error (.text (.item t.value label) t.line)
termination_by ts => ts.length
decreasing_by
  · simp
  · exact length_lt_of_readCategory declared lastLine _h

def readRule (internal : Bool) (ts : List Token) : Except ReadFailure Rule := do
  let (label, ts) ← readLabel lastLine ts
  let ts ← readSymbol lastLine "." ts
  let (category, ts) ← readCategory declared lastLine ts
  let ts ← readSymbol lastLine "::=" ts
  let items ← readItems declared lastLine label ts
  return ⟨label, category, items, internal⟩

/-- The rules for lists of a category whose elements are separated or terminated by a text. The
list of one element needs no rule of its own where every element has its terminator. -/
def listRules (element : Category) (delimiter : String) (terminated nonempty : Bool) : List Rule :=
  let list := Category.list element
  let one := [.category element] ++ if terminated then [.terminal delimiter] else []
  let more := [.category element] ++
    (if terminated || delimiter ≠ "" then [.terminal delimiter] else []) ++ [.category list]
  (if nonempty then [] else [⟨"[]", list, [], false⟩]) ++
    (if nonempty || !terminated then [⟨"(:[])", list, one, false⟩] else []) ++
    [⟨"(:)", list, more, false⟩]

theorem mem_listRules_iff {element : Category} {delimiter : String} {terminated nonempty : Bool}
    {r : Rule} : r ∈ listRules element delimiter terminated nonempty ↔
      nonempty = false ∧ r = ⟨"[]", .list element, [], false⟩ ∨
      (nonempty || !terminated) = true ∧
        r = ⟨"(:[])", .list element,
          [.category element] ++ (if terminated then [.terminal delimiter] else []), false⟩ ∨
      r = ⟨"(:)", .list element, [.category element] ++
        (if terminated || delimiter ≠ "" then [.terminal delimiter] else []) ++
          [.category (.list element)], false⟩ := by
  simp [listRules]

def readListRules (terminated : Bool) (ts : List Token) : Except ReadFailure (List Rule) := do
  let nonempty := ts.head?.any fun t => t.kind = .word && t.value = "nonempty"
  let (element, ts) ← readCategory declared lastLine (if nonempty then ts.tail else ts)
  let (delimiter, _) ← readToken lastLine .literal ts
  return listRules element delimiter terminated nonempty

/-- Level zero is the plain category. -/
def atLevel (base : String) (k : Nat) : Category := if k = 0 then .plain base else .level base k

/-- Each level may be read where the one below is due, and parentheses lead back to the lowest. -/
def coercionRules (base : String) (levels : Nat) : List Rule :=
  (List.range levels).map
      (fun k => ⟨"_", atLevel base k, [.category (atLevel base (k + 1))], false⟩) ++
    [⟨"_", atLevel base levels, [.terminal "(", .category (.plain base), .terminal ")"], false⟩]

def readCoercionRules (ts : List Token) : Except ReadFailure (List Rule) := do
  let (base, ts) ← readToken lastLine .word ts
  let (digits, _) ← readToken lastLine .number ts
  let levels ← (readDigits digits.toList).mapError ReadFailure.numeral
  return coercionRules base levels

def skipComma : List Token → List Token
  | [] => []
  | t :: ts => if t.isSymbol "," then ts else t :: ts

theorem length_skipComma_le (ts : List Token) : (skipComma ts).length ≤ ts.length := by
  unfold skipComma
  split
  · simp
  · split <;> simp

/-- Categories up to the end of the statement, a comma behind each being optional. -/
def readEntrypoints (ts : List Token) : Except ReadFailure (List Category) :=
  if ts.isEmpty then .ok []
  else match _h : readCategory declared lastLine ts with
    | .error e => .error e
    | .ok (c, rest) => (readEntrypoints (skipComma rest)).map (c.normalize :: ·)
termination_by ts.length
decreasing_by
  have h₁ := length_lt_of_readCategory declared lastLine _h
  have h₂ := length_skipComma_le rest
  omega

end Reading

/-- What a statement adds to a grammar. -/
inductive Contribution where
  | rules (rs : List Rule)
  | entrypoints (cs : List Category)
  | declaration
  | ignored (keyword : String) (line : Nat)
  deriving DecidableEq, Repr

namespace Contribution

def rules? : Contribution → List Rule
  | rules rs => rs
  | _ => []

def entrypoints? : Contribution → List Category
  | entrypoints cs => cs
  | _ => []

end Contribution

def Statement.interpret (declared : List String) (s : Statement) :
    Except ReadFailure Contribution :=
  match s.pragma? with
  | some .declaration => .ok .declaration
  | some .ignored => .ok (.ignored s.head.value s.head.line)
  | some .internal =>
    (readRule declared s.lastLine true s.tail).map fun r => .rules [r]
  | some .separator => (readListRules declared s.lastLine false s.tail).map .rules
  | some .terminator => (readListRules declared s.lastLine true s.tail).map .rules
  | some .coercions => (readCoercionRules s.lastLine s.tail).map .rules
  | some .entrypoints => (readEntrypoints declared s.lastLine s.tail).map .entrypoints
  | some .rules => .error (.text .rulesPragma s.head.line)
  | none => (readRule declared s.lastLine false s.tokens).map fun r => .rules [r]

end GrammarBindings
