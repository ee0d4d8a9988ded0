import GrammarBindings.Proofs.CategoryNames
import GrammarBindings.Proofs.Lexemes
import GrammarBindings.Proofs.Spelling

/-!
# Writing rules

The written forms of items, labels and rules, with the tokens that each is lexed as on one line.
Those tokens spell what was written, if its labels are words or labels of list rules and its
categories are canonical.
-/

namespace GrammarBindings

open Text

variable {declared known : List String} {line : Nat} {rest : List Char}

theorem SameWords.refl (declared : List String) : Category.SameWords declared declared :=
  fun _ _ => Iff.rfl

theorem stops_append {s : String} {c : Char} {cs : List Char} (hs : s.toList = c :: cs)
    (hc : continuesWord c = false) (s' : String) (rest : List Char) :
    Stops ((s ++ s').toList ++ rest) := by
  rw [String.toList_append, hs]
  exact stops_cons hc _

theorem lexes_brackets {s : String} {ts : List Token}
    (h : ∀ rest, Stops rest → Lexes line s rest ts) (rest : List Char) :
    Lexes line ("[" ++ s ++ "]") rest
      (⟨.symbol, "[", line⟩ :: ts ++ [⟨.symbol, "]", line⟩]) := by
  have hclose : Lexes line "]" rest [⟨.symbol, "]", line⟩] := Lexes.symbol rfl rfl rfl
  have hinside := h _ (stops_cons (show continuesWord ']' = false from rfl) rest)
  have hopen : Lexes line "[" ((s ++ "]").toList ++ rest) [⟨.symbol, "[", line⟩] :=
    Lexes.symbol rfl rfl rfl
  rw [String.append_assoc]
  exact hopen.append (hinside.append hclose)

namespace Category

/-- The tokens of a written category. -/
def tokensAt (line : Nat) : Category → List Token
  | list element => ⟨.symbol, "[", line⟩ :: element.tokensAt line ++ [⟨.symbol, "]", line⟩]
  | c => [⟨.word, c.written, line⟩]

theorem Canonical.lexes_written (hd : ∀ s ∈ declared, isWord s = true) {c : Category}
    (h : c.Canonical declared) (hr : Stops rest) : Lexes line c.written rest (c.tokensAt line) := by
  induction c generalizing rest with
  | list element ih =>
    cases h with
    | list he => exact lexes_brackets (fun _ => ih he) rest
  | _ => exact Lexes.word (h.read_leaf hd (SameWords.refl declared) rfl).1 hr

theorem Canonical.spelled_tokensAt (hd : ∀ s ∈ declared, isWord s = true)
    (hk : SameWords declared known) {c : Category} (h : c.Canonical declared) :
    Spelled known (c.tokensAt line) c := by
  induction c with
  | list element ih =>
    cases h with
    | list he => exact .list rfl (ih he) rfl
  | _ => exact .word rfl (h.read_leaf hd hk rfl).2

theorem whole_tokensAt (c : Category) : ∀ t ∈ c.tokensAt line, t.isSymbol ";" = false := by
  induction c with
  | list element ih =>
    intro t ht
    simp only [tokensAt, List.cons_append, List.mem_cons, List.mem_append, List.not_mem_nil,
      or_false] at ht
    rcases ht with rfl | ht | rfl
    · rfl
    · exact ih t ht
    · rfl
  | _ => simp [tokensAt, Token.isSymbol]

/-- No category begins with a full stop. -/
theorem head_tokensAt (c : Category) (ts : List Token) :
    (c.tokensAt line ++ ts).head?.any (fun t => t.isSymbol ".") = false := by
  cases c <;> rfl

end Category

namespace Item

def written : Item → String
  | terminal text => writtenLiteral text
  | category c => c.written

def tokensAt (line : Nat) : Item → List Token
  | terminal text => [⟨.literal, text, line⟩]
  | category c => c.tokensAt line

def Canonical (declared : List String) : Item → Prop
  | terminal _ => True
  | category c => c.Canonical declared

end Item

/-- Items are lexed one by one, each behind a space. -/
theorem lexes_items (hd : ∀ s ∈ declared, isWord s = true) {items : List Item}
    (h : ∀ i ∈ items, i.Canonical declared) (hr : Stops rest) :
    Lexes line (String.join (items.map fun i => " " ++ i.written)) rest
        (items.flatMap (Item.tokensAt line)) ∧
      Stops ((String.join (items.map fun i => " " ++ i.written)).toList ++ rest) := by
  refine Lexes.join (fun i _ rest _ => stops_append rfl rfl i.written rest) ?_ hr
  intro i hi rest hrest
  refine (Lexes.space line _).append ?_
  cases i with
  | terminal text => exact Lexes.literal text rest
  | category c => exact Category.Canonical.lexes_written hd (h _ hi) hrest

theorem spelled_items (hd : ∀ s ∈ declared, isWord s = true)
    (hk : Category.SameWords declared known) {items : List Item}
    (h : ∀ i ∈ items, i.Canonical declared) :
    ItemsSpelled known (items.flatMap (Item.tokensAt line)) items := by
  induction items with
  | nil => exact .nil
  | cons i items ih =>
    have htail := ih fun j hj => h j (List.mem_cons_of_mem i hj)
    have hhead := h i List.mem_cons_self
    rw [List.flatMap_cons]
    cases i with
    | terminal text => exact .terminal rfl htail
    | category c => exact .category (Category.Canonical.spelled_tokensAt hd hk hhead) htail

namespace Label

/-- A label is one word, or the symbols that the label of a list rule consists of. -/
def tokensAt (line : Nat) (l : Label) : List Token :=
  if l.isList then l.toList.map fun c => ⟨.symbol, String.singleton c, line⟩
  else [⟨.word, l, line⟩]

theorem isList_iff {l : Label} : l.isList = true ↔ l = "[]" ∨ l = "(:)" ∨ l = "(:[])" := by
  simp [isList, listLabels]

theorem mem_of_isList {l : Label} (h : l.isList = true) {d : Char} (hd : d ∈ l.toList) :
    d ∈ ['[', ']', '(', ')', ':'] := by
  have hall : l.toList.all (· ∈ ['[', ']', '(', ')', ':']) = true := by
    rcases isList_iff.1 h with rfl | rfl | rfl <;> decide
  exact of_decide_eq_true (List.all_eq_true.1 hall d hd)

theorem isList_of_isWord {l : Label} (h : isWord l = true) : l.isList = false := by
  rw [Bool.eq_false_iff]
  intro hl
  rcases isList_iff.1 hl with rfl | rfl | rfl <;> cases h

theorem tokensAt_word {l : Label} (h : isWord l = true) (line : Nat) :
    l.tokensAt line = [⟨.word, l, line⟩] := by
  rw [tokensAt, isList_of_isWord h]
  rfl

theorem lexes {l : Label} (h : isWord l = true ∨ l.isList = true) (hr : Stops rest) :
    Lexes line l rest (l.tokensAt line) := by
  rcases h with h | h
  · rw [tokensAt_word h]
    exact Lexes.word h hr
  · rcases isList_iff.1 h with rfl | rfl | rfl
    · change tokenizeFrom line ('[' :: ']' :: rest) = _
      rw [tokenizeFrom_symbol rfl rfl, tokenizeFrom_symbol rfl rfl]
      rfl
    · change tokenizeFrom line ('(' :: ':' :: ')' :: rest) = _
      rw [tokenizeFrom_symbol rfl rfl, tokenizeFrom_symbol rfl rfl, tokenizeFrom_symbol rfl rfl]
      rfl
    · change tokenizeFrom line ('(' :: ':' :: '[' :: ']' :: ')' :: rest) = _
      rw [tokenizeFrom_symbol rfl rfl, tokenizeFrom_symbol rfl rfl, tokenizeFrom_symbol rfl rfl,
        tokenizeFrom_symbol rfl rfl, tokenizeFrom_symbol rfl rfl]
      rfl

theorem spelled {l : Label} (h : isWord l = true ∨ l.isList = true) :
    LabelSpelled (l.tokensAt line) l := by
  rcases h with h | h
  · rw [tokensAt_word h]
    exact .word rfl
  · have hsymbols : ∀ t ∈ l.tokensAt line, t.kind = .symbol ∧ t.value ≠ "." := by
      rcases isList_iff.1 h with rfl | rfl | rfl <;> simp [tokensAt, isList, listLabels]
    have hjoin : String.join ((l.tokensAt line).map Token.value) = l := by
      rcases isList_iff.1 h with rfl | rfl | rfl <;> rfl
    have hlabel := LabelSpelled.list hsymbols (by rw [hjoin]; exact h)
    rwa [hjoin] at hlabel

theorem whole_tokensAt {l : Label} (h : isWord l = true ∨ l.isList = true) :
    ∀ t ∈ l.tokensAt line, t.isSymbol ";" = false := by
  rcases h with h | h
  · rw [tokensAt_word h]
    simp [Token.isSymbol]
  · rcases isList_iff.1 h with rfl | rfl | rfl <;>
      simp [tokensAt, isList, listLabels, Token.isSymbol, String.ext_iff]

end Label

namespace Rule

/-- The rule without the mark of internal rules. -/
def body (r : Rule) : String :=
  r.label ++ (" . " ++ (r.category.written ++ (" ::=" ++
    String.join (r.items.map fun i => " " ++ i.written))))

def tokensAt (line : Nat) (r : Rule) : List Token :=
  r.label.tokensAt line ++ ⟨.symbol, ".", line⟩ ::
    (r.category.tokensAt line ++ ⟨.symbol, "::=", line⟩ :: r.items.flatMap (Item.tokensAt line))

structure Canonical (declared : List String) (r : Rule) : Prop where
  label : isWord r.label = true ∨ r.label.isList = true
  category : r.category.Canonical declared
  items : ∀ i ∈ r.items, i.Canonical declared

theorem lexes_stop (line : Nat) (rest : List Char) :
    Lexes line " . " rest [⟨.symbol, ".", line⟩] := by
  change tokenizeFrom line (' ' :: '.' :: ' ' :: rest) = _
  have hspace (rest : List Char) : scan ' ' rest = .gap 0 rest := rfl
  rw [tokenizeFrom_gap (hspace _), tokenizeFrom_symbol rfl rfl, tokenizeFrom_gap (hspace _)]
  rfl

theorem lexes_arrow (line : Nat) (rest : List Char) :
    Lexes line " ::=" rest [⟨.symbol, "::=", line⟩] := by
  change tokenizeFrom line (' ' :: ':' :: ':' :: '=' :: rest) = _
  have hspace (rest : List Char) : scan ' ' rest = .gap 0 rest := rfl
  have harrow : scan ':' (':' :: '=' :: rest) = .lexeme .symbol [':', ':', '='] rest := rfl
  rw [tokenizeFrom_gap (hspace _), tokenizeFrom_lexeme harrow]
  rfl

theorem Canonical.lexes_body (hd : ∀ s ∈ declared, isWord s = true) {r : Rule}
    (h : r.Canonical declared) (hr : Stops rest) : Lexes line r.body rest (r.tokensAt line) := by
  obtain ⟨hitems, -⟩ := lexes_items hd h.items hr
  have harrow := (lexes_arrow line _).append hitems
  have hcategory := (h.category.lexes_written hd (stops_append rfl rfl _ rest)).append harrow
  have hstop := (lexes_stop line _).append hcategory
  exact (Label.lexes h.label (stops_append rfl rfl _ rest)).append hstop

theorem Canonical.spelled_tokensAt (hd : ∀ s ∈ declared, isWord s = true)
    (hk : Category.SameWords declared known) {r : Rule} (h : r.Canonical declared) :
    RuleSpelled known (r.tokensAt line) r :=
  .mk (Label.spelled h.label) rfl (h.category.spelled_tokensAt hd hk) rfl
    (spelled_items hd hk h.items)

theorem Canonical.whole_tokensAt {r : Rule} (h : r.Canonical declared) :
    ∀ t ∈ r.tokensAt line, t.isSymbol ";" = false := by
  intro t ht
  simp only [tokensAt, List.mem_append, List.mem_cons, List.mem_flatMap] at ht
  rcases ht with ht | rfl | ht | rfl | ⟨i, -, ht⟩
  · exact Label.whole_tokensAt h.label t ht
  · rfl
  · exact Category.whole_tokensAt r.category t ht
  · rfl
  · cases i with
    | terminal text =>
      obtain rfl := List.mem_singleton.1 ht
      rfl
    | category c => exact Category.whole_tokensAt c t ht

end Rule
end GrammarBindings
