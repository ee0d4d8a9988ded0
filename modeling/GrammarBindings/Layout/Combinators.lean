import GrammarBindings.Layout.Document

/-!
# Building documents

Joins that drop empty operands and turn bare texts into documents. Blank lines are texts without
characters, so that nesting never indents them. What is dropped has no lines, so each combinator has
the lines of the plain join or nesting that it stands for.
-/

namespace GrammarBindings.Document

/-- The step by which generated code is indented. -/
def step : Int := 2

def ofBare : Document → Document
  | bare value => text value
  | d => d

@[simp] theorem lines_ofBare (d : Document) : d.ofBare.lines = d.lines := by cases d <;> rfl

def joinSimply (join : Document → Document → Document) (left right : Document) : Document :=
  match left.ofBare, right.ofBare with
  | empty, r => r
  | l, empty => l
  | l, r => join l r

/-- A join of which documents without lines are a unit loses nothing by dropping them. -/
theorem lines_joinSimply {join : Document → Document → Document}
    {view : List Line → List Line → List Line} (hj : ∀ l r, (join l r).lines = view l.lines r.lines)
    (hl : ∀ r, view [] r = r) (hr : ∀ l, view l [] = l) (l r : Document) :
    (joinSimply join l r).lines = view l.lines r.lines := by
  rw [← lines_ofBare l, ← lines_ofBare r]
  unfold joinSimply
  split <;> simp_all

def adjoin (left right : Document) : Document := joinSimply (beside · · false) left right

def adjoinSpaced (left right : Document) : Document := joinSimply (beside · · true) left right

def stack (top bottom : Document) : Document := joinSimply above top bottom

@[simp] theorem lines_adjoin (l r : Document) :
    (adjoin l r).lines = joinBlocks false l.lines r.lines :=
  lines_joinSimply (fun _ _ => rfl) (joinBlocks_nil_left false) (joinBlocks_nil_right false) l r

@[simp] theorem lines_adjoinSpaced (l r : Document) :
    (adjoinSpaced l r).lines = joinBlocks true l.lines r.lines :=
  lines_joinSimply (fun _ _ => rfl) (joinBlocks_nil_left true) (joinBlocks_nil_right true) l r

@[simp] theorem lines_stack (t b : Document) : (stack t b).lines = t.lines ++ b.lines :=
  lines_joinSimply (fun _ _ => rfl) List.nil_append List.append_nil t b

def indented (indent : Int) (body : Document) : Document :=
  match body.ofBare with
  | empty => empty
  | b => if indent = 0 then b else nest indent b

@[simp] theorem lines_indented (k : Int) (d : Document) :
    (indented k d).lines = d.lines.map (Line.shift k) := by
  rw [← lines_ofBare d]
  unfold indented
  split
  · simp_all
  · split <;> simp_all

def hcat (ds : List Document) : Document := ds.foldl adjoin empty

def hsep (ds : List Document) : Document := ds.foldl adjoinSpaced empty

def vcat (ds : List Document) : Document := ds.foldl stack empty

/-- A line of words, with one space between two of them. -/
def words (ws : List String) : Document := hsep (ws.map text)

def parens (d : Document) : Document := hcat [text "(", d, text ")"]

def parensIf (condition : Bool) (d : Document) : Document :=
  if condition then parens d else d.ofBare

/-- Stacks two documents with a blank line between them. -/
def stackSpaced (top bottom : Document) : Document := stack (stack top (text "")) bottom

@[simp] theorem lines_stackSpaced (t b : Document) :
    (stackSpaced t b).lines = t.lines ++ ⟨0, ""⟩ :: b.lines := by
  simp [stackSpaced]

/-- Stacks documents with a blank line at each boundary. -/
def vsep (ds : List Document) : Document :=
  match ds.getLast? with
  | none => empty
  | some last => ds.dropLast.foldr stackSpaced last.ofBare

/-- A bracketed list behind a preamble: on the same line while it has at most one item, and else
on indented lines of its own, the closing bracket included. -/
def bracketList (preamble opening closing separator : Document) : List Document → Document
  | [] => adjoinSpaced preamble (adjoin opening closing)
  | [item] => adjoinSpaced preamble (hcat [opening, item, closing])
  | first :: more =>
    let block := adjoinSpaced opening first :: more.map (adjoinSpaced separator) ++ [closing.ofBare]
    vcat (preamble :: block.map (indented step))

end GrammarBindings.Document
