import GrammarBindings.Integer64
import GrammarBindings.Text.Quoted

/-!
# Documents

A document is a tree of texts joined side by side, stacked, or indented. It is laid out as lines,
each with an indentation, which may be negative until it is rendered.

In a horizontal join the right operand begins where the last line of the left one ends, and its
further lines keep their distance from its first, though no line begins left of the margin. A
document without lines is the unit of both joins. A leaf may also be bare, a text that was never
made part of a document; `layout?` refuses it and names the leftmost one. `render?` refuses besides
an indentation that is too large for its line to be written.
-/

namespace GrammarBindings

open Text

inductive Document where
  | empty
  | text (value : String)
  | bare (value : String)
  | beside (left right : Document) (space : Bool)
  | above (top bottom : Document)
  | nest (indent : Int) (body : Document)
  deriving DecidableEq, Repr

structure Line where
  indent : Int
  text : String
  deriving DecidableEq, Repr

namespace Line

def shift (k : Int) (l : Line) : Line := { l with indent := l.indent + k }

@[simp] theorem shift_zero (l : Line) : l.shift 0 = l := by simp [shift]

@[simp] theorem map_shift_zero (ls : List Line) : ls.map (shift 0) = ls := by
  induction ls with
  | nil => rfl
  | cons l ls ih => simp [ih]

/-- Moves a line, but not past the margin. -/
def shiftWithin (k : Int) (l : Line) : Line := { l with indent := max 0 (l.indent + k) }

/-- The column behind the last character. -/
def endColumn (l : Line) : Int := l.indent + l.text.length

/-- A blank line is written without indentation. -/
def render (l : Line) : String :=
  if l.text.isEmpty then "" else String.ofList (List.replicate l.indent.toNat ' ') ++ l.text

end Line

def gap (space : Bool) : String := if space then " " else ""

/-- The last line of the left block goes on with the first of the right one, whose further lines
are moved along. -/
def joinBlocks (space : Bool) (left right : List Line) : List Line :=
  match left.getLast?, right with
  | none, _ => right
  | some _, [] => left
  | some last, first :: more =>
    let stem : Line := { last with text := last.text ++ gap space }
    left.dropLast ++ { stem with text := stem.text ++ first.text } ::
      more.map (Line.shiftWithin (stem.endColumn - first.indent))

@[simp] theorem joinBlocks_nil_left (space : Bool) (right : List Line) :
    joinBlocks space [] right = right := rfl

@[simp] theorem joinBlocks_nil_right (space : Bool) (left : List Line) :
    joinBlocks space left [] = left := by
  unfold joinBlocks
  split
  · simp_all
  · rfl
  · simp_all

namespace Document

def lines : Document → List Line
  | empty => []
  | text value | bare value => [⟨0, value⟩]
  | beside left right space => joinBlocks space left.lines right.lines
  | above top bottom => top.lines ++ bottom.lines
  | nest indent body => body.lines.map (Line.shift indent)

@[simp] theorem lines_empty : empty.lines = [] := rfl

@[simp] theorem lines_text (s : String) : (text s).lines = [⟨0, s⟩] := rfl

@[simp] theorem lines_bare (s : String) : (bare s).lines = [⟨0, s⟩] := rfl

@[simp] theorem lines_beside (l r : Document) (space : Bool) :
    (beside l r space).lines = joinBlocks space l.lines r.lines := rfl

@[simp] theorem lines_above (t b : Document) : (above t b).lines = t.lines ++ b.lines := rfl

@[simp] theorem lines_nest (k : Int) (d : Document) :
    (nest k d).lines = d.lines.map (Line.shift k) := rfl

/-- The leftmost leaf that is no document. -/
def firstBare? : Document → Option String
  | empty | text _ => none
  | bare value => some value
  | beside left right _ => left.firstBare?.or right.firstBare?
  | above top bottom => top.firstBare?.or bottom.firstBare?
  | nest _ body => body.firstBare?

def renderLines (ls : List Line) : String := "\n".intercalate (ls.map Line.render)

def render (d : Document) : String := renderLines d.lines

end Document

/-- Why a document is not laid out, or its lines are not written. -/
inductive LayoutFault where
  | bare (value : String)
  | uncountable
  deriving DecidableEq, Repr

namespace LayoutFault

def message : LayoutFault → String
  | bare value => "not a document: " ++ quote value
  | uncountable => "an indentation beyond 64 bits"

end LayoutFault

/-- What keeps a line from being written: the indentation of its text has to be an integer of 64
bits. A blank line has no indentation to be written. -/
def Line.fault? (l : Line) : Option LayoutFault :=
  if l.text.isEmpty then none
  else if fits64 l.indent then none
  else some .uncountable

namespace Document

def layout? (d : Document) : Except LayoutFault (List Line) :=
  match d.firstBare? with
  | some value => .error (.bare value)
  | none => .ok d.lines

def renderLines? (ls : List Line) : Except LayoutFault String :=
  match ls.findSome? Line.fault? with
  | some f => .error f
  | none => .ok (renderLines ls)

def render? (d : Document) : Except LayoutFault String := d.layout?.bind renderLines?

end Document
end GrammarBindings
