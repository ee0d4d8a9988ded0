import GrammarBindings.Proofs.JoinAssociativity

/-!
# Documents without shortcuts

The combinators drop operands that are the empty document, and indentation by nothing. In an
expression of them, the plain form has a node for each call instead, and a text for each bare text.
The two are laid out alike, although a plain operand may have no lines without being the empty
document. The layout of a node is made of the layouts of its operands, of which the first that
fails counts, and one call after the other keeps it.
-/

namespace GrammarBindings
namespace Document

/-- The layouts of two operands, the left one coming first. -/
def bothLayouts (view : List Line → List Line → List Line)
    (left right : Except LayoutFault (List Line)) : Except LayoutFault (List Line) :=
  left.bind fun ls => right.map (view ls)

section Layouts

variable {d e l r l' r' acc acc' : Document} {ds es : List Document}
  {join : Document → Document → Document} {view : List Line → List Line → List Line}

theorem ofBare_ofBare (d : Document) : d.ofBare.ofBare = d.ofBare := by cases d <;> rfl

theorem layout?_nest (k : Int) (d : Document) :
    (nest k d).layout? = d.layout?.map (List.map (Line.shift k)) := by
  rw [layout?, layout?, firstBare?]
  cases d.firstBare? <;> rfl

/-- A kind of node with two operands, and what it does to their layouts. -/
structure IsJoin (join : Document → Document → Document)
    (view : List Line → List Line → List Line) : Prop where
  layout (l r : Document) : (join l r).layout? = bothLayouts view l.layout? r.layout?
  made (l r : Document) : (join l r).ofBare = join l r
  nil_left (ls : List Line) : view [] ls = ls
  nil_right (ls : List Line) : view ls [] = ls

theorem isJoin_beside (space : Bool) : IsJoin (beside · · space) (joinBlocks space) where
  layout l r := by
    rw [layout?, layout?, layout?, firstBare?]
    cases l.firstBare? <;> cases r.firstBare? <;> rfl
  made _ _ := rfl
  nil_left := joinBlocks_nil_left space
  nil_right := joinBlocks_nil_right space

theorem isJoin_above : IsJoin above (· ++ ·) where
  layout l r := by
    rw [layout?, layout?, layout?, firstBare?]
    cases l.firstBare? <;> cases r.firstBare? <;> rfl
  made _ _ := rfl
  nil_left := List.nil_append
  nil_right := List.append_nil

theorem IsJoin.layout_empty_left (h : IsJoin join view) (hl : l.layout? = .ok []) (r : Document) :
    (join l r).layout? = r.layout? := by
  rw [h.layout, hl]
  cases r.layout? with
  | error f => rfl
  | ok ls => exact congrArg Except.ok (h.nil_left ls)

theorem IsJoin.layout_empty_right (h : IsJoin join view) (l : Document) (hr : r.layout? = .ok []) :
    (join l r).layout? = l.layout? := by
  rw [h.layout, hr]
  cases l.layout? with
  | error f => rfl
  | ok ls => exact congrArg Except.ok (h.nil_right ls)

/-- As an operand, where a bare text counts as a text, the document is laid out as the plain one. -/
def StandsFor (d plain : Document) : Prop := d.ofBare.layout? = plain.layout?

theorem standsFor_ofBare (d : Document) : StandsFor d d.ofBare := rfl

theorem IsJoin.joinSimply (h : IsJoin join view) (hl : StandsFor l l') (hr : StandsFor r r') :
    StandsFor (joinSimply join l r) (join l' r') := by
  rw [StandsFor] at hl hr ⊢
  rw [Document.joinSimply]
  split
  · next hempty =>
    rw [ofBare_ofBare, hr]
    exact (h.layout_empty_left (hl.symm.trans (congrArg layout? hempty)) r').symm
  · next hempty _ =>
    rw [ofBare_ofBare, hl]
    exact (h.layout_empty_right l' (hr.symm.trans (congrArg layout? hempty))).symm
  · rw [h.made, h.layout, h.layout, hl, hr]

theorem IsJoin.foldl (h : IsJoin join view) (hds : List.Forall₂ StandsFor ds es)
    (hacc : StandsFor acc acc') :
    StandsFor (ds.foldl (Document.joinSimply join) acc) (es.foldl join acc') := by
  induction hds generalizing acc acc' with
  | nil => exact hacc
  | cons hd _ ih => exact ih (h.joinSimply hacc hd)

theorem standsFor_indented (k : Int) (h : StandsFor d e) : StandsFor (indented k d) (nest k e) := by
  rw [StandsFor] at h ⊢
  rw [layout?_nest, ← h, indented]
  split
  · next hempty =>
    rw [hempty]
    rfl
  · split
    · next hk =>
      rw [ofBare_ofBare, hk]
      cases d.ofBare.layout? with
      | error f => rfl
      | ok ls => exact congrArg Except.ok (Line.map_shift_zero ls).symm
    · exact layout?_nest k d.ofBare

/-- A blank line between two documents, without any shortcut. -/
def aboveBlank (top bottom : Document) : Document := above (above top (text "")) bottom

theorem standsFor_stackSpaced (hl : StandsFor l l') (hr : StandsFor r r') :
    StandsFor (stackSpaced l r) (aboveBlank l' r') :=
  isJoin_above.joinSimply (isJoin_above.joinSimply hl (standsFor_ofBare (text ""))) hr

/-- Documents with a blank line at each boundary, from the last one upwards. -/
def blankChain : List Document → Document
  | [] => empty
  | [d] => d
  | d :: e :: ds => aboveBlank d (blankChain (e :: ds))

theorem standsFor_vsep (h : List.Forall₂ StandsFor ds es) :
    StandsFor (vsep ds) (blankChain es) := by
  induction h with
  | nil => rfl
  | @cons d e ds es hd hds ih =>
    cases hds with
    | nil => exact (congrArg layout? (ofBare_ofBare d)).trans hd
    | cons _ _ =>
      rw [vsep_cons_cons]
      exact standsFor_stackSpaced hd ih

end Layouts

section Made

variable {d l r acc : Document} {ds : List Document} {join : Document → Document → Document}
  {view : List Line → List Line → List Line}

theorem IsJoin.made_joinSimply (h : IsJoin join view) (l r : Document) :
    (Document.joinSimply join l r).ofBare = Document.joinSimply join l r := by
  rw [Document.joinSimply]
  split
  · exact ofBare_ofBare r
  · exact ofBare_ofBare l
  · exact h.made _ _

theorem IsJoin.made_foldl (h : IsJoin join view) (ds : List Document) (hacc : acc.ofBare = acc) :
    (ds.foldl (Document.joinSimply join) acc).ofBare =
      ds.foldl (Document.joinSimply join) acc := by
  induction ds generalizing acc with
  | nil => exact hacc
  | cons d ds ih => exact ih (h.made_joinSimply acc d)

theorem made_indented (k : Int) (d : Document) : (indented k d).ofBare = indented k d := by
  rw [indented]
  split
  · rfl
  · split
    · exact ofBare_ofBare d
    · rfl

theorem made_vsep (ds : List Document) : (vsep ds).ofBare = vsep ds := by
  match ds with
  | [] => rfl
  | [d] => exact ofBare_ofBare d
  | d :: e :: ds =>
    rw [vsep_cons_cons]
    exact isJoin_above.made_joinSimply _ _

end Made

end Document

open Document

/-- Calls of the combinators, one inside the other. The operands are documents of any form and bare
texts. -/
inductive Expression where
  | operand (d : Document)
  | empty
  | text (value : String)
  | adjoin (left right : Expression)
  | adjoinSpaced (left right : Expression)
  | stack (top bottom : Expression)
  | indented (indent : Int) (body : Expression)
  | hcat (es : List Expression)
  | hsep (es : List Expression)
  | vcat (es : List Expression)
  | stackSpaced (top bottom : Expression)
  | vsep (es : List Expression)
  | parens (body : Expression)
  | parensIf (condition : Bool) (body : Expression)

namespace Expression

mutual

/-- What the calls give. -/
def built : Expression → Document
  | operand d => d
  | empty => .empty
  | text value => .text value
  | adjoin l r => Document.adjoin l.built r.built
  | adjoinSpaced l r => Document.adjoinSpaced l.built r.built
  | stack t b => Document.stack t.built b.built
  | indented k e => Document.indented k e.built
  | hcat es => Document.hcat (builtAll es)
  | hsep es => Document.hsep (builtAll es)
  | vcat es => Document.vcat (builtAll es)
  | stackSpaced t b => Document.stackSpaced t.built b.built
  | vsep es => Document.vsep (builtAll es)
  | parens e => Document.parens e.built
  | parensIf condition e => Document.parensIf condition e.built

def builtAll : List Expression → List Document
  | [] => []
  | e :: es => e.built :: builtAll es

end

/-- Nodes side by side, behind the empty document. -/
def besideChain (space : Bool) (ds : List Document) : Document :=
  ds.foldl (beside · · space) .empty

/-- A document between two texts, behind the empty document. -/
def inParens (d : Document) : Document := besideChain false [.text "(", d, .text ")"]

mutual

/-- The nodes that the calls stand for. -/
def plain : Expression → Document
  | operand d => d.ofBare
  | empty => .empty
  | text value => .text value
  | adjoin l r => beside l.plain r.plain false
  | adjoinSpaced l r => beside l.plain r.plain true
  | stack t b => above t.plain b.plain
  | indented k e => nest k e.plain
  | hcat es => besideChain false (plainAll es)
  | hsep es => besideChain true (plainAll es)
  | vcat es => (plainAll es).foldl above .empty
  | stackSpaced t b => aboveBlank t.plain b.plain
  | vsep es => blankChain (plainAll es)
  | parens e => inParens e.plain
  | parensIf condition e => if condition then inParens e.plain else e.plain

def plainAll : List Expression → List Document
  | [] => []
  | e :: es => e.plain :: plainAll es

end

theorem standsFor_parens {d e : Document} (h : StandsFor d e) :
    StandsFor (Document.parens d) (inParens e) :=
  (isJoin_beside false).foldl
    (.cons (standsFor_ofBare (.text "(")) (.cons h (.cons (standsFor_ofBare (.text ")")) .nil)))
    (standsFor_ofBare .empty)

mutual

theorem standsFor_plain : ∀ e : Expression, StandsFor e.built e.plain
  | operand d => standsFor_ofBare d
  | empty => rfl
  | text _ => rfl
  | adjoin l r => (isJoin_beside false).joinSimply l.standsFor_plain r.standsFor_plain
  | adjoinSpaced l r => (isJoin_beside true).joinSimply l.standsFor_plain r.standsFor_plain
  | stack t b => isJoin_above.joinSimply t.standsFor_plain b.standsFor_plain
  | indented k e => standsFor_indented k e.standsFor_plain
  | hcat es => (isJoin_beside false).foldl (forall₂_standsFor_plain es) rfl
  | hsep es => (isJoin_beside true).foldl (forall₂_standsFor_plain es) rfl
  | vcat es => isJoin_above.foldl (forall₂_standsFor_plain es) rfl
  | stackSpaced t b => standsFor_stackSpaced t.standsFor_plain b.standsFor_plain
  | vsep es => standsFor_vsep (forall₂_standsFor_plain es)
  | parens e => standsFor_parens e.standsFor_plain
  | parensIf true e => standsFor_parens e.standsFor_plain
  | parensIf false e => (congrArg layout? (ofBare_ofBare e.built)).trans e.standsFor_plain

theorem forall₂_standsFor_plain :
    ∀ es : List Expression, List.Forall₂ StandsFor (builtAll es) (plainAll es)
  | [] => .nil
  | e :: es => .cons e.standsFor_plain (forall₂_standsFor_plain es)

end

/-- Only an operand by itself is a bare text. -/
theorem ofBare_built {e : Expression} (h : ∀ s, e ≠ operand (bare s)) :
    e.built.ofBare = e.built := by
  cases e with
  | operand d =>
    cases d with
    | bare value => exact absurd rfl (h value)
    | _ => rfl
  | empty => rfl
  | text value => rfl
  | adjoin l r => exact (isJoin_beside false).made_joinSimply _ _
  | adjoinSpaced l r => exact (isJoin_beside true).made_joinSimply _ _
  | stack t b => exact isJoin_above.made_joinSimply _ _
  | indented k e => exact made_indented k _
  | hcat es => exact (isJoin_beside false).made_foldl _ rfl
  | hsep es => exact (isJoin_beside true).made_foldl _ rfl
  | vcat es => exact isJoin_above.made_foldl _ rfl
  | stackSpaced t b => exact isJoin_above.made_joinSimply _ _
  | vsep es => exact made_vsep _
  | parens e => exact (isJoin_beside false).made_foldl _ rfl
  | parensIf condition e =>
    cases condition with
    | true => exact (isJoin_beside false).made_foldl _ rfl
    | false => exact ofBare_ofBare _

/-- What is built by calls of the combinators is laid out as the nodes that the calls stand for. -/
theorem layout?_built_eq_plain {e : Expression} (h : ∀ s, e ≠ operand (bare s)) :
    e.built.layout? = e.plain.layout? := by
  rw [← ofBare_built h]
  exact e.standsFor_plain

/-- Bare texts as operands, an operand without lines that is not the empty document, and calls that
leave nothing behind. -/
theorem layout?_built_eq_plain_unlined :
    let e := indented 0 (hsep [operand (bare "a"), hcat [], operand (beside .empty .empty true),
      parens (operand (bare "b"))])
    (∀ s, e ≠ operand (bare s)) ∧ e.built.layout? = e.plain.layout? ∧
      e.built.layout? = .ok [⟨0, "a (b)"⟩] ∧ e.built ≠ e.plain := by
  intro e
  have h : ∀ s, e ≠ operand (bare s) := nofun
  exact ⟨h, layout?_built_eq_plain h, rfl, by decide⟩

end Expression
end GrammarBindings
