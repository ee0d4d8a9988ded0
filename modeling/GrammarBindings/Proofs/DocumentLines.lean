import GrammarBindings.Layout.Combinators
import GrammarBindings.Proofs.Outcomes

/-!
# The lines of built documents

What the combinators make of documents that hold no bare text. Documents of one line at the margin,
joined side by side, make one such line. Stacked documents are written one behind the other, and
`vsep` puts a blank line in front of each but the first. A document is followed to its written lines
at the indentation at which it ends up.
-/

namespace GrammarBindings

namespace Line

/-- A line that begins at the margin. -/
abbrev flush (s : String) : Line := ⟨0, s⟩

def spaces (k : Nat) : String := String.ofList (List.replicate k ' ')

/-- The line can be written, and this is how. -/
structure WrittenAs (l : Line) (s : String) : Prop where
  fault : l.fault? = none
  rendered : l.render = s

theorem writtenAs_flush (s : String) : (flush s).WrittenAs s := by
  constructor
  · rw [fault?]
    split <;> rfl
  · rw [render]
    split
    · next h => exact (String.isEmpty_iff.1 h).symm
    · simp

theorem writtenAs_blank (k : Int) : (⟨k, ""⟩ : Line).WrittenAs "" := ⟨rfl, rfl⟩

theorem writtenAs_mk {k : Nat} {s : String} (hk : k < 0x8000000000000000) (hs : s ≠ "") :
    (⟨k, s⟩ : Line).WrittenAs (spaces k ++ s) := by
  have hempty : ¬ s.isEmpty := by simpa using hs
  constructor
  · have hfits : fits64 k = true := fits64_iff.2 (by omega)
    rw [fault?, if_neg hempty, if_pos hfits]
  · rw [render, if_neg hempty, Int.toNat_natCast, spaces]

theorem findSome?_fault_eq_none {ls : List Line} {ss : List String}
    (h : List.Forall₂ WrittenAs ls ss) : ls.findSome? fault? = none := by
  induction h with
  | nil => rfl
  | cons hl _ ih =>
    rw [List.findSome?_cons, hl.fault]
    exact ih

end Line

namespace Document

open Line

section Bareness

variable {d e : Document}

theorem firstBare?_ofBare (h : d.firstBare? = none) : d.ofBare.firstBare? = none := by
  cases d with
  | bare value => rfl
  | _ => exact h

theorem firstBare?_joinSimply {join : Document → Document → Document}
    (hj : ∀ l r, (join l r).firstBare? = l.firstBare?.or r.firstBare?) (hd : d.firstBare? = none)
    (he : e.firstBare? = none) : (joinSimply join d e).firstBare? = none := by
  have hd' := firstBare?_ofBare hd
  have he' := firstBare?_ofBare he
  rw [joinSimply]
  split
  · exact he'
  · exact hd'
  · rw [hj, hd', he']
    rfl

theorem firstBare?_stack (hd : d.firstBare? = none) (he : e.firstBare? = none) :
    (stack d e).firstBare? = none :=
  firstBare?_joinSimply (fun _ _ => rfl) hd he

theorem firstBare?_foldl_stack {ds : List Document} (hd : d.firstBare? = none)
    (h : ∀ e ∈ ds, e.firstBare? = none) : (ds.foldl stack d).firstBare? = none := by
  induction ds generalizing d with
  | nil => exact hd
  | cons e ds ih =>
    refine ih (firstBare?_stack hd (h e List.mem_cons_self)) fun e' he' => ?_
    exact h e' (List.mem_cons_of_mem e he')

theorem firstBare?_indented {k : Int} (h : d.firstBare? = none) :
    (indented k d).firstBare? = none := by
  have h' := firstBare?_ofBare h
  rw [indented]
  split
  · rfl
  · split
    · exact h'
    · exact h'

end Bareness

section Beside

/-- The document has just this line, at the margin, and holds no bare text. -/
structure IsLine (d : Document) (s : String) : Prop where
  bare : d.firstBare? = none
  lines : d.lines = [flush s]

variable {d e : Document} {s t : String} {ds : List Document} {ss : List String}

theorem IsLine.of_eq (h : d.IsLine s) (hs : s = t) : d.IsLine t := by
  rw [← hs]
  exact h

theorem IsLine.ofBare (h : d.IsLine s) : d.ofBare.IsLine s :=
  ⟨firstBare?_ofBare h.bare, (lines_ofBare d).trans h.lines⟩

theorem isLine_text (s : String) : (text s).IsLine s := ⟨rfl, rfl⟩

theorem forall₂_isLine_text (ss : List String) : List.Forall₂ IsLine (ss.map text) ss := by
  have h : List.Forall₂ IsLine (ss.map text) (ss.map fun s => s) :=
    forall₂_map_map fun s _ => isLine_text s
  rwa [List.map_id'] at h

/-- The join of which `hcat` and `hsep` are made, which differ in the gap that is left. -/
private theorem lines_join (space : Bool) (d e : Document) :
    (joinSimply (beside · · space) d e).lines = joinBlocks space d.lines e.lines :=
  lines_joinSimply (fun _ _ => rfl) (joinBlocks_nil_left space) (joinBlocks_nil_right space) d e

private theorem IsLine.join {space : Bool} (hd : d.IsLine s) (he : e.IsLine t) :
    (joinSimply (beside · · space) d e).IsLine (s ++ gap space ++ t) := by
  constructor
  · exact firstBare?_joinSimply (fun _ _ => rfl) hd.bare he.bare
  · rw [lines_join, hd.lines, he.lines]
    rfl

private theorem IsLine.foldl_join {space : Bool} {acc : Document} (hacc : acc.IsLine s)
    (h : List.Forall₂ IsLine ds ss) :
    (ds.foldl (joinSimply (beside · · space)) acc).IsLine ((gap space).intercalate (s :: ss)) := by
  induction h generalizing acc s with
  | nil =>
    rw [String.intercalate_singleton]
    exact hacc
  | cons hd _ ih =>
    rw [List.foldl_cons, String.intercalate_cons_cons, ← String.intercalate_cons_append]
    exact ih (hacc.join hd)

private theorem isLine_foldl_join {space : Bool} (h : List.Forall₂ IsLine ds ss) (hne : ss ≠ []) :
    (ds.foldl (joinSimply (beside · · space)) empty).IsLine ((gap space).intercalate ss) := by
  cases h with
  | nil => exact absurd rfl hne
  | @cons d s ds ss hd hds =>
    have hfirst : (joinSimply (beside · · space) empty d).IsLine s := by
      constructor
      · exact firstBare?_joinSimply (fun _ _ => rfl) rfl hd.bare
      · rw [lines_join, lines_empty, joinBlocks_nil_left, hd.lines]
    rw [List.foldl_cons]
    exact hfirst.foldl_join hds

theorem IsLine.adjoin (hd : d.IsLine s) (he : e.IsLine t) : (adjoin d e).IsLine (s ++ t) := by
  have h : (d.adjoin e).IsLine (s ++ gap false ++ t) := IsLine.join hd he
  rwa [gap, if_neg (by simp), String.append_empty] at h

theorem IsLine.adjoinSpaced (hd : d.IsLine s) (he : e.IsLine t) :
    (adjoinSpaced d e).IsLine (s ++ " " ++ t) :=
  IsLine.join hd he

theorem isLine_hcat (h : List.Forall₂ IsLine ds ss) (hne : ss ≠ []) :
    (hcat ds).IsLine ("".intercalate ss) :=
  isLine_foldl_join h hne

theorem isLine_hsep (h : List.Forall₂ IsLine ds ss) (hne : ss ≠ []) :
    (hsep ds).IsLine (" ".intercalate ss) :=
  isLine_foldl_join h hne

theorem isLine_words (hne : ss ≠ []) : (words ss).IsLine (" ".intercalate ss) :=
  isLine_hsep (forall₂_isLine_text ss) hne

theorem isLine_words_of_eq (hne : ss ≠ []) (h : (" ".intercalate ss).toList = s.toList) :
    (words ss).IsLine s :=
  (isLine_words hne).of_eq (String.toList_inj.1 h)

/-- Three documents of one line, the outer ones in general brackets. -/
theorem IsLine.between {o c : Document} {p q : String} (ho : o.IsLine p) (hd : d.IsLine s)
    (hc : c.IsLine q) : (hcat [o, d, c]).IsLine (p ++ s ++ q) := by
  have h : (hcat [o, d, c]).IsLine ("".intercalate [p, s, q]) :=
    isLine_hcat (.cons ho (.cons hd (.cons hc .nil))) (by simp)
  simpa [String.append_assoc] using h

theorem IsLine.parens (h : d.IsLine s) : (parens d).IsLine ("(" ++ s ++ ")") :=
  IsLine.between (isLine_text "(") h (isLine_text ")")

end Beside

section Stacks

theorem lines_foldl_stack (ds : List Document) (acc : Document) :
    (ds.foldl stack acc).lines = acc.lines ++ ds.flatMap lines := by
  induction ds generalizing acc with
  | nil => simp
  | cons d ds ih =>
    rw [List.foldl_cons, ih, lines_stack, List.flatMap_cons, List.append_assoc]

theorem lines_vcat (ds : List Document) : (vcat ds).lines = ds.flatMap lines := by
  rw [vcat, lines_foldl_stack, lines_empty, List.nil_append]

theorem vsep_cons_cons (d e : Document) (ds : List Document) :
    vsep (d :: e :: ds) = stackSpaced d (vsep (e :: ds)) := by
  rw [vsep, vsep, List.getLast?_cons_cons, List.dropLast_cons_cons]
  cases h : (e :: ds).getLast? with
  | none => simp at h
  | some last => rfl

end Stacks

section Writing

/-- Moved to the right by `k` columns, the lines of the document can be written, and this is how.
No text in it is bare. -/
structure WrittenAt (k : Nat) (d : Document) (ss : List String) : Prop where
  bare : d.firstBare? = none
  lines : List.Forall₂ (fun l s => (l.shift k).WrittenAs s) d.lines ss

variable {k : Nat} {d e : Document} {s : String} {ss ts : List String} {ds : List Document}
  {sss : List (List String)}

theorem writtenAt_empty (k : Nat) : WrittenAt k empty [] := ⟨rfl, .nil⟩

theorem IsLine.writtenAt_zero (h : d.IsLine s) : WrittenAt 0 d [s] := by
  refine ⟨h.bare, ?_⟩
  rw [h.lines]
  exact .cons (writtenAs_flush s) .nil

theorem IsLine.writtenAt (h : d.IsLine s) (hk : k < 0x8000000000000000) (hs : s ≠ "") :
    WrittenAt k d [spaces k ++ s] := by
  refine ⟨h.bare, ?_⟩
  rw [h.lines, List.forall₂_cons, Line.shift, Int.zero_add]
  exact ⟨writtenAs_mk hk hs, .nil⟩

theorem WrittenAt.indented (h : WrittenAt (k + 2) d ss) : WrittenAt k (indented step d) ss := by
  refine ⟨firstBare?_indented h.bare, ?_⟩
  rw [lines_indented, List.forall₂_map_left_iff]
  refine h.lines.imp fun l s hl => ?_
  have hshift : (l.shift step).shift k = l.shift (k + 2 : Nat) := by
    simp only [Line.shift, step, Line.mk.injEq, and_true]
    omega
  rwa [hshift]

theorem WrittenAt.stackSpaced (hd : WrittenAt k d ss) (he : WrittenAt k e ts) :
    WrittenAt k (stackSpaced d e) (ss ++ "" :: ts) := by
  refine ⟨firstBare?_stack (firstBare?_stack hd.bare rfl) he.bare, ?_⟩
  rw [lines_stackSpaced]
  exact List.rel_append hd.lines (.cons (writtenAs_blank _) he.lines)

theorem writtenAt_vcat (h : List.Forall₂ (WrittenAt k) ds sss) :
    WrittenAt k (vcat ds) sss.flatten := by
  obtain ⟨hbare, hlines⟩ :=
    (List.forall₂_and_left ds sss).1 (h.imp fun _ _ he => ⟨he.bare, he.lines⟩)
  refine ⟨firstBare?_foldl_stack rfl hbare, ?_⟩
  rw [lines_vcat, List.flatMap_def]
  exact List.rel_flatten (List.forall₂_map_left_iff.2 hlines)

theorem writtenAt_vcat_of_lines (h : List.Forall₂ (fun d s => WrittenAt k d [s]) ds ss) :
    WrittenAt k (vcat ds) ss := by
  have hall := writtenAt_vcat (List.forall₂_map_right_iff.2 h)
  rwa [← List.flatMap_def, List.flatMap_singleton'] at hall

theorem writtenAt_vsep (hd : WrittenAt k d ss) (h : List.Forall₂ (WrittenAt k) ds sss) :
    WrittenAt k (vsep (d :: ds)) (ss ++ sss.flatMap ("" :: ·)) := by
  induction h generalizing d ss with
  | nil =>
    rw [List.flatMap_nil, List.append_nil]
    exact ⟨firstBare?_ofBare hd.bare, (lines_ofBare d).symm ▸ hd.lines⟩
  | cons he _ ih =>
    rw [vsep_cons_cons, List.flatMap_cons]
    exact hd.stackSpaced (ih he)

theorem WrittenAt.forall₂_writtenAs (h : WrittenAt 0 d ss) :
    List.Forall₂ Line.WrittenAs d.lines ss :=
  h.lines.imp fun l s hl => by rwa [Int.natCast_zero, Line.shift_zero] at hl

theorem WrittenAt.render_eq (h : WrittenAt 0 d ss) : d.render = "\n".intercalate ss := by
  have hall : d.lines.map Line.render = ss := by
    rw [← List.forall₂_eq_eq_eq, List.forall₂_map_left_iff]
    exact h.forall₂_writtenAs.imp fun _ _ hl => hl.rendered
  rw [render, renderLines, hall]

theorem WrittenAt.render?_eq (h : WrittenAt 0 d ss) : d.render? = .ok ("\n".intercalate ss) := by
  have hlayout : d.layout? = .ok d.lines := by rw [layout?, h.bare]
  rw [render?, hlayout, Except.bind, renderLines?, findSome?_fault_eq_none h.forall₂_writtenAs,
    ← h.render_eq, render]

end Writing

section Brackets

/-- The text of a bracketed list, behind `k` blanks. -/
def bracketTexts (k : Nat) (preamble opening closing separator : String) :
    List String → List String
  | [] => [spaces k ++ (preamble ++ " " ++ (opening ++ closing))]
  | [item] => [spaces k ++ (preamble ++ " " ++ (opening ++ item ++ closing))]
  | first :: more =>
    (spaces k ++ preamble) :: (spaces (k + 2) ++ (opening ++ " " ++ first)) ::
      (more.map (fun item => spaces (k + 2) ++ (separator ++ " " ++ item)) ++
        [spaces (k + 2) ++ closing])

variable {k : Nat} {preamble opening closing separator : Document} {p o c s : String}

theorem writtenAt_bracketList (hk : k + 2 < 0x8000000000000000) (hp : preamble.IsLine p) (hp' : p ≠ "")
    (ho : opening.IsLine o) (hc : closing.IsLine c) (hc' : c ≠ "") (hs : separator.IsLine s)
    {items : List Document} {is : List String} (h : List.Forall₂ IsLine items is) :
    WrittenAt k (bracketList preamble opening closing separator items)
      (bracketTexts k p o c s is) := by
  have hk' : k < 0x8000000000000000 := by omega
  have hinner : ∀ {d : Document} {t : String}, d.IsLine t → t ≠ "" →
      WrittenAt k (indented step d) [spaces (k + 2) ++ t] :=
    fun hd ht => (hd.writtenAt hk ht).indented
  cases h with
  | nil => exact (hp.adjoinSpaced (ho.adjoin hc)).writtenAt hk' (by simp)
  | @cons first i more is hfirst hmore =>
    cases hmore with
    | nil => exact (hp.adjoinSpaced (ho.between hfirst hc)).writtenAt hk' (by simp)
    | @cons second j more is hsecond hmore =>
      have hrest : List.Forall₂ (fun d t => WrittenAt k (indented step d) [t])
          ((second :: more).map (adjoinSpaced separator))
          ((j :: is).map fun i => spaces (k + 2) ++ (s ++ " " ++ i)) := by
        rw [List.forall₂_map_left_iff, List.forall₂_map_right_iff]
        exact (List.Forall₂.cons hsecond hmore).imp fun _ _ hd =>
          hinner (hs.adjoinSpaced hd) (by simp)
      have hblock : List.Forall₂ (fun d t => WrittenAt k (indented step d) [t])
          (adjoinSpaced opening first ::
            ((second :: more).map (adjoinSpaced separator) ++ [closing.ofBare])) _ :=
        .cons (hinner (ho.adjoinSpaced hfirst) (by simp))
          (List.rel_append hrest (.cons (hinner hc.ofBare hc') .nil))
      exact writtenAt_vcat_of_lines
        (.cons (hp.writtenAt hk' hp') (List.forall₂_map_left_iff.2 hblock))

end Brackets

end Document
end GrammarBindings
