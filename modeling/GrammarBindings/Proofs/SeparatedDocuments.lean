import GrammarBindings.Proofs.LaidOutTexts
import GrammarBindings.Proofs.PlainDocuments

/-!
# Blank lines between documents

`vsep` lays its documents out below each other, with one blank line at each boundary. A document
without lines keeps the boundaries on its two sides, and no other blank line comes in. So it makes
no difference which of the documents were separated beforehand. Where each document has a line, the
written documents are joined by two line ends.
-/

namespace GrammarBindings

open Line

/-- Blocks below each other, with one blank line at each boundary. -/
def separated (blocks : List (List Line)) : List Line := [flush ""].intercalate blocks

section Blocks

variable {ls ms : List Line} {front back blocks : List (List Line)}

@[simp] theorem separated_singleton (ls : List Line) : separated [ls] = ls :=
  List.intercalate_singleton

theorem separated_cons (ls : List Line) (h : blocks ≠ []) :
    separated (ls :: blocks) = ls ++ flush "" :: separated blocks := by
  rw [separated, separated, List.intercalate_cons_of_ne_nil h, List.append_assoc,
    List.singleton_append]

theorem separated_pair (ls ms : List Line) : separated [ls, ms] = ls ++ flush "" :: ms := by
  rw [separated_cons ls (List.cons_ne_nil ms []), separated_singleton]

/-- Blocks can be separated in two parts first. -/
theorem separated_append (hfront : front ≠ []) (hback : back ≠ []) :
    separated (front ++ back) = separated [separated front, separated back] := by
  rw [separated_pair]
  induction front with
  | nil => exact absurd rfl hfront
  | cons ls front ih =>
    rw [List.cons_append, separated_cons ls (List.append_ne_nil_of_right_ne_nil front hback)]
    by_cases hone : front = []
    · rw [hone, List.nil_append, separated_singleton]
    · rw [ih hone, separated_cons ls hone, List.append_assoc, List.cons_append]

theorem separated_ne_nil (hne : blocks ≠ []) (h : ∀ ls ∈ blocks, ls ≠ []) :
    separated blocks ≠ [] := by
  obtain ⟨ls, blocks, rfl⟩ := List.exists_cons_of_ne_nil hne
  have hls : ls ≠ [] := h ls List.mem_cons_self
  by_cases hone : blocks = []
  · rw [hone, separated_singleton]
    exact hls
  · rw [separated_cons ls hone]
    exact List.append_ne_nil_of_left_ne_nil hls _

end Blocks

namespace Document

section Rendering

variable {ls ms : List Line} {blocks : List (List Line)}

/-- A blank line between two blocks is written as two line ends. -/
theorem renderLines_append_blank (hls : ls ≠ []) (hms : ms ≠ []) :
    renderLines (ls ++ flush "" :: ms) = renderLines ls ++ "\n\n" ++ renderLines ms := by
  have hls' : ls.map Line.render ≠ [] := mt List.map_eq_nil_iff.1 hls
  have hms' : ms.map Line.render ≠ [] := mt List.map_eq_nil_iff.1 hms
  have hblank : (flush "").render = "" := rfl
  have hends : "\n" ++ ("" ++ "\n") = "\n\n" := rfl
  rw [renderLines, List.map_append, List.map_cons, hblank,
    String.intercalate_append_of_ne_nil hls' (List.cons_ne_nil _ _),
    String.intercalate_cons_of_ne_nil hms', ← hends]
  simp only [renderLines, String.append_assoc]

/-- Of two blocks with a blank line between them, the first that cannot be written is blamed. -/
theorem renderLines?_append_blank (hls : ls ≠ []) (hms : ms ≠ []) :
    renderLines? (ls ++ flush "" :: ms) =
      (renderLines? ls).bind fun s => (renderLines? ms).map fun t => s ++ "\n\n" ++ t := by
  have hblank : (flush "").fault? = none := (writtenAs_flush "").fault
  rw [renderLines?, renderLines?, renderLines?, List.findSome?_append, List.findSome?_cons, hblank,
    renderLines_append_blank hls hms]
  cases ls.findSome? Line.fault? with
  | some f => rfl
  | none =>
    cases ms.findSome? Line.fault? with
    | some f => rfl
    | none => rfl

theorem renderLines?_separated (h : ∀ ls ∈ blocks, ls ≠ []) :
    renderLines? (separated blocks) = (blocks.mapM renderLines?).map "\n\n".intercalate := by
  induction blocks with
  | nil => rfl
  | cons ls blocks ih =>
    obtain ⟨hls, hblocks⟩ := List.forall_mem_cons.1 h
    rw [List.mapM_cons]
    by_cases hone : blocks = []
    · subst hone
      rw [separated_singleton, List.mapM_nil]
      cases renderLines? ls with
      | error f => rfl
      | ok s => exact congrArg Except.ok String.intercalate_singleton.symm
    · rw [separated_cons ls hone,
        renderLines?_append_blank hls (separated_ne_nil hone hblocks), ih hblocks]
      cases renderLines? ls with
      | error f => rfl
      | ok s =>
        cases hrest : blocks.mapM renderLines? with
        | error f => rfl
        | ok ss =>
          have hss : ss ≠ [] := ne_nil_of_mapM hrest hone
          exact congrArg Except.ok (String.intercalate_cons_of_ne_nil hss).symm

end Rendering

section Separation

variable {ds : List Document}

theorem layout?_aboveBlank (t b : Document) :
    (aboveBlank t b).layout? =
      bothLayouts (fun ls ms => separated [ls, ms]) t.layout? b.layout? := by
  rw [aboveBlank, isJoin_above.layout, isJoin_above.layout]
  cases t.layout? with
  | error f => rfl
  | ok ls =>
    cases b.layout? with
    | error f => rfl
    | ok ms =>
      have hlines : ls ++ [flush ""] ++ ms = separated [ls, ms] := by
        rw [separated_pair, List.append_assoc, List.singleton_append]
      exact congrArg Except.ok hlines

theorem layout?_blankChain (ds : List Document) :
    (blankChain ds).layout? = (ds.mapM layout?).map separated := by
  fun_induction blankChain ds with
  | case1 => rfl
  | case2 d =>
    rw [List.mapM_cons, List.mapM_nil]
    cases d.layout? with
    | error f => rfl
    | ok ls => exact congrArg Except.ok (separated_singleton ls).symm
  | case3 d e ds ih =>
    rw [layout?_aboveBlank, ih, List.mapM_cons (a := d)]
    cases d.layout? with
    | error f => rfl
    | ok ls =>
      cases hrest : (e :: ds).mapM layout? with
      | error f => rfl
      | ok lss =>
        have hne : lss ≠ [] := ne_nil_of_mapM hrest (List.cons_ne_nil e ds)
        have hlines : separated [ls, separated lss] = separated (ls :: lss) := by
          rw [separated_pair, separated_cons ls hne]
        exact congrArg Except.ok hlines

/-- The layouts of the documents, in which a bare text counts as a text. -/
def layouts? (ds : List Document) : Except LayoutFault (List (List Line)) :=
  ds.mapM fun d => d.ofBare.layout?

theorem layout?_vsep (ds : List Document) : (vsep ds).layout? = (layouts? ds).map separated := by
  have heach : List.Forall₂ StandsFor ds (ds.map ofBare) :=
    List.forall₂_map_right_iff.2 (List.forall₂_same.2 fun d _ => standsFor_ofBare d)
  have hstands : StandsFor (vsep ds) (blankChain (ds.map ofBare)) := standsFor_vsep heach
  rw [StandsFor, made_vsep, layout?_blankChain, List.mapM_map] at hstands
  exact hstands

/-- Where every document has a line, so has every layout. -/
theorem exists_layouts (h : ∀ d ∈ ds, ∃ l ls, d.ofBare.layout? = .ok (l :: ls)) :
    ∃ blocks, layouts? ds = .ok blocks ∧
      List.Forall₂ (fun d ls => d.ofBare.layout? = .ok ls ∧ ls ≠ []) ds blocks := by
  have hall : ∀ d ∈ ds, ∃ ls, d.ofBare.layout? = .ok ls ∧ d.ofBare.layout? = .ok ls ∧ ls ≠ [] := by
    intro d hd
    obtain ⟨l, ls, hlayout⟩ := h d hd
    exact ⟨l :: ls, hlayout, hlayout, List.cons_ne_nil l ls⟩
  exact exists_mapM_eq_ok hall

theorem render?_vsep (h : ∀ d ∈ ds, ∃ l ls, d.ofBare.layout? = .ok (l :: ls)) :
    (vsep ds).render? = (ds.mapM fun d : Document => d.ofBare.render?).map "\n\n".intercalate := by
  obtain ⟨blocks, hblocks, hall⟩ := exists_layouts h
  have hrender : (vsep ds).render? = renderLines? (separated blocks) := by
    rw [render?, layout?_vsep, hblocks]
    rfl
  have hlines : ∀ ls ∈ blocks, ls ≠ [] := by
    intro ls hls
    obtain ⟨d, -, -, hne⟩ := exists_mem_of_forall₂ hall hls
    exact hne
  have heach : (ds.mapM fun d : Document => d.ofBare.render?) = blocks.mapM renderLines? := by
    refine mapM_eq_of_forall₂ (hall.imp fun d ls hd => ?_)
    rw [render?, hd.1]
    rfl
  rw [hrender, renderLines?_separated hlines, heach]

theorem layout?_vsep_append {front back : List Document} (hfront : front ≠ []) (hback : back ≠ []) :
    (vsep (front ++ back)).layout? = (vsep [vsep front, vsep back]).layout? := by
  have hpair : layouts? [vsep front, vsep back] = do
      let ls ← (layouts? front).map separated
      let ms ← (layouts? back).map separated
      return [ls, ms] := by
    rw [← layout?_vsep, ← layout?_vsep, layouts?, List.mapM_cons, List.mapM_cons, List.mapM_nil,
      made_vsep, made_vsep]
    simp
  rw [layout?_vsep, layout?_vsep, hpair, layouts?, List.mapM_append, ← layouts?, ← layouts?]
  cases hf : layouts? front with
  | error f => rfl
  | ok lss =>
    cases hb : layouts? back with
    | error f => rfl
    | ok mss =>
      exact congrArg Except.ok
        (separated_append (ne_nil_of_mapM hf hfront) (ne_nil_of_mapM hb hback))

/-- The layout of separated documents has the layout of each of them, with one blank line at each
boundary, or fails as the first of them does. Written, they are joined by two line ends if each has
a line, and they can be separated in two parts first. -/
theorem vsep_separates (ds : List Document) :
    (vsep ds).layout? = (ds.mapM fun d : Document => d.ofBare.layout?).map separated ∧
      ((∀ d ∈ ds, ∃ l ls, d.ofBare.layout? = .ok (l :: ls)) →
        (vsep ds).render? = (ds.mapM fun d : Document => d.ofBare.render?).map "\n\n".intercalate) ∧
      ∀ front back, front ≠ [] → back ≠ [] → ds = front ++ back →
        (vsep ds).layout? = (vsep [vsep front, vsep back]).layout? := by
  refine ⟨layout?_vsep ds, render?_vsep, ?_⟩
  rintro front back hfront hback rfl
  exact layout?_vsep_append hfront hback

/-- A bare text, a document of two lines and one of a blank line; and separated in two parts, with
documents without lines at both ends and amid them. -/
theorem vsep_separates_blank :
    let ds := [bare "a", above (text "b") (nest 2 (text "c")), text ""]
    let front := [empty, bare "a"]
    let back := [beside empty empty true, text "b", empty]
    (∀ d ∈ ds, ∃ l ls, d.ofBare.layout? = .ok (l :: ls)) ∧
      (vsep ds).layout? =
        .ok [⟨0, "a"⟩, ⟨0, ""⟩, ⟨0, "b"⟩, ⟨2, "c"⟩, ⟨0, ""⟩, ⟨0, ""⟩] ∧
      (vsep ds).render? = .ok "a\n\nb\n  c\n\n" ∧
      front ≠ [] ∧ back ≠ [] ∧
      (vsep (front ++ back)).layout? = (vsep [vsep front, vsep back]).layout? ∧
      (vsep (front ++ back)).layout? =
        .ok [⟨0, ""⟩, ⟨0, "a"⟩, ⟨0, ""⟩, ⟨0, ""⟩, ⟨0, "b"⟩, ⟨0, ""⟩] := by
  intro ds front back
  have hlines : ∀ d ∈ ds, ∃ l ls, d.ofBare.layout? = .ok (l :: ls) := by
    intro d hd
    simp only [ds, List.mem_cons, List.not_mem_nil, or_false] at hd
    rcases hd with rfl | rfl | rfl <;> exact ⟨_, _, rfl⟩
  have hfront : front ≠ [] := List.cons_ne_nil _ _
  have hback : back ≠ [] := List.cons_ne_nil _ _
  obtain ⟨hlayout, hrender, -⟩ := vsep_separates ds
  obtain ⟨hboth, -, hparts⟩ := vsep_separates (front ++ back)
  exact ⟨hlines, hlayout, (hrender hlines).trans (by decide +kernel), hfront, hback,
    hparts front back hfront hback rfl, hboth⟩

end Separation

end Document
end GrammarBindings
