import GrammarBindings.Proofs.JoinAssociativity

/-!
# The texts of a layout

Laying a document out loses, repeats and reorders nothing: its lines, as they are written, consist
of the texts of its leaves from left to right, each as it is, with nothing but blanks and line ends
between them. On the way the leaves are spread over the lines, some of them to each; a horizontal
join puts those of the last line of its left operand and of the first line of its right one on one
line. The written lines are returned unless an indentation is too large to be written.
-/

namespace GrammarBindings

/-- Blanks and line ends only. -/
def IsFiller (s : String) : Prop := ∀ c ∈ s.toList, c = ' ' ∨ c = '\n'

theorem isFiller_empty : IsFiller "" := by simp [IsFiller]

theorem IsFiller.append {s t : String} (hs : IsFiller s) (ht : IsFiller t) : IsFiller (s ++ t) := by
  intro c hc
  rw [String.toList_append] at hc
  rcases List.mem_append.1 hc with hc | hc
  · exact hs c hc
  · exact ht c hc

theorem isFiller_lineEnd : IsFiller "\n" := by simp [IsFiller]

theorem isFiller_gap (space : Bool) : IsFiller (gap space) := by
  cases space with
  | false => exact isFiller_empty
  | true => simp [IsFiller, gap]

theorem isFiller_spaces (k : Nat) : IsFiller (Line.spaces k) := by
  intro c hc
  rw [Line.spaces, String.toList_ofList] at hc
  exact .inl (List.eq_of_mem_replicate hc)

/-- The text consists of the parts in their order, with filler in front, between and behind. -/
inductive Interleaved : List String → String → Prop where
  | nil {w : String} (hw : IsFiller w) : Interleaved [] w
  | cons {w : String} (hw : IsFiller w) (part : String) {parts : List String} {s : String}
      (hs : Interleaved parts s) : Interleaved (part :: parts) (w ++ part ++ s)

section Interleaving

variable {ps qs : List String} {s t w : String}

theorem interleaved_singleton (s : String) : Interleaved [s] s := by
  have h := Interleaved.cons isFiller_empty s (.nil isFiller_empty)
  rwa [String.append_empty, String.empty_append] at h

theorem Interleaved.behind (hw : IsFiller w) (h : Interleaved ps s) : Interleaved ps (w ++ s) := by
  cases h with
  | nil hs => exact .nil (hw.append hs)
  | cons hv part hs =>
    rw [← String.append_assoc, ← String.append_assoc]
    exact .cons (hw.append hv) part hs

theorem Interleaved.append (hs : Interleaved ps s) (ht : Interleaved qs t) :
    Interleaved (ps ++ qs) (s ++ t) := by
  induction hs with
  | nil hw => exact ht.behind hw
  | cons hw part _ ih =>
    rw [String.append_assoc]
    exact .cons hw part ih

theorem Interleaved.before (h : Interleaved ps s) (hw : IsFiller w) : Interleaved ps (s ++ w) := by
  have h' := h.append (.nil hw)
  rwa [List.append_nil] at h'

end Interleaving

/-- A line with text is written behind its indentation, and one without is not written at all. -/
theorem Interleaved.render {ps : List String} {l : Line} (h : Interleaved ps l.text) :
    Interleaved ps l.render := by
  rw [Line.render]
  split
  · next hempty =>
    rwa [String.isEmpty_iff.1 hempty] at h
  · exact h.behind (isFiller_spaces _)

theorem Line.fault?_eq_none_iff {l : Line} :
    l.fault? = none ↔
      (l.text ≠ "" → -0x8000000000000000 ≤ l.indent ∧ l.indent < 0x8000000000000000) := by
  by_cases htext : l.text = ""
  · simp [fault?, htext]
  have hempty : ¬ l.text.isEmpty := by simpa using htext
  rw [fault?, if_neg hempty, ← fits64_iff]
  simp [htext]

/-- Some of the parts, in order, are on each of the lines. -/
inductive Spread : List String → List Line → Prop where
  | nil : Spread [] []
  | cons {ps qs : List String} {l : Line} {ls : List Line} (hl : Interleaved ps l.text)
      (hls : Spread qs ls) : Spread (ps ++ qs) (l :: ls)

namespace Spread

theorem line (s : String) : Spread [s] [⟨0, s⟩] := by
  have h : Interleaved [s] (Line.mk 0 s).text := interleaved_singleton s
  exact .cons h .nil

variable {ps qs : List String} {ls ms : List Line}

theorem map {f : Line → Line} (hf : ∀ l, (f l).text = l.text) (h : Spread ps ls) :
    Spread ps (ls.map f) := by
  induction h with
  | nil => exact .nil
  | @cons ps qs l ls hl _ ih =>
    rw [← hf l] at hl
    exact .cons hl ih

theorem append (hl : Spread ps ls) (hm : Spread qs ms) : Spread (ps ++ qs) (ls ++ ms) := by
  induction hl with
  | nil => exact hm
  | cons hl _ ih =>
    rw [List.append_assoc]
    exact .cons hl ih

theorem exists_of_append (h : Spread ps (ls ++ ms)) :
    ∃ qs rs, ps = qs ++ rs ∧ Spread qs ls ∧ Spread rs ms := by
  induction ls generalizing ps with
  | nil => exact ⟨[], ps, rfl, .nil, h⟩
  | cons l ls ih =>
    cases h with
    | @cons ps' ps'' _ _ hl hls =>
      obtain ⟨qs, rs, rfl, hqs, hrs⟩ := ih hls
      exact ⟨ps' ++ qs, rs, (List.append_assoc ps' qs rs).symm, .cons hl hqs, hrs⟩

theorem joinBlocks (space : Bool) (hl : Spread ps ls) (hm : Spread qs ms) :
    Spread (ps ++ qs) (joinBlocks space ls ms) := by
  by_cases hne : ls = []
  · subst hne
    cases hl
    exact hm
  cases hm with
  | nil =>
    rw [joinBlocks_nil_right, List.append_nil]
    exact hl
  | @cons qs rs first more hfirst hmore =>
    obtain ⟨front, last, rfl⟩ := exists_concat hne
    obtain ⟨ps, ps', rfl, hfront, hlast⟩ := hl.exists_of_append
    rw [joinBlocks_concat_cons, List.append_assoc]
    refine hfront.append ?_
    cases hlast with
    | @cons ps' ps'' _ _ hlast hnil =>
      cases hnil
      have hstem : Interleaved ps' (last.text ++ gap space) := hlast.before (isFiller_gap space)
      rw [List.append_nil, ← List.append_assoc]
      exact .cons (hstem.append hfirst) (hmore.map fun _ => rfl)

/-- The filler of the written lines: their indentations and the line ends between them. -/
theorem interleaved_renderLines (h : Spread ps ls) : Interleaved ps (Document.renderLines ls) := by
  induction h with
  | nil => exact .nil isFiller_empty
  | @cons ps qs l ls hl hls ih =>
    have hline : Interleaved ps l.render := hl.render
    cases ls with
    | nil =>
      cases hls
      rw [List.append_nil]
      exact hline
    | cons m ms =>
      rw [Document.renderLines, List.map_cons, List.map_cons, String.intercalate_cons_cons]
      exact (hline.before isFiller_lineEnd).append ih

end Spread

namespace Document

/-- The texts of the leaves from left to right. -/
def texts : Document → List String
  | empty => []
  | text value | bare value => [value]
  | beside left right _ => left.texts ++ right.texts
  | above top bottom => top.texts ++ bottom.texts
  | nest _ body => body.texts

theorem spread_texts (d : Document) : Spread d.texts d.lines := by
  induction d with
  | empty => exact .nil
  | text value => exact .line value
  | bare value => exact .line value
  | beside left right space ihl ihr => exact ihl.joinBlocks space ihr
  | above top bottom iht ihb => exact iht.append ihb
  | nest indent body ih => exact ih.map fun _ => rfl

theorem renderLines?_of_writable {ls : List Line} (h : ∀ l ∈ ls, l.fault? = none) :
    renderLines? ls = .ok (renderLines ls) := by
  rw [renderLines?, List.findSome?_eq_none_iff.2 h]

theorem exists_fault_of_renderLines? {ls : List Line} {l : Line} (hl : l ∈ ls)
    (h : l.fault? ≠ none) : ∃ f, renderLines? ls = .error f := by
  have hsome : ls.findSome? Line.fault? ≠ none := fun hnone =>
    h (List.findSome?_eq_none_iff.1 hnone l hl)
  obtain ⟨f, hf⟩ := Option.ne_none_iff_exists'.1 hsome
  exact ⟨f, by rw [renderLines?, hf]⟩

theorem eq_of_renderLines?_eq_ok {ls : List Line} {s : String} (h : renderLines? ls = .ok s) :
    s = renderLines ls := by
  rw [renderLines?] at h
  split at h
  · cases h
  · exact (Except.ok.inj h).symm

theorem render?_of_firstBare? {d : Document} (h : d.firstBare? = none) :
    d.render? = renderLines? d.lines := by
  rw [render?, layout?_of_firstBare? h]
  rfl

/-- The layout of a document, as it is written, consists of the texts of the leaves in their order.
This is what is returned, unless a line with text ends up at an indentation that is no integer of
64 bits; then there is nothing but the fault. -/
theorem render_keeps_texts {d : Document} (h : d.firstBare? = none) :
    d.layout? = .ok d.lines ∧ Interleaved d.texts d.render ∧
      ((∀ l ∈ d.lines, l.text ≠ "" →
          -0x8000000000000000 ≤ l.indent ∧ l.indent < 0x8000000000000000) →
        d.render? = .ok d.render) ∧
      ((∃ l ∈ d.lines, l.text ≠ "" ∧
          (l.indent < -0x8000000000000000 ∨ 0x8000000000000000 ≤ l.indent)) →
        ∃ f, d.render? = .error f) ∧
      ∀ s, d.render? = .ok s → s = d.render := by
  rw [render?_of_firstBare? h]
  refine ⟨layout?_of_firstBare? h, d.spread_texts.interleaved_renderLines, ?_, ?_, ?_⟩
  · intro hwritable
    refine renderLines?_of_writable fun l hl => Line.fault?_eq_none_iff.2 ?_
    exact hwritable l hl
  · rintro ⟨l, hl, htext, hindent⟩
    refine exists_fault_of_renderLines? hl fun hnone => ?_
    have hrange := Line.fault?_eq_none_iff.1 hnone htext
    omega
  · exact fun s => eq_of_renderLines?_eq_ok

/-- A text left of the margin, with a block joined to it whose lines are far apart. -/
theorem render_keeps_texts_outdented :
    (beside (nest (-3) (text "a\n")) (above (nest 0x10000000000000000 (text "")) (text "b"))
        true).firstBare? = none ∧
      Interleaved ["a\n", "", "b"]
        (beside (nest (-3) (text "a\n")) (above (nest 0x10000000000000000 (text "")) (text "b"))
          true).render ∧
      (beside (nest (-3) (text "a\n")) (above (nest 0x10000000000000000 (text "")) (text "b"))
        true).render? = .ok "a\n \nb" := by
  have h := render_keeps_texts (d := beside (nest (-3) (text "a\n"))
    (above (nest 0x10000000000000000 (text "")) (text "b")) true) rfl
  exact ⟨rfl, h.2.1, h.2.2.1 (by decide)⟩

/-- No blank stands in front of a text that is left of the margin, but if it is too far from it the
text is not written at all. -/
theorem render?_far_outdented :
    ¬ ∃ s, (nest (-0x8000000000000001) (text "a")).render? = .ok s ∧ Interleaved ["a"] s := by
  have hfault : (nest (-0x8000000000000001) (text "a")).render? = .error .uncountable := rfl
  rintro ⟨s, hs, -⟩
  rw [hfault] at hs
  cases hs

end Document
end GrammarBindings
