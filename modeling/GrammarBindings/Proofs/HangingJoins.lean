import GrammarBindings.Proofs.PlainDocuments

/-!
# Joining hanging blocks

A block hangs well when it has lines, its first line is not left of the margin, and no further line
begins left of the first. Behind lines within the margin such a block is moved as a whole: each of
its further lines keeps its distance from the first, and none is held back at the margin. Blocks
that hang well make such a block when they are joined, and indenting the join is the same as
indenting its left operand.
-/

namespace GrammarBindings

/-- No line begins left of the first, which is there and not left of the margin. -/
structure HangsWell (ls : List Line) : Prop where
  ne_nil : ls ≠ []
  margin : ∀ first ∈ ls.head?, 0 ≤ first.indent
  hangs : Hangs ls

/-- A further line of a right operand, at its distance from the first one behind the last line of
the left operand. -/
def Line.alongside (space : Bool) (last first l : Line) : Line :=
  ⟨last.indent + last.text.length + (gap space).length + (l.indent - first.indent), l.text⟩

section Blocks

variable {space : Bool} {left right front more : List Line} {last first : Line} {k : Int}

theorem hangsWell_cons_iff :
    HangsWell (first :: more) ↔ 0 ≤ first.indent ∧ ∀ l ∈ more, first.indent ≤ l.indent := by
  constructor
  · rintro ⟨-, hmargin, hhangs⟩
    exact ⟨hmargin first rfl, fun l hl => hhangs first rfl l (List.mem_cons_of_mem first hl)⟩
  · rintro ⟨hmargin, hmore⟩
    refine ⟨List.cons_ne_nil first more, ?_, ?_⟩
    · rintro _ ⟨⟩
      exact hmargin
    · rintro _ ⟨⟩ l hl
      rcases List.mem_cons.1 hl with rfl | hl
      · exact Int.le_refl _
      · exact hmore l hl

instance (ls : List Line) : Decidable (HangsWell ls) :=
  match ls with
  | [] => isFalse fun h => h.ne_nil rfl
  | _ :: _ => decidable_of_iff _ hangsWell_cons_iff.symm

theorem HangsWell.indent_nonneg (h : HangsWell left) : ∀ l ∈ left, 0 ≤ l.indent := by
  obtain ⟨first, more, rfl⟩ := List.exists_cons_of_ne_nil h.ne_nil
  intro l hl
  have hfirst : 0 ≤ first.indent := h.margin first rfl
  have hl' : first.indent ≤ l.indent := h.hangs first rfl l hl
  omega

theorem indent_nonneg_alongside (hlast : 0 ≤ last.indent) (h : HangsWell (first :: more)) :
    ∀ l ∈ more, 0 ≤ (last.alongside space first l).indent := by
  intro l hl
  have hl' : first.indent ≤ l.indent := (hangsWell_cons_iff.1 h).2 l hl
  simp only [Line.alongside]
  omega

/-- What is not held back by the margin moves by the attachment of the two operands. -/
theorem shiftWithin_attachment {l : Line} (h : 0 ≤ (last.alongside space first l).indent) :
    l.shiftWithin (last.attachment space first) = last.alongside space first l := by
  simp only [Line.alongside] at h
  simp only [Line.shiftWithin, Line.attachment, Line.endColumn, Line.alongside, Line.mk.injEq,
    and_true]
  omega

theorem joinBlocks_of_hangsWell (hlast : 0 ≤ last.indent) (h : HangsWell (first :: more)) :
    joinBlocks space (front ++ [last]) (first :: more) =
      front ++ last.glue space first :: more.map (last.alongside space first) := by
  have hfree : ∀ l ∈ more, 0 ≤ (last.alongside space first l).indent :=
    indent_nonneg_alongside hlast h
  rw [joinBlocks_concat_cons, List.map_congr_left fun l hl => shiftWithin_attachment (hfree l hl)]

theorem HangsWell.joinBlocks (hleft : HangsWell left) (hright : HangsWell right) (space : Bool) :
    HangsWell (joinBlocks space left right) := by
  obtain ⟨first, more, rfl⟩ := List.exists_cons_of_ne_nil hright.ne_nil
  obtain ⟨front, last, rfl⟩ := exists_concat hleft.ne_nil
  have hlast : 0 ≤ last.indent := hleft.indent_nonneg last (by simp)
  have hbehind : ∀ l ∈ last.glue space first :: more.map (last.alongside space first),
      last.indent ≤ l.indent := by
    refine List.forall_mem_cons.2 ⟨Int.le_refl _, List.forall_mem_map.2 fun l hl => ?_⟩
    have hl' : first.indent ≤ l.indent := (hangsWell_cons_iff.1 hright).2 l hl
    simp only [Line.alongside]
    omega
  rw [joinBlocks_of_hangsWell hlast hright]
  -- The join begins with the first line of the left operand, alone or with a text behind it.
  cases front with
  | nil => exact hangsWell_cons_iff.2 ⟨hlast, (List.forall_mem_cons.1 hbehind).2⟩
  | cons head front =>
    obtain ⟨hhead, hfront⟩ := hangsWell_cons_iff.1 hleft
    refine hangsWell_cons_iff.2 ⟨hhead, fun l hl => ?_⟩
    rcases List.mem_append.1 hl with hl | hl
    · exact hfront l (List.mem_append_left _ hl)
    · exact Int.le_trans (hfront last (by simp)) (hbehind l hl)

/-- Indentation goes through a join to the left operand. -/
theorem map_shift_joinBlocks (hleft : HangsWell left) (hright : HangsWell right) (hk : 0 ≤ k) :
    (joinBlocks space left right).map (Line.shift k) =
      joinBlocks space (left.map (Line.shift k)) right := by
  obtain ⟨first, more, rfl⟩ := List.exists_cons_of_ne_nil hright.ne_nil
  obtain ⟨front, last, rfl⟩ := exists_concat hleft.ne_nil
  have hlast : 0 ≤ last.indent := hleft.indent_nonneg last (by simp)
  have hmoved : 0 ≤ (last.shift k).indent := Int.add_nonneg hlast hk
  have halong : ∀ l ∈ more, (last.alongside space first l).shift k =
      (last.shift k).alongside space first l := by
    intro l _
    simp only [Line.alongside, Line.shift, Line.mk.injEq, and_true]
    omega
  rw [List.map_append, List.map_singleton, joinBlocks_of_hangsWell hlast hright,
    joinBlocks_of_hangsWell hmoved hright, List.map_append, List.map_cons, List.map_map,
    List.map_congr_left (f := Line.shift k ∘ last.alongside space first) halong]
  rfl

end Blocks

namespace Document

/-- Behind lines within the margin a block that hangs well goes on with the last line, and its
further lines keep their distances from the first, since none of them is held back. If the left
operand hangs well too, so does the join, and it may be indented as a whole or on its left. -/
theorem layout?_beside_hanging {a b : Document} {front more : List Line} {last first : Line}
    (space : Bool) (ha : a.layout? = .ok (front ++ [last]))
    (hmargin : ∀ l ∈ front ++ [last], 0 ≤ l.indent) (hb : b.layout? = .ok (first :: more))
    (hhangs : HangsWell (first :: more)) :
    (beside a b space).layout? = .ok (front ++
        ⟨last.indent, last.text ++ gap space ++ first.text⟩ ::
          more.map fun l => ⟨last.indent + last.text.length + (gap space).length +
            (l.indent - first.indent), l.text⟩) ∧
      (∀ l ∈ more, 0 ≤ last.indent + last.text.length + (gap space).length +
        (l.indent - first.indent)) ∧
      (HangsWell (front ++ [last]) →
        (∃ ls, (beside a b space).layout? = .ok ls ∧ HangsWell ls) ∧
          ∀ k : Int, 0 ≤ k →
            (nest k (beside a b space)).layout? = (beside (nest k a) b space).layout?) := by
  have hlast : 0 ≤ last.indent := hmargin last (by simp)
  have hlayout : (beside a b space).layout? =
      .ok (joinBlocks space (front ++ [last]) (first :: more)) := by
    rw [(isJoin_beside space).layout, ha, hb]
    rfl
  refine ⟨?_, indent_nonneg_alongside hlast hhangs, fun hleft => ⟨?_, fun k hk => ?_⟩⟩
  · rw [hlayout, joinBlocks_of_hangsWell hlast hhangs]
    rfl
  · exact ⟨_, hlayout, hleft.joinBlocks hhangs space⟩
  · rw [layout?_nest, hlayout, (isJoin_beside space).layout, layout?_nest, ha, hb]
    exact congrArg Except.ok (map_shift_joinBlocks hleft hhangs hk)

/-- The left operand hangs two columns behind the margin, and the right one begins further behind
it, with lines at several distances. -/
theorem layout?_beside_hanging_block :
    let a := nest 2 (above (text "let") (nest 2 (text "x =")))
    let b := nest 7 (above (text "do") (above (nest 3 (text "y")) (text "z")))
    a.layout? = .ok ([⟨2, "let"⟩] ++ [⟨4, "x ="⟩]) ∧
      (∀ l ∈ [⟨2, "let"⟩] ++ [⟨4, "x ="⟩], 0 ≤ Line.indent l) ∧
      b.layout? = .ok (⟨7, "do"⟩ :: [⟨10, "y"⟩, ⟨7, "z"⟩]) ∧
      HangsWell (⟨7, "do"⟩ :: [⟨10, "y"⟩, ⟨7, "z"⟩]) ∧
      HangsWell ([⟨2, "let"⟩] ++ [⟨4, "x ="⟩]) ∧
      (beside a b true).layout? =
        .ok [⟨2, "let"⟩, ⟨4, "x = do"⟩, ⟨11, "y"⟩, ⟨8, "z"⟩] ∧
      (nest 3 (beside a b true)).layout? = (beside (nest 3 a) b true).layout? := by
  intro a b
  have hmargin : ∀ l ∈ [⟨2, "let"⟩] ++ [⟨4, "x ="⟩], 0 ≤ Line.indent l := by decide
  have hright : HangsWell (⟨7, "do"⟩ :: [⟨10, "y"⟩, ⟨7, "z"⟩]) := by decide
  have hleft : HangsWell ([⟨2, "let"⟩] ++ [⟨4, "x ="⟩]) := by decide
  obtain ⟨hlayout, -, hjoin⟩ :=
    layout?_beside_hanging (a := a) (b := b) true rfl hmargin rfl hright
  exact ⟨rfl, hmargin, rfl, hright, hleft, hlayout, (hjoin hleft).2 3 (by decide)⟩

end Document
end GrammarBindings
