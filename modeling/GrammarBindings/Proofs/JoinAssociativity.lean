import GrammarBindings.Proofs.DocumentLines

/-!
# Bracketing of joins

Stacking is associative. A horizontal join moves the further lines of its right operand by the
attachment of the two operands, and holds them back at the margin. Of three operands the last one
is moved once in the one bracketing and twice in the other, so what the first move held back can
make a difference. `Reassociable` says of three blocks that it makes none, and this is exactly when
a horizontal join of them may be bracketed either way. It is so wherever nothing is held back, and
in particular when no further line of the last two blocks begins left of the first of its block.
-/

namespace GrammarBindings

/-- The line with which two blocks are joined. -/
def Line.glue (space : Bool) (last first : Line) : Line :=
  { last with text := last.text ++ gap space ++ first.text }

/-- How far a line takes the further lines of a block that begins with another line. -/
def Line.attachment (space : Bool) (last first : Line) : Int :=
  last.endColumn + (gap space).length - first.indent

/-- How far a join moves the further lines of its right block. -/
def attachment (space : Bool) (left right : List Line) : Int :=
  match left.getLast?, right.head? with
  | some last, some first => last.attachment space first
  | _, _ => 0

/-- Each further line of the last block comes to the same column, whether it is moved to the end of
the middle block and with that to the end of the first, or at once to the end of the two. -/
def Reassociable (space : Bool) (a b c : List Line) : Prop :=
  b = [] ∨ ∀ l ∈ c.tail,
    max 0 (max 0 (l.indent + attachment space b c) + attachment space a b) =
      max 0 (l.indent + attachment space (joinBlocks space a b) c)

instance (space : Bool) (a b c : List Line) : Decidable (Reassociable space a b c) :=
  inferInstanceAs (Decidable (_ ∨ _))

/-- No line begins left of the first. -/
def Hangs (ls : List Line) : Prop := ∀ first ∈ ls.head?, ∀ l ∈ ls, first.indent ≤ l.indent

namespace Line

variable {space : Bool}

theorem glue_glue (l m n : Line) :
    (l.glue space m).glue space n = l.glue space (m.glue space n) := by
  simp only [glue, String.append_assoc]

theorem shiftWithin_glue (k : Int) (l m : Line) :
    (l.glue space m).shiftWithin k = (l.shiftWithin k).glue space m := rfl

theorem attachment_glue_right (l m n : Line) :
    l.attachment space (m.glue space n) = l.attachment space m := rfl

theorem attachment_glue_left (l m n : Line) :
    (l.glue space m).attachment space n = m.attachment space n + l.attachment space m := by
  simp only [attachment, glue, endColumn, String.length_append, Int.natCast_add]
  omega

theorem attachment_shiftWithin {k : Int} {l : Line} (h : 0 ≤ l.indent + k) (m : Line) :
    (l.shiftWithin k).attachment space m = l.attachment space m + k := by
  simp only [attachment, shiftWithin, endColumn]
  omega

end Line

section Blocks

variable {space : Bool} {a b c ls : List Line}

theorem exists_concat (h : ls ≠ []) : ∃ front last, ls = front ++ [last] :=
  ⟨ls.dropLast, ls.getLast h, (List.dropLast_concat_getLast h).symm⟩

theorem joinBlocks_concat_cons (space : Bool) (ls : List Line) (last first : Line)
    (more : List Line) :
    joinBlocks space (ls ++ [last]) (first :: more) =
      ls ++ last.glue space first :: more.map (Line.shiftWithin (last.attachment space first)) := by
  have hend : (⟨last.indent, last.text ++ gap space⟩ : Line).endColumn =
      last.endColumn + (gap space).length := by
    simp only [Line.endColumn, String.length_append, Int.natCast_add]
    omega
  simp only [joinBlocks, List.getLast?_concat, List.dropLast_concat, hend, Line.glue,
    Line.attachment]

/-- The last line of a block of several lines moves with the block. -/
theorem joinBlocks_concat_concat (space : Bool) (ls ms : List Line) (last first final : Line) :
    joinBlocks space (ls ++ [last]) (first :: ms ++ [final]) =
      (ls ++ last.glue space first ::
        ms.map (Line.shiftWithin (last.attachment space first))) ++
          [final.shiftWithin (last.attachment space first)] := by
  rw [List.cons_append, joinBlocks_concat_cons, List.map_append, List.map_singleton,
    List.append_assoc, List.cons_append]

theorem attachment_concat_cons (space : Bool) (ls : List Line) (last first : Line)
    (more : List Line) :
    attachment space (ls ++ [last]) (first :: more) = last.attachment space first := by
  simp only [attachment, List.getLast?_concat, List.head?_cons]

/-- Moving lines within the margin keeps their texts, so only the columns matter. -/
theorem map_shiftWithin_eq_iff {i j k : Int} :
    ls.map (Line.shiftWithin k) = (ls.map (Line.shiftWithin i)).map (Line.shiftWithin j) ↔
      ∀ l ∈ ls, max 0 (max 0 (l.indent + i) + j) = max 0 (l.indent + k) := by
  rw [eq_comm, List.map_map, List.map_inj_left]
  simp only [Function.comp_apply, Line.shiftWithin, Line.mk.injEq, and_true]

theorem joinBlocks_assoc_iff :
    joinBlocks space (joinBlocks space a b) c = joinBlocks space a (joinBlocks space b c) ↔
      Reassociable space a b c := by
  by_cases ha : a = []
  · subst ha
    have hab : attachment space [] b = 0 := rfl
    simp [Reassociable, hab]
  by_cases hb : b = []
  · subst hb
    simp [Reassociable]
  cases c with
  | nil => simp [Reassociable]
  | cons first more =>
    obtain ⟨as, la, rfl⟩ := exists_concat ha
    rw [Reassociable, or_iff_right hb]
    obtain ⟨bs, lb, rfl⟩ := exists_concat hb
    have hbc := joinBlocks_concat_cons space bs lb first more
    rw [hbc, attachment_concat_cons, List.tail_cons]
    -- The last line of the middle block moves with the block unless it is also the first.
    cases bs with
    | nil =>
      have hab : joinBlocks space (as ++ [la]) ([] ++ [lb]) = as ++ [la.glue space lb] :=
        joinBlocks_concat_cons space as la lb []
      rw [hab, List.nil_append, List.nil_append, joinBlocks_concat_cons, joinBlocks_concat_cons,
        attachment_concat_cons, attachment_concat_cons, Line.glue_glue,
        Line.attachment_glue_right, List.append_cancel_left_eq, List.cons_inj_right,
        map_shiftWithin_eq_iff]
    | cons fb bs =>
      rw [joinBlocks_concat_concat, List.cons_append, List.cons_append, attachment_concat_cons,
        attachment_concat_cons, joinBlocks_concat_cons, joinBlocks_concat_cons, List.map_append,
        List.map_cons, Line.shiftWithin_glue, List.append_assoc, List.cons_append,
        List.append_cancel_left_eq, List.cons_inj_right, List.append_cancel_left_eq,
        List.cons_inj_right, map_shiftWithin_eq_iff]

/-- While nothing of the middle block is held back, its end moves as far as the block. -/
theorem attachment_joinBlocks (ha : a ≠ []) (hb : b ≠ []) (hc : c ≠ [])
    (h : ∀ l ∈ b.tail, 0 ≤ l.indent + attachment space a b) :
    attachment space (joinBlocks space a b) c = attachment space b c + attachment space a b := by
  obtain ⟨as, la, rfl⟩ := exists_concat ha
  obtain ⟨bs, lb, rfl⟩ := exists_concat hb
  obtain ⟨first, more, rfl⟩ := List.exists_cons_of_ne_nil hc
  cases bs with
  | nil =>
    rw [List.nil_append, joinBlocks_concat_cons, List.map_nil, attachment_concat_cons,
      attachment_concat_cons, Line.attachment_glue_left]
    exact congrArg (· + _) (attachment_concat_cons space [] lb first more).symm
  | cons fb bs =>
    have hab : attachment space (as ++ [la]) (fb :: bs ++ [lb]) = la.attachment space fb :=
      attachment_concat_cons space as la fb _
    have hlast : 0 ≤ lb.indent + la.attachment space fb := by
      rw [← hab]
      exact h lb (by simp)
    rw [hab, joinBlocks_concat_concat, attachment_concat_cons, attachment_concat_cons,
      Line.attachment_shiftWithin hlast]

theorem reassociable_of_free (hb : ∀ l ∈ b.tail, 0 ≤ l.indent + attachment space a b)
    (hc : ∀ l ∈ c.tail, 0 ≤ l.indent + attachment space b c) : Reassociable space a b c := by
  by_cases hbe : b = []
  · exact .inl hbe
  right
  intro l hl
  have hl' := hc l hl
  have hce : c ≠ [] := by
    rintro rfl
    cases hl
  by_cases ha : a = []
  · subst ha
    have hab : attachment space [] b = 0 := rfl
    rw [joinBlocks_nil_left, hab]
    omega
  · rw [attachment_joinBlocks ha hbe hce hb]
    omega

/-- A block that hangs from its first line is not held back behind lines within the margin. -/
theorem Hangs.free {right left : List Line} (h : Hangs right) (hleft : ∀ l ∈ left, 0 ≤ l.indent)
    (hne : left ≠ []) : ∀ l ∈ right.tail, 0 ≤ l.indent + attachment space left right := by
  intro l hl
  obtain ⟨front, last, rfl⟩ := exists_concat hne
  cases right with
  | nil => cases hl
  | cons first more =>
    have hlast : 0 ≤ last.indent := hleft last (by simp)
    have hfirst : first.indent ≤ l.indent := h first rfl l (List.mem_cons_of_mem first hl)
    rw [attachment_concat_cons, Line.attachment, Line.endColumn]
    omega

/-- Where no line begins left of the margin, blocks that hang from their first lines may be joined in
either bracketing. -/
theorem reassociable_of_hangs (ha : ∀ l ∈ a, 0 ≤ l.indent) (hb : ∀ l ∈ b, 0 ≤ l.indent)
    (hbh : Hangs b) (hch : Hangs c) : Reassociable space a b c := by
  by_cases hbe : b = []
  · exact .inl hbe
  by_cases hae : a = []
  · subst hae
    have hfree : ∀ l ∈ b.tail, 0 ≤ l.indent + attachment space [] b := fun l hl => by
      simpa [attachment] using hb l (List.mem_of_mem_tail hl)
    exact reassociable_of_free hfree (hch.free hb hbe)
  · exact reassociable_of_free (hbh.free ha hae) (hch.free hb hbe)

end Blocks

namespace Document

variable {a b c : Document}

theorem layout?_of_firstBare? {d : Document} (h : d.firstBare? = none) :
    d.layout? = .ok d.lines := by
  rw [layout?, h]

/-- Two documents without bare texts are written alike as soon as they are laid out alike. -/
theorem layout?_and_render?_eq_iff {d e : Document} (hd : d.firstBare? = none)
    (he : e.firstBare? = none) :
    (d.layout? = e.layout? ∧ d.render? = e.render?) ↔ d.lines = e.lines := by
  rw [render?, render?, layout?_of_firstBare? hd, layout?_of_firstBare? he]
  constructor
  · rintro ⟨h, -⟩
    exact Except.ok.inj h
  · intro h
    rw [h]
    exact ⟨rfl, rfl⟩

/-- The join of which `adjoin` and `adjoinSpaced` are the two cases. -/
theorem join_assoc_iff (space : Bool) (ha : a.firstBare? = none) (hb : b.firstBare? = none)
    (hc : c.firstBare? = none) :
    let join := joinSimply (beside · · space)
    ((join (join a b) c).layout? = (join a (join b c)).layout? ∧
      (join (join a b) c).render? = (join a (join b c)).render?) ↔
        Reassociable space a.lines b.lines c.lines := by
  intro join
  have hlines : ∀ d e, (join d e).lines = joinBlocks space d.lines e.lines :=
    lines_joinSimply (fun _ _ => rfl) (joinBlocks_nil_left space) (joinBlocks_nil_right space)
  have hbare : ∀ {d e : Document}, d.firstBare? = none → e.firstBare? = none →
      (join d e).firstBare? = none := firstBare?_joinSimply fun _ _ => rfl
  rw [layout?_and_render?_eq_iff (hbare (hbare ha hb) hc) (hbare ha (hbare hb hc)), hlines, hlines,
    hlines, hlines]
  exact joinBlocks_assoc_iff

/-- Documents may be stacked in either order of bracketing. They may be joined side by side in
either exactly when their blocks are reassociable, and otherwise their lines differ. -/
theorem stack_and_joins_assoc (ha : a.firstBare? = none) (hb : b.firstBare? = none)
    (hc : c.firstBare? = none) :
    ((stack (stack a b) c).layout? = (stack a (stack b c)).layout? ∧
        (stack (stack a b) c).render? = (stack a (stack b c)).render?) ∧
      (((adjoin (adjoin a b) c).layout? = (adjoin a (adjoin b c)).layout? ∧
          (adjoin (adjoin a b) c).render? = (adjoin a (adjoin b c)).render?) ↔
        Reassociable false a.lines b.lines c.lines) ∧
      (((adjoinSpaced (adjoinSpaced a b) c).layout? = (adjoinSpaced a (adjoinSpaced b c)).layout? ∧
          (adjoinSpaced (adjoinSpaced a b) c).render? =
            (adjoinSpaced a (adjoinSpaced b c)).render?) ↔
        Reassociable true a.lines b.lines c.lines) := by
  refine ⟨?_, join_assoc_iff false ha hb hc, join_assoc_iff true ha hb hc⟩
  have hleft := firstBare?_stack (firstBare?_stack ha hb) hc
  have hright := firstBare?_stack ha (firstBare?_stack hb hc)
  rw [layout?_and_render?_eq_iff hleft hright]
  simp only [lines_stack, List.append_assoc]

/-- The middle operand has two lines, and the last one hangs from its first. -/
theorem stack_and_joins_assoc_hanging :
    ((text "ab").firstBare? = none ∧ (above (text "c") (text "de")).firstBare? = none ∧
      (above (text "f") (nest 3 (text "g"))).firstBare? = none) ∧
    ((adjoin (adjoin (text "ab") (above (text "c") (text "de")))
        (above (text "f") (nest 3 (text "g")))).layout? =
      (adjoin (text "ab") (adjoin (above (text "c") (text "de"))
        (above (text "f") (nest 3 (text "g"))))).layout? ∧
    (adjoin (adjoin (text "ab") (above (text "c") (text "de")))
        (above (text "f") (nest 3 (text "g")))).render? =
      (adjoin (text "ab") (adjoin (above (text "c") (text "de"))
        (above (text "f") (nest 3 (text "g"))))).render?) :=
  ⟨⟨rfl, rfl, rfl⟩, (stack_and_joins_assoc rfl rfl rfl).2.1.2 (by decide)⟩

/-- In `bc` the line `d`, which begins five columns left of `c`, is held back at the margin, and
from there it is moved behind the first operand. In the other bracketing there is room for it. -/
theorem adjoin_not_assoc :
    (adjoin (adjoin (text "aaaaaaa") (text "b")) (above (nest 5 (text "c")) (text "d"))).layout? =
        .ok [⟨0, "aaaaaaabc"⟩, ⟨3, "d"⟩] ∧
      (adjoin (text "aaaaaaa") (adjoin (text "b") (above (nest 5 (text "c")) (text "d")))).layout? =
        .ok [⟨0, "aaaaaaabc"⟩, ⟨7, "d"⟩] ∧
      (adjoin (adjoin (text "aaaaaaa") (text "b")) (above (nest 5 (text "c")) (text "d"))).render? ≠
        (adjoin (text "aaaaaaa")
          (adjoin (text "b") (above (nest 5 (text "c")) (text "d")))).render? := by
  refine ⟨rfl, rfl, ?_⟩
  decide +kernel

end Document
end GrammarBindings
