/-!
# Pieces of texts

A text is made of the pieces between its separators. What stands behind it without a separator
belongs to its last piece. Pieces without the mark in the separator can be told from the whole text.
-/

namespace GrammarBindings

variable {c : Char} {l : List Char}

theorem exists_mem_of_mem_intercalate {α : Type} {a : α} {sep : List α} {ls : List (List α)}
    (ha : a ∈ sep.intercalate ls) : a ∈ sep ∨ ∃ l ∈ ls, a ∈ l := by
  induction ls with
  | nil => simp [List.intercalate] at ha
  | cons l' ls ih =>
    cases ls with
    | nil => exact .inr ⟨l', List.mem_cons_self, by simpa [List.intercalate] using ha⟩
    | cons l'' ls =>
      rw [List.intercalate_cons_cons, List.mem_append, List.mem_append] at ha
      rcases ha with (ha | ha) | ha
      · exact .inr ⟨l', List.mem_cons_self, ha⟩
      · exact .inl ha
      · rcases ih ha with h | ⟨l, hl, ha⟩
        · exact .inl h
        · exact .inr ⟨l, List.mem_cons_of_mem l' hl, ha⟩

theorem mem_of_mem_splitOnP {α : Type} {p : α → Bool} {as l : List α} {a : α}
    (hl : l ∈ as.splitOnP p) (ha : a ∈ l) : a ∈ as := by
  induction as generalizing l with
  | nil =>
    obtain rfl := List.mem_singleton.1 hl
    exact ha
  | cons b as ih =>
    rw [List.splitOnP_cons_eq_if_modifyHead] at hl
    split at hl
    · rcases List.mem_cons.1 hl with rfl | hl
      · cases ha
      · exact List.mem_cons_of_mem b (ih hl ha)
    · cases has : as.splitOnP p with
      | nil => exact absurd has (List.splitOnP_ne_nil p as)
      | cons first others =>
        rw [has] at hl ih
        rcases List.mem_cons.1 hl with rfl | hl
        · rcases List.mem_cons.1 ha with rfl | ha
          · exact List.mem_cons_self
          · exact List.mem_cons_of_mem b (ih List.mem_cons_self ha)
        · exact List.mem_cons_of_mem b (ih (List.mem_cons_of_mem first hl) ha)

theorem mem_of_mem_splitOn {s : Char} {cs : List Char} (hl : l ∈ cs.splitOn s) (hc : c ∈ l) :
    c ∈ cs :=
  mem_of_mem_splitOnP hl hc

theorem notMem_of_mem_splitOn {s : Char} {cs : List Char} (hl : l ∈ cs.splitOn s) : s ∉ l := by
  induction cs generalizing l with
  | nil =>
    obtain rfl := List.mem_singleton.1 hl
    exact List.not_mem_nil
  | cons c cs ih =>
    rw [List.splitOn_cons_eq_if_modifyHead] at hl
    split at hl
    · rcases List.mem_cons.1 hl with rfl | hl
      · exact List.not_mem_nil
      · exact ih hl
    · next hc =>
      cases hcs : cs.splitOn s with
      | nil => exact absurd hcs (List.splitOn_ne_nil s cs)
      | cons first others =>
        rw [hcs] at hl ih
        rcases List.mem_cons.1 hl with rfl | hl
        · rw [List.mem_cons]
          rintro (rfl | hmem)
          · exact hc BEq.rfl
          · exact ih List.mem_cons_self hmem
        · exact ih (List.mem_cons_of_mem first hl)

theorem exists_splitOn_append {s : Char} {behind : List Char} (h : s ∉ behind) (cs : List Char) :
    ∃ front last, cs.splitOn s = front ++ [last] ∧
      (cs ++ behind).splitOn s = front ++ [last ++ behind] := by
  induction cs with
  | nil => exact ⟨[], [], List.splitOn_nil s, List.splitOn_eq_singleton h⟩
  | cons c cs ih =>
    obtain ⟨front, last, hcs, happend⟩ := ih
    rw [List.cons_append, List.splitOn_cons_eq_if_modifyHead, List.splitOn_cons_eq_if_modifyHead,
      hcs, happend]
    split
    · exact ⟨[] :: front, last, rfl, rfl⟩
    · cases front with
      | nil => exact ⟨[], c :: last, rfl, rfl⟩
      | cons first front => exact ⟨(c :: first) :: front, last, rfl, rfl⟩

theorem splitOnP_map {α β : Type} (f : α → β) (p : β → Bool) (as : List α) :
    (as.map f).splitOnP p = (as.splitOnP fun a => p (f a)).map (List.map f) := by
  induction as with
  | nil => rfl
  | cons a as ih =>
    rw [List.map_cons, List.splitOnP_cons_eq_if_modifyHead, List.splitOnP_cons_eq_if_modifyHead, ih]
    split
    · rfl
    · cases as.splitOnP fun a => p (f a) with
      | nil => rfl
      | cons first others => rfl

section Marks

variable {α : Type} {a : α} {front behind : List α}

/-- A list is cut at its first mark in one way only. -/
theorem eq_of_append_cons {l l' m m' : List α} (h : a ∉ l) (h' : a ∉ l')
    (heq : l ++ a :: m = l' ++ a :: m') : l = l' ∧ m = m' := by
  induction l generalizing l' with
  | nil =>
    cases l' with
    | nil => exact ⟨rfl, (List.cons.inj heq).2⟩
    | cons b l' =>
      obtain rfl := (List.cons.inj heq).1
      exact absurd List.mem_cons_self h'
  | cons b l ih =>
    cases l' with
    | nil =>
      obtain rfl := (List.cons.inj heq).1
      exact absurd List.mem_cons_self h
    | cons b' l' =>
      obtain ⟨rfl, hrest⟩ := List.cons.inj heq
      obtain ⟨rfl, rfl⟩ := ih (fun hmem => h (List.mem_cons_of_mem b hmem))
        (fun hmem => h' (List.mem_cons_of_mem b hmem)) hrest
      exact ⟨rfl, rfl⟩

theorem append_flatMap_cons (a : α) (l : List α) (ls : List (List α)) :
    l ++ ls.flatMap (a :: ·) = [a].intercalate (l :: ls) := by
  induction ls generalizing l with
  | nil => simp
  | cons m ls ih =>
    rw [List.flatMap_cons, List.intercalate_cons_cons, ← ih, List.cons_append, List.append_assoc,
      List.singleton_append]

/-- The mark may stand amid a separator. -/
theorem pieces_eq_of_intercalate_eq {ls ls' : List (List α)} (hfront : a ∉ front) (hne : ls ≠ [])
    (hne' : ls' ≠ []) (h : ∀ l ∈ ls, a ∉ l) (h' : ∀ l ∈ ls', a ∉ l)
    (heq : (front ++ a :: behind).intercalate ls = (front ++ a :: behind).intercalate ls') :
    ls = ls' := by
  -- a single piece has no mark, so both lists end together
  have hsingle : ∀ {l l₁ l₂ : List α} {more : List (List α)}, a ∉ l →
      (front ++ a :: behind).intercalate (l₁ :: l₂ :: more) ≠ l := by
    rintro l l₁ l₂ more hl rfl
    rw [List.intercalate_cons_cons] at hl
    exact hl (by simp)
  induction ls generalizing ls' with
  | nil => exact absurd rfl hne
  | cons l ls ih =>
    obtain ⟨l', ls', rfl⟩ := List.exists_cons_of_ne_nil hne'
    obtain ⟨hl, hls⟩ := List.forall_mem_cons.1 h
    obtain ⟨hl', hls'⟩ := List.forall_mem_cons.1 h'
    cases ls with
    | nil =>
      cases ls' with
      | nil =>
        rw [List.intercalate_singleton, List.intercalate_singleton] at heq
        rw [heq]
      | cons l₂' ls' =>
        rw [List.intercalate_singleton] at heq
        exact absurd heq.symm (hsingle hl)
    | cons l₂ ls =>
      cases ls' with
      | nil =>
        rw [List.intercalate_singleton] at heq
        exact absurd heq (hsingle hl')
      | cons l₂' ls' =>
        rw [List.intercalate_cons_cons, List.intercalate_cons_cons] at heq
        have hcut : (l ++ front) ++ a :: (behind ++ (front ++ a :: behind).intercalate (l₂ :: ls)) =
            (l' ++ front) ++
              a :: (behind ++ (front ++ a :: behind).intercalate (l₂' :: ls')) := by
          simpa using heq
        obtain ⟨hfirst, hrest⟩ := eq_of_append_cons (by simp [hl, hfront]) (by simp [hl', hfront])
          hcut
        rw [List.append_cancel_right hfirst, ih (by simp) (by simp) hls hls'
          (List.append_cancel_left hrest)]

theorem texts_eq_of_intercalate_eq {mark : String} {c : Char} {front behind : List Char}
    (hmark : mark.toList = front ++ c :: behind) (hfront : c ∉ front) {ss ss' : List String}
    (hne : ss ≠ []) (hne' : ss' ≠ []) (h : ∀ s ∈ ss, c ∉ s.toList) (h' : ∀ s ∈ ss', c ∉ s.toList)
    (heq : mark.intercalate ss = mark.intercalate ss') : ss = ss' := by
  have hlists := congrArg String.toList heq
  rw [String.toList_intercalate, String.toList_intercalate, hmark] at hlists
  have hmap := pieces_eq_of_intercalate_eq hfront (mt List.map_eq_nil_iff.1 hne)
    (mt List.map_eq_nil_iff.1 hne') (List.forall_mem_map.2 h) (List.forall_mem_map.2 h') hlists
  exact (List.map_inj_right fun _ _ => String.toList_inj.1).1 hmap

end Marks

end GrammarBindings
