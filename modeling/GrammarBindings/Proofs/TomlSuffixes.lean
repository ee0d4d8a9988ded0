import GrammarBindings.Toml.Document

/-!
# What TOML readers leave

The readers of keys, texts, comments and scalars leave an end of the text that they were given. The
digits of a number are digits of the text, which has underscores between them.
-/

namespace GrammarBindings.Toml

open Text

variable {cs rest : List Char} {p : Char → Bool}

theorem suffix_of_codedChar? {width : Nat} {value : List Char}
    (h : codedChar? width cs = some (value, rest)) : rest <:+ cs := by
  rw [codedChar?] at h
  split at h
  · cases h
    exact List.drop_suffix width cs
  · cases h

theorem suffix_of_foldedLine? {value : List Char} (h : foldedLine? cs = some (value, rest)) :
    rest <:+ cs := by
  rw [foldedLine?] at h
  split at h
  · cases h
    exact List.nil_suffix
  · next c more hcs =>
    split at h
    · cases h
      have hmore : more <:+ cs := (List.suffix_cons c more).trans (hcs ▸ List.dropWhile_suffix _)
      exact (List.dropWhile_suffix _).trans hmore
    · cases h

theorem suffix_of_escape? {multiline : Bool} {value : List Char}
    (h : escape? multiline cs = some (value, rest)) : rest <:+ cs := by
  rw [escape?.eq_def] at h
  split at h
  case h_6 => exact (suffix_of_codedChar? h).trans (List.suffix_cons _ _)
  case h_7 => exact (suffix_of_codedChar? h).trans (List.suffix_cons _ _)
  case h_8 =>
    split at h
    · cases h
      exact List.suffix_cons _ _
    · split at h
      · exact suffix_of_foldedLine? h
      · cases h
  case h_9 => cases h
  all_goals
    cases h
    exact List.suffix_cons _ _

theorem suffix_of_closed? {mark : Char} {escapes multiline : Bool} {fuel : Nat}
    {value : List Char} (h : closed? mark escapes multiline fuel cs = some (value, rest)) :
    rest <:+ cs := by
  induction fuel generalizing cs value with
  | zero => cases h
  | succ fuel ih =>
    cases cs with
    | nil => cases h
    | cons c cs =>
      rw [closed?] at h
      split at h
      · cases h
        exact (List.drop_suffix _ _).trans (List.suffix_cons c cs)
      split at h
      · obtain ⟨⟨v, r⟩, hescape, h⟩ := Option.bind_eq_some_iff.1 h
        obtain ⟨⟨v', r'⟩, hclosed, h⟩ := Option.bind_eq_some_iff.1 h
        cases h
        exact (ih hclosed).trans ((suffix_of_escape? hescape).trans (List.suffix_cons c cs))
      split at h
      · cases h
      · obtain ⟨⟨v, r⟩, hclosed, h⟩ := Option.map_eq_some_iff.1 h
        cases h
        exact (ih hclosed).trans (List.suffix_cons c cs)

theorem suffix_of_oneLine? {mark : Char} {s : String} (h : oneLine? mark cs = some (s, rest)) :
    rest <:+ cs := by
  obtain ⟨⟨v, r⟩, hclosed, h⟩ := Option.map_eq_some_iff.1 h
  cases h
  exact suffix_of_closed? hclosed

theorem suffix_of_manyLines? {mark : Char} {s : String} (h : manyLines? mark cs = some (s, rest)) :
    rest <:+ cs := by
  obtain ⟨⟨v, r⟩, hclosed, h⟩ := Option.map_eq_some_iff.1 h
  cases h
  have hbody : (if cs.head? = some '\n' then cs.tail else cs) <:+ cs := by
    split
    · exact List.tail_suffix cs
    · exact List.suffix_rfl
  exact (List.drop_suffix _ _).trans ((suffix_of_closed? hclosed).trans hbody)

theorem suffix_of_quoted? {s : String} (h : quoted? cs = some (s, rest)) : rest <:+ cs := by
  rw [quoted?.eq_def] at h
  split at h
  · next c more =>
    split at h
    · split at h
      · exact (suffix_of_manyLines? h).trans ((List.drop_suffix _ _).trans (List.suffix_cons _ _))
      · exact (suffix_of_oneLine? h).trans (List.suffix_cons _ _)
    · cases h
  · cases h

theorem suffix_of_keyPart? {s : String} (h : keyPart? cs = some (s, rest)) : rest <:+ cs := by
  cases cs with
  | nil => cases h
  | cons c cs =>
    rw [keyPart?] at h
    split at h
    · cases h
      exact (List.dropWhile_suffix _).trans (List.suffix_cons c cs)
    split at h
    · exact (suffix_of_oneLine? h).trans (List.suffix_cons c cs)
    · cases h

theorem suffix_of_keyWithin? {fuel : Nat} {k : Key} (h : keyWithin? fuel cs = some (k, rest)) :
    rest <:+ cs := by
  induction fuel generalizing cs k with
  | zero => cases h
  | succ fuel ih =>
    rw [keyWithin?] at h
    obtain ⟨⟨part, behind⟩, hpart, h⟩ := Option.bind_eq_some_iff.1 h
    have hbehind : behind.dropWhile isMargin <:+ cs :=
      (List.dropWhile_suffix _).trans (suffix_of_keyPart? hpart)
    dsimp only at h
    split at h
    · next more hmore =>
      obtain ⟨⟨parts, r⟩, hparts, h⟩ := Option.bind_eq_some_iff.1 h
      cases h
      rw [hmore] at hbehind
      have hdrop := (List.dropWhile_suffix isMargin).trans (List.suffix_cons '.' more)
      exact (ih hparts).trans (hdrop.trans hbehind)
    · cases h
      exact hbehind

theorem suffix_of_key? {k : Key} (h : key? cs = some (k, rest)) : rest <:+ cs :=
  suffix_of_keyWithin? h

theorem suffix_of_dropComment (h : dropComment cs = some rest) : rest <:+ cs := by
  rw [dropComment.eq_def] at h
  split at h
  · next more =>
    split at h
    · cases h
    · cases h
      exact (List.dropWhile_suffix _).trans (List.suffix_cons _ _)
  · cases h
    exact List.suffix_rfl

theorem suffix_of_dropArrayGap {fuel : Nat} (h : dropArrayGap fuel cs = some rest) :
    rest <:+ cs := by
  induction fuel generalizing cs with
  | zero => cases h
  | succ fuel ih =>
    have hgap : cs.dropWhile isMarginOrLineEnd <:+ cs := List.dropWhile_suffix _
    rw [dropArrayGap] at h
    split at h
    · next more hmore =>
      obtain ⟨r, hcomment, h⟩ := Option.bind_eq_some_iff.1 h
      rw [hmore] at hgap
      exact (ih h).trans ((suffix_of_dropComment hcomment).trans hgap)
    · cases h
      exact hgap

theorem suffix_dropFraction (cs : List Char) : dropFraction cs <:+ cs := by
  rw [dropFraction.eq_def]
  split
  · split
    · exact (List.dropWhile_suffix _).trans
        ((List.suffix_cons _ _).trans (List.suffix_cons _ _))
    · exact List.suffix_rfl
  · exact List.suffix_rfl

theorem suffix_of_time? (h : time? cs = some rest) : rest <:+ cs := by
  rw [time?.eq_def] at h
  split at h
  · split at h
    · cases h
      exact (suffix_dropFraction _).trans ⟨[_, _, ':', _, _, ':', _, _], rfl⟩
    · cases h
  · cases h

theorem suffix_dropOffset (cs : List Char) : dropOffset cs <:+ cs := by
  rw [dropOffset.eq_def]
  split
  · exact List.suffix_cons _ _
  · exact List.suffix_cons _ _
  · split
    · exact ⟨[_, _, _, ':', _, _], rfl⟩
    · exact List.suffix_rfl
  · exact List.suffix_rfl

theorem suffix_dropTimeOfDate (cs : List Char) : dropTimeOfDate cs <:+ cs := by
  cases cs with
  | nil => exact List.suffix_rfl
  | cons c cs =>
    rw [dropTimeOfDate]
    split
    · split
      · next hr =>
        exact (suffix_dropOffset _).trans ((suffix_of_time? hr).trans (List.suffix_cons c cs))
      · exact List.suffix_rfl
    · exact List.suffix_rfl

theorem suffix_of_date? (h : date? cs = some (.ok rest)) : rest <:+ cs := by
  rw [date?.eq_def] at h
  split at h
  · split at h
    · dsimp only at h
      split at h
      · cases h
        exact (suffix_dropTimeOfDate _).trans ⟨[_, _, _, _, '-', _, _, '-', _, _], rfl⟩
      · cases h
    · cases h
  · cases h

theorem date?_ne_numeral (f : NumeralFault) : date? cs ≠ some (.error (.numeral f)) := by
  intro h
  rw [date?.eq_def] at h
  split at h
  · split at h
    · dsimp only at h
      split at h
      · cases h
      · cases h
    · cases h
  · cases h

/-- A run of digits is a part of the text, but for its underscores. -/
theorem digitRun_spec (p : Char → Bool) (cs : List Char) :
    (digitRun p cs).2 <:+ cs ∧
      (digitRun p cs).1.length + (digitRun p cs).2.countP p ≤ cs.countP p := by
  fun_induction digitRun p cs with
  | case1 c cs hc ds rest hrun ih =>
    rw [hrun] at ih
    refine ⟨ih.1.trans ⟨['_', c], rfl⟩, ?_⟩
    have hcount : cs.countP p + 1 ≤ ('_' :: c :: cs).countP p := by
      rw [List.countP_cons, List.countP_cons, if_pos hc]
      omega
    have := ih.2
    dsimp only [List.length_cons] at this ⊢
    omega
  | case2 c cs hc => exact ⟨List.suffix_rfl, by simp⟩
  | case3 c cs _ hc ds rest hrun ih =>
    rw [hrun] at ih
    refine ⟨ih.1.trans (List.suffix_cons c cs), ?_⟩
    have := ih.2
    rw [List.countP_cons, if_pos hc]
    dsimp only [List.length_cons] at this ⊢
    omega
  | case4 c cs _ hc => exact ⟨List.suffix_rfl, by simp⟩
  | case5 => exact ⟨List.suffix_rfl, by simp⟩

theorem digits?_spec {ds : List Char} (h : digits? p cs = some (ds, rest)) :
    rest <:+ cs ∧ ds.length ≤ cs.countP p := by
  cases cs with
  | nil => cases h
  | cons c cs =>
    rw [digits?] at h
    split at h
    · next hc =>
      have hrun := digitRun_spec p cs
      cases h
      refine ⟨hrun.1.trans (List.suffix_cons c cs), ?_⟩
      rw [List.countP_cons, if_pos hc, List.length_cons]
      omega
    · cases h

theorem suffix_of_map_digits? (h : (digits? p cs).map Prod.snd = some rest) : rest <:+ cs := by
  obtain ⟨⟨ds, r⟩, hdigits, h⟩ := Option.map_eq_some_iff.1 h
  cases h
  exact (digits?_spec hdigits).1

theorem suffix_of_basedInteger? (h : basedInteger? cs = some rest) : rest <:+ cs := by
  rw [basedInteger?.eq_def] at h
  split at h
  · exact (suffix_of_map_digits? h).trans ⟨['0', 'x'], rfl⟩
  · exact (suffix_of_map_digits? h).trans ⟨['0', 'o'], rfl⟩
  · exact (suffix_of_map_digits? h).trans ⟨['0', 'b'], rfl⟩
  · cases h

theorem suffix_dropSign (cs : List Char) : dropSign cs <:+ cs := by
  rw [dropSign.eq_def]
  split
  · exact List.suffix_cons _ _
  · exact List.suffix_cons _ _
  · exact List.suffix_rfl

theorem wholePart?_spec {ds : List Char} (h : wholePart? cs = some (ds, rest)) :
    rest <:+ cs ∧ ds.length ≤ cs.countP isAsciiDigit := by
  rw [wholePart?.eq_def] at h
  split at h
  · cases h
    refine ⟨List.suffix_cons '0' _, ?_⟩
    have hzero : isAsciiDigit '0' = true := rfl
    rw [List.countP_cons, if_pos hzero, List.length_singleton]
    omega
  · exact digits?_spec h

theorem suffix_getD_digits? (cs : List Char) (c : Char) {ds : List Char} (hds : ds <:+ cs) :
    ((digits? p ds).map Prod.snd).getD (c :: cs) <:+ c :: cs := by
  cases h : (digits? p ds).map Prod.snd with
  | none => exact List.suffix_rfl
  | some rest => exact (suffix_of_map_digits? h).trans (hds.trans (List.suffix_cons c cs))

theorem suffix_dropDecimals (cs : List Char) : dropDecimals cs <:+ cs := by
  rw [dropDecimals.eq_def]
  split
  · exact suffix_getD_digits? _ _ List.suffix_rfl
  · exact List.suffix_rfl

theorem suffix_dropExponent (cs : List Char) : dropExponent cs <:+ cs := by
  cases cs with
  | nil => exact List.suffix_rfl
  | cons c cs =>
    rw [dropExponent]
    split
    · exact suffix_getD_digits? cs c (suffix_dropSign cs)
    · exact List.suffix_rfl

theorem suffix_of_behindWord? {w : String} (h : behindWord? w cs = some rest) : rest <:+ cs := by
  rw [behindWord?] at h
  split at h
  · cases h
    exact List.drop_suffix _ _
  · cases h

theorem suffix_of_specialWord? (h : specialWord? cs = some rest) : rest <:+ cs := by
  obtain ⟨w, -, hw⟩ := List.exists_of_findSome?_eq_some h
  exact suffix_of_behindWord? hw

end GrammarBindings.Toml
