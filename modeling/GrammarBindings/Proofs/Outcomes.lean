import Mathlib.Data.List.Forall2

/-!
# Computations that may fail

When a computation that may fail gives a result, each of its steps gave one; when it fails, its
first step failed or a later one did. Carrying a step out for all members of a list gives the
results of all of them in order, or the error of the first for which it fails.
-/

namespace GrammarBindings

variable {ε α β γ : Type}

theorem ok_bind (a : α) (f : α → Except ε β) : (Except.ok a >>= f) = f a := rfl

theorem mapError_ok {δ : Type} (f : ε → δ) (a : α) :
    (Except.ok a : Except ε α).mapError f = .ok a := rfl

theorem eq_ok_getD {x : Except ε α} (h : x.toOption.isSome = true) (a : α) :
    x = .ok (x.toOption.getD a) := by
  cases x with
  | error e => cases h
  | ok b => rfl

theorem bind_eq_ok_iff {x : Except ε α} {f : α → Except ε β} {b : β} :
    (x >>= f) = .ok b ↔ ∃ a, x = .ok a ∧ f a = .ok b := by
  cases x with
  | error e => simp [bind, Except.bind]
  | ok a => simp [bind, Except.bind]

theorem map_eq_ok_iff {x : Except ε α} {f : α → β} {b : β} :
    x.map f = .ok b ↔ ∃ a, x = .ok a ∧ f a = b := by
  cases x with
  | error e => simp [Except.map]
  | ok a => simp [Except.map]

/-- A computation of two steps fails in the first or, after that, in the second. -/
theorem bind_eq_error_iff {x : Except ε α} {f : α → Except ε β} {e : ε} :
    (x >>= f) = .error e ↔ x = .error e ∨ ∃ a, x = .ok a ∧ f a = .error e := by
  cases x with
  | error e' => simp [bind, Except.bind]
  | ok a => simp [bind, Except.bind]

theorem map_eq_error_iff {x : Except ε α} {f : α → β} {e : ε} :
    x.map f = .error e ↔ x = .error e := by
  cases x with
  | error e' => simp [Except.map]
  | ok a => simp [Except.map]

theorem mapError_eq_error_iff {δ : Type} {x : Except ε α} {f : ε → δ} {e : δ} :
    x.mapError f = .error e ↔ ∃ e', x = .error e' ∧ f e' = e := by
  cases x with
  | error e' => simp [Except.mapError]
  | ok a => simp [Except.mapError]

theorem mapError_eq_ok_iff {δ : Type} {x : Except ε α} {f : ε → δ} {a : α} :
    x.mapError f = .ok a ↔ x = .ok a := by
  cases x with
  | error e' => simp [Except.mapError]
  | ok a' => simp [Except.mapError]

theorem pure_eq_ok_iff {a b : α} : (pure a : Except ε α) = .ok b ↔ a = b := by
  simp [pure, Except.pure]

/-- A check in front of the rest of a computation. -/
theorem check_eq_ok_iff {c : Prop} [Decidable c] {e : ε} {f : PUnit → Except ε β} {b : β} :
    (if c then (throw e : Except ε PUnit) >>= f else f ⟨⟩) = .ok b ↔ ¬ c ∧ f ⟨⟩ = .ok b := by
  split
  · next hc => simp [hc, throw, throwThe, MonadExceptOf.throw, bind, Except.bind]
  · next hc => simp [hc]

theorem mapM_eq_ok_iff {f : α → Except ε β} {as : List α} {bs : List β} :
    as.mapM f = .ok bs ↔ List.Forall₂ (fun a b => f a = .ok b) as bs := by
  induction as generalizing bs with
  | nil =>
    rw [List.mapM_nil, pure_eq_ok_iff, List.forall₂_nil_left_iff]
    exact eq_comm
  | cons a as ih =>
    rw [List.mapM_cons, bind_eq_ok_iff, List.forall₂_cons_left_iff]
    constructor
    · rintro ⟨b, hb, h⟩
      obtain ⟨cs, hcs, h⟩ := bind_eq_ok_iff.1 h
      exact ⟨b, cs, hb, ih.1 hcs, (pure_eq_ok_iff.1 h).symm⟩
    · rintro ⟨b, cs, hb, hcs, rfl⟩
      exact ⟨b, hb, bind_eq_ok_iff.2 ⟨cs, ih.2 hcs, pure_eq_ok_iff.2 rfl⟩⟩

theorem exists_forall₂_of_mem {R : α → β → Prop} {as : List α} (h : ∀ a ∈ as, ∃ b, R a b) :
    ∃ bs, List.Forall₂ R as bs := by
  induction as with
  | nil => exact ⟨[], .nil⟩
  | cons a as ih =>
    obtain ⟨b, hb⟩ := h a List.mem_cons_self
    obtain ⟨bs, hbs⟩ := ih fun a' ha' => h a' (List.mem_cons_of_mem a ha')
    exact ⟨b :: bs, .cons hb hbs⟩

/-- When the step succeeds for each member, it is carried out for all of them. -/
theorem exists_mapM_eq_ok {f : α → Except ε β} {R : α → β → Prop} {as : List α}
    (h : ∀ a ∈ as, ∃ b, f a = .ok b ∧ R a b) :
    ∃ bs, as.mapM f = .ok bs ∧ List.Forall₂ R as bs := by
  obtain ⟨bs, hbs⟩ := exists_forall₂_of_mem h
  exact ⟨bs, mapM_eq_ok_iff.2 (hbs.imp fun _ _ hab => hab.1), hbs.imp fun _ _ hab => hab.2⟩

theorem forall₂_map_map {R : β → γ → Prop} {as : List α} {f : α → β} {g : α → γ}
    (h : ∀ a ∈ as, R (f a) (g a)) : List.Forall₂ R (as.map f) (as.map g) := by
  rw [List.forall₂_map_left_iff, List.forall₂_map_right_iff, List.forall₂_same]
  exact h

theorem exists_of_mem_forall₂ {R : α → β → Prop} {as : List α} {bs : List β}
    (h : List.Forall₂ R as bs) {a : α} (ha : a ∈ as) : ∃ b, R a b := by
  induction h with
  | nil => cases ha
  | cons hab _ ih =>
    rcases List.mem_cons.1 ha with rfl | ha
    · exact ⟨_, hab⟩
    · exact ih ha

theorem exists_mem_of_forall₂ {R : α → β → Prop} {as : List α} {bs : List β}
    (h : List.Forall₂ R as bs) {b : β} (hb : b ∈ bs) : ∃ a ∈ as, R a b := by
  induction h with
  | nil => cases hb
  | @cons a b' as bs hab _ ih =>
    rcases List.mem_cons.1 hb with rfl | hb
    · exact ⟨a, List.mem_cons_self, hab⟩
    · obtain ⟨a', ha', hab'⟩ := ih hb
      exact ⟨a', List.mem_cons_of_mem a ha', hab'⟩

theorem ne_nil_of_mapM {f : α → Except ε β} {as : List α} {bs : List β}
    (h : as.mapM f = .ok bs) (hne : as ≠ []) : bs ≠ [] := by
  rintro rfl
  exact hne (List.forall₂_nil_right_iff.1 (mapM_eq_ok_iff.1 h))

theorem mapM_eq_of_forall₂ {f : α → Except ε γ} {g : β → Except ε γ} {as : List α} {bs : List β}
    (h : List.Forall₂ (fun a b => f a = g b) as bs) : as.mapM f = bs.mapM g := by
  induction h with
  | nil => rfl
  | cons hab _ ih => rw [List.mapM_cons, List.mapM_cons, hab, ih]

/-- What two lists give member by member, they give as a whole. -/
theorem filterMap_eq_of_forall₂ {f : α → Option γ} {g : β → Option γ} {as : List α} {bs : List β}
    (h : List.Forall₂ (fun a b => f a = g b) as bs) : as.filterMap f = bs.filterMap g := by
  induction h with
  | nil => rfl
  | cons hab _ ih => rw [List.filterMap_cons, List.filterMap_cons, hab, ih]

section Errors

/-- The error of a computation that fails. -/
def errorOf? : Except ε α → Option ε
  | .error e => some e
  | .ok _ => none

variable {x : Except ε α} {e : ε}

theorem errorOf?_eq_some_iff : errorOf? x = some e ↔ x = .error e := by
  cases x with
  | error e' => simp [errorOf?]
  | ok a => simp [errorOf?]

theorem errorOf?_eq_none_iff : errorOf? x = none ↔ ∃ a, x = .ok a := by
  cases x with
  | error e' => simp [errorOf?]
  | ok a => simp [errorOf?]

theorem errorOf?_map (f : α → β) : errorOf? (x.map f) = errorOf? x := by
  cases x with
  | error e' => rfl
  | ok a => rfl

theorem errorOf?_bind_pure (f : α → β) : errorOf? (do let a ← x; pure (f a)) = errorOf? x := by
  cases x with
  | error e' => rfl
  | ok a => rfl

/-- Whether and how the second step fails does not depend on what the first gave. -/
theorem errorOf?_bind {f : α → Except ε β} {e? : Option ε} (h : ∀ a, errorOf? (f a) = e?) :
    errorOf? (x >>= f) = (errorOf? x).or e? := by
  cases x with
  | error e' => rfl
  | ok a => exact h a

theorem errorOf?_mapM (f : α → Except ε β) (as : List α) :
    errorOf? (as.mapM f) = as.findSome? fun a => errorOf? (f a) := by
  induction as with
  | nil => rfl
  | cons a as ih =>
    have hrest : ∀ b, errorOf? (do let bs ← as.mapM f; pure (b :: bs)) =
        as.findSome? fun a => errorOf? (f a) := by
      intro b
      rw [errorOf?_bind_pure, ih]
    rw [List.mapM_cons, errorOf?_bind hrest, List.findSome?_cons]
    cases errorOf? (f a) with
    | some e' => rfl
    | none => rfl

end Errors

end GrammarBindings
