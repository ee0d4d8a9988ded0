import Mathlib.Data.List.Basic
import Mathlib.Data.List.Induction

/-!
# First occurrences

The first occurrences in a list are its members, each of them once, in the order in which they
first occur. Behind a member that has occurred before they stay the same, and any other member
comes to their end. A selection of the members is part of the first occurrences, in their order,
exactly if it keeps to the order in which its members first occur.
-/

namespace GrammarBindings

variable {α : Type} [DecidableEq α]

structure FirstOccurrences (firsts xs : List α) : Prop where
  mem_iff : ∀ a, a ∈ firsts ↔ a ∈ xs
  ordered : firsts.Pairwise fun a b => xs.idxOf a < xs.idxOf b

namespace FirstOccurrences

variable {firsts xs ys zs : List α}

theorem nil : FirstOccurrences ([] : List α) [] := ⟨fun _ => .rfl, .nil⟩

theorem nodup_of_ordered (h : ys.Pairwise fun a b => xs.idxOf a < xs.idxOf b) : ys.Nodup := by
  refine h.imp fun {a b} hlt heq => ?_
  rw [heq] at hlt
  exact Nat.lt_irrefl _ hlt

theorem eq_of_ordered (h : ys.Pairwise fun a b => xs.idxOf a < xs.idxOf b)
    (h' : zs.Pairwise fun a b => xs.idxOf a < xs.idxOf b) (hmem : ∀ a, a ∈ ys ↔ a ∈ zs) :
    ys = zs := by
  have hperm : ys.Perm zs :=
    (List.perm_ext_iff_of_nodup (nodup_of_ordered h) (nodup_of_ordered h')).2 hmem
  refine hperm.eq_of_pairwise ?_ h h'
  intro a b _ _ hab hba
  omega

theorem nodup (h : FirstOccurrences firsts xs) : firsts.Nodup := nodup_of_ordered h.ordered

theorem concat (h : FirstOccurrences firsts xs) (a : α) :
    FirstOccurrences (if a ∈ firsts then firsts else firsts ++ [a]) (xs ++ [a]) := by
  have hidx : ∀ b ∈ firsts, (xs ++ [a]).idxOf b = xs.idxOf b := fun b hb =>
    List.idxOf_append_of_mem ((h.mem_iff b).1 hb)
  have hordered : firsts.Pairwise fun b c => (xs ++ [a]).idxOf b < (xs ++ [a]).idxOf c := by
    refine h.ordered.imp_of_mem fun {b c} hb hc hlt => ?_
    rwa [hidx b hb, hidx c hc]
  split
  · next ha =>
    refine ⟨fun b => ?_, hordered⟩
    rw [h.mem_iff, List.mem_append, List.mem_singleton]
    refine ⟨.inl, fun hb => hb.elim id ?_⟩
    rintro rfl
    exact (h.mem_iff b).1 ha
  · next ha =>
    refine ⟨fun b => by rw [List.mem_append, List.mem_append, h.mem_iff], ?_⟩
    refine List.pairwise_append.2 ⟨hordered, List.pairwise_singleton _ _, ?_⟩
    intro b hb c hc
    obtain rfl := List.mem_singleton.1 hc
    have hlt : xs.idxOf b < xs.length := List.idxOf_lt_length_iff.2 ((h.mem_iff b).1 hb)
    have hlast : (xs ++ [c]).idxOf c = xs.length + [c].idxOf c :=
      List.idxOf_append_of_notMem (mt (h.mem_iff c).2 ha)
    rw [hidx b hb, hlast]
    omega

theorem eraseDups (xs : List α) : FirstOccurrences xs.eraseDups xs := by
  induction xs using List.reverseRecOn with
  | nil => exact nil
  | append_singleton xs a ih =>
    have hgrown : (xs ++ [a]).eraseDups =
        if a ∈ xs.eraseDups then xs.eraseDups else xs.eraseDups ++ [a] := by
      rw [List.eraseDups_append]
      by_cases ha : a ∈ xs <;> simp [List.removeAll, List.eraseDups_cons, ha]
    rw [hgrown]
    exact ih.concat a

theorem pairwise_iff (h : FirstOccurrences firsts xs) {R : α → α → Prop} :
    firsts.Pairwise R ↔ ∀ a ∈ firsts, ∀ b ∈ firsts, xs.idxOf a < xs.idxOf b → R a b := by
  constructor
  · intro hR a ha b hb
    refine List.Pairwise.forall_of_forall_of_flip
      (R := fun a b => xs.idxOf a < xs.idxOf b → R a b) ?_ ?_ ?_ ha hb
    · exact fun c _ hlt => absurd hlt (Nat.lt_irrefl _)
    · exact hR.imp fun {a b} hab (_ : xs.idxOf a < xs.idxOf b) => hab
    · exact h.ordered.imp fun {a b} hlt hgt => absurd hgt (Nat.lt_asymm hlt)
  · intro hR
    exact h.ordered.imp_of_mem fun {a b} ha hb => hR a ha b hb

/-- Members without repetition that keep to the order of first occurrence are part of the first
occurrences. -/
theorem sublist_iff (h : FirstOccurrences firsts xs) (hys : ∀ a ∈ ys, a ∈ xs) :
    ys.Sublist firsts ↔ ys.Pairwise fun a b => xs.idxOf a < xs.idxOf b := by
  refine ⟨fun hsub => List.Pairwise.sublist hsub h.ordered, fun hordered => ?_⟩
  -- what the first occurrences have of the selection, in their order, is the selection itself
  have heq : ys = firsts.filter (· ∈ ys) := by
    refine eq_of_ordered hordered (h.ordered.filter _) fun a => ?_
    rw [List.mem_filter, h.mem_iff, decide_eq_true_iff]
    exact ⟨fun ha => ⟨hys a ha, ha⟩, And.right⟩
  rw [heq]
  exact List.filter_sublist

end FirstOccurrences
end GrammarBindings
