import GrammarBindings.Text.Blank
import Mathlib.Data.List.DropRight

/-!
# Margins

Trimming takes away the characters of a class at both ends of a text, up to the first and the last
that are not in it.
-/

namespace GrammarBindings.Text

variable {p : Char → Bool}

theorem trimWith_eq (p : Char → Bool) (text : List Char) :
    trimWith p text = (text.dropWhile p).rdropWhile p := rfl

theorem exists_margins (p : Char → Bool) (text : List Char) :
    ∃ front back, text = front ++ (trimWith p text ++ back) ∧ (∀ c ∈ front, p c = true) ∧
      ∀ c ∈ back, p c = true := by
  refine ⟨text.takeWhile p, (text.dropWhile p).rtakeWhile p, ?_, ?_, ?_⟩
  · rw [trimWith_eq, List.rdropWhile_append_rtakeWhile, List.takeWhile_append_dropWhile]
  · exact fun c hc => List.all_eq_true.1 List.all_takeWhile c hc
  · exact fun c hc => List.mem_rtakeWhile_imp hc

theorem head?_trimWith (p : Char → Bool) (text : List Char) :
    ∀ c ∈ (trimWith p text).head?, p c = false := by
  intro c hc
  have hback : trimWith p text ++ (text.dropWhile p).rtakeWhile p = text.dropWhile p := by
    rw [trimWith_eq, List.rdropWhile_append_rtakeWhile]
  obtain ⟨cs, hcs⟩ := List.head?_eq_some_iff.1 hc
  have hnot := List.head?_dropWhile_not p text
  rw [← hback, hcs] at hnot
  exact hnot

theorem getLast?_trimWith (p : Char → Bool) (text : List Char) :
    ∀ c ∈ (trimWith p text).getLast?, p c = false := by
  intro c hc
  obtain ⟨cs, hcs⟩ := List.getLast?_eq_some_iff.1 hc
  rw [trimWith_eq] at hcs
  have hne : (text.dropWhile p).rdropWhile p ≠ [] := by simp [hcs]
  have hnot := List.rdropWhile_last_not p _ hne
  simp only [hcs, List.getLast_append_singleton, Bool.not_eq_true] at hnot
  exact hnot

/-- What has no character of the class at either end is left when the margins are taken away. -/
theorem trimWith_margins {front back name : List Char} (hfront : ∀ c ∈ front, p c = true)
    (hback : ∀ c ∈ back, p c = true) (hfirst : ∀ c ∈ name.head?, p c = false)
    (hlast : ∀ c ∈ name.getLast?, p c = false) : trimWith p (front ++ (name ++ back)) = name := by
  have hback' : ∀ c ∈ back.reverse, p c = true := fun c hc => hback c (List.mem_reverse.1 hc)
  rw [trimWith, List.dropWhile_append_of_pos hfront]
  cases name with
  | nil => simp [List.dropWhile_eq_nil_iff.2 hback]
  | cons d ds =>
    have hd : p d = false := hfirst d rfl
    obtain ⟨es, e, hes⟩ := (List.eq_nil_or_concat (d :: ds)).resolve_left (List.cons_ne_nil d ds)
    rw [List.cons_append, List.dropWhile_cons_of_neg (by simp [hd]), ← List.cons_append, hes,
      List.concat_eq_append, List.reverse_append, List.dropWhile_append_of_pos hback',
      List.reverse_append, List.reverse_singleton, List.singleton_append,
      List.dropWhile_cons_of_neg]
    · simp
    · rw [hlast e (by simp [hes])]
      exact Bool.false_ne_true

end GrammarBindings.Text
