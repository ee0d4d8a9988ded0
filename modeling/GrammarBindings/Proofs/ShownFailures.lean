import GrammarBindings.Options.Mode
import Mathlib.Algebra.Group.Nat.Even
import Mathlib.Algebra.Ring.Parity
import Mathlib.Data.List.Basic

/-!
# Shown failures

A message is shown between quotation marks, with a backslash in front of each quotation mark and of
each backslash. Reading what stands between the marks from left to right, with each escape taken
together, gives the message back, and no quotation mark is met outside an escape. So the closing
mark is the first with an even number of backslashes right in front of it.
-/

namespace GrammarBindings
namespace Mode

open Text

/-- The characters that are escaped. -/
def IsSpecial (c : Char) : Prop := c = '\\' ∨ c = quotationMark

instance (c : Char) : Decidable (IsSpecial c) := inferInstanceAs (Decidable (_ ∨ _))

/-- A text of complete escapes and of characters that need none. -/
inductive IsEscaped : List Char → Prop where
  | nil : IsEscaped []
  | escape {c : Char} {cs : List Char} (special : IsSpecial c) (later : IsEscaped cs) :
      IsEscaped ('\\' :: c :: cs)
  | plain {c : Char} {cs : List Char} (ordinary : ¬ IsSpecial c) (later : IsEscaped cs) :
      IsEscaped (c :: cs)

/-- Reads each escape, from left to right, as its second character. -/
def unescaped : List Char → List Char
  | '\\' :: c :: cs => c :: unescaped cs
  | c :: cs => c :: unescaped cs
  | [] => []

/-- Puts a backslash in front of each occurrence of one character. -/
def escapeEach (special : Char) (cs : List Char) : List Char :=
  cs.flatMap fun c => if c = special then ['\\', c] else [c]

/-- How many backslashes there are at the end. -/
def closingBackslashes (cs : List Char) : Nat := (cs.reverse.takeWhile (· = '\\')).length

variable {c : Char} {cs front behind body : List Char}

theorem escaped_cons_special (h : IsSpecial c) (cs : List Char) :
    escaped (c :: cs) = '\\' :: c :: escaped cs := by
  have hc : (c = '\\' || c = quotationMark) = true := by simpa [IsSpecial] using h
  rw [escaped, List.flatMap_cons, if_pos hc]
  rfl

theorem escaped_cons_ordinary (h : ¬ IsSpecial c) (cs : List Char) :
    escaped (c :: cs) = c :: escaped cs := by
  have hc : ¬ (c = '\\' || c = quotationMark) = true := by simpa [IsSpecial] using h
  rw [escaped, List.flatMap_cons, if_neg hc]
  rfl

theorem unescaped_cons_ordinary (h : ¬ IsSpecial c) (cs : List Char) :
    unescaped (c :: cs) = c :: unescaped cs := by
  rw [unescaped]
  intro d ds hc
  exact absurd (.inl hc) h

/-- Backslashes are escaped before quotation marks, so that the backslash of an escaped mark is not
escaped again. -/
theorem escaped_eq_escapeEach (cs : List Char) :
    escaped cs = escapeEach quotationMark (escapeEach '\\' cs) := by
  induction cs with
  | nil => rfl
  | cons c cs ih =>
    have hcons : escapeEach quotationMark (escapeEach '\\' (c :: cs)) =
        escapeEach quotationMark (if c = '\\' then ['\\', c] else [c]) ++ escaped cs := by
      rw [ih, escapeEach, escapeEach, List.flatMap_cons, List.flatMap_append]
      rfl
    rw [hcons]
    by_cases hbackslash : c = '\\'
    · rw [escaped_cons_special (.inl hbackslash), if_pos hbackslash, hbackslash]
      rfl
    · rw [if_neg hbackslash]
      by_cases hmark : c = quotationMark
      · rw [escaped_cons_special (.inr hmark), hmark]
        rfl
      · rw [escaped_cons_ordinary (not_or.2 ⟨hbackslash, hmark⟩), escapeEach,
          List.flatMap_singleton, if_neg hmark]
        rfl

theorem isEscaped_escaped (cs : List Char) : IsEscaped (escaped cs) := by
  induction cs with
  | nil => exact .nil
  | cons c cs ih =>
    by_cases hc : IsSpecial c
    · rw [escaped_cons_special hc]
      exact .escape hc ih
    · rw [escaped_cons_ordinary hc]
      exact .plain hc ih

theorem unescaped_escaped (cs : List Char) : unescaped (escaped cs) = cs := by
  induction cs with
  | nil => rfl
  | cons c cs ih =>
    by_cases hc : IsSpecial c
    · rw [escaped_cons_special hc, unescaped, ih]
    · rw [escaped_cons_ordinary hc, unescaped_cons_ordinary hc, ih]

theorem closingBackslashes_append (cs front : List Char) :
    closingBackslashes (front ++ cs) =
      if closingBackslashes cs = cs.length then closingBackslashes front + cs.length
      else closingBackslashes cs := by
  have hlength : (cs.reverse.takeWhile (· = '\\')).length = cs.reverse.length ↔
      closingBackslashes cs = cs.length := by
    rw [closingBackslashes, List.length_reverse]
  rw [closingBackslashes, List.reverse_append, List.takeWhile_append]
  simp only [hlength]
  split
  · rw [List.length_append, List.length_reverse, Nat.add_comm]
    rfl
  · rfl

/-- What is in front of a text makes no difference if its own end has no backslashes. -/
theorem closingBackslashes_append_of_eq_zero (h : closingBackslashes front = 0) (cs : List Char) :
    closingBackslashes (front ++ cs) = closingBackslashes cs := by
  rw [closingBackslashes_append, h]
  split <;> omega

/-- The backslash of an escape changes nothing about whether the number is even. -/
theorem even_closingBackslashes_escape (h : IsSpecial c) (cs : List Char) :
    Even (closingBackslashes ('\\' :: c :: cs)) ↔ Even (closingBackslashes cs) := by
  have hpair : '\\' :: c :: cs = ['\\', c] ++ cs := rfl
  rcases h with rfl | rfl
  · rw [hpair, closingBackslashes_append]
    split
    · next hall =>
      have htwo : Even (closingBackslashes ['\\', '\\']) := by decide
      rw [hall, Nat.even_add, iff_true_left htwo]
    · rfl
  · rw [hpair, closingBackslashes_append_of_eq_zero (by decide)]

theorem closingBackslashes_cons_ordinary (h : ¬ IsSpecial c) (cs : List Char) :
    closingBackslashes (c :: cs) = closingBackslashes cs := by
  have hc : closingBackslashes [c] = 0 := by
    have hne : c ≠ '\\' := fun he => h (.inl he)
    simp [closingBackslashes, hne]
  exact closingBackslashes_append_of_eq_zero hc cs

/-- No escape is left open at the end, where a mark may follow. -/
theorem IsEscaped.even_closingBackslashes (h : IsEscaped body) : Even (closingBackslashes body) := by
  induction h with
  | nil => exact Even.zero
  | escape special _ ih => exact (even_closingBackslashes_escape special _).2 ih
  | plain ordinary _ ih => rwa [closingBackslashes_cons_ordinary ordinary]

/-- A quotation mark is the second character of an escape. -/
theorem IsEscaped.odd_closingBackslashes (h : IsEscaped body)
    (hbody : body = front ++ quotationMark :: behind) : Odd (closingBackslashes front) := by
  induction h generalizing front with
  | nil => simp at hbody
  | @escape c cs special later ih =>
    rcases List.append_eq_cons_iff.1 hbody.symm with ⟨rfl, hmark⟩ | ⟨front, rfl, hcons⟩
    · cases hmark
    rcases List.append_eq_cons_iff.1 hcons.symm with ⟨rfl, -⟩ | ⟨front, rfl, hcs⟩
    · exact odd_one
    · rw [← Nat.not_even_iff_odd, even_closingBackslashes_escape special, Nat.not_even_iff_odd]
      exact ih hcs
  | @plain c cs ordinary later ih =>
    rcases List.append_eq_cons_iff.1 hbody.symm with ⟨rfl, hmark⟩ | ⟨front, rfl, hcs⟩
    · exact absurd (.inr (List.cons.inj hmark).1.symm) ordinary
    · rw [closingBackslashes_cons_ordinary ordinary]
      exact ih hcs

theorem toList_shownFailure (message : String) :
    (shownFailure message).toList =
      "Error \"".toList ++ escaped message.toList ++ [quotationMark] := by
  simp [shownFailure, quotationMark]

theorem shownFailure_injective : Function.Injective shownFailure := by
  intro message other h
  have hlists := congrArg String.toList h
  rw [toList_shownFailure, toList_shownFailure, List.append_cancel_right_eq,
    List.append_cancel_left_eq] at hlists
  rw [← String.toList_inj, ← unescaped_escaped message.toList, hlists, unescaped_escaped]

/-- A message is shown as what two replacements make of it, the one of backslashes first. Between
the marks there is no quotation mark outside an escape, and no escape that takes in the closing
mark; reading the escapes gives the message back. So different messages are shown differently. -/
theorem shownFailure_unambiguous (message : String) :
    (∃ body, (shownFailure message).toList = "Error \"".toList ++ body ++ [quotationMark] ∧
      body = escapeEach quotationMark (escapeEach '\\' message.toList) ∧
      IsEscaped body ∧ unescaped body = message.toList ∧
      Even (closingBackslashes body) ∧
      ∀ front behind, body = front ++ quotationMark :: behind →
        Odd (closingBackslashes front)) ∧
    (∀ other, shownFailure other = shownFailure message → other = message) ∧
    ∀ e : UsageError, (failure e).shown = shownFailure message → e.message = message := by
  have hescaped := isEscaped_escaped message.toList
  refine ⟨⟨escaped message.toList, toList_shownFailure message, escaped_eq_escapeEach _, hescaped,
    unescaped_escaped _, hescaped.even_closingBackslashes, ?_⟩, ?_, ?_⟩
  · intro front behind hbody
    exact hescaped.odd_closingBackslashes hbody
  · intro other h
    exact shownFailure_injective h
  · intro e h
    exact shownFailure_injective h

end Mode
end GrammarBindings
