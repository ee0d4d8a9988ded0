/-!
# Sets of characters given by ranges of code points

A set is a list of inclusive ranges in ascending order. Looking a code point up stops at the
first range that begins after it, so the characters near the front of a table are settled at once.
-/

namespace GrammarBindings.Text

/-- Inclusive ranges of code points, in ascending order. -/
abbrev CodeRanges := List (Nat × Nat)

namespace CodeRanges

def contains : CodeRanges → Nat → Bool
  | [], _ => false
  | (lo, hi) :: rest, n => if n < lo then false else if n ≤ hi then true else contains rest n

@[simp] theorem contains_nil (n : Nat) : contains [] n = false := rfl

/-- A member lies in one of the ranges, whether or not they are in order. -/
theorem exists_of_contains {r : CodeRanges} {n : Nat} (h : r.contains n = true) :
    ∃ p ∈ r, p.1 ≤ n ∧ n ≤ p.2 := by
  induction r with
  | nil => simp at h
  | cons p rest ih =>
    obtain ⟨lo, hi⟩ := p
    unfold contains at h
    split at h
    · simp at h
    · split at h
      · exact ⟨(lo, hi), by simp, by simp; omega, by simpa⟩
      · obtain ⟨p, hp, hn⟩ := ih h
        exact ⟨p, by simp [hp], hn⟩

end CodeRanges
end GrammarBindings.Text
