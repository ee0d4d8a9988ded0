/-!
# Integers of 64 bits

The signed integers that fit into a machine word.
-/

namespace GrammarBindings

def fits64 (k : Int) : Bool := -0x8000000000000000 ≤ k && k < 0x8000000000000000

theorem fits64_iff {k : Int} :
    fits64 k = true ↔ -0x8000000000000000 ≤ k ∧ k < 0x8000000000000000 := by
  simp [fits64]

end GrammarBindings
