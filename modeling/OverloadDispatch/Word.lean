/-!
# Signed words

Positions in a list and numbers of copies are held in signed words of 64 bits. An integer outside
that range is neither, whatever would be done with it.
-/

namespace OverloadDispatch.Word

/-- The least integer that a word holds, `-2^63`. -/
def least : Int := -9223372036854775808

/-- The greatest integer that a word holds, `2^63 - 1`. -/
def greatest : Int := 9223372036854775807

/-- Whether a word holds an integer. -/
def holds (i : Int) : Bool := least ≤ i && i ≤ greatest

/-- A word holds the integers between the least and the greatest one, and no others. -/
theorem holds_iff {i : Int} : holds i = true ↔ least ≤ i ∧ i ≤ greatest := by
  simp [holds]

end OverloadDispatch.Word
