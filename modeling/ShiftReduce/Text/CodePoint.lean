/-!
# Sets of characters as ranges of code points

A property of characters that a standard lists in a table is kept here as that table: the inclusive
ranges of code points that have the property. Membership is one pass over the ranges.
-/

set_option autoImplicit false

namespace ShiftReduce.Text

/-- The inclusive ranges of code points that make up a set of characters. -/
abbrev CodePoints : Type := List (Nat × Nat)

/-- Whether a character lies in one of the ranges. -/
def CodePoints.contains (ranges : CodePoints) (character : Char) : Bool :=
  ranges.any fun range => range.1 ≤ character.toNat && character.toNat ≤ range.2

/-- A character belongs to the set exactly when some range covers its code point. -/
theorem CodePoints.contains_iff (ranges : CodePoints) (character : Char) :
    ranges.contains character = true ↔
      ∃ range ∈ ranges, range.1 ≤ character.toNat ∧ character.toNat ≤ range.2 := by
  simp [CodePoints.contains, List.any_eq_true]

end ShiftReduce.Text
