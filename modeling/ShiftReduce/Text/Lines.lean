/-!
# Texts made of lines and words

Everything that is printed is a sequence of lines, each of which ends in a line feed. Names that
follow each other in a line are set apart by a space in front of each.
-/

set_option autoImplicit false

namespace ShiftReduce.Text

/-- The text of a sequence of lines, each ended by a line feed. -/
def unlines (lines : List String) : String :=
  String.join (lines.map (· ++ "\n"))

/-- Words, each with a space in front. -/
def spaced (words : List String) : String :=
  String.join (words.map (" " ++ ·))

/-- The lines of two sequences follow each other. -/
theorem unlines_append (first second : List String) :
    unlines (first ++ second) = unlines first ++ unlines second := by
  simp [unlines]

end ShiftReduce.Text
