import ShiftReduce.Source.Location
import ShiftReduce.Source.Token

/-!
# Cutting a text into tokens

The text is read from front to back. At each place the longest match is cut off, and what it gives
is recorded together with the places where it begins and ends. A place at which no pattern matches
would be an error that names it.
-/

set_option autoImplicit false

namespace ShiftReduce

/-- A token together with where it begins and ends. -/
structure Lexeme where
  /-- The token. -/
  token : Token
  /-- The place of its first character. -/
  start : Location
  /-- The place behind its last character. -/
  stop : Location
deriving DecidableEq, Inhabited

namespace Lexeme

/-- Cutting anything off a text that is not empty leaves a shorter one. -/
theorem length_drop_lt {text : List Char} {count : Nat} (nonempty : ¬text.isEmpty = true)
    (positive : ¬count = 0) : (text.drop count).length < text.length := by
  have : text.length ≠ 0 := fun empty => nonempty (by simp [List.length_eq_zero_iff.1 empty])
  simp only [List.length_drop]
  omega

/-- What is cut off a text whose first character stands at the given place, one lexeme after the
other. A place at which no pattern matches is the last thing that is given. -/
def stream (location : Location) (text : List Char) : List (Except Location Lexeme) :=
  if _ : text.isEmpty then []
  else
    let found := Pattern.longest text
    if _ : found.length = 0 then [.error location]
    else
      let piece := text.take found.length
      let stop := location.after piece
      let following := stream stop (text.drop found.length)
      match found.pattern.token? piece with
      | none => following
      | some token => .ok ⟨token, location, stop⟩ :: following
termination_by text.length
decreasing_by exact length_drop_lt (by assumption) (by assumption)

/-- The lexemes of a whole text, or the place at which no pattern matches. -/
def ofText (text : String) : Except Location (List Lexeme) :=
  (stream {} text.toList).mapM id

end Lexeme

end ShiftReduce
