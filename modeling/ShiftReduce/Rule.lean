/-!
# Rules of names

What a user writes down: a left-hand side and a right-hand side, both as names. Which of the names
are terminals is not told by a rule alone.
-/

set_option autoImplicit false

namespace ShiftReduce

/-- A rule as its author wrote it, in names. -/
structure Rule where
  /-- The name that the rule defines. -/
  left : String
  /-- The names that it may be replaced by, in order. -/
  right : List String
deriving DecidableEq, Inhabited

/-- The names of a rule in reading order, left-hand side first. -/
def Rule.names (rule : Rule) : List String :=
  rule.left :: rule.right

end ShiftReduce
