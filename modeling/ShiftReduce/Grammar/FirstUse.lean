import ShiftReduce.Rule
import Std.Data.TreeMap

/-!
# First uses of rules

A rule may be written more than once. For each rule of a sequence the position of the first rule
equal to it is found in one pass, which remembers where each rule was first seen. Two rules are
equal exactly when their names in reading order are.
-/

set_option autoImplicit false

namespace ShiftReduce

/-- What one pass over rules remembers. -/
structure FirstUse where
  /-- Where the names of each rule were first seen. -/
  seen : Std.TreeMap (List String) Nat := {}
  /-- For each rule passed the position of the first one equal to it. -/
  positions : Array Nat := #[]

namespace FirstUse

/-- Pass one more rule. -/
def add (uses : FirstUse) (rule : Rule) : FirstUse :=
  let here := uses.positions.size
  { seen := uses.seen.insertIfNew rule.names here
    positions := uses.positions.push (uses.seen.getD rule.names here) }

/-- Pass a sequence of rules. -/
def ofRules (rules : Array Rule) : FirstUse :=
  rules.foldl add {}

end FirstUse

end ShiftReduce
