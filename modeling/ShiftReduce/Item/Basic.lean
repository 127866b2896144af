import ShiftReduce.Grammar.Render

/-!
# Items

An item is a production together with how far it has been recognised, told by a dot in front of the
symbol expected next, and a lookahead terminal. The dot may stand anywhere, also past the end of
the production; an item whose dot has no symbol behind it is complete.
-/

set_option autoImplicit false

namespace ShiftReduce

/-- A production with a dot in its right-hand side and a lookahead. -/
structure Item where
  /-- The production. -/
  production : ProductionId
  /-- How many symbols of its right-hand side stand before the dot. -/
  dot : Nat
  /-- The terminal that may follow. -/
  lookahead : Terminal
deriving DecidableEq, Inhabited

/-- Items are ordered by production, then by dot, then by lookahead. -/
instance : Ord Item where
  compare := compareLex (compareOn Item.production)
    (compareLex (compareOn Item.dot) (compareOn Item.lookahead))

namespace Item

/-- The item of a production with the dot in front. -/
def initial (production : ProductionId) (lookahead : Terminal) : Item :=
  ⟨production, 0, lookahead⟩

/-- The item from which everything else is found. -/
def start : Item := initial .accept .endOfInput

/-- The right-hand side of the production of an item. -/
def right (grammar : Grammar) (item : Item) : List Symbol :=
  (grammar.production item.production).right

/-- The symbol behind the dot; a complete item has none. -/
def nextSymbol? (grammar : Grammar) (item : Item) : Option Symbol :=
  (item.right grammar)[item.dot]?

/-- Whether no symbol is left behind the dot. -/
def isComplete (grammar : Grammar) (item : Item) : Bool :=
  decide ((item.right grammar).length ≤ item.dot)

/-- The item with the dot behind the next symbol, unless it is complete. -/
def advance? (grammar : Grammar) (item : Item) : Option Item :=
  if item.isComplete grammar then none else some { item with dot := item.dot + 1 }

/-- The advanced item if the next symbol is the given one. -/
def advanceOver? (grammar : Grammar) (symbol : Symbol) (item : Item) : Option Item :=
  if item.nextSymbol? grammar = some symbol then item.advance? grammar else none

/-- Items sorted in their order; equal ones stay as they are. -/
def sort (items : List Item) : List Item :=
  items.mergeSort fun first second => (compare first second).isLE

/-- The text of an item. A dot past the end of the production is not shown. -/
def render (grammar : Grammar) (item : Item) : String :=
  let names := (item.right grammar).map grammar.symbolName
  "[" ++ grammar.nonterminalName (grammar.production item.production).left ++ " ->" ++
    Text.spaced (names.insertIdx item.dot ".") ++ ", " ++
    grammar.terminalName item.lookahead ++ "]"

/-! ## The dot and the next symbol -/

/-- An item is complete exactly when it has no next symbol. -/
theorem isComplete_iff (grammar : Grammar) (item : Item) :
    item.isComplete grammar = true ↔ item.nextSymbol? grammar = none := by
  simp [isComplete, nextSymbol?]

/-- Advancing over the next symbol moves the dot by one. -/
theorem advanceOver?_eq_some_iff (grammar : Grammar) (symbol : Symbol) (item advanced : Item) :
    item.advanceOver? grammar symbol = some advanced ↔
      item.nextSymbol? grammar = some symbol ∧ advanced = { item with dot := item.dot + 1 } := by
  unfold advanceOver? advance?
  split
  · next expected =>
    have incomplete : ¬item.isComplete grammar = true := by
      simp [isComplete_iff, expected]
    simp [incomplete, expected, eq_comm]
  · next unexpected =>
    simp [unexpected]

end Item

end ShiftReduce
