/-!
# Symbols and productions by number

A grammar numbers its terminals, its nonterminals and its productions, each kind from zero on.
Terminal 0 stands for the end of the input, and nonterminal 0 is the augmented start symbol, which
no rule mentions. The production that derives the start symbol from it is not stored with the
others; it is a production identifier of its own, and the last one in the order.

Terminals come before nonterminals: this is the order in which the edges of a state are followed.
-/

set_option autoImplicit false

namespace ShiftReduce

/-! ## Symbols -/

/-- A terminal symbol, by its number. -/
structure Terminal where
  /-- The position among the terminals of the grammar. -/
  index : Nat
deriving DecidableEq, Inhabited

/-- The terminal that stands behind the last symbol of the input. -/
def Terminal.endOfInput : Terminal := ⟨0⟩

instance : Ord Terminal := ⟨compareOn Terminal.index⟩

/-- A nonterminal symbol, by its number. -/
structure Nonterminal where
  /-- The position among the nonterminals of the grammar. -/
  index : Nat
deriving DecidableEq, Inhabited

/-- The nonterminal that derives the start symbol and nothing else. -/
def Nonterminal.augmented : Nonterminal := ⟨0⟩

instance : Ord Nonterminal := ⟨compareOn Nonterminal.index⟩

/-- A grammar symbol. -/
inductive Symbol where
  | terminal (terminal : Terminal)
  | nonterminal (nonterminal : Nonterminal)
deriving DecidableEq, Inhabited

/-- Terminals come first, and each kind is ordered by number. -/
instance : Ord Symbol where
  compare
    | .terminal first, .terminal second => compare first second
    | .terminal _, .nonterminal _ => .lt
    | .nonterminal _, .terminal _ => .gt
    | .nonterminal first, .nonterminal second => compare first second

/-! ## Productions -/

/-- What names a production of a grammar. -/
inductive ProductionId where
  /-- The production at a position of the definition. -/
  | stored (index : Nat)
  /-- The production that derives the start symbol from the augmented one. -/
  | accept
deriving DecidableEq, Inhabited

/-- Stored productions are ordered by position, and the accepting one comes last. -/
instance : Ord ProductionId where
  compare
    | .stored first, .stored second => compare first second
    | .stored _, .accept => .lt
    | .accept, .stored _ => .gt
    | .accept, .accept => .eq

/-- How many symbols of one kind, or productions, a grammar can number. -/
def capacity : Nat := 65535

/-- The number that a production is printed with; the accepting one has the first number that no
stored production can have. -/
def ProductionId.number : ProductionId → Nat
  | .stored index => index
  | .accept => capacity

/-- A production in symbols. -/
structure Production where
  /-- The nonterminal that the production replaces. -/
  left : Nonterminal
  /-- The symbols that take its place, in order. -/
  right : List Symbol
deriving DecidableEq, Inhabited

end ShiftReduce
