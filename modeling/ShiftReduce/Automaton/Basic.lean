import ShiftReduce.Item.Set

/-!
# Automata of item sets

The states of an automaton are numbered from zero in the order of their discovery. A state holds
its items and one edge for each symbol that its items expect, in the order of symbols.
-/

set_option autoImplicit false

namespace ShiftReduce

/-- The number of a state. -/
abbrev StateId : Type := Nat

/-- A state of the automaton. -/
structure State where
  /-- The items of the state. -/
  items : ItemSet
  /-- The edges that leave the state, in the order of their labels. -/
  edges : List (Symbol × StateId)
deriving DecidableEq, Inhabited

/-- The state that an edge with a label leads to. -/
def State.target? (state : State) (label : Symbol) : Option StateId :=
  state.edges.lookup label

/-- The states and the edges between them. -/
structure Automaton where
  /-- The states in the order of their numbers. -/
  states : Array State
deriving DecidableEq, Inhabited

namespace Automaton

/-- The number of states. -/
def size (automaton : Automaton) : Nat := automaton.states.size

/-- The states, each with its number. -/
def numbered (automaton : Automaton) : List (State × StateId) :=
  automaton.states.toList.zipIdx

/-- The state that an edge leads to. -/
def target? (automaton : Automaton) (source : StateId) (label : Symbol) : Option StateId :=
  match automaton.states[source]? with
  | some state => state.target? label
  | none => none

/-- All edges with their sources, in the order of states and labels. -/
def edges (automaton : Automaton) : List (StateId × Symbol × StateId) :=
  automaton.numbered.flatMap fun (state, source) =>
    state.edges.map fun (label, target) => (source, label, target)

end Automaton

end ShiftReduce
