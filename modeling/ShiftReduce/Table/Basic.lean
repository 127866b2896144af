import ShiftReduce.Automaton.Basic
import ShiftReduce.Table.Action

/-!
# Action and goto tables

A parser is driven by two tables. The action table has a row for each state, which tells for each
terminal what to do; the goto table tells for each nonterminal where to go after a reduction.

The row of a state is written item by item in the order of the state: a complete item writes a
reduction under its lookahead, or acceptance under the end of the input, and an item that has a
terminal next writes the shift along the edge with that label. A cell that is written again keeps
its place in the row and takes the later action, and the two actions are recorded as a conflict if
they differ.
-/

set_option autoImplicit false

namespace ShiftReduce

/-- The cells of one row of the action table, and the conflicts that its writing met. -/
structure ActionRow where
  /-- The cells in the order in which they were first written. -/
  cells : List (Terminal × Action) := []
  /-- The conflicts in the order in which they were met. -/
  conflicts : List Conflict := []
deriving DecidableEq, Inhabited

namespace ActionRow

/-- Cells in which the action under one terminal is replaced. -/
def replace (cells : List (Terminal × Action)) (terminal : Terminal) (action : Action) :
    List (Terminal × Action) :=
  cells.map fun cell => if cell.1 = terminal then (terminal, action) else cell

/-- Write an action under a terminal of the row of a state. -/
def write (state : StateId) (row : ActionRow) (entry : Terminal × Action) : ActionRow :=
  match row.cells.lookup entry.1 with
  | none => { row with cells := row.cells ++ [entry] }
  | some earlier =>
    if earlier = entry.2 then row
    else
      { cells := replace row.cells entry.1 entry.2
        conflicts := row.conflicts ++ [⟨state, entry.1, earlier, entry.2⟩] }

/-- What an item of a state writes into the row of the state. -/
def written? (grammar : Grammar) (state : State) (item : Item) : Option (Terminal × Action) :=
  match item.nextSymbol? grammar with
  | none =>
    if item.production = .accept then some (.endOfInput, .accept)
    else some (item.lookahead, .reduce (grammar.canonical item.production))
  | some (.terminal terminal) =>
    (state.target? (.terminal terminal)).map fun target => (terminal, .shift target)
  | some (.nonterminal _) => none

/-- The row of a state. -/
def ofState (grammar : Grammar) (state : State) (id : StateId) : ActionRow :=
  (state.items.items.filterMap (written? grammar state)).foldl (write id) {}

end ActionRow

/-- The row of a state in the goto table, in the order of nonterminals. -/
def gotoRow (grammar : Grammar) (state : State) : List (Nonterminal × StateId) :=
  grammar.nonterminalList.filterMap fun nonterminal =>
    (state.target? (.nonterminal nonterminal)).map fun target => (nonterminal, target)

/-- The action table, the goto table, and the conflicts of the action table. -/
structure Table where
  /-- The rows of the action table, by state. -/
  actions : Array (List (Terminal × Action))
  /-- The rows of the goto table, by state. -/
  gotos : Array (List (Nonterminal × StateId))
  /-- The conflicts in the order in which they were met. -/
  conflicts : List Conflict
deriving DecidableEq, Inhabited

namespace Table

/-- The tables of an automaton. -/
def generate (grammar : Grammar) (automaton : Automaton) : Table :=
  let rows := automaton.numbered.map fun (state, id) => ActionRow.ofState grammar state id
  { actions := (rows.map ActionRow.cells).toArray
    gotos := automaton.states.map (gotoRow grammar)
    conflicts := rows.flatMap ActionRow.conflicts }

/-- The number of states. -/
def size (table : Table) : Nat := table.actions.size

/-- The row of a state in the action table; an unknown state has an empty one. -/
def actionsOf (table : Table) (state : StateId) : List (Terminal × Action) :=
  table.actions.getD state []

/-- The row of a state in the goto table; an unknown state has an empty one. -/
def gotosOf (table : Table) (state : StateId) : List (Nonterminal × StateId) :=
  table.gotos.getD state []

/-- The action in a state on a terminal. -/
def action? (table : Table) (state : StateId) (terminal : Terminal) : Option Action :=
  (table.actionsOf state).lookup terminal

/-- The state to go to after a reduction to a nonterminal. -/
def goto? (table : Table) (state : StateId) (nonterminal : Nonterminal) : Option StateId :=
  (table.gotosOf state).lookup nonterminal

end Table

end ShiftReduce
