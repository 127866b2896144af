import ShiftReduce.Table.Basic
import ShiftReduce.Text.Grid
import ShiftReduce.Text.Lines

/-!
# Tables as text

The action table and the goto table are printed as one grid each, with a row for each state. The
columns follow the order of symbols, but the end of the input comes last; the augmented start symbol
has no column, since no state is reached over it. An empty cell shows a dash.
-/

set_option autoImplicit false

namespace ShiftReduce

namespace Grammar

/-- The terminals in the order of their columns. -/
def columnTerminals (grammar : Grammar) : List Terminal :=
  grammar.terminalList.filter (· != .endOfInput) ++ [.endOfInput]

end Grammar

namespace Table

/-- The heading of the state numbers. -/
def stateHeading : String := "state"

/-- What an empty cell shows. -/
def emptyCell : String := "-"

/-- The text of a cell. -/
def cell {α : Type} (render : α → String) (content : Option α) : String :=
  content.elim emptyCell render

/-- The action table as a grid. -/
def actionGrid (grammar : Grammar) (table : Table) : Text.Grid where
  corner := stateHeading
  labels := grammar.columnTerminals.map grammar.terminalName
  rows := table.actions.toList.map fun row =>
    grammar.columnTerminals.map fun terminal => cell Action.brief (row.lookup terminal)

/-- The goto table as a grid. -/
def gotoGrid (grammar : Grammar) (table : Table) : Text.Grid where
  corner := stateHeading
  labels := grammar.properNonterminals.map grammar.nonterminalName
  rows := table.gotos.toList.map fun row =>
    grammar.properNonterminals.map fun nonterminal => cell toString (row.lookup nonterminal)

/-- The text of both tables. -/
def render (grammar : Grammar) (table : Table) : String :=
  Text.unlines <|
    ["## action"] ++ (table.actionGrid grammar).lines ++
    ["", "## goto"] ++ (table.gotoGrid grammar).lines

end Table

end ShiftReduce
