import ShiftReduce.Automaton.Basic
import ShiftReduce.Text.Lines
import ShiftReduce.Text.Padded

/-!
# Automata as text

Each state is printed as a heading with its number, its items in the order in which the state keeps
them, and its edges. An empty line separates a state from the one before it, and every state number
has at least two digits.
-/

set_option autoImplicit false

namespace ShiftReduce

/-- The line that lists an edge. -/
def edgeLine (grammar : Grammar) (edge : Symbol × StateId) : String :=
  "- " ++ grammar.symbolName edge.1 ++ " => " ++ Text.twoDigits edge.2

/-- The lines that list a state. -/
def State.lines (grammar : Grammar) (id : StateId) (state : State) : List String :=
  ["#### State " ++ Text.twoDigits id, "## items"] ++
    state.items.items.map (fun item => "- " ++ item.render grammar) ++
    ["## transitions"] ++
    state.edges.map (edgeLine grammar)

/-- The text of an automaton. -/
def Automaton.render (grammar : Grammar) (automaton : Automaton) : String :=
  Text.unlines <| [""].intercalate <|
    automaton.numbered.map fun (state, id) => state.lines grammar id

end ShiftReduce
