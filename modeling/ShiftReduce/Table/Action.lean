import ShiftReduce.Automaton.Basic
import ShiftReduce.Text.Padded

/-!
# Actions and conflicts

What a parser does in a state when it sees a terminal: it shifts the terminal and goes to another
state, it reduces by a production, or it accepts. A conflict reports that a cell of the action table
was written with one action and later with another one, which is the one that stays.
-/

set_option autoImplicit false

namespace ShiftReduce

/-! ## Actions -/

/-- What a parser does in a state on a terminal. -/
inductive Action where
  /-- Read the terminal and go to a state. -/
  | shift (target : StateId)
  /-- Replace a right-hand side by its left-hand side. -/
  | reduce (production : ProductionId)
  /-- End with success. -/
  | accept
deriving DecidableEq, Inhabited

namespace Action

/-- The short form of an action, as in the cells of a table. -/
def brief : Action → String
  | .shift target => "s" ++ toString target
  | .reduce production => "r" ++ toString production.number
  | .accept => "acc"

/-- The long form of an action, which spells out productions. -/
def render (grammar : Grammar) : Action → String
  | .shift target => "shift(" ++ Text.twoDigits target ++ ")"
  | .reduce production =>
      "reduce(" ++ grammar.renderProduction (grammar.production production) ++ ")"
  | .accept => "accept"

end Action

/-! ## Conflicts -/

/-- The kinds of conflicts. -/
inductive ConflictKind where
  | shiftReduce
  | reduceReduce
  /-- A reduction at the end of the input competes with acceptance. -/
  | acceptReduce
deriving DecidableEq, Inhabited

/-- What a kind of conflict is called. -/
def ConflictKind.name : ConflictKind → String
  | .shiftReduce => "shift/reduce"
  | .reduceReduce => "reduce/reduce"
  | .acceptReduce => "accept/reduce"

/-- A cell of the action table that was written with two different actions. -/
structure Conflict where
  /-- The state of the cell. -/
  state : StateId
  /-- The terminal of the cell. -/
  terminal : Terminal
  /-- The action that was overwritten. -/
  discarded : Action
  /-- The action that was written over it. -/
  kept : Action
deriving DecidableEq, Inhabited

namespace Conflict

/-- The kind of a conflict: acceptance makes it one with acceptance, two reductions make it one
between reductions, and any other pair counts as one with a shift. -/
def kind (conflict : Conflict) : ConflictKind :=
  match conflict.discarded, conflict.kept with
  | .accept, _ | _, .accept => .acceptReduce
  | .reduce _, .reduce _ => .reduceReduce
  | _, _ => .shiftReduce

/-- The text that reports a conflict. -/
def render (grammar : Grammar) (conflict : Conflict) : String :=
  conflict.kind.name ++ " conflict in state " ++ Text.twoDigits conflict.state ++
    " on `" ++ grammar.terminalName conflict.terminal ++ "': " ++
    conflict.discarded.render grammar ++ " discarded in favor of " ++ conflict.kept.render grammar

end Conflict

end ShiftReduce
