import Mathlib.Logic.Relation
import ShiftReduce.Proofs.Grammar.Derivation
import ShiftReduce.Table.Basic

/-!
# The driver of the tables

The parser that the tables are made for keeps a stack of states, beginning with state 0, and looks
at the first terminal that is left of its input, which is the end of the input when nothing is left.
The action of the top state on that terminal tells it to push a state and read the terminal, to pop
as many states as a right-hand side is long and to push the state that the goto table tells then, or
to stop.

A configuration also records the productions that were reduced. They are data for the theorems: no
step depends on them.
-/

set_option autoImplicit false

namespace ShiftReduce

/-- What the driver holds between two steps. -/
structure Configuration where
  /-- The states, the top first. -/
  stack : List StateId
  /-- The input that is left. -/
  rest : List Terminal
  /-- The productions that were reduced, the latest first. -/
  reductions : List ProductionId
deriving DecidableEq

/-- How a step of the driver ends. -/
inductive Outcome where
  | next (configuration : Configuration)
  | accepted
  /-- The table has no action. -/
  | rejected
  /-- The stack is too short, or the goto table has no entry. -/
  | broken
deriving DecidableEq

namespace Configuration

/-- The configuration in which the driver begins to read a word. -/
def initial (word : List Terminal) : Configuration := ⟨[0], word, []⟩

/-- The terminal that the driver looks at. -/
def lookahead (configuration : Configuration) : Terminal :=
  configuration.rest.headD .endOfInput

/-- What the action table tells the driver to do. -/
def action? (table : Table) (configuration : Configuration) : Option Action :=
  configuration.stack.head?.bind fun top => table.action? top configuration.lookahead

/-- Push a state and read a terminal. -/
def shift (target : StateId) (configuration : Configuration) : Configuration :=
  { configuration with
    stack := target :: configuration.stack
    rest := configuration.rest.tail }

/-- The stack that is left when the right-hand side of a production was popped. -/
def popped (grammar : Grammar) (id : ProductionId) (configuration : Configuration) : List StateId :=
  configuration.stack.drop (grammar.production id).right.length

/-- The configuration after a reduction, unless the stack is too short or the goto is missing. -/
def reduce? (grammar : Grammar) (table : Table) (id : ProductionId)
    (configuration : Configuration) : Option Configuration := do
  let exposed ← (configuration.popped grammar id).head?
  let target ← table.goto? exposed (grammar.production id).left
  return { configuration with
    stack := target :: configuration.popped grammar id
    reductions := id :: configuration.reductions }

/-- One step of the driver. -/
def step (grammar : Grammar) (table : Table) (configuration : Configuration) : Outcome :=
  match configuration.action? table with
  | none => .rejected
  | some .accept => .accepted
  | some (.shift target) => .next (configuration.shift target)
  | some (.reduce id) =>
    match configuration.reduce? grammar table id with
    | none => .broken
    | some reduced => .next reduced

/-- The driver comes from one configuration to another in any number of steps. -/
def Steps (grammar : Grammar) (table : Table) : Configuration → Configuration → Prop :=
  Relation.ReflTransGen fun earlier later => earlier.step grammar table = .next later

end Configuration

namespace Table

/-- A run of the driver on a word comes to a configuration. -/
def Reaches (grammar : Grammar) (table : Table) (word : List Terminal)
    (configuration : Configuration) : Prop :=
  Configuration.Steps grammar table (.initial word) configuration

/-- The driver accepts a word. -/
def Accepts (grammar : Grammar) (table : Table) (word : List Terminal) : Prop :=
  ∃ configuration, table.Reaches grammar word configuration ∧
    configuration.step grammar table = .accepted

end Table

namespace Configuration

variable {grammar : Grammar} {table : Table} {configuration later : Configuration}

theorem reduce?_eq_some_iff {id : ProductionId} :
    configuration.reduce? grammar table id = some later ↔
      ∃ exposed below target, configuration.popped grammar id = exposed :: below ∧
        table.goto? exposed (grammar.production id).left = some target ∧
        later =
          ⟨target :: exposed :: below, configuration.rest, id :: configuration.reductions⟩ := by
  unfold reduce?
  cases configuration.popped grammar id with
  | nil => simp
  | cons exposed below =>
      constructor
      · intro reduced
        obtain ⟨_, isExposed, rest⟩ := Option.bind_eq_some_iff.1 reduced
        cases isExposed
        obtain ⟨target, leads, same⟩ := Option.bind_eq_some_iff.1 rest
        cases same
        exact ⟨exposed, below, target, rfl, leads, rfl⟩
      · rintro ⟨_, _, target, isStack, leads, rfl⟩
        cases isStack
        exact Option.bind_eq_some_iff.2 ⟨_, rfl, Option.bind_eq_some_iff.2 ⟨target, leads, rfl⟩⟩

/-- **A step goes on exactly by a shift or by a reduction.** -/
theorem step_eq_next_iff :
    configuration.step grammar table = .next later ↔
      (∃ target, configuration.action? table = some (.shift target) ∧
        later = configuration.shift target) ∨
      ∃ id, configuration.action? table = some (.reduce id) ∧
        configuration.reduce? grammar table id = some later := by
  unfold step
  split
  · next undefined => simp [undefined]
  · next accepts => simp [accepts]
  · next target shifts => simp [shifts, eq_comm]
  · next id reduces =>
    cases reduced : configuration.reduce? grammar table id with
    | none => simp [reduces, reduced]
    | some result => simp [reduces, reduced, eq_comm]

theorem step_eq_accepted_iff :
    configuration.step grammar table = .accepted ↔ configuration.action? table = some .accept := by
  unfold step
  split
  · next undefined => simp [undefined]
  · next accepts => simp [accepts]
  · next target shifts => simp [shifts]
  · next id reduces =>
    cases configuration.reduce? grammar table id with
    | none => simp [reduces]
    | some result => simp [reduces]

theorem step_eq_broken_iff :
    configuration.step grammar table = .broken ↔
      ∃ id, configuration.action? table = some (.reduce id) ∧
        configuration.reduce? grammar table id = none := by
  unfold step
  split
  · next undefined => simp [undefined]
  · next accepts => simp [accepts]
  · next target shifts => simp [shifts]
  · next id reduces =>
    cases reduced : configuration.reduce? grammar table id with
    | none => simp [reduces, reduced]
    | some result => simp [reduces, reduced]

end Configuration

end ShiftReduce
