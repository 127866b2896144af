import ShiftReduce.Proofs.Parsing.Actions
import ShiftReduce.Proofs.Parsing.Driver

/-!
# Soundness of the driver

Along every run of the driver the labels of its stack derive the input that it has read, by the
productions that it has reduced (`Explained`). As long as input is left nothing is reduced, since
reductions stand under the end of the input only.

A step keeps this (`Explained.next`), and so do runs (`explained_of_reaches`). The table may have
conflicts. `reaches_correct` says what follows for each configuration of a run.
-/

set_option autoImplicit false

namespace ShiftReduce

variable {grammar : Grammar} {word : List Terminal} {configuration later : Configuration}

/-- The labels of the stack derive the input that was read, by the productions that were reduced. -/
structure Explained (grammar : Grammar) (word : List Terminal) (symbols : List Symbol)
    (consumed : List Terminal) (configuration : Configuration) : Prop where
  path : (Automaton.generate grammar).Path symbols configuration.stack
  input : word = consumed ++ configuration.rest
  derivation : grammar.Derivation .last symbols configuration.reductions (consumed.map .terminal)
  /-- While input is left, nothing is reduced. -/
  unreduced : configuration.rest ≠ [] → configuration.reductions = []

namespace Explained

variable {symbols : List Symbol} {consumed : List Terminal}

theorem initial (grammar : Grammar) (word : List Terminal) :
    Explained grammar word [] [] (.initial word) where
  path := .start
  input := rfl
  derivation := .done []
  unreduced := fun _ => rfl

/-- The action of a configuration is an action of the top of its path. -/
theorem action (explained : Explained grammar word symbols consumed configuration)
    {table : Table} {action : Action} (isAction : configuration.action? table = some action) :
    ∃ top below, configuration.stack = top :: below ∧
      (Automaton.generate grammar).Path symbols (top :: below) ∧
      table.action? top configuration.lookahead = some action := by
  obtain ⟨top, below, isStack⟩ := explained.path.exists_top
  rw [Configuration.action?, isStack] at isAction
  exact ⟨top, below, isStack, isStack ▸ explained.path, isAction⟩

/-- Only at the end of the input is the end of the input looked at. -/
theorem rest_eq_nil (explained : Explained grammar word symbols consumed configuration)
    (proper : Terminal.endOfInput ∉ word) (isEnd : configuration.lookahead = .endOfInput) :
    configuration.rest = [] := by
  cases unread : configuration.rest with
  | nil => rfl
  | cons terminal rest =>
      rw [Configuration.lookahead, unread, List.headD_cons] at isEnd
      have inWord : terminal ∈ word := by
        rw [explained.input, unread]
        exact List.mem_append_right consumed List.mem_cons_self
      exact absurd (isEnd ▸ inWord) proper

/-- While input is left, the labels are the terminals that were read. -/
theorem symbols_eq (explained : Explained grammar word symbols consumed configuration)
    (unread : configuration.rest ≠ []) : symbols = consumed.map .terminal := by
  have derivation := explained.derivation
  rw [explained.unreduced unread] at derivation
  exact derivation.eq_of_nil

theorem shift (wellFormed : grammar.WellFormed)
    (explained : Explained grammar word symbols consumed configuration) {target : StateId}
    (isAction : configuration.action? grammar.table = some (.shift target)) :
    ∃ terminal, Explained grammar word (symbols ++ [.terminal terminal]) (consumed ++ [terminal])
      (configuration.shift target) := by
  obtain ⟨top, below, isStack, path, action⟩ := explained.action isAction
  obtain ⟨isProper, leads⟩ := Table.target?_of_shift wellFormed path action
  cases unread : configuration.rest with
  | nil =>
      rw [Configuration.lookahead, unread] at isProper
      exact absurd rfl isProper
  | cons terminal rest =>
      have isNext : configuration.lookahead = terminal := by
        rw [Configuration.lookahead, unread, List.headD_cons]
      have isLeft : configuration.rest ≠ [] := by
        rw [unread]
        exact List.cons_ne_nil terminal rest
      have nothing := explained.unreduced isLeft
      refine ⟨terminal, ?_⟩
      constructor
      case path =>
        rw [Configuration.shift, isStack]
        exact .push path (isNext ▸ leads)
      case input =>
        rw [explained.input, unread, Configuration.shift, unread, List.tail_cons,
          List.append_assoc, List.singleton_append]
      case derivation =>
        rw [Configuration.shift, nothing, explained.symbols_eq isLeft, List.map_append,
          List.map_singleton]
        exact .done _
      case unreduced => exact fun _ => nothing

/-- A reduction finds a state and a goto, and goes on explained. -/
theorem reduce (wellFormed : grammar.WellFormed) (proper : Terminal.endOfInput ∉ word)
    (explained : Explained grammar word symbols consumed configuration) {id : ProductionId}
    (isAction : configuration.action? grammar.table = some (.reduce id)) :
    ∃ before exposed below target, configuration.popped grammar id = exposed :: below ∧
      grammar.table.goto? exposed (grammar.production id).left = some target ∧
      Explained grammar word (before ++ [.nonterminal (grammar.production id).left]) consumed
        ⟨target :: exposed :: below, configuration.rest, id :: configuration.reductions⟩ := by
  obtain ⟨top, below, isStack, path, action⟩ := explained.action isAction
  obtain ⟨isEnd, stored, before, exposed, rest, target, isSplit, dropped, shorter, leads, isGoto⟩ :=
    Table.handle_of_reduce wellFormed path action
  have finished := explained.rest_eq_nil proper isEnd
  refine ⟨before, exposed, rest, target, ?_, isGoto, ?_⟩
  · rw [Configuration.popped, isStack, dropped]
  · constructor
    case path => exact .push shorter leads
    case input => exact explained.input
    case derivation =>
      have derivation := explained.derivation
      rw [isSplit] at derivation
      exact derivation.last_step stored
    case unreduced => exact fun unread => absurd finished unread

/-- Acceptance comes when the start symbol derives the whole input. -/
theorem accept (wellFormed : grammar.WellFormed) (proper : Terminal.endOfInput ∉ word)
    (explained : Explained grammar word symbols consumed configuration)
    (isAction : configuration.action? grammar.table = some .accept) :
    symbols = [.nonterminal grammar.start] ∧ configuration.rest = [] ∧ consumed = word := by
  obtain ⟨top, below, isStack, path, action⟩ := explained.action isAction
  obtain ⟨isEnd, isStart⟩ := Table.start_of_accept wellFormed path action
  have finished := explained.rest_eq_nil proper isEnd
  refine ⟨isStart, finished, ?_⟩
  rw [explained.input, finished, List.append_nil]

/-- **A step of the driver keeps its configuration explained.** -/
theorem next (wellFormed : grammar.WellFormed) (proper : Terminal.endOfInput ∉ word)
    (explained : Explained grammar word symbols consumed configuration)
    (steps : configuration.step grammar grammar.table = .next later) :
    ∃ symbols consumed, Explained grammar word symbols consumed later := by
  rcases Configuration.step_eq_next_iff.1 steps with
    ⟨target, isAction, rfl⟩ | ⟨id, isAction, reduced⟩
  · obtain ⟨terminal, shifted⟩ := explained.shift wellFormed isAction
    exact ⟨_, _, shifted⟩
  · obtain ⟨before, exposed, below, target, popped, isGoto, result⟩ :=
      explained.reduce wellFormed proper isAction
    have isLater := Configuration.reduce?_eq_some_iff.2
      ⟨exposed, below, target, popped, isGoto, rfl⟩
    rw [reduced] at isLater
    cases isLater
    exact ⟨_, _, result⟩

end Explained

/-- **Every configuration of a run is explained.** -/
theorem explained_of_reaches (wellFormed : grammar.WellFormed) (proper : Terminal.endOfInput ∉ word)
    (reached : grammar.table.Reaches grammar word configuration) :
    ∃ symbols consumed, Explained grammar word symbols consumed configuration := by
  unfold Table.Reaches Configuration.Steps at reached
  induction reached with
  | refl => exact ⟨[], [], .initial grammar word⟩
  | tail _ steps ih =>
      obtain ⟨symbols, consumed, explained⟩ := ih
      exact explained.next wellFormed proper steps

/-- A run never breaks. -/
theorem step_ne_broken (wellFormed : grammar.WellFormed) (proper : Terminal.endOfInput ∉ word)
    (reached : grammar.table.Reaches grammar word configuration) :
    configuration.step grammar grammar.table ≠ .broken := by
  intro broken
  obtain ⟨id, isAction, unreduced⟩ := Configuration.step_eq_broken_iff.1 broken
  obtain ⟨symbols, consumed, explained⟩ := explained_of_reaches wellFormed proper reached
  obtain ⟨-, exposed, below, target, popped, isGoto, -⟩ :=
    explained.reduce wellFormed proper isAction
  have reduced := Configuration.reduce?_eq_some_iff.2 ⟨exposed, below, target, popped, isGoto, rfl⟩
  rw [unreduced] at reduced
  cases reduced

/-! ## Runs -/

/-- What is right about a configuration that the driver comes to. -/
structure Configuration.Correct (grammar : Grammar) (automaton : Automaton) (table : Table)
    (word : List Terminal) (configuration : Configuration) : Prop where
  /-- A reduction leaves a state on the stack, and the goto from there is defined. -/
  reduces : ∀ id, configuration.action? table = some (.reduce id) →
    ∃ exposed below target, configuration.popped grammar id = exposed :: below ∧
      table.goto? exposed (grammar.production id).left = some target
  /-- The stack is a path, and its labels derive the input that was read. -/
  consumes : ∃ consumed symbols, word = consumed ++ configuration.rest ∧
    automaton.Path symbols configuration.stack ∧
    (∀ other, automaton.Path other configuration.stack → other = symbols) ∧
    ∃ ids, grammar.Derivation .anywhere symbols ids (consumed.map .terminal)
  /-- Acceptance comes with the start symbol on the stack, at the end of the input, when the
  reductions read backwards are a rightmost derivation. -/
  accepts : configuration.action? table = some .accept →
    (∃ target, automaton.target? 0 (.nonterminal grammar.start) = some target ∧
      configuration.stack = [target, 0]) ∧
    configuration.rest = [] ∧
    grammar.Derivation .rightmost [.nonterminal grammar.start] configuration.reductions
      (word.map .terminal)

/-- **Whatever the driver does with a generated table is right, also if the table has
conflicts.** -/
theorem reaches_correct {definition : Definition} (defined : definition.build = .ok grammar)
    (proper : Terminal.endOfInput ∉ word)
    (reached : (Table.generate grammar (Automaton.generate grammar)).Reaches grammar word
      configuration) :
    configuration.Correct grammar (Automaton.generate grammar)
      (Table.generate grammar (Automaton.generate grammar)) word := by
  have wellFormed := Definition.wellFormed_of_build defined
  obtain ⟨symbols, consumed, explained⟩ := explained_of_reaches wellFormed proper reached
  constructor
  case reduces =>
    intro id isAction
    have unbroken := step_ne_broken wellFormed proper reached
    cases reduced : configuration.reduce? grammar grammar.table id with
    | none => exact absurd (Configuration.step_eq_broken_iff.2 ⟨id, isAction, reduced⟩) unbroken
    | some later =>
        obtain ⟨exposed, below, target, popped, isGoto, -⟩ :=
          Configuration.reduce?_eq_some_iff.1 reduced
        exact ⟨exposed, below, target, popped, isGoto⟩
  case consumes =>
    exact ⟨consumed, symbols, explained.input, explained.path,
      fun other pathToo => explained.path.unique pathToo, _, explained.derivation.anywhere⟩
  case accepts =>
    intro isAction
    obtain ⟨isStart, finished, rfl⟩ := explained.accept wellFormed proper isAction
    have path := explained.path
    have derivation := explained.derivation
    rw [isStart] at path derivation
    exact ⟨path.singleton_cases, finished, derivation.rightmost⟩

/-- The start symbol derives the letter directly and over another nonterminal, so that two
reductions compete after it. -/
def competingRules : List Request :=
  [.addRule ⟨"S", ["A"]⟩, .addRule ⟨"S", ["a"]⟩, .addRule ⟨"A", ["a"]⟩]

/-- The grammar of the competing rules. -/
def competing : Grammar where
  terminals := #["$", "a"]
  nonterminals := #["S'", "S", "A"]
  start := ⟨1⟩
  productions :=
    #[⟨⟨1⟩, [.nonterminal ⟨2⟩]⟩, ⟨⟨1⟩, [.terminal ⟨1⟩]⟩, ⟨⟨2⟩, [.terminal ⟨1⟩]⟩]
  firsts := #[0, 1, 2]
  alternatives := #[#[], #[0, 1], #[2]]

theorem reaches_correct_competing :
    (Table.generate competing (Automaton.generate competing)).conflicts ≠ [] ∧
      Configuration.Correct competing (Automaton.generate competing)
        (Table.generate competing (Automaton.generate competing)) [⟨1⟩]
        ⟨[2, 0], [], [.stored 0, .stored 2]⟩ := by
  have defined : (Definition.ofRequests competingRules).build = .ok competing := by
    decide +kernel
  have reached : (Table.generate competing (Automaton.generate competing)).Reaches competing [⟨1⟩]
      ⟨[2, 0], [], [.stored 0, .stored 2]⟩ := by
    have shifts : (Configuration.initial [⟨1⟩]).step competing competing.table =
        .next ⟨[1, 0], [], []⟩ := by
      decide +kernel
    have reduces : Configuration.step competing competing.table ⟨[1, 0], [], []⟩ =
        .next ⟨[3, 0], [], [.stored 2]⟩ := by
      decide +kernel
    have reducesAgain : Configuration.step competing competing.table ⟨[3, 0], [], [.stored 2]⟩ =
        .next ⟨[2, 0], [], [.stored 0, .stored 2]⟩ := by
      decide +kernel
    exact .head shifts (.head reduces (.single reducesAgain))
  exact ⟨by decide +kernel, reaches_correct defined (by decide) reached⟩

end ShiftReduce
