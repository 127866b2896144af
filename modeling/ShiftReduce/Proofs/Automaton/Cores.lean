import Mathlib.Data.Set.Defs
import ShiftReduce.Proofs.Automaton.Acceptance

/-!
# Items without their lookahead

The core of an item is what is left of it without its lookahead. Cores are closed and advanced like
items, over the canonical productions, and the sets of cores that are found in this way from the
core of the start item form a collection of their own (`Core.Collected`).

All lookaheads in a generated automaton are the end of the input, so its states are that collection:
a set of cores is collected exactly when it is the set of the cores of a state, and different
states, like different items of one state, have different cores (`generate_isCoreCollection`).

Closing commutes with taking cores whatever the lookaheads are (`ItemSet.cores_closure`). Only that
no two items share a core depends on them.
-/

set_option autoImplicit false

namespace ShiftReduce

variable {grammar : Grammar}

/-- A production with a dot in its right-hand side. -/
structure Core where
  /-- The production. -/
  production : ProductionId
  /-- How many symbols of its right-hand side stand before the dot. -/
  dot : Nat
deriving DecidableEq

/-- An item without its lookahead. -/
def Item.core (item : Item) : Core := ⟨item.production, item.dot⟩

/-! ## The collection of cores -/

namespace Core

/-- The accepting production with the dot in front. -/
def start : Core := ⟨.accept, 0⟩

/-- The symbol behind the dot. -/
def nextSymbol? (grammar : Grammar) (core : Core) : Option Symbol :=
  (grammar.production core.production).right[core.dot]?

/-- What closing a set of cores adds: for a nonterminal behind a dot its canonical productions, with
the dot in front. -/
inductive InClosure (grammar : Grammar) (kernel : Set Core) : Core → Prop where
  | kernel {core : Core} : core ∈ kernel → InClosure grammar kernel core
  | expected {core : Core} {id : ProductionId} :
      InClosure grammar kernel core → id ∈ grammar.canonicalIds →
        core.nextSymbol? grammar = some (.nonterminal (grammar.production id).left) →
          InClosure grammar kernel ⟨id, 0⟩

/-- The closure of a set of cores. -/
def closure (grammar : Grammar) (kernel : Set Core) : Set Core :=
  {core | InClosure grammar kernel core}

/-- The cores of a set that have a symbol next, with the dot behind it. -/
def kernel (grammar : Grammar) (cores : Set Core) (label : Symbol) : Set Core :=
  {core | ∃ earlier ∈ cores, earlier.nextSymbol? grammar = some label ∧
    core = ⟨earlier.production, earlier.dot + 1⟩}

/-- The set of cores that a symbol leads to. -/
def successor (grammar : Grammar) (cores : Set Core) (label : Symbol) : Set Core :=
  closure grammar (kernel grammar cores label)

/-- The sets of cores that are found from the accepting production with the dot in front. -/
inductive Collected (grammar : Grammar) : Set Core → Prop where
  | start : Collected grammar (closure grammar {core | core = start})
  | successor {cores : Set Core} {core : Core} {label : Symbol} :
      Collected grammar cores → core ∈ cores → core.nextSymbol? grammar = some label →
        Collected grammar (successor grammar cores label)

end Core

/-! ## Cores of sets of items -/

/-- The cores of items. -/
def coresOf (items : List Item) : Set Core := {core | ∃ item ∈ items, core = item.core}

/-- The cores of a set of items. -/
def ItemSet.cores (set : ItemSet) : Set Core := coresOf set.items

/-- **Closing and taking cores can be done in either order.** -/
theorem cores_closure (wellFormed : grammar.WellFormed) (seed : List Item) :
    (closure grammar seed).cores = Core.closure grammar (coresOf seed) := by
  ext core
  constructor
  · rintro ⟨item, member, rfl⟩
    refine closure_induction grammar seed
      (fun item => item.core ∈ Core.closure grammar (coresOf seed))
      ?_ ?_ item member
    · intro origin isSeed
      exact .kernel ⟨origin, isSeed, rfl⟩
    · intro origin isClosed found expects
      obtain ⟨nonterminal, next, id, alternative, rfl⟩ := (Item.expects_iff origin found).1 expects
      obtain ⟨isCanonical, rfl⟩ := (wellFormed.productionsOf nonterminal id).1 alternative
      exact .expected isClosed isCanonical next
  · intro isClosed
    induction isClosed with
    | kernel isSeed =>
        obtain ⟨item, member, rfl⟩ := isSeed
        exact ⟨item, mem_closure_of_seed member, rfl⟩
    | @expected earlier id _ isCanonical next ih =>
        obtain ⟨item, member, rfl⟩ := ih
        refine ⟨.initial id item.lookahead, closed_closure seed item member _ ?_, rfl⟩
        exact (Item.expects_iff _ _).2
          ⟨_, next, id, (wellFormed.productionsOf _ id).2 ⟨isCanonical, rfl⟩, rfl⟩

theorem coresOf_start : coresOf [.start] = {core | core = Core.start} := by
  ext core
  constructor
  · rintro ⟨item, member, rfl⟩
    rw [List.mem_singleton.1 member]
    rfl
  · rintro rfl
    exact ⟨.start, List.mem_cons_self, rfl⟩

theorem coresOf_kernel (set : ItemSet) (label : Symbol) :
    coresOf (set.kernel grammar label) = Core.kernel grammar set.cores label := by
  ext core
  constructor
  · rintro ⟨advanced, member, rfl⟩
    obtain ⟨item, isItem, next, rfl⟩ := (set.mem_kernel_iff label advanced).1 member
    exact ⟨item.core, ⟨item, isItem, rfl⟩, next, rfl⟩
  · rintro ⟨earlier, ⟨item, isItem, rfl⟩, next, rfl⟩
    exact ⟨_, (set.mem_kernel_iff label _).2 ⟨item, isItem, next, rfl⟩, rfl⟩

/-- **A label leads to the same cores from a set of items and from the cores of the set.** -/
theorem cores_successor (wellFormed : grammar.WellFormed) (set : ItemSet) (label : Symbol) :
    (set.successor grammar label).cores = Core.successor grammar set.cores label := by
  rw [ItemSet.successor, cores_closure wellFormed, coresOf_kernel, Core.successor]

theorem cores_eq_of_same {first second : ItemSet}
    (same : ∀ item, item ∈ first.items ↔ item ∈ second.items) : first.cores = second.cores := by
  ext core
  constructor
  · rintro ⟨item, member, rfl⟩
    exact ⟨item, (same item).1 member, rfl⟩
  · rintro ⟨item, member, rfl⟩
    exact ⟨item, (same item).2 member, rfl⟩

namespace Automaton

variable {id source target : StateId} {state next : State} {label : Symbol}

theorem lookahead_of_mem {item : Item} (isState : (generate grammar).states[id]? = some state)
    (member : item ∈ state.items) : item.lookahead = .endOfInput :=
  ((grammar.mem_viableItems_iff item).1 (viable_generate isState item member)).2.2

/-- Items of states are told by their cores. -/
theorem eq_of_core {item other : Item} {otherId : StateId} {otherState : State}
    (isState : (generate grammar).states[id]? = some state) (member : item ∈ state.items)
    (isOther : (generate grammar).states[otherId]? = some otherState)
    (otherMember : other ∈ otherState.items) (same : item.core = other.core) : item = other := by
  have sameLookahead : item.lookahead = other.lookahead := by
    rw [lookahead_of_mem isState member, lookahead_of_mem isOther otherMember]
  cases item
  cases other
  cases same
  cases sameLookahead
  rfl

/-- States are told by their cores. -/
theorem eq_of_cores {otherId : StateId} {other : State}
    (isState : (generate grammar).states[id]? = some state)
    (isOther : (generate grammar).states[otherId]? = some other)
    (same : state.items.cores = other.items.cores) : id = otherId := by
  refine distinct_generate isState isOther fun item => ⟨fun member => ?_, fun member => ?_⟩
  · have isCore : item.core ∈ state.items.cores := ⟨item, member, rfl⟩
    rw [same] at isCore
    obtain ⟨twin, isTwin, sameCore⟩ := isCore
    rwa [eq_of_core isState member isOther isTwin sameCore]
  · have isCore : item.core ∈ other.items.cores := ⟨item, member, rfl⟩
    rw [← same] at isCore
    obtain ⟨twin, isTwin, sameCore⟩ := isCore
    rwa [eq_of_core isOther member isState isTwin sameCore]

/-- An edge leads to the cores that its label leads to. -/
theorem cores_of_edge (wellFormed : grammar.WellFormed)
    (isEdge : (generate grammar).Edge source label target)
    (isSource : (generate grammar).states[source]? = some state)
    (isTarget : (generate grammar).states[target]? = some next) :
    next.items.cores = Core.successor grammar state.items.cores label := by
  obtain ⟨found, isFound, isLabelled⟩ := isEdge
  obtain ⟨reached, isReached, items⟩ := target_generate isFound isLabelled
  rw [isSource] at isFound
  cases isFound
  rw [isTarget] at isReached
  cases isReached
  rw [← cores_successor wellFormed]
  exact cores_eq_of_same items

/-- The cores of a state are collected. -/
theorem collected_of_state (wellFormed : grammar.WellFormed)
    (isState : (generate grammar).states[id]? = some state) :
    Core.Collected grammar state.items.cores := by
  obtain ⟨viableSet, found, rfl⟩ := (getElem?_generate id state).1 isState
  have everywhere : (Exploration.start grammar).run.Holds fun viableSet =>
      Core.Collected grammar viableSet.set.cores := by
    apply Exploration.forall_run
    · have isStart := @Core.Collected.start grammar
      rwa [← coresOf_start, ← cores_closure wellFormed] at isStart
    · intro viableSet collected label isLabel
      obtain ⟨item, member, next⟩ := (viableSet.set.mem_labels_iff label).1 isLabel
      have isCore : item.core ∈ viableSet.set.cores := ⟨item, member, rfl⟩
      have further := collected.successor isCore next
      rwa [← cores_successor wellFormed] at further
  exact everywhere id viableSet found

/-- What is collected is found in some state. -/
theorem exists_state_of_collected (wellFormed : grammar.WellFormed) {cores : Set Core}
    (collected : Core.Collected grammar cores) :
    ∃ (id : StateId) (state : State), (generate grammar).states[id]? = some state ∧
      state.items.cores = cores := by
  induction collected with
  | start =>
      obtain ⟨first, isFirst, items⟩ := first_generate grammar
      refine ⟨0, first, isFirst, ?_⟩
      rw [items, cores_closure wellFormed, coresOf_start]
  | successor _ isCore next ih =>
      obtain ⟨source, state, isSource, rfl⟩ := ih
      obtain ⟨item, member, rfl⟩ := isCore
      obtain ⟨target, leads⟩ := (exists_target?_generate_iff isSource _).2 ⟨item, member, next⟩
      have isEdge := (target?_generate_iff _ _ _).1 leads
      have ⟨_, isFound, isLabelled⟩ := isEdge
      obtain ⟨reached, isReached, -⟩ := target_generate isFound isLabelled
      exact ⟨target, reached, isReached, cores_of_edge wellFormed isEdge isSource isReached⟩

/-- The states of an automaton hold well-formed items that look ahead at the end of the input only,
and are the collection of cores. -/
structure IsCoreCollection (grammar : Grammar) (automaton : Automaton) : Prop where
  lookahead : ∀ state ∈ automaton.states, ∀ item ∈ state.items, item.lookahead = .endOfInput
  dot : ∀ state ∈ automaton.states, ∀ item ∈ state.items, item.dot ≤ (item.right grammar).length
  /-- A production is the accepting one, or a production of the grammar that is the first of its
  kind. -/
  production : ∀ state ∈ automaton.states, ∀ item ∈ state.items, item.production = .accept ∨
    ∃ index < grammar.productions.size, item.production = .stored index ∧
      grammar.canonical (.stored index) = .stored index
  /-- The accepting production has its dot in front in state 0 only. -/
  start : ∀ (id : StateId) (state : State),
    automaton.states[id]? = some state → ∀ item ∈ state.items,
    item.production = .accept → item.dot = 0 → id = 0
  /-- Different items of a state differ without their lookaheads. -/
  items : ∀ state ∈ automaton.states, ∀ item ∈ state.items, ∀ other ∈ state.items,
    item.core = other.core → item = other
  /-- The sets that are collected are those of the cores of the states. -/
  collected_iff : ∀ cores, Core.Collected grammar cores ↔
    ∃ (id : StateId) (state : State), automaton.states[id]? = some state ∧
      state.items.cores = cores
  /-- Different states have different cores. -/
  states : ∀ (first second : StateId) (one other : State), automaton.states[first]? = some one →
    automaton.states[second]? = some other → one.items.cores = other.items.cores → first = second
  /-- An edge leads to the cores that its label leads to. -/
  edges : ∀ source label target, automaton.Edge source label target →
    ∀ state next : State, automaton.states[source]? = some state →
      automaton.states[target]? = some next →
      next.items.cores = Core.successor grammar state.items.cores label

/-- **The states of a generated automaton are the collection of cores, with the end of the input as
lookahead.** -/
theorem generate_isCoreCollection {definition : Definition}
    (defined : definition.build = .ok grammar) :
    (generate grammar).IsCoreCollection grammar := by
  have wellFormed := Definition.wellFormed_of_build defined
  constructor
  case lookahead =>
    intro state isState item member
    obtain ⟨id, found⟩ := mem_generate isState
    exact lookahead_of_mem found member
  case dot =>
    intro state isState item member
    obtain ⟨id, found⟩ := mem_generate isState
    exact ((grammar.mem_viableItems_iff item).1 (viable_generate found item member)).2.1
  case production =>
    intro state isState item member
    obtain ⟨id, found⟩ := mem_generate isState
    refine (known_of_mem wellFormed found member).1.imp_right fun isCanonical => ?_
    obtain ⟨stored, fixed⟩ := Grammar.mem_canonicalIds.1 isCanonical
    obtain ⟨index, isStored, inRange⟩ := Grammar.mem_productionIds.1 stored
    rw [isStored] at fixed
    exact ⟨index, inRange, isStored, fixed⟩
  case start =>
    intro id state isState item member accepting front
    refine eq_zero_of_start isState ?_
    have isStart : item = .start := by
      have isEnd := lookahead_of_mem isState member
      cases item
      cases accepting
      cases front
      cases isEnd
      rfl
    rwa [← isStart]
  case items =>
    intro state isState item member other otherMember same
    obtain ⟨id, found⟩ := mem_generate isState
    exact eq_of_core found member found otherMember same
  case collected_iff =>
    intro cores
    constructor
    · exact exists_state_of_collected wellFormed
    · rintro ⟨id, state, isState, rfl⟩
      exact collected_of_state wellFormed isState
  case states =>
    intro first second one other isFirst isSecond same
    exact eq_of_cores isFirst isSecond same
  case edges =>
    intro source label target isEdge state next isSource isTarget
    exact cores_of_edge wellFormed isEdge isSource isTarget

/-- Rules of which the last one is given twice. -/
def doubledRules : List Request :=
  [.addRule ⟨"S", ["A", "A"]⟩, .addRule ⟨"A", ["a"]⟩, .addRule ⟨"A", ["a"]⟩]

/-- The grammar of the doubled rules. -/
def doubled : Grammar where
  terminals := #["$", "a"]
  nonterminals := #["S'", "S", "A"]
  start := ⟨1⟩
  productions :=
    #[⟨⟨1⟩, [.nonterminal ⟨2⟩, .nonterminal ⟨2⟩]⟩, ⟨⟨2⟩, [.terminal ⟨1⟩]⟩,
      ⟨⟨2⟩, [.terminal ⟨1⟩]⟩]
  firsts := #[0, 1, 1]
  alternatives := #[#[], #[0], #[1]]

theorem generate_isCoreCollection_doubled :
    (Definition.ofRequests doubledRules).build = .ok doubled ∧
      (generate doubled).IsCoreCollection doubled ∧
      (generate doubled).states.toList.map (fun state => state.items.items.map Item.core) =
        [[⟨.accept, 0⟩, ⟨.stored 0, 0⟩, ⟨.stored 1, 0⟩], [⟨.stored 1, 1⟩], [⟨.accept, 1⟩],
          [⟨.stored 0, 1⟩, ⟨.stored 1, 0⟩], [⟨.stored 0, 2⟩]] := by
  have defined : (Definition.ofRequests doubledRules).build = .ok doubled := by
    decide +kernel
  exact ⟨defined, generate_isCoreCollection defined, by decide +kernel⟩

end Automaton

end ShiftReduce
