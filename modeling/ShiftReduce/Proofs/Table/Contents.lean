import Mathlib.Algebra.GroupWithZero.Nat
import ShiftReduce.Proofs.Table.Rows

/-!
# What the generated tables hold

Every cell of the tables and every conflict is told by the automaton. Under a terminal of the input
the action table has the shift along the edge, whether there are conflicts or not. Under the end of
the input it has the action of the last complete item of the state. The goto table has the edges
over nonterminals (`exact_generate`).

The conflicts are the neighbours among the complete items of each state, one state after the other.
So a state with complete items has one conflict less than it has of them, no conflict involves a
shift, and acceptance is never what stays (`conflictReport_generate`).
-/

set_option autoImplicit false

namespace ShiftReduce

variable {grammar : Grammar}

/-- The start symbol derives itself, so that after it acceptance competes with a reduction. The rule
for this is given twice. -/
def loopingRules : List Request :=
  [.addRule ⟨"S", ["S"]⟩, .addRule ⟨"S", ["S"]⟩, .addRule ⟨"S", ["a"]⟩]

/-- The grammar of the looping rules. -/
def looping : Grammar where
  terminals := #["$", "a"]
  nonterminals := #["S'", "S"]
  start := ⟨1⟩
  productions :=
    #[⟨⟨1⟩, [.nonterminal ⟨1⟩]⟩, ⟨⟨1⟩, [.nonterminal ⟨1⟩]⟩, ⟨⟨1⟩, [.terminal ⟨1⟩]⟩]
  firsts := #[0, 0, 2]
  alternatives := #[#[], #[0, 2]]

namespace Table

variable {id : StateId} {state : State}

/-! ## Cells -/

theorem written_generate (wellFormed : grammar.WellFormed)
    (isState : (Automaton.generate grammar).states[id]? = some state) :
    ∃ row, (generate grammar (Automaton.generate grammar)).actionsOf id = row.cells ∧
      ActionRow.Written grammar state id state.items.items row :=
  ⟨_, actionsOf_generate isState, ActionRow.written_ofState wellFormed isState⟩

/-- **Under a terminal of the input stands the shift along the edge over it.** -/
theorem action?_generate (wellFormed : grammar.WellFormed)
    (isState : (Automaton.generate grammar).states[id]? = some state) {terminal : Terminal}
    (proper : terminal ≠ .endOfInput) :
    (generate grammar (Automaton.generate grammar)).action? id terminal =
      ((Automaton.generate grammar).target? id (.terminal terminal)).map .shift := by
  obtain ⟨row, isRow, written⟩ := written_generate wellFormed isState
  have expected := Automaton.exists_target?_generate_iff isState (.terminal terminal)
  have isTarget : (Automaton.generate grammar).target? id (.terminal terminal) =
      state.target? (.terminal terminal) := by
    rw [Automaton.target?, isState]
  rw [isTarget] at expected ⊢
  ext action
  rw [action?, isRow, written.shifts terminal proper action, Option.map_eq_some_iff]
  constructor
  · rintro ⟨-, target, leads, rfl⟩
    exact ⟨target, leads, rfl⟩
  · rintro ⟨target, leads, rfl⟩
    exact ⟨expected.1 ⟨target, leads⟩, target, leads, rfl⟩

/-- **Under the end of the input stands the action of the last complete item.** -/
theorem action?_generate_endOfInput (wellFormed : grammar.WellFormed)
    (isState : (Automaton.generate grammar).states[id]? = some state) :
    (generate grammar (Automaton.generate grammar)).action? id .endOfInput =
      (state.completeItems grammar).getLast?.map Item.completion := by
  obtain ⟨row, isRow, written⟩ := written_generate wellFormed isState
  rw [action?, isRow, written.last, State.completeItems]

/-- The augmented start symbol labels no edge. -/
theorem target?_augmented (wellFormed : grammar.WellFormed) (id : StateId) :
    (Automaton.generate grammar).target? id (.nonterminal .augmented) = none := by
  cases leads : (Automaton.generate grammar).target? id (.nonterminal .augmented) with
  | none => rfl
  | some target =>
      obtain ⟨state, isState, -⟩ := (Automaton.target?_generate_iff _ _ _).1 leads
      obtain ⟨item, member, next⟩ :=
        (Automaton.exists_target?_generate_iff isState _).1 ⟨target, leads⟩
      have mentionable := Automaton.mentionable_of_next wellFormed isState member next
      simp [Grammar.Mentionable, Grammar.properNonterminals] at mentionable

theorem goto?_generate {nonterminal : Nonterminal} (known : nonterminal ∈ grammar.nonterminalList) :
    (generate grammar (Automaton.generate grammar)).goto? id nonterminal =
      (Automaton.generate grammar).target? id (.nonterminal nonterminal) := by
  ext target
  rw [goto?_generate_iff, and_iff_right known]

/-- A reduction is by the canonical production of a complete item. -/
theorem reduce_generate (wellFormed : grammar.WellFormed) {terminal : Terminal}
    {production : ProductionId}
    (isAction : (generate grammar (Automaton.generate grammar)).action? id terminal =
      some (.reduce production)) : production ∈ grammar.canonicalIds := by
  obtain ⟨state, isState, item, member, written⟩ := written_of_action? isAction
  rcases ActionRow.written?_eq_some_iff.1 written with
    ⟨-, _, -, impossible⟩ | ⟨-, -, -, impossible⟩ | ⟨-, reducing, -, same⟩
  · cases impossible
  · cases impossible
  · have isCanonical :=
      (Automaton.production_of_mem wellFormed isState member).resolve_left reducing
    rw [(Grammar.mem_canonicalIds.1 isCanonical).2] at same
    cases same
    exact isCanonical

/-- What the tables of an automaton hold, cell by cell. -/
structure Exact (grammar : Grammar) (automaton : Automaton) (table : Table) : Prop where
  /-- Under a terminal of the input stands the shift along the edge over it, if there is one. -/
  shifts : ∀ id state, automaton.states[id]? = some state → ∀ terminal, terminal ≠ .endOfInput →
    table.action? id terminal = (automaton.target? id (.terminal terminal)).map .shift
  /-- Under the end of the input stands the action of the last complete item, if there is one. -/
  finishes : ∀ id state, automaton.states[id]? = some state →
    table.action? id .endOfInput = (state.completeItems grammar).getLast?.map Item.completion
  /-- Complete items accept, or have productions that are canonical themselves. -/
  canonical : ∀ state ∈ automaton.states, ∀ item ∈ state.completeItems grammar,
    item.production = .accept ∨ item.production ∈ grammar.canonicalIds
  /-- The gotos are the edges over nonterminals. -/
  gotos : ∀ id state, automaton.states[id]? = some state →
    ∀ nonterminal ∈ grammar.nonterminalList,
      table.goto? id nonterminal = automaton.target? id (.nonterminal nonterminal)
  /-- All reductions are by stored productions that are canonical. -/
  reduces : ∀ id terminal production, table.action? id terminal = some (.reduce production) →
    production ≠ .accept ∧ production ∈ grammar.productionIds ∧
      grammar.canonical production = production
  /-- The augmented start symbol has no goto. -/
  augmented : ∀ id, table.goto? id .augmented = none

/-- **The generated tables hold exactly what the automaton tells, whether they have conflicts or
not.** -/
theorem exact_generate {definition : Definition} (defined : definition.build = .ok grammar) :
    (generate grammar (Automaton.generate grammar)).Exact grammar (Automaton.generate grammar) := by
  have wellFormed := Definition.wellFormed_of_build defined
  constructor
  case shifts =>
    intro id state isState terminal proper
    exact action?_generate wellFormed isState proper
  case finishes =>
    intro id state isState
    exact action?_generate_endOfInput wellFormed isState
  case canonical =>
    intro state isState item isComplete
    obtain ⟨id, isState⟩ := Automaton.mem_generate isState
    exact Automaton.production_of_mem wellFormed isState (State.mem_completeItems.1 isComplete).1
  case gotos =>
    intro id state _ nonterminal known
    exact goto?_generate known
  case reduces =>
    intro id terminal production isAction
    obtain ⟨stored, fixed⟩ := Grammar.mem_canonicalIds.1 (reduce_generate wellFormed isAction)
    refine ⟨?_, stored, fixed⟩
    rintro rfl
    exact Grammar.accept_notMem_productionIds stored
  case augmented =>
    intro id
    cases isGoto : (generate grammar (Automaton.generate grammar)).goto? id .augmented with
    | none => rfl
    | some target =>
        obtain ⟨-, leads⟩ := (goto?_generate_iff _ _).1 isGoto
        rw [target?_augmented wellFormed] at leads
        cases leads

theorem exact_looping :
    (Definition.ofRequests loopingRules).build = .ok looping ∧
      (generate looping (Automaton.generate looping)).Exact looping (Automaton.generate looping) ∧
      (generate looping (Automaton.generate looping)).action? 2 .endOfInput =
        some (.reduce (.stored 0)) := by
  have defined : (Definition.ofRequests loopingRules).build = .ok looping := by
    decide +kernel
  exact ⟨defined, exact_generate defined, by decide +kernel⟩

/-! ## Conflicts -/

/-- **The conflicts are the neighbours among the complete items of each state.** -/
theorem conflicts_generate (wellFormed : grammar.WellFormed) :
    (generate grammar (Automaton.generate grammar)).conflicts =
      (Automaton.generate grammar).numbered.flatMap fun (state, id) =>
        (neighbours (state.completeItems grammar)).map (Conflict.between id) := by
  rw [generate, List.flatMap_map]
  refine List.flatMap_congr fun entry isNumbered => ?_
  exact (ActionRow.written_ofState wellFormed (Automaton.mem_numbered_iff.1 isNumbered)).conflicts

theorem mem_conflicts_generate (wellFormed : grammar.WellFormed) {conflict : Conflict} :
    conflict ∈ (generate grammar (Automaton.generate grammar)).conflicts ↔
      ∃ id state, (Automaton.generate grammar).states[id]? = some state ∧
        ∃ pair ∈ neighbours (state.completeItems grammar), Conflict.between id pair = conflict := by
  rw [conflicts_generate wellFormed, List.mem_flatMap]
  constructor
  · rintro ⟨⟨state, id⟩, isNumbered, member⟩
    exact ⟨id, state, Automaton.mem_numbered_iff.1 isNumbered, List.mem_map.1 member⟩
  · rintro ⟨id, state, isState, isConflict⟩
    exact ⟨(state, id), Automaton.mem_numbered_iff.2 isState, List.mem_map.2 isConflict⟩

/-- A state has one conflict less than it has complete items. -/
theorem length_conflicts_generate (wellFormed : grammar.WellFormed) :
    (generate grammar (Automaton.generate grammar)).conflicts.length =
      ((Automaton.generate grammar).states.toList.map fun state =>
        (state.completeItems grammar).length - 1).sum := by
  rw [conflicts_generate wellFormed, List.length_flatMap]
  have counted : (Automaton.generate grammar).numbered.map
      (fun entry => ((neighbours (entry.1.completeItems grammar)).map
        (Conflict.between entry.2)).length) =
      ((Automaton.generate grammar).numbered.map Prod.fst).map fun state =>
        (state.completeItems grammar).length - 1 := by
    rw [List.map_map]
    refine List.map_congr_left fun entry _ => ?_
    rw [List.length_map, length_neighbours]
    rfl
  rw [counted, Automaton.numbered, List.zipIdx_map_fst]

/-- The item that is first among all items of its state is not the later one in a conflict. -/
theorem production_ne_accept_of_neighbours
    (isState : (Automaton.generate grammar).states[id]? = some state) {pair : Item × Item}
    (member : pair ∈ neighbours (state.completeItems grammar)) : pair.2.production ≠ .accept := by
  intro accepting
  have isComplete : pair.2 ∈ state.completeItems grammar :=
    List.mem_of_mem_tail (List.of_mem_zip member).2
  obtain ⟨inState, complete⟩ := State.mem_completeItems.1 isComplete
  obtain ⟨rest, isItems⟩ :=
    List.head?_eq_some_iff.1 (Automaton.head?_of_accept isState inState accepting)
  have isFirst : (state.completeItems grammar).head? = some pair.2 := by
    rw [State.completeItems, isItems, List.filter_cons, if_pos complete, List.head?_cons]
  exact head?_ne_of_neighbours (state.items.nodup.filter _) member isFirst

/-- What the conflicts of a table tell about the complete items of the states. -/
structure ConflictReport (grammar : Grammar) (automaton : Automaton) (table : Table) : Prop where
  /-- State by state, each complete item but the first is in conflict with the one before it. -/
  report : table.conflicts = automaton.numbered.flatMap fun (state, id) =>
    (neighbours (state.completeItems grammar)).map fun (earlier, later) =>
      ⟨id, .endOfInput, earlier.completion, later.completion⟩
  /-- There is one conflict less than there are complete items, for each state that has any. -/
  count : table.conflicts.length =
    (automaton.states.toList.map fun state => (state.completeItems grammar).length - 1).sum
  /-- A state is free of conflicts exactly when it has at most one complete item. -/
  free_iff : ∀ id state, automaton.states[id]? = some state →
    ((∀ conflict ∈ table.conflicts, conflict.state ≠ id) ↔
      (state.completeItems grammar).length ≤ 1)
  /-- No conflict involves a shift. -/
  kinds : ∀ conflict ∈ table.conflicts, conflict.kind ≠ .shiftReduce
  /-- Acceptance is never what stays. -/
  kept : ∀ conflict ∈ table.conflicts, conflict.kept ≠ .accept

/-- A conflict is between two complete items of one state. -/
theorem free_generate_iff (wellFormed : grammar.WellFormed)
    (isState : (Automaton.generate grammar).states[id]? = some state) :
    (∀ conflict ∈ (generate grammar (Automaton.generate grammar)).conflicts,
      conflict.state ≠ id) ↔ (state.completeItems grammar).length ≤ 1 := by
  have counted := length_neighbours (state.completeItems grammar)
  constructor
  · intro free
    have nothing : neighbours (state.completeItems grammar) = [] := by
      refine List.eq_nil_iff_forall_not_mem.2 fun pair member => ?_
      exact free _
        ((mem_conflicts_generate wellFormed).2 ⟨id, state, isState, pair, member, rfl⟩) rfl
    rw [nothing, List.length_nil] at counted
    omega
  · intro few conflict member here
    obtain ⟨other, found, isFound, pair, isPair, rfl⟩ :=
      (mem_conflicts_generate wellFormed).1 member
    have same : other = id := here
    subst same
    rw [isState] at isFound
    cases isFound
    have some_pair := List.length_pos_of_mem isPair
    omega

/-- **The conflicts of a generated table are told by the complete items of the states.** -/
theorem conflictReport_generate {definition : Definition}
    (defined : definition.build = .ok grammar) :
    (generate grammar (Automaton.generate grammar)).ConflictReport grammar
      (Automaton.generate grammar) := by
  have wellFormed := Definition.wellFormed_of_build defined
  constructor
  case report => exact conflicts_generate wellFormed
  case count => exact length_conflicts_generate wellFormed
  case free_iff =>
    intro id state isState
    exact free_generate_iff wellFormed isState
  case kinds =>
    intro conflict member
    obtain ⟨id, state, isState, pair, isPair, rfl⟩ := (mem_conflicts_generate wellFormed).1 member
    exact Conflict.kind_between_ne id pair
  case kept =>
    intro conflict member accepts
    obtain ⟨id, state, isState, pair, isPair, rfl⟩ := (mem_conflicts_generate wellFormed).1 member
    exact production_ne_accept_of_neighbours isState isPair
      (Item.production_eq_accept_of_completion accepts)

theorem conflictReport_looping :
    (Definition.ofRequests loopingRules).build = .ok looping ∧
      (generate looping (Automaton.generate looping)).ConflictReport looping
        (Automaton.generate looping) ∧
      (generate looping (Automaton.generate looping)).conflicts =
        [⟨2, .endOfInput, .accept, .reduce (.stored 0)⟩] := by
  have defined : (Definition.ofRequests loopingRules).build = .ok looping := by
    decide +kernel
  exact ⟨defined, conflictReport_generate defined, by decide +kernel⟩

end Table

end ShiftReduce
