import ShiftReduce.Proofs.Automaton.Acceptance
import ShiftReduce.Proofs.Table.Contents

/-!
# Acceptance in the tables

The only cell that can hold acceptance is the cell of the accepting state under the end of the
input. The finished item is the first complete item of the accepting state
(`completeItems_accepting`), and a row keeps what its last complete item writes. So acceptance stays
exactly when the state has no other complete item. Otherwise it is overwritten at once, no cell
holds it, and the first conflict of the state reports that it was discarded
(`exists_accepting_generate`).
-/

set_option autoImplicit false

namespace ShiftReduce

variable {grammar : Grammar} {accepting : StateId} {state : State}

/-! ## The finished item among the complete ones -/

/-- A complete item of the accepting production is the finished one. -/
theorem Automaton.eq_finished {id : StateId} {item : Item}
    (isState : (generate grammar).states[id]? = some state) (member : item ∈ state.items)
    (complete : item.isComplete grammar = true) (isAccept : item.production = .accept) :
    item = .finished := by
  obtain ⟨-, inside, isEnd⟩ :=
    (grammar.mem_viableItems_iff item).1 (viable_generate isState item member)
  have past : (item.right grammar).length ≤ item.dot := of_decide_eq_true complete
  have oneSymbol : (item.right grammar).length = 1 := by
    rw [Item.right, isAccept]
    rfl
  have isDot : item.dot = 1 := by omega
  cases item
  cases isAccept
  cases isDot
  cases isEnd
  rfl

/-- The finished item is the first complete item of the accepting state. -/
theorem Automaton.AcceptsIn.completeItems_accepting
    (accepts : (generate grammar).AcceptsIn grammar accepting)
    (isState : (generate grammar).states[accepting]? = some state) :
    ∃ others, state.completeItems grammar = .finished :: others := by
  obtain ⟨found, isFound, isFirst⟩ := accepts.first
  rw [isState] at isFound
  cases isFound
  obtain ⟨rest, isItems⟩ := List.head?_eq_some_iff.1 isFirst
  rw [State.completeItems, isItems, List.filter_cons, if_pos Item.isComplete_finished]
  exact ⟨_, rfl⟩

/-- The other complete items of a state are those behind the first one. -/
theorem State.mem_others_iff {first item : Item} {others : List Item}
    (isComplete : state.completeItems grammar = first :: others) :
    item ∈ others ↔ item ∈ state.items ∧ item.isComplete grammar = true ∧ item ≠ first := by
  have distinct : (first :: others).Nodup := isComplete ▸ state.items.nodup.filter _
  rw [← and_assoc, ← State.mem_completeItems, isComplete, List.mem_cons]
  constructor
  · intro member
    refine ⟨.inr member, ?_⟩
    rintro rfl
    exact (List.nodup_cons.1 distinct).1 member
  · rintro ⟨isFirst | isOther, different⟩
    · exact absurd isFirst different
    · exact isOther

/-! ## Cells and conflicts -/

namespace Table

/-- A cell that holds acceptance belongs to the accepting state and to the end of the input. -/
theorem eq_of_accept (accepts : (Automaton.generate grammar).AcceptsIn grammar accepting)
    {id : StateId} {terminal : Terminal}
    (isAction :
      (generate grammar (Automaton.generate grammar)).action? id terminal = some .accept) :
    id = accepting ∧ terminal = .endOfInput := by
  obtain ⟨state, isState, item, member, written⟩ := written_of_action? isAction
  rcases ActionRow.written?_eq_some_iff.1 written with
    ⟨-, _, -, impossible⟩ | ⟨nothing, isAccept, isEnd, -⟩ | ⟨-, -, -, impossible⟩
  · cases impossible
  · have complete := (Item.isComplete_iff grammar item).2 nothing
    rw [Automaton.eq_finished isState member complete isAccept] at member
    exact ⟨(accepts.finished_iff id state isState).1 member, isEnd⟩
  · cases impossible

/-- Acceptance stays in its cell exactly when no other item of the accepting state is complete. -/
theorem action?_accepting_iff (wellFormed : grammar.WellFormed)
    (isState : (Automaton.generate grammar).states[accepting]? = some state) {others : List Item}
    (isComplete : state.completeItems grammar = .finished :: others) :
    (generate grammar (Automaton.generate grammar)).action? accepting .endOfInput = some .accept ↔
      others = [] := by
  rw [action?_generate_endOfInput wellFormed isState, isComplete]
  constructor
  · intro isLast
    obtain ⟨last, found, accepted⟩ := Option.map_eq_some_iff.1 isLast
    have isAccept := Item.production_eq_accept_of_completion accepted
    have member : last ∈ state.completeItems grammar := isComplete ▸ List.mem_of_getLast? found
    obtain ⟨inState, complete⟩ := State.mem_completeItems.1 member
    rw [Automaton.eq_finished isState inState complete isAccept] at found
    cases others with
    | nil => rfl
    | cons other rest =>
        rw [List.getLast?_cons_cons] at found
        have again := (State.mem_others_iff isComplete).1 (List.mem_of_getLast? found)
        exact absurd rfl again.2.2
  · rintro rfl
    rfl

/-- The complete item behind the finished one overwrites acceptance. -/
theorem exists_conflict_accepting (wellFormed : grammar.WellFormed)
    (isState : (Automaton.generate grammar).states[accepting]? = some state) {other : Item}
    {rest : List Item} (isComplete : state.completeItems grammar = .finished :: other :: rest) :
    ∃ conflict ∈ (generate grammar (Automaton.generate grammar)).conflicts,
      conflict.state = accepting ∧ conflict.kind = .acceptReduce ∧
        conflict.discarded = .accept := by
  have pair : (Item.finished, other) ∈ neighbours (state.completeItems grammar) := by
    rw [isComplete]
    exact List.mem_cons_self
  exact ⟨_, (mem_conflicts_generate wellFormed).2 ⟨accepting, state, isState, _, pair, rfl⟩,
    rfl, rfl, rfl⟩

/-- What the tables tell about acceptance. -/
structure AcceptsIn (grammar : Grammar) (table : Table) (accepting : StateId) (state : State) :
    Prop where
  /-- No cell but that of the accepting state under the end of the input holds acceptance. -/
  only : ∀ id terminal, table.action? id terminal = some .accept →
    id = accepting ∧ terminal = .endOfInput
  /-- Acceptance stays there exactly when the state has no other complete item. -/
  stays_iff : table.action? accepting .endOfInput = some .accept ↔
    ∀ item ∈ state.items, item.isComplete grammar = true → item = .finished
  /-- When the state has another complete item, no cell holds acceptance. -/
  lost : (∃ item ∈ state.items, item.isComplete grammar = true ∧ item ≠ .finished) →
    ∀ id terminal, table.action? id terminal ≠ some .accept
  /-- In that case a conflict reports that acceptance was discarded. -/
  reported : (∃ item ∈ state.items, item.isComplete grammar = true ∧ item ≠ .finished) →
    ∃ conflict ∈ table.conflicts, conflict.kind = .acceptReduce ∧ conflict.discarded = .accept

/-- **There is one accepting state, entered by one edge, and acceptance stands in its row or is
reported as discarded.** -/
theorem exists_accepting_generate {definition : Definition}
    (defined : definition.build = .ok grammar) :
    ∃ accepting state, (Automaton.generate grammar).states[accepting]? = some state ∧
      (Automaton.generate grammar).AcceptsIn grammar accepting ∧
      (generate grammar (Automaton.generate grammar)).AcceptsIn grammar accepting state := by
  have wellFormed := Definition.wellFormed_of_build defined
  obtain ⟨accepting, accepts⟩ := Automaton.exists_acceptsIn_generate grammar
  obtain ⟨state, isState, -⟩ := accepts.first
  obtain ⟨others, isComplete⟩ := accepts.completeItems_accepting isState
  have stays_iff := action?_accepting_iff wellFormed isState isComplete
  refine ⟨accepting, state, isState, accepts, ?_⟩
  constructor
  case only =>
    intro id terminal isAction
    exact eq_of_accept accepts isAction
  case stays_iff =>
    rw [stays_iff, List.eq_nil_iff_forall_not_mem]
    simp only [State.mem_others_iff isComplete, not_and, not_not]
  case lost =>
    rintro ⟨item, member, complete, different⟩ id terminal isAction
    obtain ⟨rfl, rfl⟩ := eq_of_accept accepts isAction
    have isOther := (State.mem_others_iff isComplete).2 ⟨member, complete, different⟩
    rw [stays_iff.1 isAction] at isOther
    cases isOther
  case reported =>
    rintro ⟨item, member, complete, different⟩
    have isOther := (State.mem_others_iff isComplete).2 ⟨member, complete, different⟩
    obtain ⟨other, rest, rfl⟩ := List.exists_cons_of_ne_nil (List.ne_nil_of_mem isOther)
    obtain ⟨conflict, isConflict, -, kind, discarded⟩ :=
      exists_conflict_accepting wellFormed isState isComplete
    exact ⟨conflict, isConflict, kind, discarded⟩

/-- The start symbol goes on to the left, with something that may be empty: after it the accepting
state has to reduce by the empty rule, too. -/
def trailingRules : List Request :=
  [.addRule ⟨"S", ["S", "A"]⟩, .addRule ⟨"S", ["a"]⟩, .addRule ⟨"A", []⟩]

/-- The grammar of the trailing rules. -/
def trailing : Grammar where
  terminals := #["$", "a"]
  nonterminals := #["S'", "S", "A"]
  start := ⟨1⟩
  productions :=
    #[⟨⟨1⟩, [.nonterminal ⟨1⟩, .nonterminal ⟨2⟩]⟩, ⟨⟨1⟩, [.terminal ⟨1⟩]⟩, ⟨⟨2⟩, []⟩]
  firsts := #[0, 1, 2]
  alternatives := #[#[], #[0, 1], #[2]]

theorem exists_accepting_trailing :
    (Definition.ofRequests trailingRules).build = .ok trailing ∧
      (Automaton.generate trailing).target? 0 (.nonterminal trailing.start) = some 2 ∧
      (∃ accepting state, (Automaton.generate trailing).states[accepting]? = some state ∧
        (Automaton.generate trailing).AcceptsIn trailing accepting ∧
        (generate trailing (Automaton.generate trailing)).AcceptsIn trailing accepting state) ∧
      (generate trailing (Automaton.generate trailing)).conflicts =
        [⟨2, .endOfInput, .accept, .reduce (.stored 2)⟩] := by
  have defined : (Definition.ofRequests trailingRules).build = .ok trailing := by
    decide +kernel
  exact ⟨defined, by decide +kernel, exists_accepting_generate defined, by decide +kernel⟩

end Table

end ShiftReduce
