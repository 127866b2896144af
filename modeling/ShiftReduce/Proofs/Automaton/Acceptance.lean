import ShiftReduce.Proofs.Automaton.Members

/-!
# The accepting state

The accepting production is expected by no item, so along an edge its item can only advance
(`exists_of_edge_accept`). It stands with its dot in front in state 0 and nowhere else
(`eq_zero_of_start`), which is why no edge enters state 0. With its dot behind the start symbol it
stands in exactly one state, the accepting one. The only edge into that state comes from state 0
over the start symbol (`exists_acceptsIn_generate`).

The start symbol may be used by other rules, and even derive itself: then it leads to other states
from elsewhere, but never back to the accepting one.
-/

set_option autoImplicit false

namespace ShiftReduce

variable {grammar : Grammar}

/-! ## The items of the accepting production -/

namespace Item

/-- The item of the accepting production with its dot behind the start symbol. -/
def finished : Item := ⟨.accept, 1, .endOfInput⟩

theorem nextSymbol?_start : start.nextSymbol? grammar = some (.nonterminal grammar.start) := rfl

theorem isComplete_finished : finished.isComplete grammar = true := rfl

end Item

namespace Automaton

variable {id source target : StateId} {label : Symbol} {state : State} {item : Item}

/-- Along an edge the item of the accepting production advances over the label. -/
theorem exists_of_edge_accept (isEdge : (generate grammar).Edge source label target)
    (isTarget : (generate grammar).states[target]? = some state) (member : item ∈ state.items)
    (accepting : item.production = .accept) :
    ∃ before earlier, (generate grammar).states[source]? = some before ∧ earlier ∈ before.items ∧
      earlier.nextSymbol? grammar = some label ∧
        item = { earlier with dot := earlier.dot + 1 } := by
  obtain ⟨before, isSource, isLabelled⟩ := isEdge
  obtain ⟨next, isNext, items⟩ := target_generate isSource isLabelled
  rw [isTarget] at isNext
  cases isNext
  have inKernel := mem_seed_of_accept ((items item).1 member) accepting
  obtain ⟨earlier, isEarlier, expected, advanced⟩ :=
    (before.items.mem_kernel_iff label item).1 inKernel
  exact ⟨before, earlier, isSource, isEarlier, expected, advanced⟩

/-- An edge does not lead to a state with the start item. -/
theorem start_notMem_of_edge (isEdge : (generate grammar).Edge source label target)
    (isTarget : (generate grammar).states[target]? = some state) : Item.start ∉ state.items := by
  intro member
  obtain ⟨_, earlier, -, -, -, advanced⟩ := exists_of_edge_accept isEdge isTarget member rfl
  exact Nat.succ_ne_zero earlier.dot (congrArg Item.dot advanced).symm

/-- State 0 has the start item, and no other item of the accepting production. -/
theorem eq_start_iff_of_first (isFirst : (generate grammar).states[0]? = some state)
    (accepting : item.production = .accept) : item ∈ state.items ↔ item = .start := by
  obtain ⟨first, isState, items⟩ := first_generate grammar
  rw [isFirst] at isState
  cases isState
  rw [items]
  constructor
  · intro member
    exact List.mem_singleton.1 (mem_seed_of_accept member accepting)
  · rintro rfl
    exact mem_closure_of_seed List.mem_cons_self

/-- **No edge enters state 0.** -/
theorem not_edge_zero : ¬(generate grammar).Edge source label 0 := by
  intro isEdge
  obtain ⟨first, isFirst, -⟩ := first_generate grammar
  exact start_notMem_of_edge isEdge isFirst ((eq_start_iff_of_first isFirst rfl).2 rfl)

/-- A state other than state 0 is entered by an edge. -/
theorem exists_edge_of_ne_zero (isState : (generate grammar).states[id]? = some state)
    (different : id ≠ 0) : ∃ source label, (generate grammar).Edge source label id := by
  have steps := reached_generate (Array.getElem?_eq_some_iff.1 isState).1
  cases steps with
  | refl => exact absurd rfl different
  | tail _ last =>
      obtain ⟨label, isEdge⟩ := last
      exact ⟨_, label, isEdge⟩

/-- Only state 0 has the start item. -/
theorem eq_zero_of_start (isState : (generate grammar).states[id]? = some state)
    (member : Item.start ∈ state.items) : id = 0 := by
  refine Decidable.byContradiction fun different => ?_
  obtain ⟨source, label, isEdge⟩ := exists_edge_of_ne_zero isState different
  exact start_notMem_of_edge isEdge isState member

/-! ## The accepting state -/

/-- An edge into a state with the finished item comes from state 0 over the start symbol. -/
theorem edge_of_finished (isEdge : (generate grammar).Edge source label id)
    (isState : (generate grammar).states[id]? = some state) (member : Item.finished ∈ state.items) :
    source = 0 ∧ label = .nonterminal grammar.start := by
  obtain ⟨before, earlier, isSource, isEarlier, expected, advanced⟩ :=
    exists_of_edge_accept isEdge isState member rfl
  obtain rfl : earlier = .start := by
    cases earlier
    cases advanced
    rfl
  rw [Item.nextSymbol?_start] at expected
  exact ⟨eq_zero_of_start isSource isEarlier, (Option.some.inj expected).symm⟩

theorem finished_notMem_of_first (isFirst : (generate grammar).states[0]? = some state) :
    Item.finished ∉ state.items := by
  intro member
  cases (eq_start_iff_of_first isFirst rfl).1 member

/-- The state that the start symbol leads to from state 0 has the finished item. -/
theorem finished_mem_of_target? {accepting : StateId}
    (leads : (generate grammar).target? 0 (.nonterminal grammar.start) = some accepting) :
    ∃ state, (generate grammar).states[accepting]? = some state ∧ Item.finished ∈ state.items := by
  obtain ⟨first, isFirst, isLabelled⟩ := (target?_generate_iff _ _ _).1 leads
  obtain ⟨state, isState, items⟩ := target_generate isFirst isLabelled
  refine ⟨state, isState, (items _).2 (mem_closure_of_seed ?_)⟩
  exact (first.items.mem_kernel_iff _ _).2
    ⟨.start, (eq_start_iff_of_first isFirst rfl).2 rfl, Item.nextSymbol?_start, rfl⟩

/-- Where an automaton accepts. -/
structure AcceptsIn (grammar : Grammar) (automaton : Automaton) (accepting : StateId) : Prop where
  /-- The accepting state has the finished item, and no other state has it. -/
  finished_iff : ∀ id state, automaton.states[id]? = some state →
    (Item.finished ∈ state.items ↔ id = accepting)
  /-- In the accepting state the finished item comes first. -/
  first : ∃ state, automaton.states[accepting]? = some state ∧
    state.items.items.head? = some .finished
  /-- The start symbol leads to the accepting state from state 0. -/
  leads : automaton.target? 0 (.nonterminal grammar.start) = some accepting
  /-- No other edge enters the accepting state. -/
  entered : ∀ source label, automaton.Edge source label accepting →
    source = 0 ∧ label = .nonterminal grammar.start
  /-- No edge enters state 0. -/
  start : ∀ source label, ¬automaton.Edge source label 0

/-- **The finished item makes exactly one accepting state, with one edge into it.** -/
theorem exists_acceptsIn_generate (grammar : Grammar) :
    ∃ accepting, (generate grammar).AcceptsIn grammar accepting := by
  obtain ⟨first, isFirst, -⟩ := first_generate grammar
  obtain ⟨accepting, leads⟩ := (exists_target?_generate_iff isFirst (.nonterminal grammar.start)).2
    ⟨.start, (eq_start_iff_of_first isFirst rfl).2 rfl, Item.nextSymbol?_start⟩
  obtain ⟨final, isFinal, member⟩ := finished_mem_of_target? leads
  refine ⟨accepting, ?_⟩
  constructor
  case finished_iff =>
    intro id state isState
    constructor
    · intro isMember
      have different : id ≠ 0 := by
        rintro rfl
        exact finished_notMem_of_first isState isMember
      obtain ⟨source, label, isEdge⟩ := exists_edge_of_ne_zero isState different
      obtain ⟨rfl, rfl⟩ := edge_of_finished isEdge isState isMember
      rw [(target?_generate_iff _ _ _).2 isEdge] at leads
      exact Option.some.inj leads
    · rintro rfl
      rw [isFinal] at isState
      cases isState
      exact member
  case first => exact ⟨final, isFinal, head?_of_accept isFinal member rfl⟩
  case leads => exact leads
  case entered =>
    intro source label isEdge
    exact edge_of_finished isEdge isFinal member
  case start =>
    intro source label
    exact not_edge_zero

end Automaton

end ShiftReduce
