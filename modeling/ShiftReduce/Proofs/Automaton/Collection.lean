import ShiftReduce.Proofs.Automaton.Discovery

/-!
# The canonical collection

The automaton of a grammar is its canonical collection of item sets. State 0 is the closure of the
start item. Different states have different items, and their item sets are closed. The labels of
the edges of a state are the symbols that its items have next, each once, and an edge leads to the
closure of the items advanced over its label. Every state is reached from state 0
(`generate_isCanonicalCollection`).

All of it is what the discovery of the states keeps true, read off at its end.
-/

set_option autoImplicit false

namespace ShiftReduce

variable {grammar : Grammar}

/-- In a list of pairs with different keys, looking a key up finds the pair that has it. -/
theorem lookup_eq_some_iff_mem {α β : Type} [BEq α] [LawfulBEq α] {pairs : List (α × β)}
    (distinct : (pairs.map Prod.fst).Nodup) (key : α) (value : β) :
    pairs.lookup key = some value ↔ (key, value) ∈ pairs := by
  induction pairs with
  | nil => simp
  | cons first rest ih =>
      obtain ⟨firstKey, firstValue⟩ := first
      obtain ⟨isNew, restDistinct⟩ := List.nodup_cons.1 distinct
      rw [List.lookup_cons, List.mem_cons]
      by_cases here : key = firstKey
      · subst here
        have notLater : (key, value) ∉ rest := fun member =>
          isNew (List.mem_map.2 ⟨_, member, rfl⟩)
        simp [notLater, eq_comm]
      · have different : (key == firstKey) = false := beq_eq_false_iff_ne.2 here
        simp [different, here, ih restDistinct]

/-! ## Edges -/

namespace Automaton

/-- An edge with a label goes from one state to another. -/
def Edge (automaton : Automaton) (source : StateId) (label : Symbol) (target : StateId) : Prop :=
  ∃ state, automaton.states[source]? = some state ∧ (label, target) ∈ state.edges

/-- What makes an automaton the canonical collection of a grammar. -/
structure IsCanonicalCollection (grammar : Grammar) (automaton : Automaton) : Prop where
  /-- State 0 is the closure of the start item. -/
  first : automaton.states[0]?.map State.items = some (closure grammar [Item.start])
  /-- A state is numbered by its position. States keep no numbers, and `Automaton.numbered` pairs
  them with their positions, so this holds of every automaton, by representation. -/
  numbered : ∀ position : Nat, automaton.numbered[position]? =
    automaton.states[position]?.map fun state => (state, position)
  /-- No two states have the same items. -/
  distinct : ∀ (first second : StateId) (one other : State),
    automaton.states[first]? = some one → automaton.states[second]? = some other →
      (∀ item, item ∈ one.items ↔ item ∈ other.items) → first = second
  /-- No label leaves a state twice. -/
  labels_nodup : ∀ state ∈ automaton.states, (state.edges.map Prod.fst).Nodup
  /-- The labels that leave a state are the symbols that follow a dot in its items. -/
  labels : ∀ state ∈ automaton.states, ∀ label, label ∈ state.edges.map Prod.fst ↔
    ∃ item ∈ state.items, item.nextSymbol? grammar = some label
  /-- An edge leads to an existing state, whose items are the closure of the advanced items. -/
  targets : ∀ state ∈ automaton.states, ∀ label target, (label, target) ∈ state.edges →
    ∃ next, automaton.states[target]? = some next ∧
      ∀ item, item ∈ next.items ↔
        item ∈ closure grammar (state.items.items.filterMap (Item.advanceOver? grammar label))
  /-- Closing the items of a state again gives the same set, in the same order. -/
  closed : ∀ state ∈ automaton.states, closure grammar state.items.items = state.items
  /-- Every state is reached from state 0 along edges. -/
  reached : ∀ state, state < automaton.size →
    Relation.ReflTransGen (fun source target => ∃ label, automaton.Edge source label target) 0 state

/-! ## The generated automaton -/

/-- The discovery with which the automaton of a grammar is generated. -/
theorem visited_generate (grammar : Grammar) :
    (Exploration.start grammar).run.Visited (Exploration.start grammar).run.sets.size :=
  Exploration.visited_run (Exploration.visited_start grammar)

theorem consistent_generate (grammar : Grammar) : (Exploration.start grammar).run.Consistent :=
  (visited_generate grammar).consistent

/-- A state of the automaton is a set that was found, with the row of its edges. -/
theorem getElem?_generate (id : StateId) (state : State) :
    (generate grammar).states[id]? = some state ↔
      ∃ viableSet, (Exploration.start grammar).run.sets[id]? = some viableSet ∧
        state = ⟨viableSet.set, (Exploration.start grammar).run.row id⟩ := by
  have rows := (consistent_generate grammar).rows
  simp only [generate, Exploration.automaton, Exploration.row, Array.getElem?_zipWith,
    Array.getD_eq_getD_getElem?]
  cases found : (Exploration.start grammar).run.sets[id]? with
  | none => simp
  | some viableSet =>
      have inside := (Array.getElem?_eq_some_iff.1 found).1
      rw [← rows] at inside
      simp [Array.getElem?_eq_getElem inside, eq_comm]

theorem size_generate (grammar : Grammar) :
    (generate grammar).size = (Exploration.start grammar).run.sets.size := by
  have rows := (consistent_generate grammar).rows
  simp [size, generate, Exploration.automaton, rows]

theorem mem_generate {state : State} (member : state ∈ (generate grammar).states) :
    ∃ id : Nat, (generate grammar).states[id]? = some state :=
  Array.mem_iff_getElem?.1 member

theorem mem_numbered_iff {automaton : Automaton} {entry : State × StateId} :
    entry ∈ automaton.numbered ↔ automaton.states[entry.2]? = some entry.1 := by
  rw [numbered, List.mem_zipIdx_iff_getElem?, Array.getElem?_toList]

/-- State 0 is the closure of the start item. -/
theorem first_generate (grammar : Grammar) :
    ∃ state, (generate grammar).states[0]? = some state ∧
      state.items = closure grammar [Item.start] :=
  ⟨_, (getElem?_generate 0 _).2 ⟨_, (consistent_generate grammar).first, rfl⟩, rfl⟩

/-- No two states have the same items. -/
theorem distinct_generate {first second : StateId} {one other : State}
    (isFirst : (generate grammar).states[first]? = some one)
    (isSecond : (generate grammar).states[second]? = some other)
    (equal : ∀ item, item ∈ one.items ↔ item ∈ other.items) : first = second := by
  obtain ⟨firstSet, foundFirst, rfl⟩ := (getElem?_generate first one).1 isFirst
  obtain ⟨secondSet, foundSecond, rfl⟩ := (getElem?_generate second other).1 isSecond
  have different : ∀ {earlier later : Nat} {early late : ViableSet grammar}, earlier < later →
      (Exploration.start grammar).run.sets[earlier]? = some early →
      (Exploration.start grammar).run.sets[later]? = some late → early.same late = false := by
    intro earlier later early late before isEarly isLate
    obtain ⟨earlyInside, rfl⟩ := Array.getElem?_eq_some_iff.1 isEarly
    obtain ⟨lateInside, rfl⟩ := Array.getElem?_eq_some_iff.1 isLate
    exact List.pairwise_iff_getElem.1 (Exploration.start grammar).run.distinct earlier later
      earlyInside lateInside before
  have same : firstSet.same secondSet = true := (ItemSet.same_iff _ _).2 equal
  have same_symm : secondSet.same firstSet = true :=
    (ItemSet.same_iff _ _).2 fun item => (equal item).symm
  rcases Nat.lt_trichotomy first second with before | here | after
  · rw [different before foundFirst foundSecond] at same
    cases same
  · exact here
  · rw [different after foundSecond foundFirst] at same_symm
    cases same_symm

/-- A state has followed its labels, in increasing order. -/
theorem labels_generate {id : StateId} {state : State}
    (isState : (generate grammar).states[id]? = some state) :
    state.edges.map Prod.fst = state.items.labels grammar := by
  obtain ⟨viableSet, found, rfl⟩ := (getElem?_generate id state).1 isState
  have inside := (Array.getElem?_eq_some_iff.1 found).1
  have followed := (visited_generate grammar).followed id viableSet found
  rwa [if_pos inside] at followed

theorem labels_nodup_generate {id : StateId} {state : State}
    (isState : (generate grammar).states[id]? = some state) :
    (state.edges.map Prod.fst).Nodup := by
  rw [labels_generate isState]
  exact (state.items.labels_increasing).nodup

/-- An edge leads to a state with the closure of the advanced items. -/
theorem target_generate {source target : StateId} {label : Symbol} {state : State}
    (isSource : (generate grammar).states[source]? = some state)
    (isEdge : (label, target) ∈ state.edges) :
    ∃ next, (generate grammar).states[target]? = some next ∧
      ∀ item, item ∈ next.items ↔ item ∈ (state.items.successor grammar label) := by
  obtain ⟨viableSet, found, rfl⟩ := (getElem?_generate source state).1 isSource
  obtain ⟨set, next, isSet, isNext, same⟩ :=
    (consistent_generate grammar).leads source label target isEdge
  rw [found] at isSet
  cases isSet
  exact ⟨_, (getElem?_generate target _).2 ⟨next, isNext, rfl⟩, (ItemSet.same_iff _ _).1 same⟩

theorem closed_generate {id : StateId} {state : State}
    (isState : (generate grammar).states[id]? = some state) : state.items.Closed grammar := by
  obtain ⟨viableSet, found, rfl⟩ := (getElem?_generate id state).1 isState
  exact (consistent_generate grammar).closed id viableSet found

theorem viable_generate {id : StateId} {state : State}
    (isState : (generate grammar).states[id]? = some state) :
    ∀ item ∈ state.items, item ∈ grammar.viableItems := by
  obtain ⟨viableSet, -, rfl⟩ := (getElem?_generate id state).1 isState
  exact viableSet.viable

/-- Every state is reached from state 0 along edges. -/
theorem reached_generate {id : StateId} (inside : id < (generate grammar).size) :
    Relation.ReflTransGen
      (fun source target => ∃ label, (generate grammar).Edge source label target) 0 id := by
  rw [size_generate] at inside
  refine Relation.ReflTransGen.mono ?_ _ _ ((consistent_generate grammar).reached id inside)
  rintro source target ⟨label, member⟩
  obtain ⟨viableSet, -, found, -, -⟩ :=
    (consistent_generate grammar).leads source label target member
  exact ⟨label, _, (getElem?_generate source _).2 ⟨viableSet, found, rfl⟩, member⟩

/-- Looking up the transition over a label finds the edge with it. -/
theorem target?_generate_iff (source : StateId) (label : Symbol) (target : StateId) :
    (generate grammar).target? source label = some target ↔
      (generate grammar).Edge source label target := by
  unfold target? Edge
  cases isSource : (generate grammar).states[source]? with
  | none => simp
  | some state =>
      simp [State.target?, lookup_eq_some_iff_mem (labels_nodup_generate isSource)]

/-- **The generated automaton is the canonical collection of the grammar.** -/
theorem generate_isCanonicalCollection (grammar : Grammar) :
    (generate grammar).IsCanonicalCollection grammar := by
  constructor
  case first =>
    obtain ⟨state, isFirst, items⟩ := first_generate grammar
    rw [isFirst, Option.map_some, items]
  case numbered =>
    intro position
    simp [numbered, List.getElem?_zipIdx]
  case distinct =>
    intro first second one other isFirst isSecond equal
    exact distinct_generate isFirst isSecond equal
  case labels_nodup =>
    intro state member
    obtain ⟨id, isState⟩ := mem_generate member
    exact labels_nodup_generate isState
  case labels =>
    intro state member label
    obtain ⟨id, isState⟩ := mem_generate member
    rw [labels_generate isState]
    exact state.items.mem_labels_iff label
  case targets =>
    intro state member label target isEdge
    obtain ⟨id, isState⟩ := mem_generate member
    exact target_generate isState isEdge
  case closed =>
    intro state member
    obtain ⟨id, isState⟩ := mem_generate member
    exact closure_items state.items (closed_generate isState)
  case reached =>
    intro state inside
    exact reached_generate inside

end Automaton

end ShiftReduce
