import ShiftReduce.Proofs.Automaton.Members
import ShiftReduce.Proofs.Automaton.Path
import ShiftReduce.Proofs.Item.Walk

/-!
# Edges read backwards

The items of a state whose dot stands behind some symbol tell where the state is entered from: they
are the items of the source that have the label next, advanced over it (`ReadsBack`). So it is for
every edge that enters the state, and not only for the one along which it was discovered
(`readsBack_of_edge`).

In the order of its items the advanced ones come first (`ItemSet.BehindFirst`). A state keeps the
order in which its items were found when it was discovered, which need not be their order in the
closure that another edge leads to, and so this is a property of all sets that are discovered.
-/

set_option autoImplicit false

namespace ShiftReduce

variable {grammar : Grammar}

namespace ItemSet

/-! ## The order of the items -/

/-- The items with the dot behind a symbol come before those with the dot in front. -/
def BehindFirst (set : ItemSet) : Prop :=
  ∃ behind front, set.items = behind ++ front ∧
    (∀ item ∈ behind, 0 < item.dot) ∧ ∀ item ∈ front, item.dot = 0

theorem behindFirst_start : (closure grammar [.start]).BehindFirst := by
  refine ⟨[], (closure grammar [.start]).items, rfl, by simp, fun item member => ?_⟩
  rcases mem_seed_or_dot_eq_zero member with isSeed | front
  · rw [List.mem_singleton.1 isSeed]
    rfl
  · exact front

theorem dot_pos_of_mem_kernel {set : ItemSet} {label : Symbol} {item : Item}
    (member : item ∈ set.kernel grammar label) : 0 < item.dot := by
  obtain ⟨earlier, -, -, rfl⟩ := (set.mem_kernel_iff label item).1 member
  exact Nat.succ_pos earlier.dot

/-- A closure begins with its seed, and the dot of an advanced item is behind a symbol. -/
theorem behindFirst_successor (set : ItemSet) (label : Symbol) :
    (set.successor grammar label).BehindFirst := by
  obtain ⟨added, isClosed, front⟩ := @items_closure_split grammar (set.kernel grammar label)
  exact ⟨_, added, isClosed,
    fun item member => dot_pos_of_mem_kernel (List.mem_eraseDups.1 member), front⟩

/-- The items that have advanced are those with the dot behind a symbol. -/
theorem mem_kernel_iff_behind (set : ItemSet) (label : Symbol) (item : Item) :
    item ∈ set.kernel grammar label ↔
      item ∈ (set.successor grammar label).items ∧ 0 < item.dot := by
  constructor
  · intro member
    exact ⟨mem_closure_of_seed member, dot_pos_of_mem_kernel member⟩
  · rintro ⟨member, behind⟩
    exact (mem_seed_or_dot_eq_zero member).resolve_right (Nat.ne_of_gt behind)

end ItemSet

/-! ## The edges of an automaton -/

namespace Automaton

variable {id source target : StateId} {state : State} {label : Symbol}

theorem behindFirst_generate (isState : (generate grammar).states[id]? = some state) :
    state.items.BehindFirst := by
  obtain ⟨viableSet, found, rfl⟩ := (getElem?_generate id state).1 isState
  have everywhere : (Exploration.start grammar).run.Holds fun viableSet =>
      viableSet.set.BehindFirst :=
    Exploration.forall_run ItemSet.behindFirst_start
      fun viableSet _ label _ => viableSet.set.behindFirst_successor label
  exact everywhere id viableSet found

/-- What the items of a state tell about an edge that enters it. -/
structure ReadsBack (grammar : Grammar) (state : State) (label : Symbol) (next : State) : Prop where
  /-- The items with the dot behind a symbol are the advanced items of the source. -/
  behind_iff : ∀ item, (item ∈ next.items ∧ 0 < item.dot) ↔
    ∃ earlier ∈ state.items, earlier.nextSymbol? grammar = some label ∧
      item = { earlier with dot := earlier.dot + 1 }
  /-- They come before the items with the dot in front. -/
  order : next.items.BehindFirst
  /-- The symbol before their dot is the label. -/
  label : ∀ item ∈ next.items, 0 < item.dot → (item.right grammar)[item.dot - 1]? = some label

/-- **Every edge can be read backwards, and has the label of all edges that enter its target.** -/
theorem readsBack_of_edge (isEdge : (generate grammar).Edge source label target) :
    (∃ state next, (generate grammar).states[source]? = some state ∧
      (generate grammar).states[target]? = some next ∧ ReadsBack grammar state label next) ∧
    ∀ other otherLabel, (generate grammar).Edge other otherLabel target → otherLabel = label := by
  constructor
  · obtain ⟨state, isSource, isLabelled⟩ := isEdge
    obtain ⟨next, isTarget, items⟩ := target_generate isSource isLabelled
    refine ⟨state, next, isSource, isTarget, ⟨?behind_iff, ?order, ?label⟩⟩
    case behind_iff =>
      intro item
      rw [items]
      exact (state.items.mem_kernel_iff_behind label item).symm.trans
        (state.items.mem_kernel_iff label item)
    case order => exact behindFirst_generate isTarget
    case label =>
      intro item member behind
      exact ItemSet.behind_label ((items item).1 member) (Nat.ne_of_gt behind)
  · intro other otherLabel isOther
    exact label_unique ((target?_generate_iff _ _ _).2 isOther)
      ((target?_generate_iff _ _ _).2 isEdge)

/-- Rules by which the same two items are met in either order, after `x` and after `y`. -/
def swappedRules : List Request :=
  [.addRule ⟨"S", ["x", "Q"]⟩, .addRule ⟨"S", ["y", "R"]⟩, .addRule ⟨"Q", ["A"]⟩,
    .addRule ⟨"Q", ["B"]⟩, .addRule ⟨"R", ["B"]⟩, .addRule ⟨"R", ["A"]⟩,
    .addRule ⟨"A", ["c", "d"]⟩, .addRule ⟨"B", ["c", "e"]⟩]

/-- The grammar of the swapped rules. -/
def swapped : Grammar where
  terminals := #["$", "x", "y", "c", "d", "e"]
  nonterminals := #["S'", "S", "Q", "R", "A", "B"]
  start := ⟨1⟩
  productions :=
    #[⟨⟨1⟩, [.terminal ⟨1⟩, .nonterminal ⟨2⟩]⟩, ⟨⟨1⟩, [.terminal ⟨2⟩, .nonterminal ⟨3⟩]⟩,
      ⟨⟨2⟩, [.nonterminal ⟨4⟩]⟩, ⟨⟨2⟩, [.nonterminal ⟨5⟩]⟩, ⟨⟨3⟩, [.nonterminal ⟨5⟩]⟩,
      ⟨⟨3⟩, [.nonterminal ⟨4⟩]⟩, ⟨⟨4⟩, [.terminal ⟨3⟩, .terminal ⟨4⟩]⟩,
      ⟨⟨5⟩, [.terminal ⟨3⟩, .terminal ⟨5⟩]⟩]
  firsts := #[0, 1, 2, 3, 4, 5, 6, 7]
  alternatives := #[#[], #[0, 1], #[2, 3], #[4, 5], #[6], #[7]]

/-- State 4 was found from state 1, and keeps that order of its items when it is entered from
state 2. -/
theorem readsBack_swapped :
    (Definition.ofRequests swappedRules).build = .ok swapped ∧
      (generate swapped).states.toList.map
          (fun state => state.items.kernel swapped (.terminal ⟨3⟩)) =
        [[], [⟨.stored 6, 1, ⟨0⟩⟩, ⟨.stored 7, 1, ⟨0⟩⟩], [⟨.stored 7, 1, ⟨0⟩⟩, ⟨.stored 6, 1, ⟨0⟩⟩],
          [], [], [], [], [], [], [], [], [], []] ∧
      (generate swapped).states[4]?.map (fun state => state.items.items) =
        some [⟨.stored 6, 1, ⟨0⟩⟩, ⟨.stored 7, 1, ⟨0⟩⟩] ∧
      (generate swapped).Edge 1 (.terminal ⟨3⟩) 4 ∧ (generate swapped).Edge 2 (.terminal ⟨3⟩) 4 ∧
      (∃ state next, (generate swapped).states[2]? = some state ∧
        (generate swapped).states[4]? = some next ∧ ReadsBack swapped state (.terminal ⟨3⟩) next) ∧
      ∀ other label, (generate swapped).Edge other label 4 → label = .terminal ⟨3⟩ := by
  have discovered : (generate swapped).Edge 1 (.terminal ⟨3⟩) 4 :=
    (target?_generate_iff _ _ _).1 (by decide +kernel)
  have entered : (generate swapped).Edge 2 (.terminal ⟨3⟩) 4 :=
    (target?_generate_iff _ _ _).1 (by decide +kernel)
  exact ⟨by decide +kernel, by decide +kernel, by decide +kernel, discovered, entered,
    readsBack_of_edge entered⟩

end Automaton

end ShiftReduce
