import Mathlib.Data.Set.Function
import Mathlib.Order.Interval.Set.Defs
import ShiftReduce.Proofs.Automaton.Acceptance

/-!
# Numbers in breadth-first order

Edges are ordered by the number of their source, and edges with the same source by their label.
While states are discovered, edges are written in this order, and a state gets its number from the
first edge that leads to it. So every edge before that one leads to a smaller number
(`Exploration.FoundInOrder`).

For the finished automaton this says that every state but the first one is entered from a smaller
number, and that the least edges into the states increase with the numbers of the states
(`Automaton.BreadthFirst`). States that are numbered in this way cannot be renumbered so that they
still are (`Automaton.IsRenumbering.eq_self`): the numbers are told by the edges alone.
-/

set_option autoImplicit false

namespace ShiftReduce

variable {grammar : Grammar}

/-! ## The order of edges -/

theorem Symbol.before_trichotomy (first second : Symbol) :
    first.Before second ∨ first = second ∨ second.Before first := by
  cases order : compare first second with
  | lt => exact .inl ((compare_eq_lt_iff first second).1 order)
  | eq => exact .inr (.inl (eq_of_compare_eq order))
  | gt => exact .inr (.inr ((compare_eq_gt_iff first second).1 order))

/-- Where an edge begins: its source and its label. -/
abbrev Origin : Type := StateId × Symbol

namespace Origin

/-- Edges are ordered by the number of their source, and then by their label. -/
def Before (first second : Origin) : Prop :=
  first.1 < second.1 ∨ first.1 = second.1 ∧ first.2.Before second.2

variable {first second third : Origin}

theorem Before.trans (earlier : first.Before second) (later : second.Before third) :
    first.Before third := by
  rcases earlier with less | ⟨same, before⟩
  · rcases later with lessToo | ⟨sameToo, -⟩
    · exact .inl (Nat.lt_trans less lessToo)
    · exact .inl (sameToo ▸ less)
  · rcases later with lessToo | ⟨sameToo, beforeToo⟩
    · exact .inl (same ▸ lessToo)
    · exact .inr ⟨same.trans sameToo, before.trans beforeToo⟩

theorem Before.irrefl (origin : Origin) : ¬origin.Before origin := by
  rintro (less | ⟨-, before⟩)
  · exact Nat.lt_irrefl _ less
  · exact Symbol.Before.irrefl _ before

theorem before_trichotomy (first second : Origin) :
    first.Before second ∨ first = second ∨ second.Before first := by
  rcases Nat.lt_trichotomy first.1 second.1 with less | same | greater
  · exact .inl (.inl less)
  · rcases Symbol.before_trichotomy first.2 second.2 with before | sameLabel | after
    · exact .inl (.inr ⟨same, before⟩)
    · exact .inr (.inl (Prod.ext same sameLabel))
    · exact .inr (.inr (.inr ⟨same.symm, after⟩))
  · exact .inr (.inr (.inl greater))

end Origin

/-! ## Discovery in order -/

namespace Exploration

/-- A state was found along an edge: the edge leads to it from a smaller number, and the edges
before it lead to smaller numbers. -/
structure FoundAlong (exploration : Exploration grammar) (state : StateId) (origin : Origin) :
    Prop where
  earlier : origin.1 < state
  edge : (origin.2, state) ∈ exploration.row origin.1
  before : ∀ (other : Origin) (target : StateId), (other.2, target) ∈ exploration.row other.1 →
    other.Before origin → target < state

/-- Every state but the first one was found along some edge. -/
def FoundInOrder (exploration : Exploration grammar) : Prop :=
  ∀ state, 0 < state → state < exploration.sets.size → ∃ origin, exploration.FoundAlong state origin

section Follow

variable {exploration : Exploration grammar} {source : Nat} {viableSet : ViableSet grammar}
  {labels : List Symbol} {label : Symbol}

/-- The edges that have been followed come before the next one. -/
theorem Visiting.before_of_mem (visiting : exploration.Visiting source viableSet labels)
    (increasing : ∀ earlier ∈ labels, earlier.Before label) {origin : Origin} {target : StateId}
    (isEdge : (origin.2, target) ∈ exploration.row origin.1) : origin.Before (source, label) := by
  obtain ⟨set, -, isSet, -, -⟩ := visiting.consistent.leads _ _ _ isEdge
  have isFollowed : origin.2 ∈ exploration.followed origin.1 := List.mem_map.2 ⟨_, isEdge, rfl⟩
  rw [visiting.followed _ set isSet] at isFollowed
  split at isFollowed
  · next less => exact .inl less
  · split at isFollowed
    · next same => exact .inr ⟨same, increasing _ isFollowed⟩
    · cases isFollowed

/-- Following a label adds one edge. -/
theorem Visiting.mem_row_follow (visiting : exploration.Visiting source viableSet labels)
    (origin : Origin) (target : StateId) :
    (origin.2, target) ∈ (Exploration.follow source viableSet exploration label).row origin.1 ↔
      (origin.2, target) ∈ exploration.row origin.1 ∨
        origin = (source, label) ∧ target = exploration.targetOf viableSet label := by
  have inside : source < exploration.edges.size := by
    rw [visiting.consistent.rows]
    exact visiting.bound
  obtain ⟨state, edgeLabel⟩ := origin
  rw [row_follow source viableSet exploration label inside]
  split
  · next here =>
    obtain rfl : state = source := here
    simp
  · next elsewhere =>
    have different : state ≠ source := elsewhere
    simp [different]

/-- **Following a label keeps the order in which states are found.** -/
theorem Visiting.foundInOrder_follow (visiting : exploration.Visiting source viableSet labels)
    (increasing : ∀ earlier ∈ labels, earlier.Before label) (found : exploration.FoundInOrder) :
    (Exploration.follow source viableSet exploration label).FoundInOrder := by
  intro state positive inside
  rcases (getElem?_sets_follow _ _ _ _ _ _).1 (Array.getElem?_eq_getElem inside) with
    known | ⟨rfl, -, isNew⟩
  · obtain ⟨origin, along⟩ := found state positive (Array.getElem?_eq_some_iff.1 known).1
    refine ⟨origin, along.earlier, (visiting.mem_row_follow _ _).2 (.inl along.edge), ?_⟩
    intro other target isEdge before
    rcases (visiting.mem_row_follow _ _).1 isEdge with old | ⟨rfl, -⟩
    · exact along.before other target old before
    · -- The new edge comes after the one along which the state was found.
      have after := visiting.before_of_mem increasing along.edge
      exact absurd (before.trans after) (Origin.Before.irrefl _)
  · refine ⟨(source, label), visiting.bound, ?_, ?_⟩
    · exact (visiting.mem_row_follow (source, label) _).2 (.inr ⟨rfl, isNew.symm⟩)
    · intro other target isEdge before
      rcases (visiting.mem_row_follow _ _).1 isEdge with old | ⟨rfl, -⟩
      · obtain ⟨-, _, -, isTarget, -⟩ := visiting.consistent.leads _ _ _ old
        exact (Array.getElem?_eq_some_iff.1 isTarget).1
      · exact absurd before (Origin.Before.irrefl _)

end Follow

theorem kept_foundInOrder :
    Kept fun exploration : Exploration grammar => exploration.FoundInOrder where
  pop := by
    intro exploration rest found state positive inside
    obtain ⟨origin, along⟩ := found state positive inside
    exact ⟨origin, along.earlier, along.edge, along.before⟩
  follow := by
    intro exploration source viableSet labels label rest visiting whole found
    refine visiting.foundInOrder_follow (fun earlier isFollowed => ?_) found
    have increasing := @ItemSet.labels_increasing grammar viableSet.set
    rw [whole] at increasing
    exact (List.pairwise_append.1 increasing).2.2 earlier isFollowed label List.mem_cons_self

/-- **All states are found in order.** -/
theorem foundInOrder_run (grammar : Grammar) : (start grammar).run.FoundInOrder := by
  refine kept_foundInOrder.run (visited_start grammar) ?_
  intro state positive inside
  rw [sets_start] at inside
  exact absurd positive (Nat.not_lt.2 (Nat.le_of_lt_succ inside))

end Exploration

/-! ## Breadth-first numbers -/

namespace Automaton

/-- The least edge that enters a state, told by where it begins. -/
structure LeastEdge (automaton : Automaton) (origin : Origin) (target : StateId) : Prop where
  edge : automaton.Edge origin.1 origin.2 target
  least : ∀ other : Origin, automaton.Edge other.1 other.2 target →
    other = origin ∨ origin.Before other

/-- The states are numbered breadth first. -/
structure BreadthFirst (automaton : Automaton) : Prop where
  /-- An edge from a smaller number enters each state but the first one. -/
  earlier : ∀ state, 0 < state → state < automaton.size →
    ∃ source label, source < state ∧ automaton.Edge source label state
  /-- Of the least edges into two such states that into the smaller number is smaller. -/
  increasing : ∀ smaller larger, 0 < smaller → smaller < larger → larger < automaton.size →
    ∃ origin other, automaton.LeastEdge origin smaller ∧ automaton.LeastEdge other larger ∧
      origin.Before other

/-- The second automaton has the edges of the first one, between states with other numbers. -/
structure IsRenumbering (renumber : StateId → StateId) (first second : Automaton) : Prop where
  bijective : Set.BijOn renumber (Set.Iio first.size) (Set.Iio second.size)
  edge_iff : ∀ source < first.size, ∀ label, ∀ target < first.size,
    first.Edge source label target ↔ second.Edge (renumber source) label (renumber target)

section Unique

variable {first second : Automaton} {renumber : StateId → StateId}

/-- The least edge into a state comes before all edges into states with larger numbers. -/
theorem BreadthFirst.exists_least {automaton : Automaton} (breadthFirst : automaton.BreadthFirst)
    {smaller larger : StateId} (positive : 0 < smaller) (less : smaller < larger)
    (inside : larger < automaton.size) :
    ∃ origin, automaton.LeastEdge origin smaller ∧
      ∀ other : Origin, automaton.Edge other.1 other.2 larger → origin.Before other := by
  obtain ⟨origin, later, isLeast, isLeastToo, before⟩ :=
    breadthFirst.increasing smaller larger positive less inside
  refine ⟨origin, isLeast, fun other isEdge => ?_⟩
  rcases isLeastToo.least other isEdge with rfl | after
  · exact before
  · exact before.trans after

/-- The least edge into a state begins at a smaller number. -/
theorem BreadthFirst.source_lt_of_least {automaton : Automaton}
    (breadthFirst : automaton.BreadthFirst) {state : StateId} (positive : 0 < state)
    (inside : state < automaton.size) {origin : Origin}
    (isLeast : automaton.LeastEdge origin state) : origin.1 < state := by
  obtain ⟨source, label, less, isEdge⟩ := breadthFirst.earlier state positive inside
  rcases isLeast.least (source, label) isEdge with same | smaller | ⟨same, -⟩
  · rwa [← same]
  · exact Nat.lt_trans smaller less
  · rwa [same]

/-- State 0 keeps its number if no edge enters it. -/
theorem IsRenumbering.zero (renumbering : IsRenumbering renumber first second)
    (root : ∀ source label, ¬first.Edge source label 0) (secondOrdered : second.BreadthFirst)
    (inside : 0 < first.size) : renumber 0 = 0 := by
  have isInside : renumber 0 < second.size := renumbering.bijective.mapsTo inside
  refine Decidable.byContradiction fun moved => ?_
  obtain ⟨source, label, less, isEdge⟩ :=
    secondOrdered.earlier _ (Nat.pos_of_ne_zero moved) isInside
  obtain ⟨origin, originInside, rfl⟩ := renumbering.bijective.surjOn (Nat.lt_trans less isInside)
  exact root origin label
    ((renumbering.edge_iff origin originInside label 0 inside).2 isEdge)

/-- **Breadth-first numbers are told by the edges.** -/
theorem IsRenumbering.eq_self (renumbering : IsRenumbering renumber first second)
    (root : ∀ source label, ¬first.Edge source label 0) (firstOrdered : first.BreadthFirst)
    (secondOrdered : second.BreadthFirst) (state : StateId) (inside : state < first.size) :
    renumber state = state := by
  induction state using Nat.strong_induction_on with
  | _ state ih =>
    have fixed : ∀ earlier < state, renumber earlier = earlier := fun earlier less =>
      ih earlier less (Nat.lt_trans less inside)
    have isInside : renumber state < second.size := renumbering.bijective.mapsTo inside
    rcases Nat.eq_zero_or_pos state with rfl | positive
    · exact renumbering.zero root secondOrdered inside
    rcases Nat.lt_trichotomy (renumber state) state with less | same | greater
    · exact renumbering.bijective.injOn (Nat.lt_trans less inside) inside (fixed _ less)
    · exact same
    · -- A later state would have the number, and each of the two would be entered before the other.
      have numberInside : state < second.size := Nat.lt_trans greater isInside
      obtain ⟨later, laterInside, isLater⟩ := renumbering.bijective.surjOn numberInside
      have isGreater : state < later := by
        rcases Nat.lt_trichotomy later state with less | rfl | isGreater
        · rw [fixed later less] at isLater
          exact absurd isLater (Nat.ne_of_lt less)
        · exact absurd isLater (Nat.ne_of_gt greater)
        · exact isGreater
      obtain ⟨origin, isLeast, before⟩ := firstOrdered.exists_least positive isGreater laterInside
      obtain ⟨other, isLeastToo, after⟩ := secondOrdered.exists_least positive greater isInside
      have originLess := firstOrdered.source_lt_of_least positive inside isLeast
      have otherLess := secondOrdered.source_lt_of_least positive numberInside isLeastToo
      have entersNumber := (renumbering.edge_iff origin.1 (Nat.lt_trans originLess inside) origin.2
        state inside).1 isLeast.edge
      rw [fixed origin.1 originLess] at entersNumber
      have entersLater : first.Edge other.1 other.2 later := by
        rw [renumbering.edge_iff other.1 (Nat.lt_trans otherLess inside) other.2 later laterInside,
          fixed other.1 otherLess, isLater]
        exact isLeastToo.edge
      have circular := (before other entersLater).trans (after origin entersNumber)
      exact absurd circular (Origin.Before.irrefl origin)

end Unique

/-! ## The generated automaton -/

/-- The edges of the automaton are those that were followed. -/
theorem edge_generate_iff (source target : StateId) (label : Symbol) :
    (generate grammar).Edge source label target ↔
      (label, target) ∈ (Exploration.start grammar).run.row source := by
  constructor
  · rintro ⟨state, isState, isEdge⟩
    obtain ⟨viableSet, -, rfl⟩ := (getElem?_generate source state).1 isState
    exact isEdge
  · intro isEdge
    obtain ⟨viableSet, -, found, -, -⟩ := (consistent_generate grammar).leads _ _ _ isEdge
    exact ⟨_, (getElem?_generate source _).2 ⟨viableSet, found, rfl⟩, isEdge⟩

/-- The edge along which a state was found is the least one that enters it. -/
theorem leastEdge_of_foundAlong {state : StateId} {origin : Origin}
    (along : (Exploration.start grammar).run.FoundAlong state origin) :
    (generate grammar).LeastEdge origin state where
  edge := (edge_generate_iff _ _ _).2 along.edge
  least := by
    intro other isEdge
    rcases Origin.before_trichotomy other origin with before | same | after
    · exact absurd (along.before other state ((edge_generate_iff _ _ _).1 isEdge) before)
        (Nat.lt_irrefl state)
    · exact .inl same
    · exact .inr after

theorem exists_foundAlong {state : StateId} (positive : 0 < state)
    (inside : state < (generate grammar).size) :
    ∃ origin, (Exploration.start grammar).run.FoundAlong state origin := by
  rw [size_generate] at inside
  exact Exploration.foundInOrder_run grammar state positive inside

/-- **The states of a generated automaton are numbered breadth first.** -/
theorem breadthFirst_generate (grammar : Grammar) : (generate grammar).BreadthFirst := by
  constructor
  case earlier =>
    intro state positive inside
    obtain ⟨origin, along⟩ := exists_foundAlong positive inside
    exact ⟨origin.1, origin.2, along.earlier, (edge_generate_iff _ _ _).2 along.edge⟩
  case increasing =>
    intro smaller larger positive less inside
    obtain ⟨origin, along⟩ := exists_foundAlong positive (Nat.lt_trans less inside)
    obtain ⟨other, alongToo⟩ := exists_foundAlong (Nat.lt_trans positive less) inside
    have isLeast := leastEdge_of_foundAlong along
    have isLeastToo := leastEdge_of_foundAlong alongToo
    refine ⟨origin, other, isLeast, isLeastToo, ?_⟩
    rcases Origin.before_trichotomy origin other with before | rfl | after
    · exact before
    · have leads := (target?_generate_iff _ _ _).2 isLeast.edge
      rw [(target?_generate_iff _ _ _).2 isLeastToo.edge] at leads
      exact absurd (Option.some.inj leads) (Nat.ne_of_gt less)
    · have smaller := along.before other larger alongToo.edge after
      exact absurd smaller (Nat.not_lt.2 (Nat.le_of_lt less))

/-- What makes the numbers of the states canonical. -/
structure CanonicallyNumbered (automaton : Automaton) : Prop where
  /-- The states are numbered breadth first. -/
  breadthFirst : automaton.BreadthFirst
  /-- There is no other way to number the states breadth first that has the same edges. -/
  unique : ∀ (other : Automaton) (renumber : StateId → StateId), other.BreadthFirst →
    IsRenumbering renumber automaton other → ∀ state < automaton.size, renumber state = state

/-- **The numbers of the states of a generated automaton are canonical.** -/
theorem canonicallyNumbered_generate (grammar : Grammar) :
    (generate grammar).CanonicallyNumbered := by
  constructor
  case breadthFirst => exact breadthFirst_generate grammar
  case unique =>
    intro other renumber otherOrdered renumbering state inside
    exact renumbering.eq_self (fun _ _ => not_edge_zero) (breadthFirst_generate grammar)
      otherOrdered state inside

end Automaton

end ShiftReduce
