import Mathlib.Algebra.GroupWithZero.Nat
import Mathlib.Data.List.Nodup
import Mathlib.Data.List.Perm.Basic
import Mathlib.Data.Set.Function
import Mathlib.Order.Interval.Set.Defs
import ShiftReduce.Proofs.Automaton.Named

/-!
# Automata by name

Two grammars that read as the same rules have the same automaton by name. Two states are
*counterparts* when strings of the same names lead to them. They hold the same items by name
(`Counterparts.items`), since a state holds what is valid for the strings that lead to it, and their
edges lead to counterparts again (`Counterparts.edge`). Each state has a counterpart
(`exists_counterpart`) and no other one (`Counterparts.unique`).

So the automata differ in the numbers of their states, and in the order of the items and edges of a
state (`exists_renumbers`).
-/

set_option autoImplicit false

namespace ShiftReduce

/-- Two lists with the same elements at positions that correspond are permutations of each other. -/
theorem perm_of_bijOn {α : Type} {list others : List α} {renumber : Nat → Nat}
    (bijective : Set.BijOn renumber (Set.Iio list.length) (Set.Iio others.length))
    (same : ∀ position < list.length, others[renumber position]? = list[position]?) :
    others.Perm list := by
  have positions : ((List.range list.length).map renumber).Perm (List.range others.length) := by
    refine (List.perm_ext_iff_of_nodup (List.nodup_range.map_on ?_) List.nodup_range).2 ?_
    · intro first isFirst second isSecond
      exact bijective.injOn (List.mem_range.1 isFirst) (List.mem_range.1 isSecond)
    · intro position
      have image := Set.ext_iff.1 bijective.image_eq position
      simpa using image
  have byPosition : ∀ list : List α, (List.range list.length).map (list[·]?) = list.map some := by
    intro list
    exact List.ext_getElem (by simp) fun position _ _ => by simp
  have corresponding : (List.range list.length).map ((others[·]?) ∘ renumber) =
      (List.range list.length).map (list[·]?) :=
    List.map_congr_left fun position inside => same position (List.mem_range.1 inside)
  have elements := positions.map (others[·]?)
  rw [byPosition, List.map_map, corresponding, byPosition] at elements
  simpa using (elements.filterMap id).symm

namespace Automaton

variable {first second : Grammar} {start : String} {rules : Set Rule}

/-! ## Counterparts -/

/-- Strings of the same names lead to two states. -/
def Counterparts (first second : Grammar) (id other : StateId) : Prop :=
  ∃ symbols others, (generate first).follow? 0 symbols = some id ∧
    (generate second).follow? 0 others = some other ∧
    others.map second.symbolName = symbols.map first.symbolName

variable {id other : StateId}

theorem Counterparts.symm (counterparts : Counterparts first second id other) :
    Counterparts second first other id := by
  obtain ⟨symbols, others, leads, othersLead, sameNames⟩ := counterparts
  exact ⟨others, symbols, othersLead, leads, sameNames.symm⟩

theorem counterparts_zero (first second : Grammar) : Counterparts first second 0 0 :=
  ⟨[], [], rfl, rfl, rfl⟩

theorem Counterparts.inside (counterparts : Counterparts first second id other) :
    id < (generate first).size := by
  obtain ⟨symbols, -, leads, -⟩ := counterparts
  obtain ⟨state, isState, -⟩ := valid_of_follow? symbols leads
  exact (Array.getElem?_eq_some_iff.1 isState).1

/-- Some string leads to each state. -/
theorem exists_follow?_generate {grammar : Grammar} (inside : id < (generate grammar).size) :
    ∃ symbols, (generate grammar).follow? 0 symbols = some id := by
  induction reached_generate inside with
  | refl => exact ⟨[], rfl⟩
  | tail steps edge ih =>
      obtain ⟨label, isEdge⟩ := edge
      have leadsOn := (target?_generate_iff _ _ _).2 isEdge
      obtain ⟨found, isFound, -⟩ := isEdge
      obtain ⟨symbols, leads⟩ := ih (Array.getElem?_eq_some_iff.1 isFound).1
      exact ⟨symbols ++ [label], (follow?_concat _ _ _ _ _).2 ⟨_, leads, leadsOn⟩⟩

theorem mentionable_of_follow? {grammar : Grammar} (wellFormed : grammar.WellFormed)
    {symbols : List Symbol} (leads : (generate grammar).follow? 0 symbols = some id) :
    ∀ symbol ∈ symbols, grammar.Mentionable symbol := by
  obtain ⟨item, valid⟩ := exists_valid_of_follow? leads
  exact valid.mentionable wellFormed

/-- The items of states are told by name. -/
theorem eq_of_named (reads : first.Reads start rules) {state found : State}
    (isState : (generate first).states[id]? = some state)
    (isFound : (generate first).states[other]? = some found) {item twin : Item}
    (member : item ∈ state.items) (twinMember : twin ∈ found.items)
    (same : item.named first = twin.named first) : item = twin :=
  (known_of_mem reads.wellFormed isState member).eq_of_named reads
    (known_of_mem reads.wellFormed isFound twinMember) same

/-- The edges of a state by name, with the numbers of their targets. -/
def namedEdges (grammar : Grammar) (state : State) : List (String × StateId) :=
  state.edges.map fun (label, target) => (grammar.symbolName label, target)

theorem mem_namedEdges {grammar : Grammar} {state : State}
    (isState : (generate grammar).states[id]? = some state) {name : String} {target : StateId} :
    (name, target) ∈ namedEdges grammar state ↔
      ∃ label, grammar.symbolName label = name ∧ (generate grammar).Edge id label target := by
  simp only [namedEdges, List.mem_map, Prod.exists, Prod.mk.injEq, Edge, isState,
    Option.some.injEq, exists_eq_left']
  constructor
  · rintro ⟨label, target, member, rfl, rfl⟩
    exact ⟨label, rfl, member⟩
  · rintro ⟨label, rfl, member⟩
    exact ⟨label, target, member, rfl, rfl⟩

/-- The edges of a state are told by the names of their labels. -/
theorem names_nodup (reads : first.Reads start rules) {state : State}
    (isState : (generate first).states[id]? = some state) :
    ((namedEdges first state).map Prod.fst).Nodup := by
  have names : (namedEdges first state).map Prod.fst =
      (state.edges.map Prod.fst).map first.symbolName := by
    rw [namedEdges, List.map_map, List.map_map]
    rfl
  have mentionable : ∀ label ∈ state.edges.map Prod.fst, first.Mentionable label := by
    intro label isLabel
    rw [labels_generate isState] at isLabel
    obtain ⟨item, member, next⟩ := (state.items.mem_labels_iff label).1 isLabel
    exact mentionable_of_next reads.wellFormed isState member next
  rw [names]
  exact (labels_nodup_generate isState).map_on fun label isLabel other isOther =>
    reads.symbols (mentionable label isLabel) (mentionable other isOther)

section SameRules

variable (firstReads : first.Reads start rules) (secondReads : second.Reads start rules)

include firstReads secondReads

/-- **Each state has a counterpart.** -/
theorem exists_counterpart (inside : id < (generate first).size) :
    ∃ other, Counterparts first second id other := by
  obtain ⟨symbols, leads⟩ := exists_follow?_generate inside
  obtain ⟨item, valid⟩ := exists_valid_of_follow? leads
  obtain ⟨others, twin, twinValid, sameNames, -⟩ := valid.exists_counterpart firstReads secondReads
  obtain ⟨other, othersLead⟩ := exists_follow?_of_valid twinValid
  exact ⟨other, symbols, others, leads, othersLead, sameNames⟩

/-- Each item of a state has its counterpart in a counterpart of the state. -/
theorem Counterparts.exists_item (counterparts : Counterparts first second id other) {state : State}
    (isState : (generate first).states[id]? = some state) :
    ∃ found, (generate second).states[other]? = some found ∧
      ∀ item ∈ state.items, ∃ twin ∈ found.items, twin.named second = item.named first := by
  obtain ⟨symbols, others, leads, othersLead, sameNames⟩ := counterparts
  obtain ⟨known, isKnown, items⟩ := valid_of_follow? symbols leads
  obtain ⟨found, isFound, otherItems⟩ := valid_of_follow? others othersLead
  rw [isState] at isKnown
  cases isKnown
  refine ⟨found, isFound, fun item member => ?_⟩
  obtain ⟨twin, twinValid, same⟩ := ((items item).1 member).counterpart firstReads secondReads
    (mentionable_of_follow? secondReads.wellFormed othersLead) sameNames
  exact ⟨twin, (otherItems twin).2 twinValid, same⟩

/-- **A state has no two counterparts.** -/
theorem Counterparts.unique {another : StateId} (counterparts : Counterparts first second id other)
    (again : Counterparts first second id another) : other = another := by
  -- an item goes to the state between the two, and from there to the other one
  have passes : ∀ {other another : StateId} {found anotherFound : State},
      Counterparts first second id other → Counterparts first second id another →
      (generate second).states[other]? = some found →
      (generate second).states[another]? = some anotherFound →
      ∀ item ∈ found.items, item ∈ anotherFound.items := by
    intro other another found anotherFound counterparts again isFound isAnother item member
    obtain ⟨state, isState, toState⟩ :=
      counterparts.symm.exists_item secondReads firstReads isFound
    obtain ⟨_, isReached, toAnother⟩ := again.exists_item firstReads secondReads isState
    rw [isAnother] at isReached
    cases isReached
    obtain ⟨between, isBetween, sameBetween⟩ := toState item member
    obtain ⟨twin, isTwin, sameTwin⟩ := toAnother between isBetween
    rwa [eq_of_named secondReads isFound isAnother member isTwin
      (sameBetween.symm.trans sameTwin.symm)]
  have isFound := Array.getElem?_eq_getElem counterparts.symm.inside
  have isAnother := Array.getElem?_eq_getElem again.symm.inside
  exact distinct_generate isFound isAnother fun item =>
    ⟨passes counterparts again isFound isAnother item,
      passes again counterparts isAnother isFound item⟩

/-- **Counterparts have the same items by name.** -/
theorem Counterparts.items (counterparts : Counterparts first second id other) {state : State}
    (isState : (generate first).states[id]? = some state) :
    ∃ found, (generate second).states[other]? = some found ∧
      (found.items.items.map (Item.named second)).Perm
        (state.items.items.map (Item.named first)) := by
  obtain ⟨found, isFound, forth⟩ := counterparts.exists_item firstReads secondReads isState
  obtain ⟨_, isKnown, back⟩ := counterparts.symm.exists_item secondReads firstReads isFound
  rw [isState] at isKnown
  cases isKnown
  have foundNodup : (found.items.items.map (Item.named second)).Nodup :=
    found.items.nodup.map_on fun item member twin twinMember =>
      eq_of_named secondReads isFound isFound member twinMember
  have stateNodup : (state.items.items.map (Item.named first)).Nodup :=
    state.items.nodup.map_on fun item member twin twinMember =>
      eq_of_named firstReads isState isState member twinMember
  refine ⟨found, isFound, (List.perm_ext_iff_of_nodup foundNodup stateNodup).2 fun named => ?_⟩
  rw [List.mem_map, List.mem_map]
  constructor
  · rintro ⟨item, member, rfl⟩
    exact back item member
  · rintro ⟨item, member, rfl⟩
    exact forth item member

/-- **An edge has its counterpart, which leads to a counterpart.** -/
theorem Counterparts.edge (counterparts : Counterparts first second id other) {label : Symbol}
    {target : StateId} (isEdge : (generate first).Edge id label target) :
    ∃ otherLabel otherTarget, (generate second).Edge other otherLabel otherTarget ∧
      second.symbolName otherLabel = first.symbolName label ∧
      Counterparts first second target otherTarget := by
  have leadsOn := (target?_generate_iff _ _ _).2 isEdge
  obtain ⟨state, isState, -⟩ := isEdge
  obtain ⟨item, member, next⟩ := (exists_target?_generate_iff isState label).1 ⟨target, leadsOn⟩
  obtain ⟨found, isFound, forth⟩ := counterparts.exists_item firstReads secondReads isState
  obtain ⟨twin, isTwin, same⟩ := forth item member
  obtain ⟨otherLabel, twinNext, sameName⟩ := Item.next_of_named firstReads secondReads same next
  obtain ⟨otherTarget, otherLeadsOn⟩ :=
    (exists_target?_generate_iff isFound otherLabel).2 ⟨twin, isTwin, twinNext⟩
  obtain ⟨symbols, others, leads, othersLead, sameNames⟩ := counterparts
  refine ⟨otherLabel, otherTarget, (target?_generate_iff _ _ _).1 otherLeadsOn, sameName,
    symbols ++ [label], others ++ [otherLabel], ?_, ?_, by simp [sameNames, sameName]⟩
  · exact (follow?_concat _ _ _ _ _).2 ⟨id, leads, leadsOn⟩
  · exact (follow?_concat _ _ _ _ _).2 ⟨other, othersLead, otherLeadsOn⟩

/-- **Counterparts have the same edges by name, which lead to counterparts.** -/
theorem Counterparts.edges (counterparts : Counterparts first second id other) {state found : State}
    (isState : (generate first).states[id]? = some state)
    (isFound : (generate second).states[other]? = some found) {renumber : StateId → StateId}
    (targets : ∀ target < (generate first).size,
      Counterparts first second target (renumber target)) :
    (namedEdges second found).Perm
      ((namedEdges first state).map fun (label, target) => (label, renumber target)) := by
  have foundNodup := (names_nodup secondReads isFound).of_map
  have stateNodup : ((namedEdges first state).map
      fun (label, target) => (label, renumber target)).Nodup := by
    refine List.Nodup.of_map Prod.fst ?_
    rw [List.map_map]
    exact names_nodup firstReads isState
  refine (List.perm_ext_iff_of_nodup foundNodup stateNodup).2 fun (name, otherTarget) => ?_
  rw [mem_namedEdges isFound, List.mem_map]
  constructor
  · rintro ⟨otherLabel, rfl, isEdge⟩
    obtain ⟨label, target, back, sameName, related⟩ :=
      counterparts.symm.edge secondReads firstReads isEdge
    refine ⟨(_, target), (mem_namedEdges isState).2 ⟨label, sameName, back⟩, ?_⟩
    exact congrArg (Prod.mk _)
      ((targets target related.symm.inside).unique firstReads secondReads related.symm)
  · rintro ⟨⟨_, target⟩, member, same⟩
    cases same
    obtain ⟨label, rfl, isEdge⟩ := (mem_namedEdges isState).1 member
    obtain ⟨otherLabel, otherTarget, forth, sameName, related⟩ :=
      counterparts.edge firstReads secondReads isEdge
    refine ⟨otherLabel, sameName, ?_⟩
    rwa [(targets target related.inside).unique firstReads secondReads related]

end SameRules

/-! ## Renumbered states -/

/-- The automaton of one grammar is that of another one with its states renumbered, when both are
read by name. -/
structure Renumbers (renumber : StateId → StateId) (first second : Grammar) : Prop where
  /-- The states of the one automaton are renumbered to those of the other one. -/
  bijective : Set.BijOn renumber (Set.Iio (generate first).size) (Set.Iio (generate second).size)
  zero : renumber 0 = 0
  /-- A state has the same items and edges, up to their order. -/
  states : ∀ (id : StateId) (state : State), (generate first).states[id]? = some state →
    ∃ other, (generate second).states[renumber id]? = some other ∧
      (other.items.items.map (Item.named second)).Perm (state.items.items.map (Item.named first)) ∧
      (namedEdges second other).Perm
        ((namedEdges first state).map fun (label, target) => (label, renumber target))

/-- **The automata of two grammars that read as the same rules differ in the numbers of their
states.** -/
theorem exists_renumbers (firstReads : first.Reads start rules)
    (secondReads : second.Reads start rules) : ∃ renumber, Renumbers renumber first second := by
  have total : ∀ id, ∃ other, id < (generate first).size → Counterparts first second id other := by
    intro id
    by_cases inside : id < (generate first).size
    · obtain ⟨other, counterparts⟩ := exists_counterpart firstReads secondReads inside
      exact ⟨other, fun _ => counterparts⟩
    · exact ⟨id, fun isState => absurd isState inside⟩
  choose renumber counterparts using total
  refine ⟨renumber, ⟨⟨?mapsTo, ?injOn, ?surjOn⟩, ?zero, ?states⟩⟩
  case mapsTo => exact fun id inside => (counterparts id inside).symm.inside
  case injOn =>
    intro id inside other otherInside same
    have back := (counterparts id inside).symm
    rw [same] at back
    exact back.unique secondReads firstReads (counterparts other otherInside).symm
  case surjOn =>
    intro other inside
    obtain ⟨id, back⟩ := exists_counterpart secondReads firstReads inside
    exact ⟨id, back.symm.inside,
      (counterparts id back.symm.inside).unique firstReads secondReads back.symm⟩
  case zero =>
    have related := counterparts_zero first second
    exact (counterparts 0 related.inside).unique firstReads secondReads related
  case states =>
    intro id state isState
    have related := counterparts id (Array.getElem?_eq_some_iff.1 isState).1
    obtain ⟨other, isOther, sameItems⟩ := related.items firstReads secondReads isState
    exact ⟨other, isOther, sameItems,
      related.edges firstReads secondReads isState isOther counterparts⟩

/-! ## Numbers that stay the same -/

/-- What is measured by name comes out the same for each state, in another order. -/
theorem Renumbers.perm_measures {renumber : StateId → StateId}
    (renumbers : Renumbers renumber first second) {firstMeasure secondMeasure : State → Nat}
    (same : ∀ id state found, (generate first).states[id]? = some state →
      (generate second).states[renumber id]? = some found →
      secondMeasure found = firstMeasure state) :
    ((generate second).states.toList.map secondMeasure).Perm
      ((generate first).states.toList.map firstMeasure) := by
  refine @perm_of_bijOn _ _ _ renumber (by simpa [size] using renumbers.bijective) ?_
  intro id inside
  rw [List.length_map, Array.length_toList] at inside
  have isState := Array.getElem?_eq_getElem inside
  obtain ⟨found, isFound, -⟩ := renumbers.states id _ isState
  rw [List.getElem?_map, List.getElem?_map, Array.getElem?_toList, Array.getElem?_toList, isState,
    isFound, Option.map_some, Option.map_some, same id _ found isState isFound]

theorem Renumbers.size_eq {renumber : StateId → StateId}
    (renumbers : Renumbers renumber first second) :
    (generate second).size = (generate first).size := by
  have nothing : ((generate second).states.toList.map fun _ => 0).Perm
      ((generate first).states.toList.map fun _ => 0) :=
    renumbers.perm_measures fun _ _ _ _ _ => rfl
  simpa [size] using nothing.length_eq

theorem length_edges (automaton : Automaton) :
    automaton.edges.length = (automaton.states.toList.map fun state => state.edges.length).sum := by
  rw [edges, List.length_flatMap]
  simp only [List.length_map]
  have sources : automaton.numbered.map (fun entry => entry.1.edges.length) =
      (automaton.numbered.map Prod.fst).map fun state => state.edges.length := by
    rw [List.map_map]
    rfl
  rw [sources, numbered, List.zipIdx_map_fst]

theorem Renumbers.length_edges_eq {renumber : StateId → StateId}
    (renumbers : Renumbers renumber first second) :
    (generate second).edges.length = (generate first).edges.length := by
  rw [length_edges, length_edges]
  refine (renumbers.perm_measures fun id state found isState isFound => ?_).sum_nat
  obtain ⟨_, isOther, -, sameEdges⟩ := renumbers.states id state isState
  rw [isFound] at isOther
  cases isOther
  simpa [namedEdges] using sameEdges.length_eq

end Automaton

end ShiftReduce
