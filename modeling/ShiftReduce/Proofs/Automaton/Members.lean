import ShiftReduce.Proofs.Automaton.Validity
import ShiftReduce.Proofs.Grammar.WellFormed

/-!
# The items of the states

What the first set has, and passes on to the sets that it leads to, all sets have that the discovery
finds (`Exploration.forall_run`). In this way the place of the accepting item is found: wherever an
item of the accepting production occurs, it is the first item of its state (`head?_of_accept`).

In a well-formed grammar valid items, and so the items of states, have the accepting production or a
canonical one, and the end of the input as lookahead (`Item.Known`). They expect only symbols that
rules can mention (`Item.Known.mentionable`). A complete item is told from the others of its state
by its production (`eq_of_complete`).
-/

set_option autoImplicit false

namespace ShiftReduce

variable {grammar : Grammar}

/-! ## What all sets have -/

namespace Exploration

variable {motive : ViableSet grammar → Prop}

/-- All sets found so far have a property. -/
def Holds (motive : ViableSet grammar → Prop) (exploration : Exploration grammar) : Prop :=
  ∀ (state : StateId) (viableSet : ViableSet grammar),
    exploration.sets[state]? = some viableSet → motive viableSet

/-- A property passes from a set to those that its labels lead to. -/
def Passes (motive : ViableSet grammar → Prop) : Prop :=
  ∀ viableSet, motive viableSet → ∀ label ∈ viableSet.set.labels grammar,
    motive (viableSet.successor label)

/-- A property that passes on is kept while states are visited. -/
theorem Passes.kept (passes : Passes motive) : Kept (Holds motive) where
  pop _ _ holds := holds
  follow := by
    intro exploration source viableSet labels label rest visiting whole holds state set isSet
    rcases (getElem?_sets_follow _ _ _ _ _ _).1 isSet with old | ⟨-, rfl, -⟩
    · exact holds state set old
    · have isLabel : label ∈ viableSet.set.labels grammar := by
        rw [whole]
        exact List.mem_append_right _ List.mem_cons_self
      exact passes viableSet (holds source viableSet visiting.current) label isLabel

/-- The discovery begins with one set. -/
theorem sets_start (grammar : Grammar) : (start grammar).sets = #[ViableSet.start grammar] := by
  rcases register_cases {} (ViableSet.start grammar) with
    ⟨_, _, _, isKnown, -⟩ | ⟨extended, result, sets, -, -⟩
  · simp at isKnown
  · have isStart : start grammar = extended := congrArg Prod.snd result
    rw [isStart, sets]
    rfl

/-- **A property that the first set has, and that passes on, all sets have in the end.** -/
theorem forall_run (first : motive (.start grammar)) (passes : Passes motive) :
    (start grammar).run.Holds motive := by
  apply passes.kept.run (visited_start grammar)
  intro state viableSet isSet
  have found := Array.mem_of_getElem? isSet
  rw [sets_start, List.mem_toArray, List.mem_singleton] at found
  rwa [found]

end Exploration

/-! ## The place of the accepting item -/

/-- No item expects the accepting production, so in a closure only items of the seed have it. -/
theorem mem_seed_of_accept {seed : List Item} {item : Item}
    (member : item ∈ (closure grammar seed).items) (accepting : item.production = .accept) :
    item ∈ seed := by
  obtain ⟨origin, isSeed, steps⟩ := (mem_closure_iff seed item).1 member
  cases steps with
  | refl => exact isSeed
  | tail _ expects =>
      obtain ⟨nonterminal, -, id, alternative, rfl⟩ := (Item.expects_iff _ _).1 expects
      obtain ⟨index, -, rfl⟩ := List.mem_map.1 alternative
      cases accepting

namespace ItemSet

/-- An item of the accepting production can only be the first item of the set. -/
def AcceptFirst (set : ItemSet) : Prop :=
  ∀ item ∈ set.items, item.production = .accept → set.items.head? = some item

theorem acceptFirst_start : (closure grammar [.start]).AcceptFirst := by
  intro item member accepting
  rw [List.mem_singleton.1 (mem_seed_of_accept member accepting)]
  exact head?_closure .start []

/-- Advancing keeps the order of the items, so the accepting item stays the first one. -/
theorem AcceptFirst.successor {set : ItemSet} (acceptFirst : set.AcceptFirst) (label : Symbol) :
    (set.successor grammar label).AcceptFirst := by
  intro item member accepting
  have inKernel := mem_seed_of_accept member accepting
  obtain ⟨source, isSource, next, rfl⟩ := (set.mem_kernel_iff label item).1 inKernel
  obtain ⟨rest, isItems⟩ := List.head?_eq_some_iff.1 (acceptFirst source isSource accepting)
  have advances : source.advanceOver? grammar label = some { source with dot := source.dot + 1 } :=
    (source.advanceOver?_eq_some_iff grammar label _).2 ⟨next, rfl⟩
  rw [ItemSet.successor, kernel, isItems, List.filterMap_cons, advances]
  exact head?_closure _ _

end ItemSet

namespace Automaton

variable {id : StateId} {state : State} {item : Item}

/-- **An item of the accepting production is the first item of its state.** -/
theorem head?_of_accept (isState : (generate grammar).states[id]? = some state)
    (member : item ∈ state.items) (accepting : item.production = .accept) :
    state.items.items.head? = some item := by
  obtain ⟨viableSet, found, rfl⟩ := (getElem?_generate id state).1 isState
  have everywhere : (Exploration.start grammar).run.Holds fun viableSet =>
      viableSet.set.AcceptFirst :=
    Exploration.forall_run ItemSet.acceptFirst_start
      fun viableSet acceptFirst label _ => acceptFirst.successor label
  exact everywhere id viableSet found item member accepting

end Automaton

/-! ## Productions and symbols of the items -/

/-- The productions that are listed are canonical. -/
theorem Grammar.WellFormed.mem_canonicalIds_of_listed (wellFormed : grammar.WellFormed)
    {id : ProductionId} (isListed : id ∈ grammar.listed) : id ∈ grammar.canonicalIds := by
  obtain ⟨positions, known, isPosition⟩ := List.mem_flatMap.1 isListed
  obtain ⟨index, found⟩ := Array.mem_iff_getElem?.1 (Array.mem_toList_iff.1 known)
  have alternative : id ∈ grammar.productionsOf ⟨index⟩ := by
    rwa [Grammar.productionsOf, Array.getD_eq_getD_getElem?, found]
  exact ((wellFormed.productionsOf _ id).1 alternative).1

/-- An item of the accepting production or of a canonical one, with the end of the input as
lookahead. -/
def Item.Known (grammar : Grammar) (item : Item) : Prop :=
  (item.production = .accept ∨ item.production ∈ grammar.canonicalIds) ∧
    item.lookahead = .endOfInput

/-- A known item mentions only symbols that rules can mention. -/
theorem Item.Known.mentionable {item : Item} (known : item.Known grammar)
    (wellFormed : grammar.WellFormed) {symbol : Symbol}
    (next : item.nextSymbol? grammar = some symbol) : grammar.Mentionable symbol := by
  have mentioned : symbol ∈ item.right grammar := List.mem_of_getElem? next
  rcases known.1 with accepting | isCanonical
  · rw [Item.right, accepting] at mentioned
    rw [List.mem_singleton.1 mentioned]
    exact wellFormed.start
  · exact wellFormed.right _ (Grammar.mem_canonicalIds.1 isCanonical).1 symbol mentioned

/-- Valid items are known. -/
theorem Item.Valid.known {symbols : List Symbol} {item : Item}
    (valid : Item.Valid grammar symbols item) (wellFormed : grammar.WellFormed) :
    item.Known grammar := by
  obtain ⟨isEnd, origin⟩ := valid.origin
  refine ⟨origin.imp_right ?_, isEnd⟩
  rintro ⟨nonterminal, alternative⟩
  exact ((wellFormed.productionsOf _ _).1 alternative).1

namespace Automaton

variable {id : StateId} {state : State} {item : Item}

theorem known_of_mem (wellFormed : grammar.WellFormed)
    (isState : (generate grammar).states[id]? = some state) (member : item ∈ state.items) :
    item.Known grammar := by
  obtain ⟨known, -, isEnd⟩ :=
    (grammar.mem_viableItems_iff item).1 (viable_generate isState item member)
  exact ⟨known.imp_right wellFormed.mem_canonicalIds_of_listed, isEnd⟩

/-- The production of an item of a state is the accepting one, or canonical. -/
theorem production_of_mem (wellFormed : grammar.WellFormed)
    (isState : (generate grammar).states[id]? = some state) (member : item ∈ state.items) :
    item.production = .accept ∨ item.production ∈ grammar.canonicalIds :=
  (known_of_mem wellFormed isState member).1

/-- The items of a state expect symbols that rules can mention. -/
theorem mentionable_of_next (wellFormed : grammar.WellFormed)
    (isState : (generate grammar).states[id]? = some state) (member : item ∈ state.items)
    {symbol : Symbol} (next : item.nextSymbol? grammar = some symbol) :
    grammar.Mentionable symbol :=
  (known_of_mem wellFormed isState member).mentionable wellFormed next

/-- Complete items of one state differ in their productions. -/
theorem eq_of_complete (isState : (generate grammar).states[id]? = some state) {other : Item}
    (member : item ∈ state.items) (complete : item.isComplete grammar = true)
    (otherMember : other ∈ state.items) (otherComplete : other.isComplete grammar = true)
    (same : item.production = other.production) : item = other := by
  obtain ⟨-, inside, isEnd⟩ :=
    (grammar.mem_viableItems_iff item).1 (viable_generate isState item member)
  obtain ⟨-, otherInside, otherIsEnd⟩ :=
    (grammar.mem_viableItems_iff other).1 (viable_generate isState other otherMember)
  have past := of_decide_eq_true complete
  have otherPast := of_decide_eq_true otherComplete
  have sameRight : item.right grammar = other.right grammar := by
    rw [Item.right, same, Item.right]
  rw [sameRight] at past inside
  have sameDot : item.dot = other.dot := by omega
  cases item
  cases other
  simp_all

end Automaton

end ShiftReduce
