import ShiftReduce.Item.Successor

/-!
# The items that states can hold

Starting from the start item, every state is the closure of what another state holds after one
symbol. All items met in this way belong to a finite list: a listed production or the accepting one,
a dot within its right-hand side, and the end of the input as lookahead. There are only finitely
many sets of such items, which is why the discovery of states ends.

A *viable* set is a set of such items. The closure of the start item is viable, and so is the set
that a viable set leads to.
-/

set_option autoImplicit false

namespace ShiftReduce

/-! ## Viable items -/

/-- The items that the states of an automaton can hold. -/
def Grammar.viableItems (grammar : Grammar) : List Item :=
  (.accept :: grammar.listed).flatMap fun id =>
    (List.range ((grammar.production id).right.length + 1)).map fun dot =>
      ⟨id, dot, .endOfInput⟩

/-- An item is viable exactly when its production is accepting or listed, its dot is within the
production, and its lookahead is the end of the input. -/
theorem Grammar.mem_viableItems_iff (grammar : Grammar) (item : Item) :
    item ∈ grammar.viableItems ↔
      (item.production = .accept ∨ item.production ∈ grammar.listed) ∧
        item.dot ≤ (item.right grammar).length ∧ item.lookahead = .endOfInput := by
  simp only [viableItems, List.mem_flatMap, List.mem_cons, List.mem_map, List.mem_range, Item.right]
  constructor
  · rintro ⟨id, isListed, dot, inRange, rfl⟩
    exact ⟨isListed, Nat.le_of_lt_succ inRange, rfl⟩
  · rintro ⟨isListed, inRange, isEnd⟩
    refine ⟨item.production, isListed, item.dot, Nat.lt_succ_of_le inRange, ?_⟩
    rw [← isEnd]

/-- The start item is viable. -/
theorem Item.start_viable (grammar : Grammar) : Item.start ∈ grammar.viableItems := by
  rw [grammar.mem_viableItems_iff]
  exact ⟨Or.inl rfl, Nat.zero_le _, rfl⟩

/-- What a viable item expects is viable. -/
theorem Item.expected_viable (grammar : Grammar) (item : Item)
    (viable : item ∈ grammar.viableItems) :
    ∀ found ∈ item.expected grammar, found ∈ grammar.viableItems := by
  intro found member
  obtain ⟨id, isListed, rfl⟩ := item.expected_origin grammar found member
  rw [grammar.mem_viableItems_iff] at viable ⊢
  exact ⟨Or.inr isListed, Nat.zero_le _, viable.2.2⟩

/-- A viable item stays viable when its dot advances. -/
theorem Item.advanceOver?_viable (grammar : Grammar) (symbol : Symbol) (item advanced : Item)
    (viable : item ∈ grammar.viableItems)
    (advances : item.advanceOver? grammar symbol = some advanced) :
    advanced ∈ grammar.viableItems := by
  obtain ⟨expected, rfl⟩ := (item.advanceOver?_eq_some_iff grammar symbol advanced).1 advances
  rw [grammar.mem_viableItems_iff] at viable ⊢
  obtain ⟨inside, -⟩ := List.getElem?_eq_some_iff.1 expected
  exact ⟨viable.1, inside, viable.2.2⟩

/-- The closure of viable items is viable. -/
theorem closure_viable (grammar : Grammar) (seed : List Item)
    (viable : ∀ item ∈ seed, item ∈ grammar.viableItems) :
    ∀ item ∈ (closure grammar seed).items, item ∈ grammar.viableItems :=
  closure_induction grammar seed (· ∈ grammar.viableItems) viable (Item.expected_viable grammar)

/-! ## Viable sets -/

/-- A set of viable items. -/
structure ViableSet (grammar : Grammar) where
  /-- The set. -/
  set : ItemSet
  /-- Its items are viable. -/
  viable : ∀ item ∈ set.items, item ∈ grammar.viableItems

namespace ViableSet

/-- The set that the discovery of states begins with. -/
def start (grammar : Grammar) : ViableSet grammar where
  set := closure grammar [.start]
  viable := closure_viable grammar [.start] fun _ member =>
    List.mem_singleton.1 member ▸ Item.start_viable grammar

/-- The set that a symbol leads to. -/
def successor {grammar : Grammar} (viableSet : ViableSet grammar) (label : Symbol) :
    ViableSet grammar where
  set := viableSet.set.successor grammar label
  viable := closure_viable grammar _ fun advanced member => by
    obtain ⟨item, isItem, advances⟩ := List.mem_filterMap.1 member
    exact item.advanceOver?_viable grammar label advanced (viableSet.viable item isItem) advances

end ViableSet

end ShiftReduce
