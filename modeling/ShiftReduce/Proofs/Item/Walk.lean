import Mathlib.Data.List.Induction
import ShiftReduce.Proofs.Item.Closed

/-!
# Closing in one walk

A closure can also be found in one walk along a list that grows at its end: each item in turn has
what it expects appended, unless it is in the list already (`walk`). The rounds of closing look at
all items again and again, and append in batches.

Both give the same items in the same order (`foundByWalk_closure`). A walk over the first part of
what waits appends, all in all, what a batch for that part appends (`walk_append`). The items before
that part have nothing to add, so that a round of closing is a walk from where the last round
stopped to the end of the list (`items_saturate_eq_walk`).
-/

set_option autoImplicit false

namespace ShiftReduce

variable {grammar : Grammar}

/-! ## What is new to a list -/

/-- The items that a list lacks, each once. -/
def additions (known found : List Item) : List Item :=
  (found.removeAll known).eraseDups

theorem mem_additions {known found : List Item} {item : Item} :
    item ∈ additions known found ↔ item ∈ found ∧ item ∉ known := by
  simp [additions, List.removeAll]

theorem additions_eq_nil {known found : List Item} (present : found ⊆ known) :
    additions known found = [] := by
  refine List.eq_nil_iff_forall_not_mem.2 fun item member => ?_
  obtain ⟨isFound, isNew⟩ := mem_additions.1 member
  exact isNew (present isFound)

theorem additions_singleton (known : List Item) (item : Item) :
    additions known [item] = if item ∈ known then [] else [item] := by
  split
  · next present => simp [additions, List.removeAll, present]
  · next isNew => simp [additions, List.removeAll, isNew, List.eraseDups_cons]

/-- What two lists add is what the first one adds and then what the second one adds. -/
theorem additions_append (known first second : List Item) :
    additions known (first ++ second) =
      additions known first ++ additions (known ++ additions known first) second := by
  have later : (second.removeAll known).removeAll (first.removeAll known) =
      second.removeAll (known ++ additions known first) := by
    simp only [List.removeAll, List.filter_filter]
    refine List.filter_congr fun item _ => ?_
    have isAddition := @mem_additions known first item
    by_cases isKnown : item ∈ known <;> by_cases isFirst : item ∈ first <;>
      simp [isAddition, isKnown, isFirst]
  rw [additions, List.removeAll, List.filter_append, List.eraseDups_append]
  exact congrArg (additions known first ++ List.eraseDups ·) later

namespace ItemSet

/-- Inserting items appends those that the set lacks. -/
theorem items_extend_eq (set : ItemSet) (inserted : List Item) :
    (set.extend inserted).items = set.items ++ additions set.items inserted := by
  induction inserted using List.reverseRecOn with
  | nil => simp [extend, additions]
  | append_singleton earlier last ih =>
      have stepwise : set.extend (earlier ++ [last]) = (set.extend earlier).insert last := by
        simp [extend]
      rw [stepwise, additions_append, ← List.append_assoc, ← ih, additions_singleton]
      unfold insert
      split
      · simp
      · simp

/-- The set of a list has its items in the order in which they first appear. -/
theorem items_ofList (items : List Item) : (ofList items).items = items.eraseDups := by
  have all : items.removeAll [] = items := List.filter_eq_self.2 fun _ _ => rfl
  rw [ofList, items_extend_eq, additions, empty, all, List.nil_append]

/-- Visiting an item of a list appends candidates that were missing, or nothing. -/
theorem missing_append_additions_lt (list : List Item) {item : Item} (member : item ∈ list)
    (grows : additions list (item.expected grammar) ≠ []) :
    (ofList (list ++ additions list (item.expected grammar))).missing grammar <
      (ofList list).missing grammar := by
  have appended : ofList (list ++ additions list (item.expected grammar)) =
      (ofList list).extend (additions list (item.expected grammar)) := List.foldl_append
  obtain ⟨found, isAddition⟩ := List.exists_mem_of_ne_nil _ grows
  rw [appended]
  refine missing_extend_lt grammar _ (fun other isOther => ?_) isAddition ?_
  · exact List.mem_flatMap.2 ⟨item, (mem_ofList _ _).2 member, (mem_additions.1 isOther).1⟩
  · rw [mem_ofList]
    exact (mem_additions.1 isAddition).2

end ItemSet

/-! ## The walk -/

/-- Each waiting item in turn is visited, and what it expects is appended behind the waiting items
unless it is in the list already. -/
def walk (grammar : Grammar) (visited waiting : List Item) : List Item :=
  match waiting with
  | [] => visited
  | item :: rest =>
    walk grammar (visited ++ [item])
      (rest ++ additions (visited ++ item :: rest) (item.expected grammar))
termination_by ((ItemSet.ofList (visited ++ waiting)).missing grammar, waiting.length)
decreasing_by
  rw [← List.append_assoc, List.append_assoc visited, List.singleton_append]
  by_cases grows : additions (visited ++ item :: rest) (item.expected grammar) = []
  · -- The list stays as it is, and one item less waits in it.
    rw [grows, List.append_nil, List.append_nil]
    exact Prod.Lex.right _ (Nat.lt_succ_self rest.length)
  · have member : item ∈ visited ++ item :: rest := List.mem_append_right _ List.mem_cons_self
    exact Prod.Lex.left _ _ (ItemSet.missing_append_additions_lt _ member grows)

/-- **A walk over the items in front appends what they add together.** -/
theorem walk_append (visited waiting later : List Item) :
    walk grammar visited (waiting ++ later) =
      walk grammar (visited ++ waiting)
        (later ++ additions (visited ++ waiting ++ later)
          (waiting.flatMap (Item.expected grammar))) := by
  induction waiting generalizing visited later with
  | nil => simp [additions, List.removeAll]
  | cons item rest ih =>
      rw [List.cons_append, walk, List.append_assoc rest, ih, List.flatMap_cons, additions_append]
      simp only [List.append_assoc, List.cons_append, List.nil_append]

/-- A walk over all waiting items appends what they add together, and goes on with that. -/
theorem walk_waiting (visited waiting : List Item) :
    walk grammar visited waiting = walk grammar (visited ++ waiting)
      (additions (visited ++ waiting) (waiting.flatMap (Item.expected grammar))) := by
  have whole := @walk_append grammar visited waiting []
  rwa [List.append_nil, List.append_nil, List.nil_append] at whole

/-- A round appends what the waiting items add, when the visited ones have nothing to add. -/
theorem ItemSet.items_round_eq (set : ItemSet) {visited waiting : List Item}
    (isList : set.items = visited ++ waiting)
    (settled : visited.flatMap (Item.expected grammar) ⊆ set.items) :
    (set.round grammar).items =
      set.items ++ additions set.items (waiting.flatMap (Item.expected grammar)) := by
  have inTurn : set.expected grammar = visited.flatMap (Item.expected grammar) ++
      waiting.flatMap (Item.expected grammar) := by
    rw [expected, isList, List.flatMap_append]
  rw [round, items_extend_eq, inTurn, additions_append, additions_eq_nil settled, List.append_nil,
    List.nil_append]

/-- **The rounds of closing find what a walk finds, when the visited items have nothing to add.** -/
theorem ItemSet.items_saturate_eq_walk (set : ItemSet) (visited waiting : List Item)
    (isList : set.items = visited ++ waiting)
    (settled : visited.flatMap (Item.expected grammar) ⊆ set.items) :
    (set.saturate grammar).items = walk grammar visited waiting := by
  fun_induction saturate grammar set generalizing visited waiting with
  | case1 set wider unchanged =>
      -- Nothing is left to add, and the walk ends where the waiting items do.
      have closed : set.expected grammar ⊆ set.items :=
        (expected_subset_iff set).2 (closed_of_size_round set unchanged)
      have present : waiting.flatMap (Item.expected grammar) ⊆ set.items := by
        rw [expected, isList, List.flatMap_append, ← isList] at closed
        exact List.Subset.trans (List.subset_append_right _ _) closed
      rw [walk_waiting, ← isList, additions_eq_nil present, walk]
  | case2 set wider grown ih =>
      have isWider : (set.round grammar).items =
          set.items ++ additions set.items (waiting.flatMap (Item.expected grammar)) :=
        set.items_round_eq isList settled
      have settledNow : set.items.flatMap (Item.expected grammar) ⊆ (set.round grammar).items :=
        fun found member => (mem_extend set _ found).2 (.inr member)
      rw [walk_waiting, ← isList]
      exact ih _ _ isWider settledNow

/-! ## The closure of a seed -/

/-- A closure begins with its seed, each item once, and the items behind it have their dot in
front. -/
theorem items_closure_split (seed : List Item) :
    ∃ added, (closure grammar seed).items = seed.eraseDups ++ added ∧
      ∀ item ∈ added, item.dot = 0 := by
  obtain ⟨added, isClosed⟩ := @items_closure grammar seed
  rw [ItemSet.items_ofList] at isClosed
  refine ⟨added, isClosed, fun item isAdded => ?_⟩
  have member : item ∈ (closure grammar seed).items := by
    rw [isClosed]
    exact List.mem_append_right _ isAdded
  refine (mem_seed_or_dot_eq_zero member).resolve_left fun isSeed => ?_
  have distinct := (closure grammar seed).nodup
  rw [isClosed, List.nodup_append] at distinct
  exact distinct.2.2 item (List.mem_eraseDups.2 isSeed) item isAdded rfl

/-- What makes a set the one that a walk from a seed finds, with the order of its items, and what
the walk appends at each item. -/
structure FoundByWalk (grammar : Grammar) (seed : List Item) (set : ItemSet) : Prop where
  /-- An item in front of a nonterminal expects the productions of the nonterminal, in their order,
  with the dot in front and with its own lookahead. -/
  step : ∀ (item : Item) (nonterminal : Nonterminal),
    item.nextSymbol? grammar = some (.nonterminal nonterminal) →
      item.expected grammar =
        (grammar.productionsOf nonterminal).map fun id => ⟨id, 0, item.lookahead⟩
  /-- Any other item expects nothing. -/
  noStep : ∀ item : Item,
    (∀ nonterminal, item.nextSymbol? grammar ≠ some (.nonterminal nonterminal)) →
      item.expected grammar = []
  /-- The walk begins with the seed, each item once, and appends each other item when it is
  found. -/
  items : set.items = walk grammar [] seed.eraseDups
  /-- The items of the seed come first, and the others have their dot in front. -/
  split : ∃ added, set.items = seed.eraseDups ++ added ∧ ∀ item ∈ added, item.dot = 0
  /-- A seed without repetition that holds all that its items expect is left as it is. -/
  unchanged : seed.Nodup → (∀ item ∈ seed, item.expected grammar ⊆ seed) → set.items = seed
  /-- Closing the set again gives it back, with the order of its items. -/
  again : closure grammar set.items = set

/-- **The closure of a seed is what one walk finds, in the same order.** -/
theorem foundByWalk_closure (grammar : Grammar) (seed : List Item) :
    FoundByWalk grammar seed (closure grammar seed) := by
  constructor
  case step =>
    intro item nonterminal next
    rw [Item.expected, next]
    rfl
  case noStep =>
    intro item other
    refine List.eq_nil_iff_forall_not_mem.2 fun found isExpected => ?_
    obtain ⟨nonterminal, next, -⟩ := (Item.expects_iff item found).1 isExpected
    exact other nonterminal next
  case items =>
    exact (ItemSet.ofList seed).items_saturate_eq_walk [] _ (ItemSet.items_ofList seed)
      (List.nil_subset _)
  case split => exact items_closure_split seed
  case unchanged =>
    intro distinct closed
    have still : closure grammar seed = ⟨seed, distinct⟩ := closure_items ⟨seed, distinct⟩ closed
    rw [still]
  case again => exact closure_closure seed

end ShiftReduce
