import Mathlib.Logic.Relation
import ShiftReduce.Item.Closure

/-!
# Closed sets of items

A set of items is closed when it holds everything that its items expect. The rounds of closing
stop at a closed set, and a set that is closed already is left as it is, with the order of its
items (`saturate_eq_self`).

The closure of a seed consists of the items that some item of the seed expects in finitely many
steps (`mem_closure_iff`). So the seed matters only as a set (`same_closure`), and closing a
closure changes nothing (`closure_closure`).
-/

set_option autoImplicit false

namespace ShiftReduce

variable {grammar : Grammar}

/-! ## What items expect -/

namespace Item

/-- An item expects another one directly. -/
def Expects (grammar : Grammar) (item found : Item) : Prop :=
  found ∈ item.expected grammar

/-- An item expects the initial items of the productions of the nonterminal behind its dot, with
its own lookahead. -/
theorem expects_iff (item found : Item) :
    item.Expects grammar found ↔
      ∃ nonterminal, item.nextSymbol? grammar = some (.nonterminal nonterminal) ∧
        ∃ id ∈ grammar.productionsOf nonterminal, found = initial id item.lookahead := by
  unfold Expects expected
  constructor
  · intro member
    split at member
    · next nonterminal next =>
      obtain ⟨id, isProduction, rfl⟩ := List.mem_map.1 member
      exact ⟨nonterminal, next, id, isProduction, rfl⟩
    · simp at member
  · rintro ⟨nonterminal, next, id, isProduction, rfl⟩
    rw [next]
    exact List.mem_map_of_mem isProduction

end Item

/-! ## Closing a set -/

namespace ItemSet

/-- A set is closed when it holds everything that its items expect. -/
def Closed (grammar : Grammar) (set : ItemSet) : Prop :=
  ∀ item ∈ set.items, ∀ found, item.Expects grammar found → found ∈ set.items

/-- Sets that keep the same items in the same order are equal. -/
theorem eq_of_items {first second : ItemSet} (equal : first.items = second.items) :
    first = second := by
  cases first
  cases second
  cases equal
  rfl

/-- Inserting what is there already changes nothing. -/
theorem extend_eq_self (set : ItemSet) (inserted : List Item) (present : inserted ⊆ set.items) :
    set.extend inserted = set := by
  unfold extend
  induction inserted with
  | nil => rfl
  | cons first rest ih =>
      have here : set.insert first = set := by
        simp [insert, present List.mem_cons_self]
      rw [List.foldl_cons, here]
      exact ih fun item isRest => present (List.mem_cons_of_mem first isRest)

/-- The set of the items of a set is the set, in the same order. -/
theorem ofList_items (set : ItemSet) : ofList set.items = set := by
  have append : ∀ (rest : List Item) (start : ItemSet), (start.items ++ rest).Nodup →
      (start.extend rest).items = start.items ++ rest := by
    intro rest
    induction rest with
    | nil =>
        intro start _
        simp [extend]
    | cons first rest ih =>
        intro start distinct
        have isNew : first ∉ start.items := fun old =>
          (List.nodup_append.1 distinct).2.2 first old first List.mem_cons_self rfl
        have inserted : (start.insert first).items = start.items ++ [first] := by
          simp [insert, isNew]
        have rest_items := ih (start.insert first) (by simpa [inserted] using distinct)
        rw [inserted, List.append_assoc] at rest_items
        exact rest_items
  exact eq_of_items (append set.items empty set.nodup)

/-- A round changes nothing exactly when the set is closed. -/
theorem expected_subset_iff (set : ItemSet) :
    set.expected grammar ⊆ set.items ↔ set.Closed grammar := by
  constructor
  · intro subset item isItem found expects
    exact subset (List.mem_flatMap.2 ⟨item, isItem, expects⟩)
  · intro closed found member
    obtain ⟨item, isItem, expects⟩ := List.mem_flatMap.1 member
    exact closed item isItem found expects

/-- A set that a round does not make larger is closed. -/
theorem closed_of_size_round (set : ItemSet)
    (unchanged : (set.round grammar).size = set.size) : set.Closed grammar := by
  obtain ⟨added, result, -⟩ := set.items_extend (set.expected grammar)
  have none_added : added = [] := by
    have lengths : (set.extend (set.expected grammar)).items.length = set.items.length :=
      unchanged
    rw [result, List.length_append] at lengths
    exact List.eq_nil_of_length_eq_zero (by omega)
  rw [← expected_subset_iff]
  intro found member
  have inserted : found ∈ (set.extend (set.expected grammar)).items :=
    (mem_extend set _ found).2 (Or.inr member)
  simpa [result, none_added] using inserted

/-- The rounds of closing stop at a closed set. -/
theorem closed_saturate (set : ItemSet) : (set.saturate grammar).Closed grammar := by
  fun_induction saturate grammar set with
  | case1 set wider unchanged => exact closed_of_size_round set unchanged
  | case2 set wider grown ih => exact ih

/-- Closing keeps the items of the set in front of the added ones. -/
theorem items_saturate (set : ItemSet) :
    ∃ added, (set.saturate grammar).items = set.items ++ added := by
  fun_induction saturate grammar set with
  | case1 => exact ⟨[], (List.append_nil _).symm⟩
  | case2 set wider grown ih =>
    obtain ⟨later, closed⟩ := ih
    obtain ⟨found, widened, -⟩ := set.items_extend (set.expected grammar)
    refine ⟨found ++ later, ?_⟩
    rw [closed, ← List.append_assoc, ← widened]
    rfl

/-- Closing loses no item. -/
theorem subset_saturate (set : ItemSet) : set.items ⊆ (set.saturate grammar).items := by
  obtain ⟨added, closed⟩ := @items_saturate grammar set
  rw [closed]
  exact List.subset_append_left _ _

/-- A closed set is left as it is, with the order of its items. -/
theorem saturate_eq_self (set : ItemSet) (closed : set.Closed grammar) :
    set.saturate grammar = set := by
  have still : set.round grammar = set :=
    set.extend_eq_self _ ((expected_subset_iff set).2 closed)
  unfold saturate
  simp [still]

end ItemSet

/-! ## The closure of a seed -/

/-- The closure of a seed is closed. -/
theorem closed_closure (seed : List Item) : (closure grammar seed).Closed grammar :=
  ItemSet.closed_saturate (ItemSet.ofList seed)

/-- The closure holds its seed. -/
theorem mem_closure_of_seed {seed : List Item} {item : Item} (member : item ∈ seed) :
    item ∈ (closure grammar seed).items :=
  ItemSet.subset_saturate _ ((ItemSet.mem_ofList seed item).2 member)

/-- **The closure holds what its seed expects in finitely many steps, and nothing else.** -/
theorem mem_closure_iff (seed : List Item) (item : Item) :
    item ∈ (closure grammar seed).items ↔
      ∃ origin ∈ seed, Relation.ReflTransGen (Item.Expects grammar) origin item := by
  constructor
  · refine closure_induction grammar seed
      (fun item => ∃ origin ∈ seed, Relation.ReflTransGen (Item.Expects grammar) origin item)
      ?_ ?_ item
    · intro origin isSeed
      exact ⟨origin, isSeed, .refl⟩
    · rintro middle ⟨origin, isSeed, steps⟩ found expects
      exact ⟨origin, isSeed, steps.tail expects⟩
  · rintro ⟨origin, isSeed, steps⟩
    induction steps with
    | refl => exact mem_closure_of_seed isSeed
    | tail _ expects ih => exact closed_closure seed _ ih _ expects

/-- An item of a closure is in the seed, or has its dot in front. -/
theorem mem_seed_or_dot_eq_zero {seed : List Item} {item : Item}
    (member : item ∈ (closure grammar seed).items) : item ∈ seed ∨ item.dot = 0 := by
  obtain ⟨origin, isSeed, steps⟩ := (mem_closure_iff seed item).1 member
  cases steps with
  | refl => exact Or.inl isSeed
  | tail _ expects =>
      obtain ⟨_, _, _, _, rfl⟩ := (Item.expects_iff _ _).1 expects
      exact Or.inr rfl

/-- The items of a closure begin with the seed, each item at its first place there. -/
theorem items_closure (seed : List Item) :
    ∃ added, (closure grammar seed).items = (ItemSet.ofList seed).items ++ added :=
  ItemSet.items_saturate (ItemSet.ofList seed)

/-- The first item of a seed is the first item of its closure. -/
theorem head?_closure (first : Item) (rest : List Item) :
    (closure grammar (first :: rest)).items.head? = some first := by
  obtain ⟨added, closed⟩ := @items_closure grammar (first :: rest)
  obtain ⟨inserted, seeded, -⟩ := (ItemSet.empty.insert first).items_extend rest
  have isFirst : (ItemSet.ofList (first :: rest)).items = first :: inserted := seeded
  rw [closed, isFirst]
  rfl

/-- Seeds with the same members have the same closure, as a set. -/
theorem same_closure {first second : List Item} (equal : ∀ item, item ∈ first ↔ item ∈ second) :
    ∀ item, item ∈ (closure grammar first).items ↔ item ∈ (closure grammar second).items := by
  intro item
  simp only [mem_closure_iff, equal]

/-- Closing a closed set gives the set back, with the order of its items. -/
theorem closure_items (set : ItemSet) (closed : set.Closed grammar) :
    closure grammar set.items = set := by
  rw [closure, ItemSet.ofList_items]
  exact set.saturate_eq_self closed

/-- Closing a closure changes nothing. -/
theorem closure_closure (seed : List Item) :
    closure grammar (closure grammar seed).items = closure grammar seed :=
  closure_items _ (closed_closure seed)

end ShiftReduce
