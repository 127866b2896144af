import ShiftReduce.Item.Basic

/-!
# Sets of items

A set of items keeps its members in the order in which they were first inserted, which is the order
in which they are processed and printed. Two sets with the same members count as the same set, in
whatever order they keep them; the members sorted in the order of items tell a set from any other.
-/

set_option autoImplicit false

namespace ShiftReduce

/-- Finitely many items without repetition, in the order of their first insertion.

The list stands for a hash set that keeps this order. What is assumed of that set is that it goes
through its members in the order of their insertion, that it leaves a member where it is when it is
inserted again, and that it compares sets without regard to order (`ItemSet.same`). -/
structure ItemSet where
  /-- The items. -/
  items : List Item := []
  /-- No item is kept twice. -/
  nodup : items.Nodup := by simp
deriving DecidableEq

namespace ItemSet

/-- The set without items. -/
def empty : ItemSet := {}

instance : Inhabited ItemSet := ⟨empty⟩

instance : Membership Item ItemSet := ⟨fun set item => item ∈ set.items⟩

instance (item : Item) (set : ItemSet) : Decidable (item ∈ set) :=
  inferInstanceAs (Decidable (item ∈ set.items))

/-- Membership is membership in the list of items. -/
theorem mem_iff (item : Item) (set : ItemSet) : item ∈ set ↔ item ∈ set.items := Iff.rfl

/-- The number of items. -/
def size (set : ItemSet) : Nat := set.items.length

/-- Whether an item belongs to the set. -/
def contains (set : ItemSet) (item : Item) : Bool := decide (item ∈ set)

/-- Insert an item behind the others, unless it is there already. -/
def insert (set : ItemSet) (item : Item) : ItemSet :=
  if present : item ∈ set.items then set
  else
    { items := set.items ++ [item]
      nodup := by
        rw [List.nodup_append]
        refine ⟨set.nodup, by simp, ?_⟩
        intro kept isKept inserted isInserted same
        rw [List.mem_singleton.1 isInserted] at same
        exact present (same ▸ isKept) }

/-- Insert an item, and tell whether the set has grown. -/
def insertNew (set : ItemSet) (item : Item) : Bool × ItemSet :=
  let wider := set.insert item
  (decide (set.size < wider.size), wider)

/-- Insert items one after the other. -/
def extend (set : ItemSet) (items : List Item) : ItemSet :=
  items.foldl insert set

/-- The set of the items of a list. -/
def ofList (items : List Item) : ItemSet :=
  empty.extend items

/-- Whether two sets have the same members. -/
def same (first second : ItemSet) : Bool :=
  first.items.all second.contains && second.items.all first.contains

/-- The members in the order of items. -/
def sorted (set : ItemSet) : List Item :=
  Item.sort set.items

/-! ## What insertion does to the items -/

/-- Inserting adds one member. -/
@[simp] theorem mem_insert (set : ItemSet) (inserted item : Item) :
    item ∈ (set.insert inserted).items ↔ item ∈ set.items ∨ item = inserted := by
  unfold insert
  split
  · next present =>
    constructor
    · exact Or.inl
    · rintro (kept | rfl)
      · exact kept
      · exact present
  · simp

/-- Inserting items adds exactly them. -/
@[simp] theorem mem_extend (set : ItemSet) (inserted : List Item) (item : Item) :
    item ∈ (set.extend inserted).items ↔ item ∈ set.items ∨ item ∈ inserted := by
  unfold extend
  induction inserted generalizing set with
  | nil => simp
  | cons first rest ih =>
    rw [List.foldl_cons, ih, mem_insert, List.mem_cons]
    simp [or_assoc]

/-- The set of a list has the members of the list. -/
@[simp] theorem mem_ofList (items : List Item) (item : Item) :
    item ∈ (ofList items).items ↔ item ∈ items := by
  simp [ofList, empty]

/-- Insertion keeps the earlier items in front, and adds only items that were inserted. -/
theorem items_extend (set : ItemSet) (inserted : List Item) :
    ∃ added, (set.extend inserted).items = set.items ++ added ∧ added ⊆ inserted := by
  unfold extend
  induction inserted generalizing set with
  | nil => exact ⟨[], by simp, by simp⟩
  | cons first rest ih =>
    obtain ⟨added, result, fromRest⟩ := ih (set.insert first)
    rw [List.foldl_cons, result]
    by_cases present : first ∈ set.items
    · refine ⟨added, ?_, fun item isAdded => List.mem_cons_of_mem first (fromRest isAdded)⟩
      simp [insert, present]
    · refine ⟨first :: added, ?_, ?_⟩
      · simp [insert, present]
      · exact List.cons_subset_cons first fromRest

/-- Two sets are the same exactly when they have the same members. -/
theorem same_iff (first second : ItemSet) :
    first.same second = true ↔ ∀ item, item ∈ first.items ↔ item ∈ second.items := by
  simp only [same, contains, mem_iff, Bool.and_eq_true, List.all_eq_true, decide_eq_true_eq]
  exact ⟨fun included item => ⟨included.1 item, included.2 item⟩,
    fun equivalent => ⟨fun item => (equivalent item).1, fun item => (equivalent item).2⟩⟩

end ItemSet

end ShiftReduce
