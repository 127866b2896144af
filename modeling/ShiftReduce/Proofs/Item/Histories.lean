import Mathlib.Data.Finset.Card
import Mathlib.Data.Finset.Dedup
import Mathlib.Logic.Function.Basic
import ShiftReduce.Proofs.Grammar.Appearance
import ShiftReduce.Proofs.Item.Walk

/-!
# Item sets over their histories

Item sets are made from lists, grow by single items and by lists of items, and are copied
(`ItemSet.Operation`). Whatever is done to a number of sets, each of them is the set of the list of
all items that were ever inserted into it, or into the sets that it was copied from
(`run_eq_ofList`). So it keeps these items once, in the order of their first insertion.

The order of items is a strict order in which any two of them are comparable (`Before`). Sorting a
set gives the one list of its members in this order. So two sets with the same members, whatever
their histories, are told apart neither by their members nor by the sorted lists, and two other sets
are told apart by both (`reflects_run`).
-/

set_option autoImplicit false

namespace ShiftReduce

/-! ## The order of items -/

/-- Stored productions come in the order of their positions, and before the accepting one. -/
def ProductionId.Before : ProductionId → ProductionId → Prop
  | .stored first, .stored second => first < second
  | .stored _, .accept => True
  | .accept, _ => False

namespace Item

/-- Whether an item comes before another one: by production, then by dot, then by lookahead. -/
def Before (first second : Item) : Prop :=
  first.production.Before second.production ∨ first.production = second.production ∧
    (first.dot < second.dot ∨
      first.dot = second.dot ∧ first.lookahead.index < second.lookahead.index)

end Item

namespace ProductionId

theorem compare_eq_lt_iff (first second : ProductionId) :
    compare first second = .lt ↔ first.Before second := by
  cases first <;> cases second
  · exact Nat.compare_eq_lt
  · exact ⟨fun _ => trivial, fun _ => rfl⟩
  · exact ⟨Ordering.noConfusion, False.elim⟩
  · exact ⟨Ordering.noConfusion, False.elim⟩

theorem compare_eq_eq_iff (first second : ProductionId) :
    compare first second = .eq ↔ first = second := by
  cases first <;> cases second
  · rw [stored.injEq]
    exact Nat.compare_eq_eq
  · exact ⟨Ordering.noConfusion, ProductionId.noConfusion⟩
  · exact ⟨Ordering.noConfusion, ProductionId.noConfusion⟩
  · exact ⟨fun _ => rfl, fun _ => rfl⟩

theorem Before.trans {first second third : ProductionId} (earlier : first.Before second)
    (later : second.Before third) : first.Before third := by
  cases first <;> cases second <;> cases third
  all_goals simp only [Before] at earlier later ⊢
  exact Nat.lt_trans earlier later

theorem Before.irrefl (id : ProductionId) : ¬id.Before id := by
  cases id
  · exact Nat.lt_irrefl _
  · exact not_false

theorem before_trichotomy (first second : ProductionId) :
    first.Before second ∨ first = second ∨ second.Before first := by
  cases first <;> cases second
  · simpa [Before] using Nat.lt_trichotomy _ _
  · exact .inl trivial
  · exact .inr (.inr trivial)
  · exact .inr (.inl rfl)

end ProductionId

namespace Item

/-- Items are compared by production, then by dot, then by the number of the lookahead. -/
theorem compare_eq_then (first second : Item) :
    compare first second = (compare first.production second.production).then
      ((compare first.dot second.dot).then
        (compare first.lookahead.index second.lookahead.index)) :=
  rfl

theorem compare_eq_lt_iff (first second : Item) :
    compare first second = .lt ↔ first.Before second := by
  rw [compare_eq_then, Ordering.then_eq_lt, Ordering.then_eq_lt, ProductionId.compare_eq_lt_iff,
    ProductionId.compare_eq_eq_iff, Nat.compare_eq_lt, Nat.compare_eq_lt, Nat.compare_eq_eq]
  exact Iff.rfl

theorem compare_eq_eq_iff (first second : Item) :
    compare first second = .eq ↔ first = second := by
  rw [compare_eq_then, Ordering.then_eq_eq, Ordering.then_eq_eq, ProductionId.compare_eq_eq_iff,
    Nat.compare_eq_eq, Nat.compare_eq_eq]
  obtain ⟨production, dot, ⟨lookahead⟩⟩ := first
  obtain ⟨production', dot', ⟨lookahead'⟩⟩ := second
  rw [Item.mk.injEq, Terminal.mk.injEq]

theorem Before.trans {first second third : Item} (earlier : first.Before second)
    (later : second.Before third) : first.Before third := by
  rcases earlier with earlier | ⟨same, earlier⟩
  · rcases later with later | ⟨same, -⟩
    · exact .inl (earlier.trans later)
    · exact .inl (same ▸ earlier)
  · rcases later with later | ⟨same', later⟩
    · exact .inl (same ▸ later)
    · exact .inr ⟨same.trans same', by omega⟩

theorem Before.irrefl (item : Item) : ¬item.Before item := by
  rintro (earlier | ⟨-, earlier | ⟨-, earlier⟩⟩)
  · exact ProductionId.Before.irrefl _ earlier
  · exact Nat.lt_irrefl _ earlier
  · exact Nat.lt_irrefl _ earlier

/-- **Any two items are comparable.** -/
theorem before_trichotomy (first second : Item) :
    first.Before second ∨ first = second ∨ second.Before first := by
  obtain ⟨production, dot, ⟨lookahead⟩⟩ := first
  obtain ⟨production', dot', ⟨lookahead'⟩⟩ := second
  rcases ProductionId.before_trichotomy production production' with earlier | rfl | later
  · exact .inl (.inl earlier)
  · simp only [Before, ProductionId.Before.irrefl, Item.mk.injEq, Terminal.mk.injEq, true_and,
      false_or]
    omega
  · exact .inr (.inr (.inl later))

theorem isLE_compare_iff (first second : Item) :
    (compare first second).isLE = true ↔ first.Before second ∨ first = second := by
  rw [Ordering.isLE_iff_eq_lt_or_eq_eq, compare_eq_lt_iff, compare_eq_eq_iff]

/-- **Sorting puts different items into their order.** -/
theorem pairwise_sort {items : List Item} (distinct : items.Nodup) :
    (sort items).Pairwise Before := by
  have sorted : (sort items).Pairwise fun first second => (compare first second).isLE = true := by
    refine List.pairwise_mergeSort (fun first second third earlier later => ?_)
      (fun first second => ?_) items
    · rw [isLE_compare_iff] at earlier later ⊢
      rcases earlier with earlier | rfl
      · rcases later with later | rfl
        · exact .inl (earlier.trans later)
        · exact .inl earlier
      · exact later
    · rw [Bool.or_eq_true, isLE_compare_iff, isLE_compare_iff]
      rcases before_trichotomy first second with earlier | same | later
      · exact .inl (.inl earlier)
      · exact .inl (.inr same)
      · exact .inr (.inl later)
  have apart : (sort items).Pairwise (· ≠ ·) := (List.mergeSort_perm items _).nodup_iff.2 distinct
  refine (sorted.and apart).imp fun ⟨atMost, different⟩ => ?_
  exact ((isLE_compare_iff _ _).1 atMost).resolve_right different

end Item

namespace ItemSet

/-! ## Sorted sets -/

theorem sorted_perm (set : ItemSet) : set.sorted.Perm set.items :=
  List.mergeSort_perm set.items _

/-- **The sorted list tells which set it is, and nothing else.** -/
theorem sorted_eq_iff (first second : ItemSet) :
    first.sorted = second.sorted ↔ ∀ item, item ∈ first ↔ item ∈ second := by
  constructor
  · intro equal item
    rw [mem_iff, mem_iff, ← first.sorted_perm.mem_iff, ← second.sorted_perm.mem_iff, equal]
  · intro same
    have perm : first.items.Perm second.items :=
      (List.perm_ext_iff_of_nodup first.nodup second.nodup).2 same
    refine List.Perm.eq_of_pairwise (fun item other _ _ earlier later => ?_)
      (Item.pairwise_sort first.nodup) (Item.pairwise_sort second.nodup)
      ((first.sorted_perm.trans perm).trans second.sorted_perm.symm)
    exact absurd (earlier.trans later) (Item.Before.irrefl item)

/-! ## What happens to sets -/

/-- What is done to item sets that are kept under numbers. -/
inductive Operation where
  /-- A set is made from the items of a list. -/
  | collect (target : Nat) (items : List Item)
  /-- An item is inserted. -/
  | insert (target : Nat) (item : Item)
  /-- Items are inserted one after the other. -/
  | extend (target : Nat) (items : List Item)
  /-- A set is copied. -/
  | clone (target source : Nat)

/-- The sets behind an operation. -/
def Operation.apply (sets : Nat → ItemSet) : Operation → Nat → ItemSet
  | .collect target items => Function.update sets target (.ofList items)
  | .insert target item => Function.update sets target ((sets target).insertNew item).2
  | .extend target items => Function.update sets target ((sets target).extend items)
  | .clone target source => Function.update sets target (sets source)

/-- The sets behind a history, which begins with empty ones. -/
def run (history : List Operation) : Nat → ItemSet :=
  history.foldl Operation.apply fun _ => .empty

/-- The items that were ever inserted, behind an operation. -/
def Operation.record (inserted : Nat → List Item) : Operation → Nat → List Item
  | .collect target items => Function.update inserted target items
  | .insert target item => Function.update inserted target (inserted target ++ [item])
  | .extend target items => Function.update inserted target (inserted target ++ items)
  | .clone target source => Function.update inserted target (inserted source)

/-- The items that were ever inserted into each set, or into those that it was copied from, in the
order of their insertion. -/
def inserted (history : List Operation) : Nat → List Item :=
  history.foldl Operation.record fun _ => []

theorem ofList_append (items more : List Item) :
    ofList (items ++ more) = (ofList items).extend more :=
  List.foldl_append

/-- An operation makes the sets of the lists that it records. -/
theorem Operation.apply_ofList (operation : Operation) (inserted : Nat → List Item) :
    operation.apply (fun slot => ofList (inserted slot)) =
      fun slot => ofList (operation.record inserted slot) := by
  cases operation with
  | collect target items => exact (Function.comp_update ofList inserted target _).symm
  | insert target item =>
      refine Eq.trans ?_ (Function.comp_update ofList inserted target _).symm
      rw [ofList_append]
      rfl
  | extend target items =>
      refine Eq.trans ?_ (Function.comp_update ofList inserted target _).symm
      rw [ofList_append]
      rfl
  | clone target source => exact (Function.comp_update ofList inserted target _).symm

/-- **A set is the set of all items that were ever inserted.** -/
theorem run_eq_ofList (history : List Operation) (slot : Nat) :
    run history slot = ofList (inserted history slot) := by
  suffices general : ∀ lists : Nat → List Item,
      history.foldl Operation.apply (fun slot => ofList (lists slot)) =
        fun slot => ofList (history.foldl Operation.record lists slot) by
    exact congrFun (general fun _ => []) slot
  induction history with
  | nil => exact fun _ => rfl
  | cons operation history ih =>
      intro lists
      rw [List.foldl_cons, operation.apply_ofList, ih, List.foldl_cons]

/-! ## The laws of histories -/

/-- What a set tells of the items that were inserted into it. -/
structure Reflects (inserted : List Item) (set : ItemSet) : Prop where
  /-- No item is there twice. -/
  nodup : set.items.Nodup
  /-- The set has the inserted items. -/
  mem_iff : ∀ item, item ∈ set ↔ item ∈ inserted
  /-- They are in the order of their first insertion. -/
  ordered : set.items.Pairwise fun first second => inserted.idxOf first < inserted.idxOf second
  /-- The size counts the different ones. -/
  size : set.size = inserted.toFinset.card
  /-- Inserting an item tells whether it is new. -/
  insertNew : ∀ item, (set.insertNew item).1 = true ↔ item ∉ inserted
  /-- Sorting keeps the items and puts them into their order. -/
  sorted : set.sorted.Perm set.items ∧ set.sorted.Pairwise Item.Before

/-- Inserting makes a set larger exactly when the item is new. -/
theorem insertNew_iff (set : ItemSet) (item : Item) :
    (set.insertNew item).1 = true ↔ item ∉ set.items := by
  by_cases present : item ∈ set.items <;> simp [ItemSet.insertNew, insert, size, present]

theorem reflects_ofList (items : List Item) : Reflects items (ofList items) := by
  constructor
  case nodup => exact (ofList items).nodup
  case mem_iff => exact mem_ofList items
  case ordered =>
    rw [items_ofList]
    exact List.pairwise_map.1 (pairwise_idxOf_eraseDups items)
  case size =>
    have members : (ofList items).items.toFinset = items.toFinset := by
      ext item
      rw [List.mem_toFinset, mem_ofList, List.mem_toFinset]
    rw [← members, List.toFinset_card_of_nodup (ofList items).nodup]
    rfl
  case insertNew =>
    intro item
    rw [insertNew_iff, mem_ofList]
  case sorted => exact ⟨sorted_perm _, Item.pairwise_sort (ofList items).nodup⟩

/-- **Sets keep what was inserted in the order of first insertion, and sets with the same members
are the same.** -/
theorem reflects_run (history other : List Operation) (slot place : Nat) :
    Reflects (inserted history slot) (run history slot) ∧
      ((run history slot).same (run other place) = true ↔
        ∀ item, item ∈ run history slot ↔ item ∈ run other place) ∧
      ((∀ item, item ∈ run history slot ↔ item ∈ run other place) ↔
        (run history slot).sorted = (run other place).sorted) := by
  refine ⟨?_, same_iff _ _, (sorted_eq_iff _ _).symm⟩
  rw [run_eq_ofList]
  exact reflects_ofList _

end ItemSet

end ShiftReduce
