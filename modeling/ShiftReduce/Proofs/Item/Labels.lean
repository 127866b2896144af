import ShiftReduce.Proofs.Item.Closed
import ShiftReduce.Item.Successor

/-!
# Labels, kernels and successors

The labels of a set are the symbols that its items have next, strictly increasing
(`mem_labels_iff`, `labels_increasing`). The kernel over a label holds the advanced items
(`mem_kernel_iff`), and it is empty exactly when the symbol is no label. Every item of a successor
that has its dot behind a symbol has it behind the label (`behind_label`).

All of this depends on the members of a set alone, and not on their order.
-/

set_option autoImplicit false

namespace ShiftReduce

/-! ## The order of symbols -/

namespace Symbol

/-- Whether a symbol comes before another one: terminals come first, and each kind is ordered by
number. -/
def Before : Symbol → Symbol → Prop
  | .terminal first, .terminal second => first.index < second.index
  | .terminal _, .nonterminal _ => True
  | .nonterminal _, .terminal _ => False
  | .nonterminal first, .nonterminal second => first.index < second.index

theorem compare_eq_lt_iff (first second : Symbol) :
    compare first second = .lt ↔ first.Before second := by
  cases first <;> cases second
  · exact Nat.compare_eq_lt
  · exact ⟨fun _ => trivial, fun _ => rfl⟩
  · exact ⟨Ordering.noConfusion, False.elim⟩
  · exact Nat.compare_eq_lt

theorem compare_eq_gt_iff (first second : Symbol) :
    compare first second = .gt ↔ second.Before first := by
  cases first <;> cases second
  · exact Nat.compare_eq_gt
  · exact ⟨Ordering.noConfusion, False.elim⟩
  · exact ⟨fun _ => trivial, fun _ => rfl⟩
  · exact Nat.compare_eq_gt

theorem eq_of_compare_eq {first second : Symbol} (equal : compare first second = .eq) :
    first = second := by
  cases first <;> cases second
  · exact congrArg (fun index => Symbol.terminal ⟨index⟩) (Nat.compare_eq_eq.1 equal)
  · exact Ordering.noConfusion equal
  · exact Ordering.noConfusion equal
  · exact congrArg (fun index => Symbol.nonterminal ⟨index⟩) (Nat.compare_eq_eq.1 equal)

theorem Before.trans {first second third : Symbol} (earlier : first.Before second)
    (later : second.Before third) : first.Before third := by
  cases first <;> cases second <;> cases third
  all_goals simp only [Before] at earlier later ⊢
  all_goals exact Nat.lt_trans earlier later

theorem Before.irrefl (symbol : Symbol) : ¬symbol.Before symbol := by
  cases symbol <;> exact Nat.lt_irrefl _

/-- Symbols in increasing order, none of them twice. -/
def Increasing (symbols : List Symbol) : Prop :=
  symbols.Pairwise Before

/-- Inserting adds one symbol. -/
theorem mem_insertInto (symbol inserted : Symbol) (symbols : List Symbol) :
    symbol ∈ inserted.insertInto symbols ↔ symbol = inserted ∨ symbol ∈ symbols := by
  induction symbols with
  | nil => simp [insertInto]
  | cons first rest ih =>
      unfold insertInto
      split
      · simp
      · next equal =>
        rw [eq_of_compare_eq equal]
        simp
      · simp only [List.mem_cons, ih, or_left_comm]

/-- Inserting keeps symbols in increasing order. -/
theorem increasing_insertInto (symbol : Symbol) {symbols : List Symbol}
    (increasing : Increasing symbols) : Increasing (symbol.insertInto symbols) := by
  induction symbols with
  | nil => simp [Increasing, insertInto]
  | cons first rest ih =>
      obtain ⟨first_lt, rest_increasing⟩ := List.pairwise_cons.1 increasing
      unfold insertInto
      split
      · next below =>
        refine List.pairwise_cons.2 ⟨fun other member => ?_, increasing⟩
        rcases List.mem_cons.1 member with rfl | isRest
        · exact (compare_eq_lt_iff _ _).1 below
        · exact ((compare_eq_lt_iff _ _).1 below).trans (first_lt other isRest)
      · exact increasing
      · next above =>
        refine List.pairwise_cons.2 ⟨fun other member => ?_, ih rest_increasing⟩
        rcases (mem_insertInto other symbol rest).1 member with rfl | isRest
        · exact (compare_eq_gt_iff _ _).1 above
        · exact first_lt other isRest

/-- Symbols in increasing order are different. -/
theorem Increasing.nodup {symbols : List Symbol} (increasing : Increasing symbols) :
    symbols.Nodup := by
  refine increasing.imp fun {first second} before equal => ?_
  subst equal
  exact Before.irrefl first before

end Symbol

namespace ItemSet

variable {grammar : Grammar}

/-! ## Labels -/

/-- What inserting symbols one after the other gives. -/
theorem foldl_insertInto (symbols start : List Symbol) (increasing : Symbol.Increasing start) :
    Symbol.Increasing (symbols.foldl (fun labels label => label.insertInto labels) start) ∧
      ∀ label, label ∈ symbols.foldl (fun labels label => label.insertInto labels) start ↔
        label ∈ start ∨ label ∈ symbols := by
  induction symbols generalizing start with
  | nil => simp [increasing]
  | cons first rest ih =>
      obtain ⟨result_increasing, mem_result⟩ :=
        ih (first.insertInto start) (Symbol.increasing_insertInto first increasing)
      refine ⟨result_increasing, fun label => ?_⟩
      rw [List.foldl_cons, mem_result, Symbol.mem_insertInto, List.mem_cons, or_assoc,
        or_left_comm]

/-- The labels of a set are in increasing order. -/
theorem labels_increasing (set : ItemSet) : Symbol.Increasing (set.labels grammar) :=
  (foldl_insertInto _ [] List.Pairwise.nil).1

/-- The labels of a set are the symbols that its items have next. -/
theorem mem_labels_iff (set : ItemSet) (label : Symbol) :
    label ∈ set.labels grammar ↔
      ∃ item ∈ set.items, item.nextSymbol? grammar = some label := by
  have mem_fold := (foldl_insertInto (set.items.filterMap (Item.nextSymbol? grammar)) []
    List.Pairwise.nil).2 label
  simpa [labels] using mem_fold

/-! ## Kernels and successors -/

/-- The kernel over a label holds the advanced items that have the label next. -/
theorem mem_kernel_iff (set : ItemSet) (label : Symbol) (advanced : Item) :
    advanced ∈ set.kernel grammar label ↔
      ∃ item ∈ set.items, item.nextSymbol? grammar = some label ∧
        advanced = { item with dot := item.dot + 1 } := by
  simp only [kernel, List.mem_filterMap, Item.advanceOver?_eq_some_iff]

/-- A successor over a label holds an item with its dot behind a symbol. -/
theorem exists_behind_of_label {set : ItemSet} {label : Symbol}
    (isLabel : label ∈ set.labels grammar) :
    ∃ item ∈ (set.successor grammar label).items, item.dot ≠ 0 := by
  obtain ⟨item, isItem, next⟩ := (set.mem_labels_iff label).1 isLabel
  exact ⟨_, mem_closure_of_seed ((set.mem_kernel_iff label _).2 ⟨item, isItem, next, rfl⟩),
    Nat.succ_ne_zero item.dot⟩

/-- An item of a successor that has its dot behind a symbol has it behind the label. -/
theorem behind_label {set : ItemSet} {label : Symbol} {item : Item}
    (member : item ∈ (set.successor grammar label).items) (behind : item.dot ≠ 0) :
    (item.right grammar)[item.dot - 1]? = some label := by
  rcases mem_seed_or_dot_eq_zero member with isKernel | front
  · obtain ⟨source, -, next, rfl⟩ := (set.mem_kernel_iff label item).1 isKernel
    exact next
  · exact absurd front behind

end ItemSet

end ShiftReduce
