import ShiftReduce.Counting
import ShiftReduce.Item.Set

/-!
# Closure of item sets

An item whose dot stands in front of a nonterminal expects one of the productions of that
nonterminal. Closing a set adds the initial items of those productions, each with the lookahead of
the item that expects it, and goes on with the added items until a whole round adds nothing.

Every round looks at all items in order and inserts what it finds at the end of the round. Only
initial items of listed productions are ever added, with lookaheads that the set already has, so
after finitely many rounds nothing is left to add.
-/

set_option autoImplicit false

namespace ShiftReduce

namespace Item

/-- The items that an item expects directly. -/
def expected (grammar : Grammar) (item : Item) : List Item :=
  match item.nextSymbol? grammar with
  | some (.nonterminal nonterminal) =>
      (grammar.productionsOf nonterminal).map (initial · item.lookahead)
  | _ => []

end Item

/-- The productions that are listed under some nonterminal. -/
def Grammar.listed (grammar : Grammar) : List ProductionId :=
  grammar.alternatives.toList.flatMap fun positions => positions.toList.map .stored

/-- The productions of a nonterminal are listed. -/
theorem Grammar.productionsOf_subset_listed (grammar : Grammar) (nonterminal : Nonterminal) :
    grammar.productionsOf nonterminal ⊆ grammar.listed := by
  intro id member
  unfold productionsOf at member
  by_cases known : nonterminal.index < grammar.alternatives.size
  · rw [Array.getD_eq_getD_getElem?, Array.getElem?_eq_getElem known, Option.getD_some] at member
    exact List.mem_flatMap.2 ⟨_, by simp, member⟩
  · rw [Array.getD_eq_getD_getElem?, Array.getElem?_eq_none (Nat.le_of_not_lt known)] at member
    simp at member

namespace Item

/-- An expected item is the initial item of a listed production, and keeps the lookahead. -/
theorem expected_origin (grammar : Grammar) (item found : Item)
    (member : found ∈ item.expected grammar) :
    ∃ id ∈ grammar.listed, found = initial id item.lookahead := by
  unfold expected at member
  split at member
  · obtain ⟨id, isProduction, rfl⟩ := List.mem_map.1 member
    exact ⟨id, grammar.productionsOf_subset_listed _ isProduction, rfl⟩
  · simp at member

end Item

namespace ItemSet

/-- What the items of a set expect directly, in the order in which a round finds it. -/
def expected (grammar : Grammar) (set : ItemSet) : List Item :=
  set.items.flatMap (Item.expected grammar)

/-- The set after one round of closing. -/
def round (grammar : Grammar) (set : ItemSet) : ItemSet :=
  set.extend (set.expected grammar)

/-! ## Why the rounds end -/

/-- The lookaheads of the items of a set, each once. -/
def lookaheads (set : ItemSet) : List Terminal :=
  (set.items.map Item.lookahead).eraseDups

/-- All items that closing a set could ever add. -/
def candidates (grammar : Grammar) (set : ItemSet) : List Item :=
  set.lookaheads.flatMap fun lookahead => grammar.listed.map (Item.initial · lookahead)

/-- How many candidates are not in the set yet. -/
def missing (grammar : Grammar) (set : ItemSet) : Nat :=
  (set.candidates grammar).countP fun item => !set.contains item

/-- What the items of a set expect is among the candidates. -/
theorem expected_subset_candidates (grammar : Grammar) (set : ItemSet) :
    set.expected grammar ⊆ set.candidates grammar := by
  intro found member
  obtain ⟨item, isItem, isExpected⟩ := List.mem_flatMap.1 member
  obtain ⟨id, isListed, rfl⟩ := item.expected_origin grammar found isExpected
  refine List.mem_flatMap.2 ⟨item.lookahead, ?_, List.mem_map.2 ⟨id, isListed, rfl⟩⟩
  rw [lookaheads, List.mem_eraseDups]
  exact List.mem_map_of_mem isItem

/-- Inserting what a set expects brings in no new lookahead. -/
theorem lookaheads_extend (grammar : Grammar) (set : ItemSet) {inserted : List Item}
    (areExpected : inserted ⊆ set.expected grammar) :
    (set.extend inserted).lookaheads = set.lookaheads := by
  obtain ⟨added, result, isInserted⟩ := set.items_extend inserted
  have known : (added.map Item.lookahead).removeAll (set.items.map Item.lookahead) = [] := by
    rw [List.removeAll, List.filter_eq_nil_iff]
    intro lookahead member
    obtain ⟨found, isAdded, rfl⟩ := List.mem_map.1 member
    obtain ⟨item, isItem, fromItem⟩ := List.mem_flatMap.1 (areExpected (isInserted isAdded))
    obtain ⟨id, -, rfl⟩ := item.expected_origin grammar found fromItem
    simp only [Item.initial, Bool.not_eq_true', Bool.not_eq_false, List.elem_eq_mem,
      decide_eq_true_eq]
    exact List.mem_map_of_mem isItem
  rw [lookaheads, result, List.map_append, List.eraseDups_append, known]
  simp [lookaheads]

/-- Inserting something new that a set expects leaves fewer candidates missing. -/
theorem missing_extend_lt (grammar : Grammar) (set : ItemSet) {inserted : List Item}
    (areExpected : inserted ⊆ set.expected grammar) {witness : Item}
    (isInserted : witness ∈ inserted) (isNew : witness ∉ set.items) :
    (set.extend inserted).missing grammar < set.missing grammar := by
  have sameCandidates : (set.extend inserted).candidates grammar = set.candidates grammar := by
    rw [candidates, set.lookaheads_extend grammar areExpected, candidates]
  rw [missing, sameCandidates, missing]
  refine countP_lt_of_witness ?_
    (expected_subset_candidates grammar set (areExpected isInserted)) ?_ ?_
  · intro item _ isMissing
    simp only [contains, mem_iff, mem_extend, not_or, Bool.not_eq_true', decide_eq_false_iff_not]
      at isMissing ⊢
    exact isMissing.1
  · simpa [contains, mem_iff] using isNew
  · simp [contains, mem_iff, isInserted]

/-- A round that changes the size of a set leaves fewer candidates missing. -/
theorem missing_round_lt (grammar : Grammar) (set : ItemSet)
    (grown : ¬(set.round grammar).size = set.size) :
    (set.round grammar).missing grammar < set.missing grammar := by
  obtain ⟨added, result, isExpected⟩ := set.items_extend (set.expected grammar)
  have result : (set.round grammar).items = set.items ++ added := result
  cases added with
  | nil => exact absurd (by simp [size, result]) grown
  | cons witness rest =>
    have isNew : witness ∉ set.items := by
      have distinct := (set.round grammar).nodup
      rw [result, List.nodup_append] at distinct
      intro old
      exact distinct.2.2 witness old witness List.mem_cons_self rfl
    exact missing_extend_lt grammar set (List.Subset.refl _) (isExpected List.mem_cons_self) isNew

/-! ## Closing -/

/-- Add rounds until one of them adds nothing. -/
def saturate (grammar : Grammar) (set : ItemSet) : ItemSet :=
  let wider := set.round grammar
  if _ : wider.size = set.size then set else saturate grammar wider
termination_by set.missing grammar
decreasing_by exact missing_round_lt grammar set (by assumption)

end ItemSet

/-- The closure of the items of a list. -/
def closure (grammar : Grammar) (seed : List Item) : ItemSet :=
  (ItemSet.ofList seed).saturate grammar

/-- What holds of the seed and passes from an item to those that it expects holds of the whole
closure. -/
theorem closure_induction (grammar : Grammar) (seed : List Item) (motive : Item → Prop)
    (ofSeed : ∀ item ∈ seed, motive item)
    (ofExpected : ∀ item, motive item → ∀ found ∈ item.expected grammar, motive found) :
    ∀ item ∈ (closure grammar seed).items, motive item := by
  suffices general : ∀ set : ItemSet, (∀ item ∈ set.items, motive item) →
      ∀ item ∈ (set.saturate grammar).items, motive item by
    exact general _ fun item member => ofSeed item ((ItemSet.mem_ofList seed item).1 member)
  intro set holds
  fun_induction ItemSet.saturate grammar set with
  | case1 => exact holds
  | case2 set wider grown ih =>
    refine ih fun item member => ?_
    rcases (ItemSet.mem_extend set _ item).1 member with old | new
    · exact holds item old
    · obtain ⟨source, isSource, isFound⟩ := List.mem_flatMap.1 new
      exact ofExpected source (holds source isSource) item isFound

end ShiftReduce
