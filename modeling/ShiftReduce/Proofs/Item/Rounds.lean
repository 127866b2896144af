import ShiftReduce.Proofs.Grammar.WellFormed
import ShiftReduce.Proofs.Item.Closed

/-!
# What closing adds, and in how many rounds

A nonterminal begins with another one when one of its canonical productions does (`Begins`). Closing
a seed adds the initial items of the canonical productions of all nonterminals that are reached in
this way from the nonterminals behind the dots of the seed, with the lookaheads of the seed
(`expectsStar_iff`).

A round leaves something to add under a lookahead only if it has completed the productions of some
nonterminal under that lookahead (`unexpanded_round_lt`). So there are no more rounds that add
anything than there are nonterminals with productions, whatever the seed and however many lookaheads
it has (`exists_closes_saturate`). One more round finds that nothing is left to add.
-/

set_option autoImplicit false

namespace ShiftReduce

variable {grammar : Grammar}

/-! ## Nonterminals that begin with others -/

namespace Grammar

/-- A canonical production of the first nonterminal has the second one in front. -/
def Begins (grammar : Grammar) (nonterminal other : Nonterminal) : Prop :=
  ∃ id ∈ grammar.canonicalIds, (grammar.production id).left = nonterminal ∧
    (grammar.production id).right.head? = some (.nonterminal other)

/-- The nonterminals that have productions. -/
def expandable (grammar : Grammar) : List Nonterminal :=
  grammar.nonterminalList.filter fun nonterminal => !(grammar.productionsOf nonterminal).isEmpty

theorem WellFormed.mem_expandable (wellFormed : grammar.WellFormed) {nonterminal : Nonterminal}
    {id : ProductionId} (alternative : id ∈ grammar.productionsOf nonterminal) :
    nonterminal ∈ grammar.expandable := by
  obtain ⟨stored, -, isLeft⟩ := wellFormed.stored_of_productionsOf alternative
  have known := (List.mem_filter.1 (wellFormed.left id stored)).1
  rw [isLeft] at known
  refine List.mem_filter.2 ⟨known, ?_⟩
  simpa using List.ne_nil_of_mem alternative

end Grammar

namespace Item

/-- The productions of all nonterminals that the next one begins with are expected in the end. -/
theorem expectsStar_initial (wellFormed : grammar.WellFormed) {origin : Item}
    {nonterminal other : Nonterminal}
    (next : origin.nextSymbol? grammar = some (.nonterminal nonterminal))
    (reached : Relation.ReflTransGen grammar.Begins nonterminal other) :
    ∀ id ∈ grammar.productionsOf other,
      Relation.ReflTransGen (Expects grammar) origin (initial id origin.lookahead) := by
  induction reached with
  | refl =>
      intro id alternative
      exact .single ((expects_iff _ _).2 ⟨nonterminal, next, id, alternative, rfl⟩)
  | tail _ begins ih =>
      intro id alternative
      obtain ⟨parent, isCanonical, rfl, isHead⟩ := begins
      have before := ih parent ((wellFormed.productionsOf _ parent).2 ⟨isCanonical, rfl⟩)
      rw [List.head?_eq_getElem?] at isHead
      exact before.tail ((expects_iff _ _).2 ⟨_, isHead, id, alternative, rfl⟩)

/-- **What an item expects in finitely many steps.** -/
theorem expectsStar_iff (wellFormed : grammar.WellFormed) (origin item : Item) :
    Relation.ReflTransGen (Expects grammar) origin item ↔
      item = origin ∨ item.dot = 0 ∧ item.production ∈ grammar.canonicalIds ∧
        item.lookahead = origin.lookahead ∧
        ∃ nonterminal, origin.nextSymbol? grammar = some (.nonterminal nonterminal) ∧
          Relation.ReflTransGen grammar.Begins nonterminal
            (grammar.production item.production).left := by
  constructor
  · intro steps
    induction steps with
    | refl => exact .inl rfl
    | @tail middle last _ expects ih =>
        obtain ⟨nonterminal, next, id, alternative, rfl⟩ := (expects_iff middle last).1 expects
        obtain ⟨isCanonical, isLeft⟩ := (wellFormed.productionsOf nonterminal id).1 alternative
        refine .inr ⟨rfl, isCanonical, ?_⟩
        rcases ih with rfl | ⟨front, middleCanonical, same, first, expected, reached⟩
        · exact ⟨rfl, nonterminal, next, isLeft ▸ .refl⟩
        · refine ⟨same, first, expected, reached.tail ⟨_, middleCanonical, rfl, ?_⟩⟩
          rw [nextSymbol?, front, ← List.head?_eq_getElem?] at next
          exact next.trans (congrArg (some ∘ Symbol.nonterminal) isLeft.symm)
  · rintro (rfl | ⟨front, isCanonical, same, nonterminal, expected, reached⟩)
    · exact .refl
    · have isInitial : item = initial item.production origin.lookahead := by
        rw [← same, initial, ← front]
      rw [isInitial]
      exact expectsStar_initial wellFormed expected reached _
        ((wellFormed.productionsOf _ _).2 ⟨isCanonical, rfl⟩)

end Item

/-! ## Rounds -/

namespace ItemSet

/-- Closing a set takes some number of rounds and ends with a set: rounds go on while they make the
set larger, and the last one does not. -/
inductive Closes (grammar : Grammar) : ItemSet → Nat → ItemSet → Prop where
  /-- The round adds nothing. -/
  | last {set : ItemSet} (unchanged : (set.round grammar).size = set.size) :
      Closes grammar set 1 set
  /-- The round makes the set larger, and closing goes on. -/
  | more {set result : ItemSet} {count : Nat} (grown : (set.round grammar).size ≠ set.size) :
      Closes grammar (set.round grammar) count result → Closes grammar set (count + 1) result

/-- Something with a lookahead is expected by an item of the set, and is not there. -/
def Lacks (grammar : Grammar) (set : ItemSet) (lookahead : Terminal) : Prop :=
  ∃ item ∈ set.items, item.lookahead = lookahead ∧
    ∃ found, item.Expects grammar found ∧ found ∉ set.items

/-- Whether the productions of a nonterminal are all there, with a lookahead. -/
def expanded (grammar : Grammar) (set : ItemSet) (lookahead : Terminal)
    (nonterminal : Nonterminal) : Bool :=
  (grammar.productionsOf nonterminal).all fun id => set.contains (.initial id lookahead)

/-- How many nonterminals have productions that are not all there. -/
def unexpanded (grammar : Grammar) (set : ItemSet) (lookahead : Terminal) : Nat :=
  grammar.expandable.countP fun nonterminal => !set.expanded grammar lookahead nonterminal

variable {set : ItemSet} {lookahead : Terminal}

theorem expanded_iff {nonterminal : Nonterminal} :
    set.expanded grammar lookahead nonterminal = true ↔
      ∀ id ∈ grammar.productionsOf nonterminal, Item.initial id lookahead ∈ set.items := by
  simp [expanded, contains, mem_iff]

theorem mem_round {item : Item} :
    item ∈ (set.round grammar).items ↔
      item ∈ set.items ∨ ∃ source ∈ set.items, source.Expects grammar item := by
  rw [round, mem_extend, expected, List.mem_flatMap]
  exact Iff.rfl

/-- What a set lacks belongs to a nonterminal whose productions are not all there. -/
theorem exists_unexpanded {item found : Item} (expects : item.Expects grammar found)
    (missing : found ∉ set.items) :
    ∃ nonterminal, item.nextSymbol? grammar = some (.nonterminal nonterminal) ∧
      found.production ∈ grammar.productionsOf nonterminal ∧
      set.expanded grammar item.lookahead nonterminal = false := by
  obtain ⟨nonterminal, next, id, alternative, rfl⟩ := (Item.expects_iff item found).1 expects
  refine ⟨nonterminal, next, alternative, Bool.eq_false_iff.2 fun isExpanded => missing ?_⟩
  exact expanded_iff.1 isExpanded id alternative

theorem Lacks.unexpanded_pos (wellFormed : grammar.WellFormed)
    (lacks : set.Lacks grammar lookahead) :
    0 < set.unexpanded grammar lookahead := by
  obtain ⟨item, -, rfl, found, expects, missing⟩ := lacks
  obtain ⟨nonterminal, -, alternative, notYet⟩ := exists_unexpanded expects missing
  exact List.countP_pos_iff.2 ⟨nonterminal, wellFormed.mem_expandable alternative, by simp [notYet]⟩

/-- **When a round leaves something to add, there was something before, and the productions of a
nonterminal have been completed.** -/
theorem unexpanded_round_lt (wellFormed : grammar.WellFormed)
    (lacks : (set.round grammar).Lacks grammar lookahead) :
    set.Lacks grammar lookahead ∧
      (set.round grammar).unexpanded grammar lookahead < set.unexpanded grammar lookahead := by
  obtain ⟨item, inRound, rfl, found, expects, missing⟩ := lacks
  have isNew : item ∉ set.items := fun old => missing (mem_round.2 (.inr ⟨item, old, expects⟩))
  obtain ⟨source, isSource, sourceExpects⟩ := (mem_round.1 inRound).resolve_left isNew
  obtain ⟨nonterminal, next, alternative, notYet⟩ := exists_unexpanded sourceExpects isNew
  have same : item.lookahead = source.lookahead := by
    obtain ⟨_, _, _, _, rfl⟩ := (Item.expects_iff source item).1 sourceExpects
    rfl
  have completed : (set.round grammar).expanded grammar source.lookahead nonterminal = true :=
    expanded_iff.2 fun id isAlternative => mem_round.2 (.inr
      ⟨source, isSource, (Item.expects_iff _ _).2 ⟨nonterminal, next, id, isAlternative, rfl⟩⟩)
  rw [same]
  refine ⟨⟨source, isSource, rfl, item, sourceExpects, isNew⟩, ?_⟩
  refine countP_lt_of_witness ?_ (wellFormed.mem_expandable alternative) (by simp [notYet])
    (by simp [completed])
  intro other _ stillOpen
  simp only [Bool.not_eq_true', Bool.eq_false_iff, ne_eq, expanded_iff] at stillOpen ⊢
  exact fun before => stillOpen fun id isAlternative => mem_round.2 (.inl (before id isAlternative))

/-- A round that makes a set larger finds what the set lacks. -/
theorem exists_lacks_of_grown (grown : (set.round grammar).size ≠ set.size) :
    ∃ lookahead, set.Lacks grammar lookahead := by
  by_contra nothing
  have closed : set.Closed grammar := fun item member found expects =>
    Decidable.byContradiction fun missing =>
      nothing ⟨item.lookahead, item, member, rfl, found, expects, missing⟩
  apply grown
  rw [round, set.extend_eq_self _ ((expected_subset_iff set).2 closed)]

/-- **Closing takes at most one round more than there are nonterminals with productions that are not
all there.** -/
theorem exists_closes_saturate (wellFormed : grammar.WellFormed) (bound : Nat)
    (bounded : ∀ lookahead,
      set.Lacks grammar lookahead → set.unexpanded grammar lookahead ≤ bound) :
    ∃ count ≤ bound + 1, set.Closes grammar count (set.saturate grammar) := by
  fun_induction saturate grammar set generalizing bound with
  | case1 set wider unchanged => exact ⟨1, Nat.le_add_left 1 bound, .last unchanged⟩
  | case2 set wider grown ih =>
    obtain ⟨lookahead, lacks⟩ := exists_lacks_of_grown grown
    have positive := lacks.unexpanded_pos wellFormed
    have withinBound := bounded lookahead lacks
    have widerBounded : ∀ lookahead, (set.round grammar).Lacks grammar lookahead →
        (set.round grammar).unexpanded grammar lookahead ≤ bound - 1 := by
      intro other stillLacks
      obtain ⟨lackedBefore, fewer⟩ := unexpanded_round_lt wellFormed stillLacks
      have before := bounded other lackedBefore
      omega
    obtain ⟨count, few, closes⟩ := ih (bound - 1) widerBounded
    exact ⟨count + 1, by omega, .more grown closes⟩

end ItemSet

/-! ## The closure of a seed -/

/-- What makes a set the closure of a seed. -/
structure IsClosure (grammar : Grammar) (seed : List Item) (set : ItemSet) : Prop where
  /-- It is found in at most one round more than there are nonterminals with productions. -/
  rounds : ∃ count ≤ grammar.expandable.length + 1, (ItemSet.ofList seed).Closes grammar count set
  /-- It holds the seed and the initial items of the canonical productions of the nonterminals that
  the nonterminals behind the dots of the seed begin with, each with the lookahead of the seed. -/
  mem_iff : ∀ item, item ∈ set ↔
    item ∈ seed ∨ item.dot = 0 ∧ item.production ∈ grammar.canonicalIds ∧
      ∃ origin ∈ seed, origin.lookahead = item.lookahead ∧
        ∃ nonterminal, origin.nextSymbol? grammar = some (.nonterminal nonterminal) ∧
          Relation.ReflTransGen grammar.Begins nonterminal (grammar.production item.production).left
  /-- It is closed. -/
  closed : set.Closed grammar
  /-- Every closed set with the seed has all of its items. -/
  least : ∀ other : ItemSet, other.Closed grammar → seed ⊆ other.items → set.items ⊆ other.items
  /-- A seed with the same members gives the same set. -/
  same : ∀ other : List Item, (∀ item, item ∈ other ↔ item ∈ seed) →
    ∀ item, item ∈ closure grammar other ↔ item ∈ set
  /-- A seed and another one together give both closures. -/
  union : ∀ (other : List Item) (item : Item),
    item ∈ closure grammar (seed ++ other) ↔ item ∈ set ∨ item ∈ closure grammar other

theorem mem_closure_append_iff (seed other : List Item) (item : Item) :
    item ∈ (closure grammar (seed ++ other)).items ↔
      item ∈ (closure grammar seed).items ∨ item ∈ (closure grammar other).items := by
  simp only [mem_closure_iff, List.mem_append, or_and_right, exists_or]

/-- **The closure of a seed is the least closed set with the seed, and is found in few rounds.** -/
theorem isClosure_closure {definition : Definition} (defined : definition.build = .ok grammar)
    (seed : List Item) : IsClosure grammar seed (closure grammar seed) := by
  have wellFormed := Definition.wellFormed_of_build defined
  constructor
  case rounds =>
    exact ItemSet.exists_closes_saturate wellFormed _ fun _ _ => List.countP_le_length
  case mem_iff =>
    intro item
    rw [ItemSet.mem_iff, mem_closure_iff]
    simp only [Item.expectsStar_iff wellFormed]
    constructor
    · rintro ⟨origin, isSeed, rfl | ⟨front, isCanonical, same, reached⟩⟩
      · exact .inl isSeed
      · exact .inr ⟨front, isCanonical, origin, isSeed, same.symm, reached⟩
    · rintro (isSeed | ⟨front, isCanonical, origin, isSeed, same, reached⟩)
      · exact ⟨item, isSeed, .inl rfl⟩
      · exact ⟨origin, isSeed, .inr ⟨front, isCanonical, same.symm, reached⟩⟩
  case closed => exact closed_closure seed
  case least =>
    intro other closed included
    exact closure_induction grammar seed (· ∈ other.items) (fun _ isSeed => included isSeed) closed
  case same =>
    intro other sameMembers
    exact same_closure sameMembers
  case union =>
    intro other item
    exact mem_closure_append_iff seed other item

/-- Three nonterminals that begin with each other in a circle. -/
def cyclicRules : List Request :=
  [.addRule ⟨"S", ["A", "b"]⟩, .addRule ⟨"A", ["B"]⟩, .addRule ⟨"B", ["S", "a"]⟩,
    .addRule ⟨"A", ["c"]⟩]

/-- The grammar of the cyclic rules. -/
def cyclic : Grammar where
  terminals := #["$", "b", "a", "c"]
  nonterminals := #["S'", "S", "A", "B"]
  start := ⟨1⟩
  productions :=
    #[⟨⟨1⟩, [.nonterminal ⟨2⟩, .terminal ⟨1⟩]⟩, ⟨⟨2⟩, [.nonterminal ⟨3⟩]⟩,
      ⟨⟨3⟩, [.nonterminal ⟨1⟩, .terminal ⟨2⟩]⟩, ⟨⟨2⟩, [.terminal ⟨3⟩]⟩]
  firsts := #[0, 1, 2, 3]
  alternatives := #[#[], #[0], #[1, 3], #[2]]

/-- The start item, an item with its dot past the end, and an item with another lookahead that is
reached again on the way. -/
def cyclicSeed : List Item :=
  [.start, ⟨.stored 0, 7, ⟨2⟩⟩, ⟨.stored 1, 0, ⟨1⟩⟩]

theorem isClosure_cyclic :
    (Definition.ofRequests cyclicRules).build = .ok cyclic ∧
      cyclic.expandable.length = 3 ∧
      IsClosure cyclic cyclicSeed (closure cyclic cyclicSeed) ∧
      (closure cyclic cyclicSeed).items = cyclicSeed ++
        [⟨.stored 0, 0, ⟨0⟩⟩, ⟨.stored 2, 0, ⟨1⟩⟩, ⟨.stored 1, 0, ⟨0⟩⟩, ⟨.stored 3, 0, ⟨0⟩⟩,
          ⟨.stored 0, 0, ⟨1⟩⟩, ⟨.stored 2, 0, ⟨0⟩⟩, ⟨.stored 3, 0, ⟨1⟩⟩] := by
  have defined : (Definition.ofRequests cyclicRules).build = .ok cyclic := by
    decide +kernel
  exact ⟨defined, by decide +kernel, isClosure_closure defined cyclicSeed, by decide +kernel⟩

end ShiftReduce
