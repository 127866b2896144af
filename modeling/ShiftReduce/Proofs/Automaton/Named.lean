import ShiftReduce.Proofs.Automaton.Members
import ShiftReduce.Proofs.Grammar.Reading

/-!
# Valid items by name

An item is read by name as the rule of its production, the place of its dot and the name of its
lookahead. What stands behind the dot is told by this alone.

Two grammars that read as the same rules have the same valid items by name: whatever is valid in one
of them for a string is valid in the other one for the string of the same names
(`Valid.counterpart`). The proof follows the moves of the item graph, and no number of the one
grammar is compared with a number of the other one.
-/

set_option autoImplicit false

namespace ShiftReduce

/-! ## Items by name -/

/-- An item as it is read by name. -/
structure NamedItem where
  /-- The rule of the production; the accepting production has none. -/
  rule : Option Rule
  /-- How many names of the right-hand side stand before the dot. -/
  dot : Nat
  /-- The name of the lookahead. -/
  lookahead : String
deriving DecidableEq

/-- The right-hand side of a named item. The accepting production has the start symbol. -/
def NamedItem.right (start : String) (item : NamedItem) : List String :=
  match item.rule with
  | some rule => rule.right
  | none => [start]

/-- The rule of a production; the accepting production has none. -/
def Grammar.ruleOf? (grammar : Grammar) : ProductionId → Option Rule
  | .stored index => some (grammar.ruleOf (.stored index))
  | .accept => none

/-- An item read by name. -/
def Item.named (grammar : Grammar) (item : Item) : NamedItem :=
  ⟨grammar.ruleOf? item.production, item.dot, grammar.terminalName item.lookahead⟩

namespace Item

variable {grammar : Grammar} {item : Item}

theorem right_named (grammar : Grammar) (item : Item) :
    (item.named grammar).right (grammar.nonterminalName grammar.start) =
      (item.right grammar).map grammar.symbolName := by
  rw [right, named]
  cases item.production <;> rfl

/-- The name behind the dot is told by the named item. -/
theorem nextSymbol?_named (grammar : Grammar) (item : Item) :
    (item.nextSymbol? grammar).map grammar.symbolName =
      ((item.named grammar).right (grammar.nonterminalName grammar.start))[item.dot]? := by
  rw [right_named, List.getElem?_map, nextSymbol?]

/-- Whether an item is complete is told by the named item. -/
theorem isComplete_named (grammar : Grammar) (item : Item) :
    item.isComplete grammar =
      decide (((item.named grammar).right (grammar.nonterminalName grammar.start)).length ≤
        (item.named grammar).dot) := by
  rw [right_named, List.length_map]
  rfl

/-! ## What valid items are made of -/

/-- Items are valid only for strings of symbols that rules can mention. -/
theorem Valid.mentionable (wellFormed : grammar.WellFormed) {symbols : List Symbol}
    (valid : Valid grammar symbols item) : ∀ symbol ∈ symbols, grammar.Mentionable symbol := by
  unfold Valid at valid
  induction valid with
  | refl => simp
  | tail moves move ih =>
      cases move with
      | advance next =>
          have isMentionable := (Valid.known moves wellFormed).mentionable wellFormed next
          simpa [or_imp, forall_and] using ⟨ih, isMentionable⟩
      | expect => simpa using ih

/-- **A known item is told by name.** -/
theorem Known.eq_of_named {start : String} {rules : Set Rule} (reads : grammar.Reads start rules)
    (known : item.Known grammar) {other : Item} (otherKnown : other.Known grammar)
    (same : item.named grammar = other.named grammar) : item = other := by
  obtain ⟨id, dot, lookahead⟩ := item
  obtain ⟨otherId, otherDot, otherLookahead⟩ := other
  obtain ⟨known, rfl⟩ := known
  obtain ⟨otherKnown, rfl⟩ := otherKnown
  simp only [named, NamedItem.mk.injEq] at same
  obtain ⟨sameRule, rfl, -⟩ := same
  cases id <;> cases otherId <;>
    simp only [Grammar.ruleOf?, Option.some.injEq, reduceCtorEq, false_or]
      at sameRule known otherKnown
  case stored.stored => rw [reads.productions known otherKnown sameRule]
  case accept.accept => rfl

end Item

/-! ## Two grammars of the same rules -/

section Counterparts

variable {first second : Grammar} {start : String} {rules : Set Rule}

/-- Strings of symbols are told by name. -/
theorem Grammar.Reads.eq_of_names (reads : first.Reads start rules) {symbols others : List Symbol}
    (mentionable : ∀ symbol ∈ symbols, first.Mentionable symbol)
    (othersMentionable : ∀ symbol ∈ others, first.Mentionable symbol)
    (same : symbols.map first.symbolName = others.map first.symbolName) : symbols = others := by
  induction symbols generalizing others with
  | nil => exact (List.map_eq_nil_iff.1 same.symm).symm
  | cons symbol symbols ih =>
      cases others with
      | nil => cases same
      | cons other others =>
          obtain ⟨sameSymbol, sameRest⟩ := List.cons_eq_cons.1 same
          obtain ⟨isMentionable, restMentionable⟩ := List.forall_mem_cons.1 mentionable
          obtain ⟨otherMentionable, othersMentionable⟩ := List.forall_mem_cons.1 othersMentionable
          rw [reads.symbols isMentionable otherMentionable sameSymbol,
            ih restMentionable othersMentionable sameRest]

variable (firstReads : first.Reads start rules) (secondReads : second.Reads start rules)

include firstReads secondReads

/-- Items with the same name have the same name behind the dot. -/
theorem Item.next_of_named {item other : Item} (same : other.named second = item.named first)
    {symbol : Symbol} (next : item.nextSymbol? first = some symbol) :
    ∃ twin, other.nextSymbol? second = some twin ∧
      second.symbolName twin = first.symbolName symbol := by
  have sameDot : other.dot = item.dot := congrArg NamedItem.dot same
  have sameNext : (other.nextSymbol? second).map second.symbolName =
      (item.nextSymbol? first).map first.symbolName := by
    rw [nextSymbol?_named, nextSymbol?_named, firstReads.start, secondReads.start, same, sameDot]
  rw [next, Option.map_some, Option.map_eq_some_iff] at sameNext
  exact sameNext

/-- A production of a nonterminal has its counterpart among those of the nonterminal of the same
name. -/
theorem Grammar.Reads.counterpart {nonterminal : Nonterminal} {id : ProductionId}
    (isProduction : id ∈ first.productionsOf nonterminal) {symbol : Symbol}
    (mentionable : second.Mentionable symbol)
    (named : second.symbolName symbol = first.nonterminalName nonterminal) :
    ∃ twin twinId, symbol = .nonterminal twin ∧ twinId ∈ second.productionsOf twin ∧
      second.ruleOf? twinId = first.ruleOf? id := by
  obtain ⟨isCanonical, rfl⟩ := (firstReads.wellFormed.productionsOf _ _).1 isProduction
  obtain ⟨twinId, twinCanonical, sameRule⟩ :=
    (secondReads.rules _).1 ((firstReads.rules _).2 ⟨id, isCanonical, rfl⟩)
  obtain ⟨index, rfl, -⟩ := mem_productionIds.1 (mem_canonicalIds.1 isCanonical).1
  have twinStored := (mem_canonicalIds.1 twinCanonical).1
  obtain ⟨twinIndex, rfl, -⟩ := mem_productionIds.1 twinStored
  have sameLeft : second.nonterminalName (second.production (.stored twinIndex)).left =
      first.nonterminalName (first.production (.stored index)).left := congrArg Rule.left sameRule
  have isLeft := secondReads.symbols mentionable (secondReads.wellFormed.left _ twinStored)
    (named.trans sameLeft.symm)
  exact ⟨_, _, isLeft, (secondReads.wellFormed.productionsOf _ _).2 ⟨twinCanonical, rfl⟩,
    congrArg some sameRule⟩

/-- Moves that read a string have their counterpart, which reads the string of the same names. -/
theorem Item.Valid.exists_counterpart {symbols : List Symbol} {item : Item}
    (valid : Valid first symbols item) :
    ∃ others other, Valid second others other ∧
      others.map second.symbolName = symbols.map first.symbolName ∧
      other.named second = item.named first := by
  unfold Valid at valid
  induction valid with
  | refl =>
      refine ⟨[], Item.start, .refl _, rfl, ?_⟩
      simp only [Item.start, initial, named, Grammar.ruleOf?, firstReads.endOfInput,
        secondReads.endOfInput]
  | tail moves move ih =>
      obtain ⟨others, other, valid, sameNames, same⟩ := ih
      cases move with
      | advance next =>
          obtain ⟨twin, twinNext, sameName⟩ := next_of_named firstReads secondReads same next
          refine ⟨_, _, valid.advance twinNext, by simp [sameNames, sameName], ?_⟩
          simp only [named, NamedItem.mk.injEq] at same ⊢
          exact ⟨same.1, congrArg (· + 1) same.2.1, same.2.2⟩
      | expect next isProduction =>
          obtain ⟨twin, twinNext, sameName⟩ := next_of_named firstReads secondReads same next
          have mentionable :=
            (valid.known secondReads.wellFormed).mentionable secondReads.wellFormed twinNext
          obtain ⟨nonterminal, id, rfl, twinProduction, sameRule⟩ :=
            Grammar.Reads.counterpart firstReads secondReads isProduction mentionable sameName
          refine ⟨_, _, valid.expects ((move_nil_iff _ _).1 (.expect twinNext twinProduction)),
            by simp [sameNames], ?_⟩
          have sameEnd := congrArg NamedItem.lookahead same
          simp only [named] at sameEnd
          simp only [named, initial, sameRule, sameEnd]

/-- **What is valid in one grammar is valid in the other one, for the string of the same names.** -/
theorem Item.Valid.counterpart {symbols others : List Symbol} {item : Item}
    (valid : Valid first symbols item)
    (mentionable : ∀ symbol ∈ others, second.Mentionable symbol)
    (sameNames : others.map second.symbolName = symbols.map first.symbolName) :
    ∃ other, Valid second others other ∧ other.named second = item.named first := by
  obtain ⟨found, other, otherValid, foundNames, same⟩ :=
    valid.exists_counterpart firstReads secondReads
  have isString : found = others :=
    secondReads.eq_of_names (otherValid.mentionable secondReads.wellFormed) mentionable
      (foundNames.trans sameNames.symm)
  exact ⟨other, isString ▸ otherValid, same⟩

end Counterparts

end ShiftReduce
