import ShiftReduce.Proofs.Automaton.Members
import ShiftReduce.Proofs.Automaton.Path
import ShiftReduce.Proofs.Table.Cells

/-!
# Actions on a path

What an action of the generated table tells about a stack that is a path of the automaton. A shift
follows an edge over a terminal of the grammar (`target?_of_shift`). A reduction happens at the end
of the input, the right-hand side is what the last edges of the path are labelled with, and below
them an edge over the left-hand side goes on (`handle_of_reduce`). Acceptance finds the start symbol
alone (`start_of_accept`).

Whether the table has conflicts does not matter for this: whatever stays in a cell was written by an
item of the top state, and the items of that state are those that are valid for the path. Without
conflicts each valid item has the action that it asks for (`action?_of_valid`).
-/

set_option autoImplicit false

namespace ShiftReduce

/-- The table of the automaton of a grammar. -/
abbrev Grammar.table (grammar : Grammar) : Table :=
  Table.generate grammar (Automaton.generate grammar)

variable {grammar : Grammar}

/-! ## Valid items of well-formed grammars -/

namespace Item

/-- The accepting production is expected in front of everything else only. -/
theorem Valid.eq_nil_of_accept (wellFormed : grammar.WellFormed) {symbols : List Symbol}
    {lookahead : Terminal} (valid : Valid grammar symbols (initial .accept lookahead)) :
    symbols = [] := by
  rcases valid.initial_cases with ⟨empty, -⟩ | ⟨parent, nonterminal, -, -, alternative⟩
  · exact empty
  · exact absurd alternative (wellFormed.accept_notMem_productionsOf nonterminal)

/-- A complete item that is valid has its right-hand side at the end of the string. -/
theorem Valid.split_complete {symbols : List Symbol} {item : Item}
    (valid : Valid grammar symbols item) (complete : item.nextSymbol? grammar = none) :
    ∃ before, symbols = before ++ item.right grammar ∧
      Valid grammar before (initial item.production item.lookahead) := by
  obtain ⟨before, isSplit, validBefore⟩ := valid.split
  have past : (item.right grammar).length ≤ item.dot := List.getElem?_eq_none_iff.1 complete
  rw [List.take_of_length_le past] at isSplit
  exact ⟨before, isSplit, validBefore⟩

/-- When a string that ends with a nonterminal has a valid item, the canonical production of each
production of the nonterminal is complete after the string that ends with its right-hand side. -/
theorem Valid.replace_last (wellFormed : grammar.WellFormed) {before : List Symbol} {item : Item}
    {id : ProductionId} (stored : id ∈ grammar.productionIds)
    (valid : Valid grammar (before ++ [.nonterminal (grammar.production id).left]) item) :
    Valid grammar (before ++ (grammar.production id).right)
      ⟨grammar.canonical id, (grammar.production id).right.length, .endOfInput⟩ := by
  obtain ⟨source, validSource, next, -⟩ := (valid_concat_iff _ _ _).1 valid
  have alternative := wellFormed.canonical_mem_productionsOf stored
  have front : Valid grammar before (initial (grammar.canonical id) source.lookahead) :=
    validSource.expects ((move_nil_iff _ _).1 (.expect next alternative))
  have complete := front.advance_over
  rw [show source.lookahead = .endOfInput from validSource.origin.1] at complete
  simpa [right, initial, (wellFormed.canonical id stored).2] using complete

end Item

/-! ## Actions -/

namespace Table

variable {symbols : List Symbol} {top : StateId} {below : List StateId}

/-- An action on a path was written by an item that is valid for it. -/
theorem valid_of_action? (path : (Automaton.generate grammar).Path symbols (top :: below))
    {terminal : Terminal} {action : Action}
    (isAction : grammar.table.action? top terminal = some action) :
    ∃ state item, (Automaton.generate grammar).states[top]? = some state ∧
      Item.Valid grammar symbols item ∧
      ActionRow.written? grammar state item = some (terminal, action) := by
  obtain ⟨state, isState, item, member, written⟩ := written_of_action? isAction
  obtain ⟨found, isFound, items⟩ := Automaton.valid_of_follow? symbols path.follow?
  rw [isState] at isFound
  cases isFound
  exact ⟨state, item, isState, (items item).1 member, written⟩

/-- **A shift follows an edge, and never reads the end of the input.** -/
theorem target?_of_shift (wellFormed : grammar.WellFormed)
    (path : (Automaton.generate grammar).Path symbols (top :: below))
    {terminal : Terminal} {target : StateId}
    (isAction : grammar.table.action? top terminal = some (.shift target)) :
    terminal ≠ .endOfInput ∧
      (Automaton.generate grammar).target? top (.terminal terminal) = some target := by
  obtain ⟨state, item, isState, valid, written⟩ := valid_of_action? path isAction
  rcases ActionRow.written?_eq_some_iff.1 written with
    ⟨next, leadsTo, leads, same⟩ | ⟨-, -, -, impossible⟩ | ⟨-, -, -, impossible⟩
  · cases same
    refine ⟨((valid.known wellFormed).mentionable wellFormed next).2, ?_⟩
    rw [Automaton.target?, isState]
    exact leads
  · cases impossible
  · cases impossible

/-- The goto table goes on where a string may end with a nonterminal. -/
theorem exists_goto (wellFormed : grammar.WellFormed)
    (path : (Automaton.generate grammar).Path symbols (top :: below)) {id : ProductionId}
    (stored : id ∈ grammar.productionIds) {item : Item}
    (valid : Item.Valid grammar (symbols ++ [.nonterminal (grammar.production id).left]) item) :
    ∃ target,
      (Automaton.generate grammar).target? top
        (.nonterminal (grammar.production id).left) = some target ∧
      grammar.table.goto? top (grammar.production id).left = some target := by
  obtain ⟨target, leads⟩ := Automaton.exists_follow?_of_valid valid
  obtain ⟨middle, toMiddle, last⟩ := (Automaton.follow?_concat _ _ _ _ _).1 leads
  rw [path.follow?] at toMiddle
  cases toMiddle
  have inside := (List.mem_filter.1 (wellFormed.left id stored)).1
  exact ⟨target, last, (goto?_generate_iff _ target).2 ⟨inside, last⟩⟩

/-- **A reduction finds its right-hand side at the end of the path, and the goto below it.** -/
theorem handle_of_reduce (wellFormed : grammar.WellFormed)
    (path : (Automaton.generate grammar).Path symbols (top :: below))
    {terminal : Terminal} {id : ProductionId}
    (isAction : grammar.table.action? top terminal = some (.reduce id)) :
    terminal = .endOfInput ∧ id ∈ grammar.productionIds ∧
      ∃ before exposed rest target, symbols = before ++ (grammar.production id).right ∧
        (top :: below).drop (grammar.production id).right.length = exposed :: rest ∧
        (Automaton.generate grammar).Path before (exposed :: rest) ∧
        (Automaton.generate grammar).target? exposed
          (.nonterminal (grammar.production id).left) = some target ∧
        grammar.table.goto? exposed (grammar.production id).left = some target := by
  obtain ⟨state, item, -, valid, written⟩ := valid_of_action? path isAction
  rcases ActionRow.written?_eq_some_iff.1 written with
    ⟨-, _, -, impossible⟩ | ⟨-, -, -, impossible⟩ | ⟨complete, reducing, isLookahead, same⟩
  · cases impossible
  · cases impossible
  · obtain ⟨stored, fixed⟩ :=
      Grammar.mem_canonicalIds.1 ((valid.known wellFormed).1.resolve_left reducing)
    rw [fixed] at same
    cases same
    obtain ⟨before, isSplit, validBefore⟩ := valid.split_complete complete
    rw [isSplit] at path
    obtain ⟨exposed, rest, dropped, shorter⟩ := path.split
    -- Some item that is valid below expects the production, and advances over its left-hand side.
    rcases validBefore.initial_cases with
      ⟨-, accepting⟩ | ⟨parent, nonterminal, validParent, next, alternative⟩
    · exact absurd accepting reducing
    · obtain ⟨-, -, isLeft⟩ := wellFormed.stored_of_productionsOf alternative
      rw [← isLeft] at next
      obtain ⟨target, leads, isGoto⟩ :=
        exists_goto wellFormed shorter stored (validParent.advance next)
      exact ⟨isLookahead.trans valid.origin.1, stored, before, exposed, rest, target, isSplit,
        dropped, shorter, leads, isGoto⟩

/-- **Acceptance happens at the end of the input, after nothing but the start symbol.** -/
theorem start_of_accept (wellFormed : grammar.WellFormed)
    (path : (Automaton.generate grammar).Path symbols (top :: below)) {terminal : Terminal}
    (isAction : grammar.table.action? top terminal = some .accept) :
    terminal = .endOfInput ∧ symbols = [.nonterminal grammar.start] := by
  obtain ⟨state, item, -, valid, written⟩ := valid_of_action? path isAction
  rcases ActionRow.written?_eq_some_iff.1 written with
    ⟨-, _, -, impossible⟩ | ⟨complete, accepting, isEnd, -⟩ | ⟨-, -, -, impossible⟩
  · cases impossible
  · obtain ⟨before, isSplit, validBefore⟩ := valid.split_complete complete
    rw [accepting] at validBefore
    rw [validBefore.eq_nil_of_accept wellFormed, List.nil_append, Item.right, accepting] at isSplit
    exact ⟨isEnd, isSplit⟩
  · cases impossible

/-! ## Actions without conflicts -/

/-- Without conflicts the table holds what a valid item writes. -/
theorem action?_of_valid (free : grammar.table.conflicts = [])
    (path : (Automaton.generate grammar).Path symbols (top :: below)) {item : Item}
    (valid : Item.Valid grammar symbols item) :
    ∃ state, (Automaton.generate grammar).states[top]? = some state ∧ item ∈ state.items ∧
      ∀ terminal action, ActionRow.written? grammar state item = some (terminal, action) →
        grammar.table.action? top terminal = some action := by
  obtain ⟨state, isState, items⟩ := Automaton.valid_of_follow? symbols path.follow?
  have member := (items item).2 valid
  exact ⟨state, isState, member, fun _ _ written => action?_of_written free isState member written⟩

/-- Where a string may go on with a terminal, the terminal is shifted. -/
theorem shift_of_valid (free : grammar.table.conflicts = [])
    (path : (Automaton.generate grammar).Path symbols (top :: below)) {terminal : Terminal}
    {item : Item} (valid : Item.Valid grammar (symbols ++ [.terminal terminal]) item) :
    ∃ target, (Automaton.generate grammar).target? top (.terminal terminal) = some target ∧
      grammar.table.action? top terminal = some (.shift target) := by
  obtain ⟨source, validSource, next, -⟩ := (Item.valid_concat_iff _ _ _).1 valid
  obtain ⟨state, isState, member, isAction⟩ := action?_of_valid free path validSource
  obtain ⟨target, leads⟩ :=
    (Automaton.exists_target?_generate_iff isState _).2 ⟨source, member, next⟩
  refine ⟨target, leads, isAction _ _ ?_⟩
  rw [Automaton.target?, isState] at leads
  exact ActionRow.written?_eq_some_iff.2 (.inl ⟨next, target, leads, rfl⟩)

theorem reduce_of_valid (free : grammar.table.conflicts = [])
    (path : (Automaton.generate grammar).Path symbols (top :: below)) {item : Item}
    (valid : Item.Valid grammar symbols item) (complete : item.nextSymbol? grammar = none)
    (reducing : item.production ≠ .accept) :
    grammar.table.action? top .endOfInput =
      some (.reduce (grammar.canonical item.production)) := by
  obtain ⟨state, -, -, isAction⟩ := action?_of_valid free path valid
  apply isAction
  exact ActionRow.written?_eq_some_iff.2
    (.inr (.inr ⟨complete, reducing, valid.origin.1.symm, rfl⟩))

theorem accept_of_valid (free : grammar.table.conflicts = [])
    (path : (Automaton.generate grammar).Path symbols (top :: below)) {item : Item}
    (valid : Item.Valid grammar symbols item) (complete : item.nextSymbol? grammar = none)
    (accepting : item.production = .accept) :
    grammar.table.action? top .endOfInput = some .accept := by
  obtain ⟨state, -, -, isAction⟩ := action?_of_valid free path valid
  apply isAction
  exact ActionRow.written?_eq_some_iff.2 (.inr (.inl ⟨complete, accepting, rfl, rfl⟩))

end Table

end ShiftReduce
