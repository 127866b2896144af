import ShiftReduce.Item.Basic
import ShiftReduce.Proofs.Grammar.Names

/-!
# Items that are told by their texts

The text of an item consists of words (`Item.words`): the left-hand side behind a bracket, an arrow,
the names of the right-hand side with a dot among them, the last of which has a comma behind it, and
the lookahead with a bracket behind it. None of the words has blanks, so the text tells the words,
and the words tell the names (`Item.names_eq_of_words_eq`). Brackets, commas and arrows in names do
no harm, since every word has its own part in the text.

The place of the dot shows if no symbol is called a dot, and the accepting production shows if no
other nonterminal is called like the augmented start symbol. Then the text tells the item, up to
productions that repeat each other (`Item.same_of_render_eq`).
-/

set_option autoImplicit false

namespace ShiftReduce

/-- A list in which something new was inserted tells where it was inserted, and into which list. -/
theorem eq_of_insertIdx_eq {α : Type} {element : α} {list other : List α} {place otherPlace : Nat}
    (inside : place ≤ list.length) (otherInside : otherPlace ≤ other.length)
    (isNew : element ∉ list)
    (same : list.insertIdx place element = other.insertIdx otherPlace element) :
    place = otherPlace ∧ list = other := by
  obtain ⟨before, behind, rfl, rfl, result⟩ :=
    List.exists_of_modifyTailIdx (List.cons element) inside
  obtain ⟨otherBefore, otherBehind, rfl, rfl, otherResult⟩ :=
    List.exists_of_modifyTailIdx (List.cons element) otherInside
  rw [List.insertIdx, result, List.insertIdx, otherResult] at same
  rw [List.mem_append, not_or] at isNew
  obtain ⟨rfl, -, rfl⟩ := (List.append_cons_inj_of_notMem isNew.1 isNew.2).1 same
  exact ⟨rfl, rfl⟩

namespace Item

variable {grammar : Grammar} {first second : Item}

/-- An item of the grammar, with the dot within its production. -/
structure Within (grammar : Grammar) (item : Item) : Prop where
  production : item.production = .accept ∨ item.production ∈ grammar.productionIds
  dot : item.dot ≤ (item.right grammar).length
  lookahead : item.lookahead ∈ grammar.terminalList

/-! ## The words of an item -/

/-- The name of the left-hand side. -/
def leftName (grammar : Grammar) (item : Item) : String :=
  grammar.nonterminalName (grammar.production item.production).left

/-- The names of the right-hand side, with a dot among them. -/
def dotted (grammar : Grammar) (item : Item) : List String :=
  ((item.right grammar).map grammar.symbolName).insertIdx item.dot "."

/-- The words of the text of an item. -/
def words (grammar : Grammar) (item : Item) : List String :=
  ["[" ++ item.leftName grammar, "->"] ++ (item.dotted grammar).dropLast ++
    [(item.dotted grammar).getLastD "" ++ ",", grammar.terminalName item.lookahead ++ "]"]

theorem dotted_eq_concat {item : Item} (inside : item.dot ≤ (item.right grammar).length) :
    item.dotted grammar =
      (item.dotted grammar).dropLast ++ [(item.dotted grammar).getLastD ""] := by
  have notEmpty : item.dotted grammar ≠ [] := by
    rw [dotted, ← List.length_pos_iff, List.length_insertIdx_of_le_length (by simpa using inside)]
    exact Nat.succ_pos _
  rw [List.getLastD_eq_getLast?, List.getLast?_eq_some_getLast notEmpty, Option.getD_some,
    List.dropLast_append_getLast]

/-- The words of items tell the names in them. -/
theorem names_eq_of_words_eq (inside : first.dot ≤ (first.right grammar).length)
    (otherInside : second.dot ≤ (second.right grammar).length)
    (same : first.words grammar = second.words grammar) :
    first.leftName grammar = second.leftName grammar ∧
      first.dotted grammar = second.dotted grammar ∧
      grammar.terminalName first.lookahead = grammar.terminalName second.lookahead := by
  obtain ⟨front, ending⟩ := List.append_inj' same rfl
  simp only [List.cons_append, List.nil_append, List.cons.injEq, true_and, and_true,
    String.append_right_inj, String.append_left_inj] at front ending
  rw [dotted_eq_concat inside, dotted_eq_concat otherInside, front.2, ending.1]
  exact ⟨front.1, rfl, ending.2⟩

/-! ## What the words tell -/

variable {requests : List Request}

/-- The symbols of an item of the grammar are symbols of the grammar. -/
theorem Within.mentionable {item : Item} (within : item.Within grammar)
    (wellFormed : grammar.WellFormed) {symbol : Symbol} (mentioned : symbol ∈ item.right grammar) :
    grammar.Mentionable symbol := by
  rcases within.production with accepting | stored
  · rw [right, accepting] at mentioned
    rw [List.mem_singleton.1 mentioned]
    exact wellFormed.start
  · exact wellFormed.right _ stored symbol mentioned

theorem Within.hasSymbol_lookahead {item : Item} (within : item.Within grammar) :
    grammar.HasSymbol (.terminal item.lookahead) := within.lookahead

theorem Within.hasSymbol_left {item : Item} (within : item.Within grammar)
    (wellFormed : grammar.WellFormed) :
    grammar.HasSymbol (.nonterminal (grammar.production item.production).left) := by
  rcases within.production with accepting | stored
  · -- The grammar has a start symbol, so it has a first nonterminal.
    rw [accepting]
    obtain ⟨isStart, -⟩ := wellFormed.start.hasSymbol
    obtain ⟨index, inside, -⟩ := List.mem_map.1 isStart
    exact List.mem_map.2 ⟨0, List.mem_range.2 (Nat.zero_lt_of_lt (List.mem_range.1 inside)), rfl⟩
  · exact (wellFormed.left _ stored).hasSymbol.1

/-- **The text of an item was written as its words.** -/
theorem Within.worded (defined : (Definition.ofRequests requests).build = .ok grammar) {item : Item}
    (within : item.Within grammar) : Text.Worded (item.render grammar) (item.words grammar) := by
  constructor
  case text =>
    have isText : item.render grammar = "[" ++ item.leftName grammar ++ (" " ++ "->") ++
        Text.spaced (item.dotted grammar) ++ ("," ++ " ") ++ grammar.terminalName item.lookahead ++
          "]" := rfl
    rw [isText, dotted_eq_concat within.dot]
    simp only [words, Text.spaced, List.map_append, List.map_cons, List.map_nil, String.join_append,
      String.join_cons, String.join_nil, String.append_empty, String.append_assoc, List.cons_append,
      List.nil_append]
  case unbroken =>
    have wellFormed := Definition.wellFormed_of_build defined
    have left : Text.Unbroken (item.leftName grammar) :=
      Definition.unbroken_symbolName defined (within.hasSymbol_left wellFormed)
    have lookahead : Text.Unbroken (grammar.terminalName item.lookahead) :=
      Definition.unbroken_symbolName defined within.hasSymbol_lookahead
    have inDotted : ∀ name ∈ item.dotted grammar, Text.Unbroken name := by
      intro name isName
      rw [dotted, List.mem_insertIdx (by simpa using within.dot)] at isName
      rcases isName with rfl | isName
      · decide
      · obtain ⟨symbol, mentioned, rfl⟩ := List.mem_map.1 isName
        exact Definition.unbroken_symbolName defined
          (within.mentionable wellFormed mentioned).hasSymbol.1
    rw [dotted_eq_concat within.dot, List.forall_mem_append, List.forall_mem_singleton] at inDotted
    have mark : Text.Unbroken "[" ∧ Text.Unbroken "->" ∧ Text.Unbroken "," ∧ Text.Unbroken "]" := by
      decide
    simp only [words, List.forall_mem_append, List.forall_mem_cons]
    exact ⟨⟨⟨mark.1.append left, mark.2.1, by simp⟩, inDotted.1⟩,
      inDotted.2.append mark.2.2.1, lookahead.append mark.2.2.2, by simp⟩

/-- A production of the grammar is told by its names, up to repetition, if the augmented start
symbol shares its name with no left-hand side. -/
theorem production_eq_of_names_eq {definition : Definition} (built : definition.build = .ok grammar)
    (unshared : grammar.Unshared)
    (isFirst : first.Within grammar) (isSecond : second.Within grammar)
    (sameLeft : first.leftName grammar = second.leftName grammar)
    (sameRight : (first.right grammar).map grammar.symbolName =
      (second.right grammar).map grammar.symbolName) :
    grammar.production first.production = grammar.production second.production ∧
      grammar.canonical first.production = grammar.canonical second.production := by
  have wellFormed := Definition.wellFormed_of_build built
  obtain ⟨start, -, named, -⟩ := Definition.build_eq_ok_iff.1 built
  have reads := Definition.reads_of_build built named
  -- The left-hand side of a stored production is not called like the augmented start symbol.
  have apart : ∀ id ∈ grammar.productionIds,
      grammar.nonterminalName (grammar.production id).left ≠ grammar.nonterminalName .augmented :=
    fun id stored => unshared _ (wellFormed.left id stored)
  rcases isFirst.production with accepting | stored
  · rcases isSecond.production with otherAccepting | otherStored
    · rw [accepting, otherAccepting]
      exact ⟨rfl, rfl⟩
    · rw [leftName, leftName, accepting] at sameLeft
      exact absurd sameLeft.symm (apart _ otherStored)
  · rcases isSecond.production with otherAccepting | otherStored
    · rw [leftName, leftName, otherAccepting] at sameLeft
      exact absurd sameLeft (apart _ stored)
    · obtain ⟨isCanonical, sameProduction⟩ := wellFormed.canonical _ stored
      obtain ⟨otherCanonical, otherProduction⟩ := wellFormed.canonical _ otherStored
      have sameRule : grammar.ruleOf (grammar.canonical first.production) =
          grammar.ruleOf (grammar.canonical second.production) := by
        rw [Grammar.ruleOf, Grammar.ruleOf, sameProduction, otherProduction]
        exact congrArg₂ Rule.mk sameLeft sameRight
      have sameCanonical := reads.productions isCanonical otherCanonical sameRule
      rw [← sameProduction, ← otherProduction, sameCanonical]
      exact ⟨rfl, rfl⟩

/-- Items with the same words are the same, up to productions that repeat each other, if no symbol
is called a dot, and no other nonterminal like the augmented start symbol. -/
theorem same_of_words_eq (defined : (Definition.ofRequests requests).build = .ok grammar)
    (noDot : "." ∉ grammar.names)
    (unshared : grammar.Unshared)
    (isFirst : first.Within grammar) (isSecond : second.Within grammar)
    (same : first.words grammar = second.words grammar) :
    first.dot = second.dot ∧ first.lookahead = second.lookahead ∧
      grammar.production first.production = grammar.production second.production ∧
      grammar.canonical first.production = grammar.canonical second.production := by
  have wellFormed := Definition.wellFormed_of_build defined
  obtain ⟨sameLeft, sameDotted, sameLookahead⟩ :=
    names_eq_of_words_eq isFirst.dot isSecond.dot same
  have noDotInside : "." ∉ (first.right grammar).map grammar.symbolName := by
    intro isName
    obtain ⟨symbol, mentioned, isDot⟩ := List.mem_map.1 isName
    refine noDot ?_
    rw [← isDot]
    exact Grammar.symbolName_mem_names (isFirst.mentionable wellFormed mentioned).hasSymbol.1
  obtain ⟨sameDot, sameRight⟩ := eq_of_insertIdx_eq (by simpa using isFirst.dot)
    (by simpa using isSecond.dot) noDotInside sameDotted
  have sameTerminal := (Definition.distinctNames_of_build defined).eq_of_symbolName_eq
    isFirst.hasSymbol_lookahead Symbol.noConfusion isSecond.hasSymbol_lookahead Symbol.noConfusion
    sameLookahead
  exact ⟨sameDot, Symbol.terminal.inj sameTerminal,
    production_eq_of_names_eq defined unshared isFirst isSecond sameLeft sameRight⟩

/-- **Items with the same text are the same, up to productions that repeat each other.** -/
theorem same_of_render_eq (defined : (Definition.ofRequests requests).build = .ok grammar)
    (noDot : "." ∉ grammar.names)
    (unshared : grammar.Unshared)
    (isFirst : first.Within grammar) (isSecond : second.Within grammar)
    (same : first.render grammar = second.render grammar) :
    first.dot = second.dot ∧ first.lookahead = second.lookahead ∧
      grammar.production first.production = grammar.production second.production ∧
      grammar.canonical first.production = grammar.canonical second.production := by
  have worded := isFirst.worded defined
  rw [same] at worded
  exact same_of_words_eq defined noDot unshared isFirst isSecond
    (worded.names_eq (isSecond.worded defined))

end Item

end ShiftReduce
