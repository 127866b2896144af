import ShiftReduce.Proofs.Parsing.Soundness

/-!
# The language of a table without conflicts

Without conflicts the driver accepts exactly the words that the start symbol derives by steps that
replace the last symbol of the string (`accepts_iff_derivation`).

That it accepts no other words is soundness. For the converse the driver first reads the whole word,
since the word is a string that the automaton follows (`steps_of_follow?`). Then it undoes the
derivation: a string from which the driver gets to acceptance stays one when its last symbol is
replaced, because the complete item of the replacing production is valid, and its reduction is the
only action that the top state has at the end of the input (`Finishing.replace`).
-/

set_option autoImplicit false

namespace ShiftReduce

variable {grammar : Grammar} {word : List Terminal}

/-! ## Steps without conflicts -/

variable {stack : List StateId} {reductions : List ProductionId}

/-- The driver reads a terminal that some valid item allows. -/
theorem exists_shift_step (free : grammar.table.conflicts = []) {symbols : List Symbol}
    (path : (Automaton.generate grammar).Path symbols stack) {terminal : Terminal} {item : Item}
    (valid : Item.Valid grammar (symbols ++ [.terminal terminal]) item) (rest : List Terminal) :
    ∃ later, (Automaton.generate grammar).Path (symbols ++ [.terminal terminal]) later ∧
      Configuration.step grammar grammar.table ⟨stack, terminal :: rest, reductions⟩ =
        .next ⟨later, rest, reductions⟩ := by
  obtain ⟨top, below, rfl⟩ := path.exists_top
  obtain ⟨target, leads, isAction⟩ := Table.shift_of_valid free path valid
  exact ⟨_, .push path leads, Configuration.step_eq_next_iff.2 (.inl ⟨target, isAction, rfl⟩)⟩

/-- At the end of the input the driver reduces a right-hand side at the end of the path, if some
valid item allows the left-hand side there. -/
theorem exists_reduce_step (wellFormed : grammar.WellFormed) (free : grammar.table.conflicts = [])
    {before : List Symbol} {id : ProductionId} (stored : id ∈ grammar.productionIds)
    (path : (Automaton.generate grammar).Path (before ++ (grammar.production id).right) stack)
    {item : Item}
    (valid : Item.Valid grammar (before ++ [.nonterminal (grammar.production id).left]) item) :
    ∃ later,
      (Automaton.generate grammar).Path
        (before ++ [.nonterminal (grammar.production id).left]) later ∧
      Configuration.step grammar grammar.table ⟨stack, [], reductions⟩ =
        .next ⟨later, [], grammar.canonical id :: reductions⟩ := by
  obtain ⟨isCanonical, same⟩ := wellFormed.canonical id stored
  obtain ⟨isStored, fixed⟩ := Grammar.mem_canonicalIds.1 isCanonical
  obtain ⟨exposed, rest, dropped, shorter⟩ := path.split
  obtain ⟨top, below, rfl⟩ := path.exists_top
  obtain ⟨target, leads, isGoto⟩ := Table.exists_goto wellFormed shorter stored valid
  have isAction : grammar.table.action? top .endOfInput =
      some (.reduce (grammar.canonical id)) := by
    have complete := valid.replace_last wellFormed stored
    have nothingNext : (Item.mk (grammar.canonical id) (grammar.production id).right.length
        .endOfInput).nextSymbol? grammar = none := by
      simp [Item.nextSymbol?, Item.right, same]
    have reducing : grammar.canonical id ≠ .accept := by
      intro accepting
      rw [accepting] at isStored
      exact Grammar.accept_notMem_productionIds isStored
    have reduces := Table.reduce_of_valid free path complete nothingNext reducing
    rwa [fixed] at reduces
  refine ⟨_, .push shorter leads, Configuration.step_eq_next_iff.2 (.inr ⟨_, isAction, ?_⟩)⟩
  rw [← same] at dropped isGoto
  exact Configuration.reduce?_eq_some_iff.2 ⟨exposed, rest, target, dropped, isGoto, rfl⟩

/-! ## Reading the word -/

/-- The driver reads the terminals of a string that the automaton follows. -/
theorem steps_of_follow? (free : grammar.table.conflicts = []) (rest : List Terminal)
    {symbols : List Symbol} (path : (Automaton.generate grammar).Path symbols stack)
    (leads : ∃ state, (Automaton.generate grammar).follow? 0
      (symbols ++ rest.map .terminal) = some state) :
    ∃ full, (Automaton.generate grammar).Path (symbols ++ rest.map .terminal) full ∧
      Configuration.Steps grammar grammar.table ⟨stack, rest, reductions⟩
        ⟨full, [], reductions⟩ := by
  induction rest generalizing symbols stack with
  | nil =>
      rw [List.map_nil, List.append_nil]
      exact ⟨stack, path, .refl⟩
  | cons terminal rest ih =>
      have isSplit : symbols ++ (terminal :: rest).map .terminal =
          (symbols ++ [.terminal terminal]) ++ rest.map .terminal := by
        rw [List.map_cons, List.append_assoc, List.singleton_append]
      rw [isSplit] at leads ⊢
      obtain ⟨state, leadsOn⟩ := leads
      obtain ⟨next, toNext, -⟩ := (Automaton.follow?_append _ _ _ _ _).1 leadsOn
      obtain ⟨item, valid⟩ := Automaton.exists_valid_of_follow? toNext
      obtain ⟨later, laterPath, reads⟩ := exists_shift_step free path valid rest
      obtain ⟨full, fullPath, steps⟩ := ih laterPath ⟨state, leadsOn⟩
      exact ⟨full, fullPath, .head reads steps⟩

/-! ## Undoing the derivation -/

/-- A string for which an item is valid, and from which the driver gets to acceptance when its input
is used up. -/
structure Finishing (grammar : Grammar) (symbols : List Symbol) : Prop where
  valid : ∃ item, Item.Valid grammar symbols item
  finishes : ∀ stack reductions, (Automaton.generate grammar).Path symbols stack →
    ∃ last, Configuration.Steps grammar grammar.table ⟨stack, [], reductions⟩ last ∧
      last.step grammar grammar.table = .accepted

namespace Finishing

theorem start (free : grammar.table.conflicts = []) :
    Finishing grammar [.nonterminal grammar.start] := by
  have valid : Item.Valid grammar [.nonterminal grammar.start]
      ⟨.accept, 1, .endOfInput⟩ := by
    have next : Item.start.nextSymbol? grammar = some (.nonterminal grammar.start) := rfl
    exact Item.Valid.advance (.refl .start) next
  constructor
  case valid => exact ⟨_, valid⟩
  case finishes =>
    intro stack reductions path
    obtain ⟨top, below, rfl⟩ := path.exists_top
    have isAction := Table.accept_of_valid free path valid rfl rfl
    exact ⟨_, .refl, Configuration.step_eq_accepted_iff.2 isAction⟩

/-- **Replacing the last symbol keeps a string finishing.** -/
theorem replace (wellFormed : grammar.WellFormed) (free : grammar.table.conflicts = [])
    {before : List Symbol} {id : ProductionId} (stored : id ∈ grammar.productionIds)
    (finishing : Finishing grammar (before ++ [.nonterminal (grammar.production id).left])) :
    Finishing grammar (before ++ (grammar.production id).right) := by
  obtain ⟨⟨item, valid⟩, finishes⟩ := finishing
  constructor
  case valid => exact ⟨_, valid.replace_last wellFormed stored⟩
  case finishes =>
    intro stack reductions path
    obtain ⟨later, laterPath, reduces⟩ := exists_reduce_step wellFormed free stored path valid
    obtain ⟨last, steps, accepted⟩ := finishes later _ laterPath
    exact ⟨last, .head reduces steps, accepted⟩

/-- Derivations at the last symbol keep a string finishing. -/
theorem derivation (wellFormed : grammar.WellFormed) (free : grammar.table.conflicts = [])
    {form result : List Symbol} {ids : List ProductionId}
    (derivation : grammar.Derivation .last form ids result) (finishing : Finishing grammar form) :
    Finishing grammar result := by
  induction derivation with
  | done => exact finishing
  | step stored nothing _ ih =>
      cases nothing
      rw [List.append_nil] at ih
      exact ih (finishing.replace wellFormed free stored)

end Finishing

/-! ## The language -/

/-- A word that is accepted is derived. -/
theorem derivation_of_accepts (wellFormed : grammar.WellFormed)
    (proper : Terminal.endOfInput ∉ word) (accepts : grammar.table.Accepts grammar word) :
    ∃ ids, grammar.Derivation .last [.nonterminal grammar.start] ids (word.map .terminal) := by
  obtain ⟨configuration, reached, accepted⟩ := accepts
  obtain ⟨symbols, consumed, explained⟩ := explained_of_reaches wellFormed proper reached
  obtain ⟨isStart, -, rfl⟩ :=
    explained.accept wellFormed proper (Configuration.step_eq_accepted_iff.1 accepted)
  have derivation := explained.derivation
  rw [isStart] at derivation
  exact ⟨_, derivation⟩

/-- A word that is derived is accepted. -/
theorem accepts_of_derivation (wellFormed : grammar.WellFormed)
    (free : grammar.table.conflicts = []) {ids : List ProductionId}
    (derivation : grammar.Derivation .last [.nonterminal grammar.start] ids
      (word.map .terminal)) :
    grammar.table.Accepts grammar word := by
  obtain ⟨⟨item, valid⟩, finishes⟩ :=
    Finishing.derivation wellFormed free derivation (Finishing.start free)
  obtain ⟨full, path, reads⟩ := steps_of_follow? free word .start
    (Automaton.exists_follow?_of_valid valid)
  obtain ⟨last, finishing, accepted⟩ := finishes full [] path
  exact ⟨last, Relation.ReflTransGen.trans reads finishing, accepted⟩

/-- **The driver of a table without conflicts accepts the words that are derived from the start
symbol by replacing the last symbol, and no others.** -/
theorem accepts_iff_derivation {definition : Definition} (defined : definition.build = .ok grammar)
    (free : (Table.generate grammar (Automaton.generate grammar)).conflicts = [])
    (proper : Terminal.endOfInput ∉ word) :
    (Table.generate grammar (Automaton.generate grammar)).Accepts grammar word ↔
      ∃ ids, grammar.Derivation .last [.nonterminal grammar.start] ids (word.map .terminal) := by
  have wellFormed := Definition.wellFormed_of_build defined
  constructor
  · exact derivation_of_accepts wellFormed proper
  · rintro ⟨ids, derivation⟩
    exact accepts_of_derivation wellFormed free derivation

/-- The rules of the words that repeat one letter. -/
def repeatingRules : List Request :=
  [.addRule ⟨"S", ["a", "S"]⟩, .addRule ⟨"S", []⟩]

/-- The grammar of the repeating rules. -/
def repeating : Grammar where
  terminals := #["$", "a"]
  nonterminals := #["S'", "S"]
  start := ⟨1⟩
  productions := #[⟨⟨1⟩, [.terminal ⟨1⟩, .nonterminal ⟨1⟩]⟩, ⟨⟨1⟩, []⟩]
  firsts := #[0, 1]
  alternatives := #[#[], #[0, 1]]

theorem accepts_repeating :
    (Table.generate repeating (Automaton.generate repeating)).conflicts = [] ∧
      (Table.generate repeating (Automaton.generate repeating)).Accepts repeating [⟨1⟩, ⟨1⟩] := by
  have defined : (Definition.ofRequests repeatingRules).build = .ok repeating := by
    decide +kernel
  have free : (Table.generate repeating (Automaton.generate repeating)).conflicts = [] := by
    decide +kernel
  have derivation : repeating.Derivation .last [.nonterminal ⟨1⟩]
      [.stored 0, .stored 0, .stored 1] [.terminal ⟨1⟩, .terminal ⟨1⟩] := by
    have stops := @Grammar.Derivation.last_step repeating _ [] [.terminal ⟨1⟩, .terminal ⟨1⟩]
      (.stored 1) (by decide) (.done _)
    have repeats := @Grammar.Derivation.last_step repeating _ _ [.terminal ⟨1⟩]
      (.stored 0) (by decide) stops
    exact @Grammar.Derivation.last_step repeating _ _ [] (.stored 0) (by decide) repeats
  exact ⟨free, (accepts_iff_derivation defined free (by decide)).2 ⟨_, derivation⟩⟩

end ShiftReduce
