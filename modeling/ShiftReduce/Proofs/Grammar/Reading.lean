import Mathlib.Data.Set.Defs
import ShiftReduce.Proofs.Grammar.Appearance
import ShiftReduce.Proofs.Grammar.WellFormed

/-!
# Grammars read by name

Read by its names, a grammar says no more than which rules it has and what its start symbol is
(`Grammar.Reads`). The numbers of its symbols and productions do not show, since each symbol that
rules can mention is told by its name, and each canonical production by its rule. Every grammar that
a definition makes reads as the rules of the definition (`reads_of_build`), in whatever order they
were given.
-/

set_option autoImplicit false

namespace ShiftReduce

/-! ## Names in the order of numbers -/

theorem toList_eq_map_getD {α : Type} (rows : Array α) (default : α) :
    rows.toList = (List.range rows.size).map fun index => rows.getD index default := by
  refine List.ext_getElem (by simp) fun index inRows _ => ?_
  have inside : index < rows.size := by simpa using inRows
  simp [inside]

namespace Grammar

theorem map_terminalName (grammar : Grammar) :
    grammar.terminalList.map grammar.terminalName = grammar.terminals.toList := by
  rw [terminalList, List.map_map, toList_eq_map_getD grammar.terminals ""]
  rfl

theorem map_nonterminalName (grammar : Grammar) :
    grammar.nonterminalList.map grammar.nonterminalName = grammar.nonterminals.toList := by
  rw [nonterminalList, List.map_map, toList_eq_map_getD grammar.nonterminals ""]
  rfl

/-! ## What a grammar says -/

/-- A production in the names of its symbols. -/
def ruleOf (grammar : Grammar) (id : ProductionId) : Rule :=
  ⟨grammar.nonterminalName (grammar.production id).left,
    (grammar.production id).right.map grammar.symbolName⟩

/-- What a grammar says by its names. -/
structure Reads (grammar : Grammar) (start : String) (rules : Set Rule) : Prop where
  wellFormed : grammar.WellFormed
  endOfInput : grammar.terminalName .endOfInput = endOfInputName
  start : grammar.nonterminalName grammar.start = start
  /-- A symbol that rules can mention is told by its name. -/
  symbols : ∀ {first second : Symbol}, grammar.Mentionable first → grammar.Mentionable second →
    grammar.symbolName first = grammar.symbolName second → first = second
  /-- The rules are those of the canonical productions. -/
  rules : ∀ rule, rule ∈ rules ↔ ∃ id ∈ grammar.canonicalIds, grammar.ruleOf id = rule
  /-- A canonical production is told by its rule. -/
  productions : ∀ {id other : ProductionId}, id ∈ grammar.canonicalIds →
    other ∈ grammar.canonicalIds → grammar.ruleOf id = grammar.ruleOf other → id = other

end Grammar

/-! ## Names of numbered symbols -/

namespace Numbering

variable {isNonterminal : String → Bool} {numbering : Numbering} {grammar : Grammar}

/-- A symbol that can be mentioned was numbered under its name. -/
theorem name?_of_mentionable (terminals : grammar.terminals = numbering.terminals)
    (nonterminals : grammar.nonterminals = numbering.nonterminals) {symbol : Symbol}
    (mentionable : grammar.Mentionable symbol) :
    numbering.name? symbol = some (grammar.symbolName symbol) := by
  cases symbol with
  | terminal terminal =>
      obtain ⟨isListed, proper⟩ := mentionable
      obtain ⟨index, inside, rfl⟩ := List.mem_map.1 isListed
      rw [List.mem_range, terminals] at inside
      have notZero : index ≠ 0 := by
        rintro rfl
        exact proper rfl
      simp [name?, Grammar.symbolName, Grammar.terminalName, terminals, notZero, inside]
  | nonterminal nonterminal =>
      obtain ⟨isListed, proper⟩ := List.mem_filter.1 mentionable
      obtain ⟨index, inside, rfl⟩ := List.mem_map.1 isListed
      rw [List.mem_range, nonterminals] at inside
      have notZero : index ≠ 0 := by
        rintro rfl
        exact (bne_iff_ne.1 proper) rfl
      simp [name?, Grammar.symbolName, Grammar.nonterminalName, nonterminals, notZero, inside]

/-- The symbol of a numbered name has the name. -/
theorem Sound.symbolName_symbol (sound : numbering.Sound isNonterminal)
    (terminals : grammar.terminals = numbering.terminals)
    (nonterminals : grammar.nonterminals = numbering.nonterminals) {name : String}
    (numbered : ∃ symbol, numbering.symbols[name]? = some symbol) :
    grammar.symbolName (numbering.symbol name) = name := by
  have named := sound.symbol numbered
  have mentionable := mentionable_of_name? terminals nonterminals named
  rw [name?_of_mentionable terminals nonterminals mentionable] at named
  exact Option.some.inj named

end Numbering

/-! ## Finished grammars -/

namespace Definition

variable {definition : Definition} {grammar : Grammar} {numbering : Numbering} {start : String}

section Assembled

variable (sound : numbering.Sound (isNonterminal definition.lefts))
  (covers : ∀ name ∈ definition.names, ∃ symbol, numbering.symbols[name]? = some symbol)

include sound covers

theorem nonterminalName_left {rule : Rule} (isRule : rule ∈ definition.rules.toList) :
    (assemble numbering start definition.rules).nonterminalName
      (numbering.nonterminal rule.left) = rule.left := by
  have numbered : ∃ symbol, numbering.symbols[rule.left]? = some symbol :=
    covers _ (List.mem_flatMap.2 ⟨rule, isRule, List.mem_cons_self⟩)
  have named := @Numbering.Sound.symbolName_symbol _ _ (assemble numbering start definition.rules)
    sound rfl rfl _ numbered
  rwa [sound.nonterminal numbered (isNonterminal_left isRule)] at named

/-- A production reads as the rule that it was made of. -/
theorem ruleOf_assemble {index : Nat} {rule : Rule}
    (found : definition.rules.toList[index]? = some rule) :
    (assemble numbering start definition.rules).ruleOf (.stored index) = rule := by
  have isRule := List.mem_of_getElem? found
  rw [Grammar.ruleOf, production_assemble found, Numbering.production]
  have readBack : ∀ name ∈ rule.right,
      ((assemble numbering start definition.rules).symbolName ∘ numbering.symbol) name = id name :=
    fun name isName => sound.symbolName_symbol rfl rfl
      (covers _ (List.mem_flatMap.2 ⟨rule, isRule, List.mem_cons_of_mem _ isName⟩))
  rw [List.map_map, List.map_congr_left readBack, List.map_id,
    nonterminalName_left sound covers isRule]

end Assembled

/-- **A grammar that a definition makes reads as the rules of the definition.** -/
theorem reads_of_build (built : definition.build = .ok grammar)
    (named : definition.startName = .ok start) :
    grammar.Reads start {rule | rule ∈ definition.rules.toList} := by
  have wellFormed := wellFormed_of_build built
  obtain ⟨_, numbering, isStart, ⟨first, isFirst, isLeft⟩, numbered, rfl⟩ := build_eq_ok_iff.1 built
  rw [named] at isStart
  cases isStart
  obtain ⟨sound, covers⟩ := Numbering.sound_ofNames numbered
  constructor
  case wellFormed => exact wellFormed
  case endOfInput =>
    have terminals := (Numbering.numbers_ofNames numbered).terminals
    simp [Grammar.terminalName, assemble, Terminal.endOfInput, Array.getD_eq_getD_getElem?,
      ← Array.getElem?_toList, terminals]
  case start =>
    rw [← isLeft]
    exact nonterminalName_left sound covers (Array.mem_toList_iff.2 isFirst)
  case symbols =>
    intro first second isFirst isSecond same
    have firstNamed := Numbering.name?_of_mentionable rfl rfl isFirst
    have secondNamed := Numbering.name?_of_mentionable rfl rfl isSecond
    rw [same] at firstNamed
    have found := (sound.symbols _ first).2 firstNamed
    rw [(sound.symbols _ second).2 secondNamed] at found
    exact (Option.some.inj found).symm
  case rules =>
    intro rule
    constructor
    · intro isRule
      have found := List.getElem?_idxOf isRule
      refine ⟨.stored (definition.rules.toList.idxOf rule), ?_, ruleOf_assemble sound covers found⟩
      have isCanonical := @canonical_mem_canonicalIds numbering start _ _ _ found
      rwa [canonical_assemble found] at isCanonical
    · rintro ⟨id, isCanonical, rfl⟩
      obtain ⟨index, rule, rfl, found⟩ :=
        mem_productionIds_assemble.1 (Grammar.mem_canonicalIds.1 isCanonical).1
      rw [ruleOf_assemble sound covers found]
      exact List.mem_of_getElem? found
  case productions =>
    intro id other isCanonical otherCanonical same
    obtain ⟨stored, fixed⟩ := Grammar.mem_canonicalIds.1 isCanonical
    obtain ⟨otherStored, otherFixed⟩ := Grammar.mem_canonicalIds.1 otherCanonical
    obtain ⟨index, rule, rfl, found⟩ := mem_productionIds_assemble.1 stored
    obtain ⟨place, again, rfl, otherFound⟩ := mem_productionIds_assemble.1 otherStored
    rw [ruleOf_assemble sound covers found, ruleOf_assemble sound covers otherFound] at same
    rw [← fixed, ← otherFixed, canonical_assemble found, canonical_assemble otherFound, same]

/-- **The names of the terminals are those of the rules, in the order of their first appearance**,
behind the name of the end of the input. -/
theorem terminals_of_build (built : definition.build = .ok grammar) :
    grammar.terminals.toList = endOfInputName ::
      Numbering.distinct (fun name => !isNonterminal definition.lefts name) definition.names := by
  obtain ⟨start, numbering, -, -, numbered, rfl⟩ := build_eq_ok_iff.1 built
  exact (Numbering.numbers_ofNames numbered).terminals

/-- **The names of the nonterminals are those of the rules, in the order of their first
appearance**, behind the name of the augmented start symbol. -/
theorem nonterminals_of_build (built : definition.build = .ok grammar) :
    grammar.nonterminals.toList = augmentedName (grammar.nonterminalName grammar.start) ::
      Numbering.distinct (isNonterminal definition.lefts) definition.names := by
  obtain ⟨start, numbering, named, -, numbered, isGrammar⟩ := build_eq_ok_iff.1 built
  rw [(reads_of_build built named).start, isGrammar]
  exact (Numbering.numbers_ofNames numbered).nonterminals

/-- The number of a production is the place of the rule that it was made of. -/
theorem ruleOf_of_getElem? (built : definition.build = .ok grammar) {index : Nat} {rule : Rule}
    (found : definition.rules.toList[index]? = some rule) :
    .stored index ∈ grammar.productionIds ∧ grammar.ruleOf (.stored index) = rule := by
  obtain ⟨start, numbering, -, sound, covers, rfl⟩ := exists_of_build built
  exact ⟨mem_productionIds_assemble.2 ⟨index, rule, rfl, found⟩, ruleOf_assemble sound covers found⟩

/-- The productions of a grammar read as the rules that they were made of. -/
theorem map_ruleOf_productionIds (built : definition.build = .ok grammar) :
    grammar.productionIds.map grammar.ruleOf = definition.rules.toList := by
  obtain ⟨start, numbering, -, sound, covers, rfl⟩ := exists_of_build built
  apply List.ext_getElem
  · simp [Grammar.productionIds, assemble]
  · intro index inIds inRules
    have inRange : index < (assemble numbering start definition.rules).productionIds.length := by
      simpa using inIds
    have isStored : (assemble numbering start definition.rules).productionIds[index] =
        .stored index := by
      simp [Grammar.productionIds]
    rw [List.getElem_map, isStored]
    exact ruleOf_assemble sound covers (List.getElem?_eq_getElem inRules)

end Definition

end ShiftReduce
