import Mathlib.Data.List.Basic
import ShiftReduce.Proofs.Grammar.Duplicates
import ShiftReduce.Proofs.Grammar.Numbered

/-!
# Well-formed grammars

What every later step relies on, for whatever grammar a definition makes (`wellFormed_of_build`):
the alternatives of a nonterminal are its canonical productions, a canonical production is equal to
each production that it stands for, and productions mention numbered symbols only, neither the end
of the input nor the augmented start symbol.
-/

set_option autoImplicit false

namespace ShiftReduce

/-! ## Symbols that rules can mention -/

/-- Whether a rule can mention a symbol. -/
def Grammar.Mentionable (grammar : Grammar) : Symbol → Prop
  | .terminal terminal => terminal ∈ grammar.terminalList ∧ terminal ≠ .endOfInput
  | .nonterminal nonterminal => nonterminal ∈ grammar.properNonterminals

/-- What holds of every grammar that a definition makes. -/
structure Grammar.WellFormed (grammar : Grammar) : Prop where
  start : Grammar.Mentionable grammar (.nonterminal grammar.start)
  left : ∀ id ∈ grammar.productionIds,
    grammar.Mentionable (.nonterminal (grammar.production id).left)
  right : ∀ id ∈ grammar.productionIds,
    ∀ symbol ∈ (grammar.production id).right, grammar.Mentionable symbol
  canonical : ∀ id ∈ grammar.productionIds,
    grammar.canonical id ∈ grammar.canonicalIds ∧
      grammar.production (grammar.canonical id) = grammar.production id
  productionsOf : ∀ nonterminal id, id ∈ grammar.productionsOf nonterminal ↔
    id ∈ grammar.canonicalIds ∧ (grammar.production id).left = nonterminal

namespace Grammar

theorem mem_productionIds {grammar : Grammar} {id : ProductionId} :
    id ∈ grammar.productionIds ↔
      ∃ index, id = .stored index ∧ index < grammar.productions.size := by
  simp [productionIds, eq_comm, and_comm]

theorem mem_canonicalIds {grammar : Grammar} {id : ProductionId} :
    id ∈ grammar.canonicalIds ↔ id ∈ grammar.productionIds ∧ grammar.canonical id = id := by
  simp [canonicalIds]

theorem accept_notMem_productionIds {grammar : Grammar} :
    ProductionId.accept ∉ grammar.productionIds := by
  simp [productionIds]

namespace WellFormed

variable {grammar : Grammar}

theorem stored_of_productionsOf (wellFormed : grammar.WellFormed) {nonterminal : Nonterminal}
    {id : ProductionId} (alternative : id ∈ grammar.productionsOf nonterminal) :
    id ∈ grammar.productionIds ∧ grammar.canonical id = id ∧
      (grammar.production id).left = nonterminal := by
  obtain ⟨isCanonical, isLeft⟩ := (wellFormed.productionsOf nonterminal id).1 alternative
  obtain ⟨stored, fixed⟩ := mem_canonicalIds.1 isCanonical
  exact ⟨stored, fixed, isLeft⟩

/-- The production that stands for a production is an alternative of the same nonterminal. -/
theorem canonical_mem_productionsOf (wellFormed : grammar.WellFormed) {id : ProductionId}
    (stored : id ∈ grammar.productionIds) :
    grammar.canonical id ∈ grammar.productionsOf (grammar.production id).left := by
  obtain ⟨isCanonical, same⟩ := wellFormed.canonical id stored
  rw [wellFormed.productionsOf, same]
  exact ⟨isCanonical, rfl⟩

theorem accept_notMem_productionsOf (wellFormed : grammar.WellFormed) (nonterminal : Nonterminal) :
    ProductionId.accept ∉ grammar.productionsOf nonterminal := fun alternative =>
  accept_notMem_productionIds (wellFormed.stored_of_productionsOf alternative).1

end WellFormed

end Grammar

/-! ## Symbols of a numbering -/

namespace Numbering

variable {isNonterminal : String → Bool} {numbering : Numbering}

theorem Sound.symbol (sound : numbering.Sound isNonterminal) {name : String}
    (numbered : ∃ symbol, numbering.symbols[name]? = some symbol) :
    numbering.name? (numbering.symbol name) = some name := by
  obtain ⟨symbol, found⟩ := numbered
  rw [Numbering.symbol, Std.TreeMap.getD_eq_getD_getElem?, found, Option.getD_some]
  exact (sound.symbols name symbol).1 found

theorem Sound.nonterminal (sound : numbering.Sound isNonterminal) {name : String}
    (numbered : ∃ symbol, numbering.symbols[name]? = some symbol)
    (kind : isNonterminal name = true) :
    numbering.symbol name = .nonterminal (numbering.nonterminal name) := by
  have found := (sound.symbols name _).2 (sound.symbol numbered)
  obtain ⟨nonterminal, isSymbol⟩ := (sound.kinds name _ found).1 kind
  simp [Numbering.nonterminal, isSymbol]

/-- A symbol that has a name can be mentioned. -/
theorem mentionable_of_name? {grammar : Grammar}
    (terminals : grammar.terminals = numbering.terminals)
    (nonterminals : grammar.nonterminals = numbering.nonterminals) {symbol : Symbol} {name : String}
    (named : numbering.name? symbol = some name) : grammar.Mentionable symbol := by
  cases symbol with
  | terminal terminal =>
      simp only [name?] at named
      split at named
      · cases named
      · next proper =>
        obtain ⟨inside, -⟩ := Array.getElem?_eq_some_iff.1 named
        constructor
        · exact List.mem_map.2 ⟨terminal.index, by simpa [terminals] using inside, rfl⟩
        · rintro rfl
          exact proper rfl
  | nonterminal nonterminal =>
      simp only [name?] at named
      split at named
      · cases named
      · next proper =>
        obtain ⟨inside, -⟩ := Array.getElem?_eq_some_iff.1 named
        refine List.mem_filter.2 ⟨List.mem_map.2 ⟨nonterminal.index, ?_, rfl⟩, ?_⟩
        · simpa [nonterminals] using inside
        · simp only [bne_iff_ne]
          rintro rfl
          exact proper rfl

end Numbering

/-! ## Finished grammars -/

namespace Definition

theorem contains_lefts {definition : Definition} {name : String} :
    definition.lefts.contains name = true ↔ ∃ rule ∈ definition.rules, rule.left = name := by
  have collects : ∀ (rules : List Rule) (lefts : Std.TreeSet String),
      (rules.foldl (fun lefts rule => lefts.insert rule.left) lefts).contains name = true ↔
        (∃ rule ∈ rules, rule.left = name) ∨ lefts.contains name = true := by
    intro rules
    induction rules with
    | nil => simp
    | cons rule rest ih =>
        intro lefts
        rw [List.foldl_cons, ih]
        simp only [Std.TreeSet.contains_insert, Bool.or_eq_true, beq_iff_eq,
          Std.compare_eq_iff_eq, List.mem_cons, exists_eq_or_imp]
        rw [or_left_comm, or_assoc]
  rw [lefts, ← Array.foldl_toList, collects]
  simp

/-- Which names are nonterminals depends only on which rules there are. -/
theorem isNonterminal_lefts_eq {first second : Definition}
    (sameRules : ∀ rule, rule ∈ first.rules.toList ↔ rule ∈ second.rules.toList) :
    isNonterminal first.lefts = isNonterminal second.lefts := by
  have sameLefts : ∀ name, first.lefts.contains name = second.lefts.contains name := by
    intro name
    rw [Bool.eq_iff_iff, contains_lefts, contains_lefts]
    simp only [← Array.mem_toList_iff, sameRules]
  funext name
  rw [isNonterminal, isNonterminal, sameLefts]

variable {definition : Definition} {grammar : Grammar}

theorem isNonterminal_left {rule : Rule} (isRule : rule ∈ definition.rules.toList) :
    isNonterminal definition.lefts rule.left = true := by
  rw [isNonterminal, contains_lefts.2 ⟨rule, Array.mem_toList_iff.1 isRule, rfl⟩, Bool.true_or]

/-- **A definition makes a grammar when its start symbol is a left-hand side and its names can be
numbered.** -/
theorem build_eq_ok_iff :
    definition.build = .ok grammar ↔
      ∃ start numbering, definition.startName = .ok start ∧
        (∃ rule ∈ definition.rules, rule.left = start) ∧
        Numbering.ofNames (isNonterminal definition.lefts) start definition.names = .ok numbering ∧
        grammar = assemble numbering start definition.rules := by
  simp only [build]
  cases named : definition.startName with
  | error error => simp [bind, Except.bind]
  | ok start =>
      simp only [bind, Except.bind, Except.ok.injEq, exists_and_left, exists_eq_left',
        ← contains_lefts]
      split
      · next isLeft =>
        cases numbered :
            Numbering.ofNames (isNonterminal definition.lefts) start definition.names with
        | error error => simp
        | ok numbering => simp [isLeft, pure, Except.pure, eq_comm]
      · next notLeft => simp [notLeft, throw, throwThe, MonadExceptOf.throw]

/-- A definition that makes a grammar has a left-hand side as its start symbol and a sound numbering
of all its names. -/
theorem exists_of_build (built : definition.build = .ok grammar) :
    ∃ start numbering,
      (∃ rule ∈ definition.rules, rule.left = start) ∧
      numbering.Sound (isNonterminal definition.lefts) ∧
      (∀ name ∈ definition.names, ∃ symbol, numbering.symbols[name]? = some symbol) ∧
      grammar = assemble numbering start definition.rules := by
  obtain ⟨start, numbering, -, isLeft, numbered, isGrammar⟩ := build_eq_ok_iff.1 built
  obtain ⟨sound, covers⟩ := Numbering.sound_ofNames numbered
  exact ⟨start, numbering, isLeft, sound, covers, isGrammar⟩

section Assembled

variable {numbering : Numbering} {start : String} {rules : Array Rule} {index : Nat} {rule : Rule}

theorem mem_productionIds_assemble {id : ProductionId} :
    id ∈ (assemble numbering start rules).productionIds ↔
      ∃ index rule, id = .stored index ∧ rules.toList[index]? = some rule := by
  rw [Grammar.mem_productionIds]
  constructor
  · rintro ⟨index, rfl, inside⟩
    have inRules : index < rules.toList.length := by
      simpa [assemble] using inside
    exact ⟨index, _, rfl, List.getElem?_eq_getElem inRules⟩
  · rintro ⟨index, rule, rfl, found⟩
    obtain ⟨inRules, -⟩ := List.getElem?_eq_some_iff.1 found
    exact ⟨index, rfl, by simpa [assemble] using inRules⟩

theorem getElem?_map_production (found : rules.toList[index]? = some rule) :
    (rules.map numbering.production)[index]? = some (numbering.production rule) := by
  rw [Array.getElem?_map, ← Array.getElem?_toList, found, Option.map_some]

theorem production_assemble (found : rules.toList[index]? = some rule) :
    (assemble numbering start rules).production (.stored index) = numbering.production rule := by
  rw [Grammar.production, assemble, Array.getD_eq_getD_getElem?, getElem?_map_production found,
    Option.getD_some]

theorem canonical_assemble (found : rules.toList[index]? = some rule) :
    (assemble numbering start rules).canonical (.stored index) =
      .stored (rules.toList.idxOf rule) := by
  rw [Grammar.canonical, assemble, Array.getD_eq_getD_getElem?,
    FirstUse.getElem?_positions_ofRules found, Option.getD_some]

theorem getElem?_idxOf (found : rules.toList[index]? = some rule) :
    rules.toList[rules.toList.idxOf rule]? = some rule :=
  List.getElem?_idxOf (List.mem_of_getElem? found)

/-- The canonical production of a rule is the one at the first place of the rule. -/
theorem canonical_mem_canonicalIds (found : rules.toList[index]? = some rule) :
    (assemble numbering start rules).canonical (.stored index) ∈
      (assemble numbering start rules).canonicalIds := by
  rw [canonical_assemble found, Grammar.mem_canonicalIds, canonical_assemble (getElem?_idxOf found)]
  exact ⟨mem_productionIds_assemble.2 ⟨_, rule, rfl, getElem?_idxOf found⟩, rfl⟩

theorem mem_productionsOf_assemble
    (inside : ∀ rule ∈ rules.toList,
      (numbering.nonterminal rule.left).index < numbering.nonterminals.size)
    (nonterminal : Nonterminal) (id : ProductionId) :
    id ∈ (assemble numbering start rules).productionsOf nonterminal ↔
      id ∈ (assemble numbering start rules).canonicalIds ∧
        ((assemble numbering start rules).production id).left = nonterminal := by
  rw [Grammar.mem_canonicalIds, mem_productionIds_assemble]
  constructor
  · intro alternative
    obtain ⟨position, listed, rfl⟩ := List.mem_map.1 alternative
    obtain ⟨-, isFirst, production, found, isLeft⟩ := mem_alternativesOf.1 listed
    obtain ⟨rule, atPosition, rfl⟩ : ∃ rule, rules.toList[position]? = some rule ∧
        numbering.production rule = production := by
      simpa using found
    rw [FirstUse.getElem?_positions_ofRules atPosition, Option.some.injEq] at isFirst
    refine ⟨⟨⟨position, rule, rfl, atPosition⟩, ?_⟩, ?_⟩
    · rw [canonical_assemble atPosition, isFirst]
    · rw [production_assemble atPosition]
      cases nonterminal
      exact congrArg Nonterminal.mk isLeft
  · rintro ⟨⟨⟨position, rule, rfl, found⟩, fixed⟩, rfl⟩
    rw [canonical_assemble found, ProductionId.stored.injEq] at fixed
    refine List.mem_map.2 ⟨position, mem_alternativesOf.2 ⟨?_, ?_, ?_⟩, rfl⟩
    · rw [production_assemble found]
      exact inside rule (List.mem_of_getElem? found)
    · rw [FirstUse.getElem?_positions_ofRules found, fixed]
    · refine ⟨_, getElem?_map_production found, ?_⟩
      rw [production_assemble found]

/-- The symbol of a name in a rule can be mentioned, since the name was numbered. -/
theorem mentionable_symbol (sound : numbering.Sound (isNonterminal definition.lefts))
    (covers : ∀ name ∈ definition.names, ∃ symbol, numbering.symbols[name]? = some symbol)
    (isRule : rule ∈ definition.rules.toList) {name : String} (mentioned : name ∈ rule.names) :
    (assemble numbering start definition.rules).Mentionable (numbering.symbol name) := by
  apply Numbering.mentionable_of_name? rfl rfl
  apply sound.symbol
  exact covers name (List.mem_flatMap.2 ⟨rule, isRule, mentioned⟩)

/-- The left-hand side of a rule is a nonterminal that can be mentioned. -/
theorem mentionable_left (sound : numbering.Sound (isNonterminal definition.lefts))
    (covers : ∀ name ∈ definition.names, ∃ symbol, numbering.symbols[name]? = some symbol)
    (isRule : rule ∈ definition.rules.toList) :
    (assemble numbering start definition.rules).Mentionable
      (.nonterminal (numbering.nonterminal rule.left)) := by
  have isLeft : rule.left ∈ rule.names := List.mem_cons_self
  rw [← sound.nonterminal (covers _ (List.mem_flatMap.2 ⟨rule, isRule, isLeft⟩))
    (isNonterminal_left isRule)]
  exact mentionable_symbol sound covers isRule isLeft

/-- **Every grammar that a definition makes is well-formed.** -/
theorem wellFormed_of_build (built : definition.build = .ok grammar) : grammar.WellFormed := by
  obtain ⟨start, numbering, ⟨first, isRule, isStart⟩, sound, covers, rfl⟩ := exists_of_build built
  constructor
  case start =>
    rw [← isStart]
    exact mentionable_left sound covers (Array.mem_toList_iff.2 isRule)
  case left =>
    intro id stored
    obtain ⟨index, rule, rfl, found⟩ := mem_productionIds_assemble.1 stored
    rw [production_assemble found]
    exact mentionable_left sound covers (List.mem_of_getElem? found)
  case right =>
    intro id stored symbol mentioned
    obtain ⟨index, rule, rfl, found⟩ := mem_productionIds_assemble.1 stored
    rw [production_assemble found] at mentioned
    obtain ⟨name, isName, rfl⟩ := List.mem_map.1 mentioned
    exact mentionable_symbol sound covers (List.mem_of_getElem? found)
      (List.mem_cons_of_mem _ isName)
  case canonical =>
    intro id stored
    obtain ⟨index, rule, rfl, found⟩ := mem_productionIds_assemble.1 stored
    refine ⟨canonical_mem_canonicalIds found, ?_⟩
    rw [canonical_assemble found, production_assemble found,
      production_assemble (getElem?_idxOf found)]
  case productionsOf =>
    apply mem_productionsOf_assemble
    intro rule isRule
    obtain ⟨inside, -⟩ := List.mem_filter.1 (@mentionable_left _ _ start _ sound covers isRule)
    obtain ⟨index, inRange, same⟩ := List.mem_map.1 inside
    rw [← same]
    simpa [assemble] using inRange

end Assembled

end Definition

end ShiftReduce
