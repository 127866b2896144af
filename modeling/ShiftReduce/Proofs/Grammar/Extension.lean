import ShiftReduce.Proofs.Grammar.Repetition

/-!
# Rules for names that are not used

Rules may be added behind a definition for names that occur nowhere in it. The earlier names stay of
the same kind and are numbered first, so they keep their numbers (`prolongs_of_ofNames`), and their
rules keep their places. No earlier production mentions a name of the added rules, so the grammar
embeds in the extended one without any renaming (`embeds_append`). Nothing of the added rules is
ever expected, and the automaton and the tables stay exactly as they were (`build_append`).
-/

set_option autoImplicit false

namespace ShiftReduce

/-! ## Names that are numbered later -/

namespace Numbering

variable {isNonterminal other : String → Bool} {start : String} {names more : List String}
  {numbering larger : Numbering}

/-- Names are numbered by their own kinds alone. -/
theorem ofNames_congr (agree : ∀ name ∈ names, isNonterminal name = other name) :
    ofNames isNonterminal start names = ofNames other start names := by
  unfold ofNames
  generalize initial start = numbering
  induction names generalizing numbering with
  | nil => rfl
  | cons first rest ih =>
      obtain ⟨firstAgrees, restAgrees⟩ := List.forall_mem_cons.1 agree
      have added : add isNonterminal numbering first = add other numbering first := by
        rw [add, add, firstAgrees]
      rw [List.foldlM_cons, List.foldlM_cons, added]
      exact bind_congr fun next => ih restAgrees next

theorem distinct_prefix_append (kind : String → Bool) (names more : List String) :
    distinct kind names <+: distinct kind (names ++ more) := by
  rw [distinct, distinct, List.filter_append, List.eraseDups_append]
  exact List.prefix_append _ _

/-- A larger numbering lists the symbols of a numbering first, and gives its names their symbols. -/
structure Prolongs (names : List String) (numbering larger : Numbering) : Prop where
  terminals : numbering.terminals.toList <+: larger.terminals.toList
  nonterminals : numbering.nonterminals.toList <+: larger.nonterminals.toList
  symbol : ∀ name ∈ names, larger.symbol name = numbering.symbol name

/-- **Names that are numbered later leave the earlier ones their symbols.** -/
theorem prolongs_of_ofNames (numbered : ofNames isNonterminal start names = .ok numbering)
    (numberedMore : ofNames isNonterminal start (names ++ more) = .ok larger) :
    Prolongs names numbering larger := by
  have listed := numbers_ofNames numbered
  have listedMore := numbers_ofNames numberedMore
  constructor
  case terminals =>
    rw [listed.terminals, listedMore.terminals, List.prefix_cons_inj]
    exact distinct_prefix_append _ names more
  case nonterminals =>
    rw [listed.nonterminals, listedMore.nonterminals, List.prefix_cons_inj]
    exact distinct_prefix_append _ names more
  case symbol =>
    intro name isName
    obtain ⟨sound, covers⟩ := sound_ofNames numbered
    obtain ⟨symbol, found⟩ := covers name isName
    rw [ofNames_append, numbered] at numberedMore
    obtain ⟨-, -, keeps⟩ := sound_foldlM sound numberedMore
    rw [Numbering.symbol, Numbering.symbol, Std.TreeMap.getD_eq_getD_getElem?,
      Std.TreeMap.getD_eq_getD_getElem?, found, keeps name symbol found]

theorem Prolongs.production (prolongs : Prolongs names numbering larger) {rule : Rule}
    (mentions : rule.names ⊆ names) : larger.production rule = numbering.production rule := by
  obtain ⟨left, right⟩ := List.cons_subset.1 mentions
  have sameRight : rule.right.map larger.symbol = rule.right.map numbering.symbol :=
    List.map_congr_left fun name isName => prolongs.symbol name (right isName)
  rw [Numbering.production, Numbering.production, Numbering.nonterminal, Numbering.nonterminal,
    prolongs.symbol _ left, sameRight]

end Numbering

/-! ## Rules that are added behind a definition -/

namespace Definition

variable {definition : Definition} {more : List Rule} {grammar extended : Grammar}

/-- The definition with further rules behind its own. -/
def append (definition : Definition) (more : List Rule) : Definition :=
  { definition with rules := definition.rules ++ more.toArray }

theorem toList_rules_append (definition : Definition) (more : List Rule) :
    (definition.append more).rules.toList = definition.rules.toList ++ more := by
  simp [append]

theorem names_append (definition : Definition) (more : List Rule) :
    (definition.append more).names = definition.names ++ more.flatMap Rule.names := by
  rw [names, toList_rules_append, List.flatMap_append, names]

theorem names_subset_of_mem {rule : Rule} (isRule : rule ∈ definition.rules.toList) :
    rule.names ⊆ definition.names := fun _ isName => List.mem_flatMap.2 ⟨rule, isRule, isName⟩

theorem startName_append {rule : Rule} (isRule : rule ∈ definition.rules) :
    (definition.append more).startName = definition.startName := by
  obtain ⟨start, ⟨rules⟩⟩ := definition
  cases rules with
  | nil => simp at isRule
  | cons first rest => cases start <;> simp [startName, append]

/-- The names of a definition stay of the same kind when none of them gets a rule. -/
theorem isNonterminal_lefts_append (unused : ∀ rule ∈ more, rule.left ∉ definition.names)
    {name : String} (isName : name ∈ definition.names) :
    isNonterminal (definition.append more).lefts name = isNonterminal definition.lefts name := by
  have sameLefts : (definition.append more).lefts.contains name =
      definition.lefts.contains name := by
    rw [Bool.eq_iff_iff, contains_lefts, contains_lefts]
    simp only [← Array.mem_toList_iff, toList_rules_append, List.mem_append]
    constructor
    · rintro ⟨rule, isEarlier | isAdded, rfl⟩
      · exact ⟨rule, isEarlier, rfl⟩
      · exact absurd isName (unused rule isAdded)
    · rintro ⟨rule, isRule, rfl⟩
      exact ⟨rule, .inl isRule, rfl⟩
  rw [isNonterminal, isNonterminal, sameLefts]

/-! ## The embedding -/

/-- A numbering numbers all names of a definition by their kinds. -/
structure Numbered (definition : Definition) (numbering : Numbering) : Prop where
  sound : numbering.Sound (isNonterminal definition.lefts)
  covers : ∀ name ∈ definition.names, ∃ symbol, numbering.symbols[name]? = some symbol

section Assembled

variable {numbering larger : Numbering} {start : String}

theorem Numbered.symbol_left (numbered : definition.Numbered numbering) {rule : Rule}
    (isRule : rule ∈ definition.rules.toList) :
    numbering.symbol rule.left = .nonterminal (numbering.nonterminal rule.left) :=
  numbered.sound.nonterminal
    (numbered.covers _ (names_subset_of_mem isRule List.mem_cons_self)) (isNonterminal_left isRule)

/-- Names with the same symbol are the same. -/
theorem Numbered.eq_of_symbol (numbered : definition.Numbered numbering) {name other : String}
    (isName : name ∈ definition.names) (isOther : other ∈ definition.names)
    (same : numbering.symbol name = numbering.symbol other) : name = other := by
  have named := numbered.sound.symbol (numbered.covers name isName)
  rw [same, numbered.sound.symbol (numbered.covers other isOther)] at named
  exact (Option.some.inj named).symm

theorem Numbered.index_lt (numbered : definition.Numbered numbering) {name : String}
    (isName : name ∈ definition.names) {nonterminal : Nonterminal}
    (isSymbol : numbering.symbol name = .nonterminal nonterminal) :
    nonterminal.index < numbering.nonterminals.size := by
  have named := numbered.sound.symbol (numbered.covers name isName)
  rw [isSymbol, Numbering.name?] at named
  split at named
  · cases named
  · exact (Array.getElem?_eq_some_iff.1 named).1

/-- What usable productions mention are symbols of names of the definition. -/
theorem Numbered.exists_name (numbered : definition.Numbered numbering)
    (isStart : ∃ rule ∈ definition.rules.toList, rule.left = start) {id : ProductionId}
    (stored : id = .accept ∨ id ∈ (assemble numbering start definition.rules).productionIds)
    {symbol : Symbol}
    (mentioned : symbol ∈ ((assemble numbering start definition.rules).production id).right) :
    ∃ name ∈ definition.names, numbering.symbol name = symbol := by
  rcases stored with rfl | isStored
  · obtain ⟨rule, isRule, rfl⟩ := isStart
    refine ⟨rule.left, names_subset_of_mem isRule List.mem_cons_self, ?_⟩
    rw [numbered.symbol_left isRule]
    exact (List.mem_singleton.1 mentioned).symm
  · obtain ⟨index, rule, rfl, found⟩ := mem_productionIds_assemble.1 isStored
    rw [production_assemble found] at mentioned
    obtain ⟨name, isName, rfl⟩ := List.mem_map.1 mentioned
    exact ⟨name, names_subset_of_mem (List.mem_of_getElem? found) (List.mem_cons_of_mem _ isName),
      rfl⟩

/-- **A nonterminal of a name of the definition has the same alternatives with the added rules.** -/
theorem productionsOf_append (numberedSmall : definition.Numbered numbering)
    (prolongs : numbering.Prolongs definition.names larger)
    (numbered : (definition.append more).Numbered larger)
    (unused : ∀ rule ∈ more, rule.left ∉ definition.names) {name : String}
    (isName : name ∈ definition.names) {nonterminal : Nonterminal}
    (isSymbol : numbering.symbol name = .nonterminal nonterminal) :
    (assemble larger start (definition.append more).rules).productionsOf nonterminal =
      (assemble numbering start definition.rules).productionsOf nonterminal := by
  have inside := numberedSmall.index_lt isName isSymbol
  have insideLarger : nonterminal.index < larger.nonterminals.size := by
    have grown := prolongs.nonterminals.length_le
    simp only [Array.length_toList] at grown
    omega
  -- no added rule is for the nonterminal, since it would be for the name
  have nothing : (more.removeAll definition.rules.toList).eraseDups.filter
      (fun rule => (larger.nonterminal rule.left).index = nonterminal.index) = [] := by
    refine List.filter_eq_nil_iff.2 fun rule member => ?_
    have isAdded : rule ∈ more := (List.mem_filter.1 (List.mem_eraseDups.1 member)).1
    have isRule : rule ∈ (definition.append more).rules.toList := by
      rw [toList_rules_append]
      exact List.mem_append_right _ isAdded
    intro sameIndex
    have sameSymbol : larger.symbol rule.left = larger.symbol name := by
      rw [numbered.symbol_left isRule, prolongs.symbol name isName, isSymbol]
      exact congrArg (Symbol.nonterminal ∘ Nonterminal.mk) (of_decide_eq_true sameIndex)
    have sameName := numbered.eq_of_symbol (names_subset_of_mem isRule List.mem_cons_self)
      (by rw [names_append]; exact List.mem_append_left _ isName) sameSymbol
    exact unused rule isAdded (sameName ▸ isName)
  have earlier : ∀ rule ∈ definition.rules.toList.eraseDups,
      larger.nonterminal rule.left = numbering.nonterminal rule.left ∧
        (definition.append more).rules.toList.idxOf rule = definition.rules.toList.idxOf rule := by
    intro rule member
    have isRule := List.mem_eraseDups.1 member
    have sameProduction := prolongs.production (names_subset_of_mem isRule)
    refine ⟨congrArg Production.left sameProduction, ?_⟩
    rw [toList_rules_append, List.idxOf_append, if_pos isRule]
  rw [productionsOf_assemble, productionsOf_assemble, if_pos inside, if_pos insideLarger,
    toList_rules_append, List.eraseDups_append, List.filter_append, nothing, List.append_nil,
    ← toList_rules_append]
  rw [List.filter_congr fun rule member => by rw [(earlier rule member).1]]
  exact List.map_congr_left fun rule member =>
    congrArg ProductionId.stored (earlier rule (List.mem_of_mem_filter member)).2

/-- The nonterminals of a definition are the first ones of the extended definition. -/
theorem nonterminalList_append (prolongs : numbering.Prolongs definition.names larger)
    (rules others : Array Rule) :
    ∃ added, (assemble larger start others).nonterminalList =
        (assemble numbering start rules).nonterminalList ++ added ∧
      ∀ nonterminal ∈ added, numbering.nonterminals.size ≤ nonterminal.index := by
  have grown := prolongs.nonterminals.length_le
  simp only [Array.length_toList] at grown
  refine ⟨(List.range (larger.nonterminals.size - numbering.nonterminals.size)).map
    fun index => ⟨numbering.nonterminals.size + index⟩, ?_, ?_⟩
  · have sizes : larger.nonterminals.size = numbering.nonterminals.size +
        (larger.nonterminals.size - numbering.nonterminals.size) := by omega
    rw [Grammar.nonterminalList, Grammar.nonterminalList, assemble, assemble]
    simp only
    rw [sizes, List.range_add, List.map_append, List.map_map, Nat.add_sub_cancel_left]
    rfl
  · intro nonterminal member
    obtain ⟨index, -, rfl⟩ := List.mem_map.1 member
    exact Nat.le_add_right _ _

/-- **A definition makes a grammar that embeds, as it is, in the grammar with the added rules.** -/
theorem embeds_append (wellFormed : (assemble numbering start definition.rules).WellFormed)
    (isStart : ∃ rule ∈ definition.rules.toList, rule.left = start)
    (numberedSmall : definition.Numbered numbering)
    (prolongs : numbering.Prolongs definition.names larger)
    (numbered : (definition.append more).Numbered larger)
    (unused : ∀ rule ∈ more, rule.left ∉ definition.names) :
    (assemble numbering start definition.rules).Embeds id
      (assemble larger start (definition.append more).rules) := by
  have stored : ∀ id, (assemble numbering start definition.rules).Usable id → id = .accept ∨
      id ∈ (assemble numbering start definition.rules).productionIds := fun id usable =>
    usable.imp_right fun isListed =>
      (Grammar.mem_canonicalIds.1 (wellFormed.mem_canonicalIds_of_listed isListed)).1
  have keeps : ∀ {index : Nat} {rule : Rule}, definition.rules.toList[index]? = some rule →
      (definition.append more).rules.toList[index]? = some rule := by
    intro index rule found
    obtain ⟨inside, -⟩ := List.getElem?_eq_some_iff.1 found
    rwa [toList_rules_append, List.getElem?_append_left inside]
  have sameProduction : ∀ {rule : Rule}, rule ∈ definition.rules.toList →
      larger.production rule = numbering.production rule := fun isRule =>
    prolongs.production (names_subset_of_mem isRule)
  constructor
  case injective => exact Function.injective_id
  case accept => rfl
  case production =>
    intro id usable
    rcases stored id usable with rfl | isStored
    · obtain ⟨rule, isRule, rfl⟩ := isStart
      have sameStart : larger.nonterminal rule.left = numbering.nonterminal rule.left :=
        congrArg Production.left (sameProduction isRule)
      simp only [id_eq, Grammar.production, Grammar.acceptProduction, assemble, sameStart]
    · obtain ⟨index, rule, rfl, found⟩ := mem_productionIds_assemble.1 isStored
      rw [id_eq, production_assemble found, production_assemble (keeps found),
        sameProduction (List.mem_of_getElem? found)]
  case canonical =>
    intro id usable
    rcases stored id usable with rfl | isStored
    · rfl
    · obtain ⟨index, rule, rfl, found⟩ := mem_productionIds_assemble.1 isStored
      rw [id_eq, id_eq, canonical_assemble found, canonical_assemble (keeps found),
        toList_rules_append, List.idxOf_append, if_pos (List.mem_of_getElem? found)]
  case alternatives =>
    intro id usable nonterminal mentioned
    obtain ⟨name, isName, isSymbol⟩ :=
      numberedSmall.exists_name isStart (stored id usable) mentioned
    rw [List.map_id, productionsOf_append numberedSmall prolongs numbered unused isName isSymbol]
  case nonterminals =>
    obtain ⟨added, listed, behind⟩ := @nonterminalList_append definition numbering larger start
      prolongs definition.rules (definition.append more).rules
    refine ⟨added, listed, fun id usable nonterminal isAdded mentioned => ?_⟩
    obtain ⟨name, isName, isSymbol⟩ :=
      numberedSmall.exists_name isStart (stored id usable) mentioned
    have inside := numberedSmall.index_lt isName isSymbol
    exact absurd inside (Nat.not_lt.2 (behind nonterminal isAdded))

end Assembled

end Definition

/-! ## The automaton and the tables -/

/-- A grammar has the symbols and the productions of another one under the same numbers, and the
same automaton and tables. -/
structure Grammar.Retains (small large : Grammar) : Prop where
  terminals : small.terminals.toList <+: large.terminals.toList
  nonterminals : small.nonterminals.toList <+: large.nonterminals.toList
  productions : small.productions.toList <+: large.productions.toList
  start : large.start = small.start
  automaton : Automaton.generate large = Automaton.generate small
  table : Table.generate large (Automaton.generate large) =
    Table.generate small (Automaton.generate small)

namespace Definition

variable {definition : Definition} {more : List Rule} {grammar extended : Grammar}

/-- **Rules for names that occur nowhere change nothing.** When they are added behind a definition,
its symbols and productions keep their numbers, and its automaton and its tables stay the same. -/
theorem build_append (built : definition.build = .ok grammar)
    (extendedBuilt : (definition.append more).build = .ok extended)
    (unused : ∀ rule ∈ more, rule.left ∉ definition.names) : grammar.Retains extended := by
  have wellFormed := wellFormed_of_build built
  obtain ⟨start, numbering, named, ⟨rule, isRule, isLeft⟩, numbered, rfl⟩ := build_eq_ok_iff.1 built
  obtain ⟨_, larger, namedToo, -, numberedMore, rfl⟩ := build_eq_ok_iff.1 extendedBuilt
  rw [startName_append isRule, named] at namedToo
  cases namedToo
  have isStart : ∃ rule ∈ definition.rules.toList, rule.left = start :=
    ⟨rule, Array.mem_toList_iff.2 isRule, isLeft⟩
  have small : definition.Numbered numbering :=
    ⟨(Numbering.sound_ofNames numbered).1, (Numbering.sound_ofNames numbered).2⟩
  have large : (definition.append more).Numbered larger :=
    ⟨(Numbering.sound_ofNames numberedMore).1, (Numbering.sound_ofNames numberedMore).2⟩
  -- the kinds of the earlier names are the same with the added rules
  have prolongs : numbering.Prolongs definition.names larger := by
    rw [← Numbering.ofNames_congr fun name isName => isNonterminal_lefts_append unused isName]
      at numbered
    rw [names_append] at numberedMore
    exact Numbering.prolongs_of_ofNames numbered numberedMore
  have embeds := embeds_append wellFormed isStart small prolongs large unused
  constructor
  case terminals => exact prolongs.terminals
  case nonterminals => exact prolongs.nonterminals
  case productions =>
    have same : definition.rules.toList.map larger.production =
        definition.rules.toList.map numbering.production :=
      List.map_congr_left fun rule isRule => prolongs.production (names_subset_of_mem isRule)
    simp only [assemble, Array.toList_map, toList_rules_append, List.map_append, same]
    exact List.prefix_append _ _
  case start =>
    have isName : rule.left ∈ definition.names :=
      names_subset_of_mem (Array.mem_toList_iff.2 isRule) List.mem_cons_self
    rw [isLeft] at isName
    simp only [assemble, Numbering.nonterminal, prolongs.symbol start isName]
  case automaton => exact (Automaton.renamed_generate embeds).eq
  case table => rw [Table.generate_rename embeds, Table.rename_id]

/-- Rules for a name that the looping rules do not use. One of them is given twice, and both mention
the start symbol and a new terminal. -/
def unusedRules : List Rule :=
  [⟨"list", ["S", "b"]⟩, ⟨"list", ["S", "b"]⟩]

/-- The grammar of the looping rules and the rules for the unused name. -/
def loopingWithUnused : Grammar where
  terminals := #["$", "a", "b"]
  nonterminals := #["S'", "S", "list"]
  start := ⟨1⟩
  productions := looping.productions ++
    #[⟨⟨2⟩, [.nonterminal ⟨1⟩, .terminal ⟨2⟩]⟩, ⟨⟨2⟩, [.nonterminal ⟨1⟩, .terminal ⟨2⟩]⟩]
  firsts := #[0, 0, 2, 3, 3]
  alternatives := #[#[], #[0, 2], #[3]]

theorem build_append_looping :
    (ofRequests loopingRules).build = .ok looping ∧
      ((ofRequests loopingRules).append unusedRules).build = .ok loopingWithUnused ∧
      (∀ rule ∈ unusedRules, rule.left ∉ (ofRequests loopingRules).names) ∧
      looping.Retains loopingWithUnused := by
  have defined : (ofRequests loopingRules).build = .ok looping := by
    decide +kernel
  have extendedDefined : ((ofRequests loopingRules).append unusedRules).build =
      .ok loopingWithUnused := by
    decide +kernel
  have unused : ∀ rule ∈ unusedRules, rule.left ∉ (ofRequests loopingRules).names := by
    decide +kernel
  exact ⟨defined, extendedDefined, unused, build_append defined extendedDefined unused⟩

end Definition

end ShiftReduce
