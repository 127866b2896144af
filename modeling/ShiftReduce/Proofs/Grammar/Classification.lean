import ShiftReduce.Proofs.Grammar.History

/-!
# Kinds and numbers of names

Names are numbered in one pass, but the kind of a name is settled by all rules: a name is a
nonterminal if it is a left-hand side anywhere, or one of the letters from A to Z
(`isNonterminal_lefts_iff`). The names of each kind are numbered in the order of their first
appearance (`listsInOrder_distinct`), behind the symbol that has number 0.

So each name of a rule stands for one symbol of its kind, the same wherever the name occurs, and
with its symbols replaced by their names the production at each position is the rule that was added
there (`exists_classifies`).
-/

set_option autoImplicit false

namespace ShiftReduce

/-! ## Kinds of names -/

/-- Rules make a name a nonterminal when it is the left-hand side of one of them, or a letter from A
to Z. -/
def IsNonterminalName (rules : List Rule) (name : String) : Prop :=
  (∃ rule ∈ rules, rule.left = name) ∨
    ∃ letter, name.toList = [letter] ∧ 'A' ≤ letter ∧ letter ≤ 'Z'

namespace Definition

theorem isCapitalLetter_iff {name : String} : isCapitalLetter name = true ↔
    ∃ letter, name.toList = [letter] ∧ 'A' ≤ letter ∧ letter ≤ 'Z' := by
  rw [isCapitalLetter]
  split
  · next letter isLetter =>
    have isUpper_iff : letter.isUpper = true ↔ 'A' ≤ letter ∧ letter ≤ 'Z' := decide_eq_true_iff
    simpa only [isLetter, List.cons.injEq, and_true, exists_eq_left'] using isUpper_iff
  · next several =>
    simp only [Bool.false_eq_true, false_iff]
    rintro ⟨letter, isLetter, -⟩
    exact several letter isLetter

theorem isNonterminal_lefts_iff {definition : Definition} {name : String} :
    isNonterminal definition.lefts name = true ↔
      IsNonterminalName definition.rules.toList name := by
  rw [isNonterminal, Bool.or_eq_true, contains_lefts, isCapitalLetter_iff, IsNonterminalName]
  simp only [Array.mem_toList_iff]

end Definition

/-! ## The order of first appearance -/

/-- A list holds the names of a kind, each once, in the order of their first appearance. -/
structure ListsInOrder (kind : String → Prop) (names listed : List String) : Prop where
  mem_iff : ∀ name, name ∈ listed ↔ name ∈ names ∧ kind name
  increasing : (listed.map names.idxOf).Pairwise (· < ·)

namespace Numbering

theorem distinct_eq_filter (kind : String → Bool) (names : List String) :
    distinct kind names = names.eraseDups.filter kind := by
  induction names using List.reverseRecOn with
  | nil => rfl
  | append_singleton names name ih =>
      rw [distinct_concat, eraseDups_concat, ih]
      by_cases before : name ∈ names
      · simp [before]
      · by_cases isKind : kind name = true <;> simp [before, isKind]

theorem listsInOrder_distinct {kind : String → Bool} {names : List String}
    {property : String → Prop} (isKind : ∀ name, kind name = true ↔ property name) :
    ListsInOrder property names (distinct kind names) where
  mem_iff name := by
    rw [distinct, List.mem_eraseDups, List.mem_filter, isKind]
  increasing := by
    rw [distinct_eq_filter]
    exact (pairwise_idxOf_eraseDups names).sublist (List.filter_sublist.map names.idxOf)

section Places

variable {isNonterminal : String → Bool} {numbering : Numbering} {first name : String}
  {listed : List String} {index : Nat}

/-- A name stands for the symbol that was numbered with it. -/
theorem Sound.symbol_eq (sound : numbering.Sound isNonterminal) {symbol : Symbol}
    (named : numbering.name? symbol = some name) : numbering.symbol name = symbol := by
  rw [Numbering.symbol, Std.TreeMap.getD_eq_getD_getElem?, (sound.symbols name symbol).2 named,
    Option.getD_some]

/-- A terminal has the number of its place in the list of the names of terminals. -/
theorem Sound.symbol_of_terminals (sound : numbering.Sound isNonterminal)
    (isListed : numbering.terminals.toList = first :: listed) (found : listed[index]? = some name) :
    numbering.symbol name = .terminal ⟨index + 1⟩ := by
  refine sound.symbol_eq ?_
  rw [name?, if_neg (Nat.succ_ne_zero index), ← Array.getElem?_toList, isListed]
  exact found

/-- A nonterminal has the number of its place in the list of the names of nonterminals. -/
theorem Sound.symbol_of_nonterminals (sound : numbering.Sound isNonterminal)
    (isListed : numbering.nonterminals.toList = first :: listed)
    (found : listed[index]? = some name) :
    numbering.symbol name = .nonterminal ⟨index + 1⟩ := by
  refine sound.symbol_eq ?_
  rw [name?, if_neg (Nat.succ_ne_zero index), ← Array.getElem?_toList, isListed]
  exact found

end Places

end Numbering

/-! ## The symbols of names -/

/-- How a grammar classifies and numbers the names of rules, given the symbol of each name. -/
structure Grammar.Classifies (grammar : Grammar) (rules : List Rule) (symbol : String → Symbol) :
    Prop where
  /-- The kind of a name is settled by all rules, wherever the name appears first. -/
  kinds : ∀ name ∈ rules.flatMap Rule.names,
    (∃ nonterminal, symbol name = .nonterminal nonterminal) ↔ IsNonterminalName rules name
  /-- The symbol of a name is a symbol of the grammar with this name, and not one of number 0. -/
  named : ∀ name ∈ rules.flatMap Rule.names,
    grammar.Mentionable (symbol name) ∧ grammar.symbolName (symbol name) = name
  /-- Every occurrence of a name stands for its symbol. -/
  occurrences : ∀ index rule, rules[index]? = some rule →
    .nonterminal (grammar.production (.stored index)).left = symbol rule.left ∧
      (grammar.production (.stored index)).right = rule.right.map symbol
  /-- Terminals have the numbers from zero on. A grammar keeps no numbers beside the names, and the
  number of a name is its position, so this holds of every grammar, by representation. -/
  terminalNumbers : grammar.terminalList.map Terminal.index = List.range grammar.terminals.size
  /-- So do nonterminals, by representation as well. -/
  nonterminalNumbers :
    grammar.nonterminalList.map Nonterminal.index = List.range grammar.nonterminals.size
  /-- The terminals are numbered in the order of first appearance, behind the end of the input. -/
  terminals : ∃ listed, grammar.terminalList.map grammar.terminalName = "$" :: listed ∧
    ListsInOrder (fun name => ¬IsNonterminalName rules name) (rules.flatMap Rule.names) listed ∧
    ∀ index name, listed[index]? = some name → symbol name = .terminal ⟨index + 1⟩
  /-- So are the nonterminals, behind the augmented start symbol. -/
  nonterminals : ∃ listed, grammar.nonterminalList.map grammar.nonterminalName =
      (grammar.nonterminalName grammar.start ++ "'") :: listed ∧
    ListsInOrder (IsNonterminalName rules) (rules.flatMap Rule.names) listed ∧
    ∀ index name, listed[index]? = some name → symbol name = .nonterminal ⟨index + 1⟩
  /-- There is one production for each rule. That they have the numbers from zero on holds by
  representation: the number of a production is its position. -/
  productionNumbers : grammar.productionIds.map ProductionId.number = List.range rules.length
  /-- The production with each number is the rule that was added there. -/
  productions : grammar.productionIds.map grammar.ruleOf = rules

namespace Grammar

theorem map_index_terminalList (grammar : Grammar) :
    grammar.terminalList.map Terminal.index = List.range grammar.terminals.size := by
  rw [terminalList, List.map_map]
  exact List.map_id _

theorem map_index_nonterminalList (grammar : Grammar) :
    grammar.nonterminalList.map Nonterminal.index = List.range grammar.nonterminals.size := by
  rw [nonterminalList, List.map_map]
  exact List.map_id _

theorem map_number_productionIds (grammar : Grammar) :
    grammar.productionIds.map ProductionId.number = List.range grammar.productions.size := by
  rw [productionIds, List.map_map]
  exact List.map_id _

end Grammar

namespace Definition

variable {definition : Definition} {grammar : Grammar}

/-- A grammar that a definition makes classifies and numbers the names of its rules. -/
theorem exists_classifies_of_build (built : definition.build = .ok grammar) :
    ∃ symbol, grammar.Classifies definition.rules.toList symbol := by
  have productions := map_ruleOf_productionIds built
  obtain ⟨start, numbering, -, -, numbered, isGrammar⟩ := build_eq_ok_iff.1 built
  obtain ⟨sound, covers⟩ := Numbering.sound_ofNames numbered
  have terminals : grammar.terminals = numbering.terminals := by rw [isGrammar, assemble]
  have nonterminals : grammar.nonterminals = numbering.nonterminals := by rw [isGrammar, assemble]
  have listedTerminals := terminals_of_build built
  have listedNonterminals := nonterminals_of_build built
  refine ⟨numbering.symbol, ?_⟩
  constructor
  case kinds =>
    intro name isName
    have found := (sound.symbols name _).2 (sound.symbol (covers name isName))
    rw [← isNonterminal_lefts_iff, sound.kinds name _ found]
  case named =>
    intro name isName
    have isNamed := sound.symbol (covers name isName)
    exact ⟨Numbering.mentionable_of_name? terminals nonterminals isNamed,
      sound.symbolName_symbol terminals nonterminals (covers name isName)⟩
  case occurrences =>
    intro index rule found
    have isRule := List.mem_of_getElem? found
    have numbered := covers rule.left (List.mem_flatMap.2 ⟨rule, isRule, List.mem_cons_self⟩)
    rw [isGrammar, production_assemble found, Numbering.production]
    exact ⟨(sound.nonterminal numbered (isNonterminal_left isRule)).symm, rfl⟩
  case terminalNumbers => exact grammar.map_index_terminalList
  case nonterminalNumbers => exact grammar.map_index_nonterminalList
  case terminals =>
    refine ⟨_, grammar.map_terminalName.trans listedTerminals, ?_, fun index name found => ?_⟩
    · refine Numbering.listsInOrder_distinct fun name => ?_
      rw [← isNonterminal_lefts_iff, Bool.not_eq_true', Bool.not_eq_true]
    · rw [terminals] at listedTerminals
      exact sound.symbol_of_terminals listedTerminals found
  case nonterminals =>
    refine ⟨_, grammar.map_nonterminalName.trans listedNonterminals, ?_, fun index name found => ?_⟩
    · exact Numbering.listsInOrder_distinct fun name => isNonterminal_lefts_iff
    · rw [nonterminals] at listedNonterminals
      exact sound.symbol_of_nonterminals listedNonterminals found
  case productionNumbers =>
    rw [Grammar.map_number_productionIds, ← productions, List.length_map]
    simp [Grammar.productionIds]
  case productions => exact productions

/-- **Every grammar classifies and numbers the names of the rules that were added.** -/
theorem exists_classifies {requests : List Request}
    (defined : (ofRequests requests).build = .ok grammar) :
    ∃ symbol, grammar.Classifies (added requests) symbol := by
  rw [← toList_rules_ofRequests]
  exact exists_classifies_of_build defined

/-- Rules with a left-hand side that is used before, a capital letter that no rule defines, and a
terminal of one character that is not a letter from A to Z. -/
def lateRequests : List Request :=
  [.addRule ⟨"S", ["Expr", "X", "É", "S"]⟩, .addRule ⟨"Expr", ["num", "É"]⟩]

/-- The grammar of these rules. -/
def late : Grammar where
  terminals := #["$", "É", "num"]
  nonterminals := #["S'", "S", "Expr", "X"]
  start := ⟨1⟩
  productions :=
    #[⟨⟨1⟩, [.nonterminal ⟨2⟩, .nonterminal ⟨3⟩, .terminal ⟨1⟩, .nonterminal ⟨1⟩]⟩,
      ⟨⟨2⟩, [.terminal ⟨2⟩, .terminal ⟨1⟩]⟩]
  firsts := #[0, 1]
  alternatives := #[#[], #[0], #[1], #[]]

theorem exists_classifies_late :
    (ofRequests lateRequests).build = .ok late ∧
      ∃ symbol, late.Classifies
        [⟨"S", ["Expr", "X", "É", "S"]⟩, ⟨"Expr", ["num", "É"]⟩] symbol ∧
        symbol "Expr" = .nonterminal ⟨2⟩ := by
  have defined : (ofRequests lateRequests).build = .ok late := by decide +kernel
  have isAdded : added lateRequests =
      [⟨"S", ["Expr", "X", "É", "S"]⟩, ⟨"Expr", ["num", "É"]⟩] := by decide +kernel
  have names : late.nonterminalList.map late.nonterminalName = ["S'", "S", "Expr", "X"] := by
    decide +kernel
  obtain ⟨symbol, classifies⟩ := exists_classifies defined
  rw [isAdded] at classifies
  obtain ⟨listed, isListed, -, numbers⟩ := classifies.nonterminals
  rw [names] at isListed
  obtain rfl := (List.cons.inj isListed).2
  exact ⟨defined, symbol, classifies, numbers 1 "Expr" rfl⟩

end Definition

end ShiftReduce
