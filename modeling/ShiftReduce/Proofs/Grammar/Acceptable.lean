import ShiftReduce.Proofs.Grammar.Checks

/-!
# Definitions that make a grammar

A definition is acceptable when its names can be names of symbols, its start symbol is a left-hand
side, and its rules and the symbols of each kind can be numbered with 16 bits, given that each kind
has a number that is taken. These are the definitions that make a grammar (`acceptable_iff`).

When the rules of a definition are put into numbers, everything that is looked up is there, of the
kind that it has to be, and every number fits into 16 bits (`serves_of_ofNames`). Together with the
order of the checks, this is all that can happen to a description (`checked_ofDescription`).
-/

set_option autoImplicit false

namespace ShiftReduce

/-! ## Acceptable definitions -/

namespace Definition

/-- What a definition needs to make a grammar. -/
structure Acceptable (definition : Definition) : Prop where
  start : ∀ name, definition.start = some name → name ≠ "$" ∧ Text.Unbroken name
  names : ∀ rule ∈ definition.rules.toList, ∀ name ∈ rule.names, name ≠ "$" ∧ Text.Unbroken name
  someRule : 0 < definition.rules.size
  rules : definition.rules.size ≤ 65535
  startLeft : ∀ name, definition.start = some name →
    ∃ rule ∈ definition.rules.toList, rule.left = name
  terminals :
    (Numbering.distinct (fun name => !definition.nonterminalName name) definition.names).length ≤
      65534
  nonterminals :
    (Numbering.distinct definition.nonterminalName definition.names).length ≤ 65534

variable {definition : Definition}

/-- The start symbol is a left-hand side when there is a first rule and the one that was given, if
any, is a left-hand side. -/
theorem exists_startName_iff :
    (∃ start, definition.startName = .ok start ∧ ∃ rule ∈ definition.rules, rule.left = start) ↔
      0 < definition.rules.size ∧ ∀ name, definition.start = some name →
        ∃ rule ∈ definition.rules.toList, rule.left = name := by
  simp only [Array.mem_toList_iff]
  cases isStart : definition.start with
  | some name =>
      have named : definition.startName = .ok name := by rw [startName, isStart]
      simp only [named, Except.ok.injEq, exists_eq_left', Option.some.injEq, forall_eq']
      refine (and_iff_right_of_imp ?_).symm
      rintro ⟨_, isRule, -⟩
      exact Array.size_pos_of_mem isRule
  | none =>
      simp only [reduceCtorEq, false_implies, implies_true, and_true]
      constructor
      · rintro ⟨_, -, _, isRule, -⟩
        exact Array.size_pos_of_mem isRule
      · intro nonempty
        refine ⟨_, ?_, _, Array.getElem_mem nonempty, rfl⟩
        simp [startName, isStart, Array.getElem?_eq_getElem nonempty]

/-- **A definition is acceptable when its requests are accepted and it makes a grammar.** -/
theorem acceptable_iff :
    definition.Acceptable ↔ definition.Admissible ∧ ∃ grammar, definition.build = .ok grammar := by
  have builds : (∃ grammar, definition.build = .ok grammar) ↔
      (∃ start, definition.startName = .ok start ∧ ∃ rule ∈ definition.rules, rule.left = start) ∧
        Numbering.Fits definition.nonterminalName definition.names := by
    simp only [build_eq_ok_iff, ← isNonterminal_lefts]
    constructor
    · rintro ⟨-, start, numbering, named, isLeft, numbered, -⟩
      exact ⟨⟨start, named, isLeft⟩, Numbering.exists_ofNames_iff.1 ⟨numbering, numbered⟩⟩
    · rintro ⟨⟨start, named, isLeft⟩, fits⟩
      obtain ⟨numbering, numbered⟩ := Numbering.exists_ofNames_iff.2 fits
      exact ⟨_, start, numbering, named, isLeft, numbered, rfl⟩
  rw [builds, exists_startName_iff]
  constructor
  · intro acceptable
    refine ⟨?_, ⟨acceptable.someRule, acceptable.startLeft⟩, ?_, ?_⟩
    · exact ⟨fun name given => validName_iff.2 (acceptable.start name given),
        fun rule isRule name mentioned =>
          validName_iff.2 (acceptable.names rule isRule name mentioned),
        acceptable.rules⟩
    · exact Nat.lt_succ_of_le acceptable.nonterminals
    · exact Nat.lt_succ_of_le acceptable.terminals
  · rintro ⟨admissible, ⟨someRule, startLeft⟩, nonterminals, terminals⟩
    constructor
    case start => exact fun name given => validName_iff.1 (admissible.start name given)
    case names =>
      exact fun rule isRule name mentioned =>
        validName_iff.1 (admissible.names rule isRule name mentioned)
    case someRule => exact someRule
    case rules => exact admissible.few
    case startLeft => exact startLeft
    case terminals => exact Nat.le_of_lt_succ terminals
    case nonterminals => exact Nat.le_of_lt_succ nonterminals

end Definition

/-! ## Look-ups -/

/-- The number of a symbol among those of its kind. -/
def Symbol.number : Symbol → Nat
  | .terminal ⟨index⟩ => index
  | .nonterminal ⟨index⟩ => index

namespace Numbering

/-- Rules can be put into the numbers of a numbering: every name is there, the start symbol and the
left-hand sides are nonterminals, and all numbers are proper numbers of 16 bits. -/
structure Serves (numbering : Numbering) (start : String) (rules : Array Rule) : Prop where
  start : ∃ nonterminal, numbering.symbols[start]? = some (.nonterminal nonterminal)
  left : ∀ rule ∈ rules.toList,
    ∃ nonterminal, numbering.symbols[rule.left]? = some (.nonterminal nonterminal)
  right : ∀ rule ∈ rules.toList, ∀ name ∈ rule.right,
    ∃ symbol, numbering.symbols[name]? = some symbol
  symbols : ∀ (name : String) (symbol : Symbol), numbering.symbols[name]? = some symbol →
    0 < symbol.number ∧ symbol.number < 65535
  productions : ∀ position, position < rules.size → position < 65535

variable {isNonterminal : String → Bool} {numbering : Numbering}

/-- A name has a number of its kind that was not taken beforehand. -/
theorem number_of_name? {symbol : Symbol} {name : String}
    (named : numbering.name? symbol = some name) : 0 < symbol.number ∧
      (symbol.number < numbering.terminals.size ∨ symbol.number < numbering.nonterminals.size) := by
  cases symbol with
  | terminal terminal =>
      simp only [name?] at named
      split at named
      · cases named
      · next proper =>
        obtain ⟨inside, -⟩ := Array.getElem?_eq_some_iff.1 named
        exact ⟨Nat.pos_iff_ne_zero.2 proper, .inl inside⟩
  | nonterminal nonterminal =>
      simp only [name?] at named
      split at named
      · cases named
      · next proper =>
        obtain ⟨inside, -⟩ := Array.getElem?_eq_some_iff.1 named
        exact ⟨Nat.pos_iff_ne_zero.2 proper, .inr inside⟩

/-- No numbering has more symbols of a kind than there are numbers. -/
theorem sizes_of_ofNames {start : String} {names : List String}
    (numbered : ofNames isNonterminal start names = .ok numbering) :
    numbering.terminals.size ≤ capacity ∧ numbering.nonterminals.size ≤ capacity := by
  have numbers := numbers_ofNames numbered
  have fits := exists_ofNames_iff.1 ⟨numbering, numbered⟩
  rw [← Array.length_toList, numbers.terminals, ← Array.length_toList, numbers.nonterminals]
  exact ⟨fits.2, fits.1⟩

end Numbering

namespace Definition

variable {definition : Definition} {start : String} {numbering : Numbering}

/-- **Nothing is missing when the rules of a definition are put into numbers.** -/
theorem serves_of_ofNames (few : definition.rules.size ≤ capacity)
    (isLeft : definition.lefts.contains start = true)
    (numbered : Numbering.ofNames (isNonterminal definition.lefts) start definition.names =
      .ok numbering) : numbering.Serves start definition.rules := by
  obtain ⟨sound, covers⟩ := Numbering.sound_ofNames numbered
  have mentioned : ∀ rule ∈ definition.rules.toList, ∀ name ∈ rule.names,
      ∃ symbol, numbering.symbols[name]? = some symbol := fun rule isRule name isName =>
    covers name (List.mem_flatMap.2 ⟨rule, isRule, isName⟩)
  have left : ∀ rule ∈ definition.rules.toList,
      ∃ nonterminal, numbering.symbols[rule.left]? = some (.nonterminal nonterminal) := by
    intro rule isRule
    obtain ⟨symbol, found⟩ := mentioned rule isRule rule.left List.mem_cons_self
    obtain ⟨nonterminal, rfl⟩ := (sound.kinds _ _ found).1 (isNonterminal_left isRule)
    exact ⟨nonterminal, found⟩
  constructor
  case start =>
    obtain ⟨rule, isRule, rfl⟩ := contains_lefts.1 isLeft
    exact left rule (Array.mem_toList_iff.2 isRule)
  case left => exact left
  case right =>
    exact fun rule isRule name isName => mentioned rule isRule name (List.mem_cons_of_mem _ isName)
  case symbols =>
    intro name symbol found
    obtain ⟨positive, inside⟩ := Numbering.number_of_name? ((sound.symbols name symbol).1 found)
    obtain ⟨terminals, nonterminals⟩ := Numbering.sizes_of_ofNames numbered
    exact ⟨positive,
      inside.elim (Nat.lt_of_lt_of_le · terminals) (Nat.lt_of_lt_of_le · nonterminals)⟩
  case productions => exact fun position inside => Nat.lt_of_lt_of_le inside few

end Definition

/-! ## Descriptions -/

namespace Description

/-- **What happens to a description.** It makes a grammar exactly when its definition is acceptable,
otherwise the first check that fails decides the error, and nothing is missing when its rules are
put into numbers. -/
theorem checked_ofDescription (description : Description) :
    ((∃ grammar, Grammar.ofDescription description = .ok grammar) ↔
      description.definition.Acceptable) ∧
    (∀ error, Grammar.ofDescription description = .error error ↔
      firstFailure? description.definition.checks = some error) ∧
    ∀ definition start numbering, description.define = .ok definition →
      definition.startName = .ok start → definition.lefts.contains start = true →
      Numbering.ofNames (Definition.isNonterminal definition.lefts) start definition.names =
        .ok numbering →
      numbering.Serves start definition.rules := by
  refine ⟨?_, description.decides_ofDescription.error_iff, ?_⟩
  · simp only [ofDescription_eq_ok_iff, exists_and_left, Definition.acceptable_iff]
  · intro definition start numbering defined _ isLeft numbered
    obtain ⟨admissible, rfl⟩ := define_eq_ok_iff.1 defined
    exact Definition.serves_of_ofNames admissible.few isLeft numbered

/-- A rule with a left-hand side, a terminal, and a capital letter that no rule defines. -/
def letters : Description where
  rules := #[{ left := "sum", right := ["sum", "+", "N"], line := 1 }]

/-- Three things are wrong: the start symbol is no left-hand side, a name has a blank, and another
name is the reserved one. The name with the blank is checked first. -/
def faulty : Description where
  start := some "total"
  rules := #[{ left := "sum", right := ["sum", "+ ", "$"], line := 1 }]

theorem checked_ofDescription_letters :
    (∃ grammar, Grammar.ofDescription letters = .ok grammar) ∧
      Grammar.ofDescription faulty = .error (.invalidName "+ ") ∧
      ∃ definition numbering, letters.define = .ok definition ∧
        Numbering.ofNames (Definition.isNonterminal definition.lefts) "sum" definition.names =
          .ok numbering ∧
        numbering.Serves "sum" definition.rules := by
  obtain ⟨accepted, -, served⟩ := checked_ofDescription letters
  have acceptable : letters.definition.Acceptable := by
    constructor <;> decide +kernel
  have defined : letters.define = .ok letters.definition := by decide +kernel
  have numbers : Numbering.Fits (Definition.isNonterminal letters.definition.lefts)
      letters.definition.names := ⟨by decide +kernel, by decide +kernel⟩
  obtain ⟨numbering, numbered⟩ := Numbering.exists_ofNames_iff.2 numbers
  refine ⟨accepted.2 acceptable, ?_, letters.definition, numbering, defined, numbered, ?_⟩
  · exact ((checked_ofDescription faulty).2.1 _).2 (by decide +kernel)
  · exact served _ _ _ defined (by decide +kernel) (by decide +kernel) numbered

end Description

end ShiftReduce
