import ShiftReduce.Symbol

/-!
# Grammars

A grammar holds the names of its symbols in the order of their numbers, its productions in the order
of their definition, and two views of the productions that every later step works with: for each
production the first one that is equal to it, its *canonical* production, and for each nonterminal
the canonical productions that replace it.

Every look-up is total. A number that the grammar does not know has an empty name, and a production
that it does not know derives nothing from the augmented start symbol.
-/

set_option autoImplicit false

namespace ShiftReduce

/-- A context-free grammar with numbered symbols and productions. -/
structure Grammar where
  /-- The names of the terminals; the first one stands for the end of the input. -/
  terminals : Array String
  /-- The names of the nonterminals; the first one is the augmented start symbol. -/
  nonterminals : Array String
  /-- The start symbol. -/
  start : Nonterminal
  /-- The productions, duplicates included. -/
  productions : Array Production
  /-- For each production the position of the first one equal to it. -/
  firsts : Array Nat
  /-- For each nonterminal the positions of its canonical productions, in increasing order. -/
  alternatives : Array (Array Nat)
deriving DecidableEq, Inhabited

namespace Grammar

/-! ## Productions -/

/-- The production that derives the start symbol from the augmented one. -/
def acceptProduction (grammar : Grammar) : Production :=
  ⟨.augmented, [.nonterminal grammar.start]⟩

/-- The production with an identifier. -/
def production (grammar : Grammar) : ProductionId → Production
  | .stored index => grammar.productions.getD index ⟨.augmented, []⟩
  | .accept => grammar.acceptProduction

/-- The first production that is equal to the given one. -/
def canonical (grammar : Grammar) : ProductionId → ProductionId
  | .stored index => .stored (grammar.firsts.getD index index)
  | .accept => .accept

/-- The identifiers of all stored productions, in order. -/
def productionIds (grammar : Grammar) : List ProductionId :=
  (List.range grammar.productions.size).map .stored

/-- The canonical productions that replace a nonterminal, in order. -/
def productionsOf (grammar : Grammar) (nonterminal : Nonterminal) : List ProductionId :=
  (grammar.alternatives.getD nonterminal.index #[]).toList.map .stored

/-- The stored productions that are the first of their kind. -/
def canonicalIds (grammar : Grammar) : List ProductionId :=
  grammar.productionIds.filter fun id => grammar.canonical id == id

/-! ## Symbols -/

/-- All terminals in the order of their numbers. -/
def terminalList (grammar : Grammar) : List Terminal :=
  (List.range grammar.terminals.size).map .mk

/-- All nonterminals in the order of their numbers. -/
def nonterminalList (grammar : Grammar) : List Nonterminal :=
  (List.range grammar.nonterminals.size).map .mk

/-- The nonterminals that rules can mention, in the order of their numbers. -/
def properNonterminals (grammar : Grammar) : List Nonterminal :=
  grammar.nonterminalList.filter (· != .augmented)

/-- The name of a terminal. -/
def terminalName (grammar : Grammar) (terminal : Terminal) : String :=
  grammar.terminals.getD terminal.index ""

/-- The name of a nonterminal. -/
def nonterminalName (grammar : Grammar) (nonterminal : Nonterminal) : String :=
  grammar.nonterminals.getD nonterminal.index ""

/-- The name of a symbol. -/
def symbolName (grammar : Grammar) : Symbol → String
  | .terminal terminal => grammar.terminalName terminal
  | .nonterminal nonterminal => grammar.nonterminalName nonterminal

/-- The first terminal with a name. -/
def findTerminal? (grammar : Grammar) (name : String) : Option Terminal :=
  (grammar.terminals.findIdx? (· == name)).map .mk

/-- The first nonterminal with a name; the augmented start symbol is not looked at. -/
def findNonterminal? (grammar : Grammar) (name : String) : Option Nonterminal :=
  ((grammar.nonterminals.extract 1).findIdx? (· == name)).map fun position => ⟨position + 1⟩

/-- The symbol with a name, which is a terminal if any terminal has it. -/
def findSymbol? (grammar : Grammar) (name : String) : Option Symbol :=
  match grammar.findTerminal? name with
  | some terminal => some (.terminal terminal)
  | none => (grammar.findNonterminal? name).map .nonterminal

end Grammar

end ShiftReduce
