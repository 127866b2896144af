import ShiftReduce.Grammar.Error
import ShiftReduce.Rule
import ShiftReduce.Symbol
import Std.Data.TreeMap

/-!
# Numbering of names

The symbols of a grammar are numbered in the order in which their names first appear when the rules
are read one after the other, left-hand side first. Whether a name is a terminal or a nonterminal
is settled beforehand, so a name is numbered once and keeps its number.

The numbers of each kind run without gaps, number 0 being taken by the end of the input and by the
augmented start symbol.
-/

set_option autoImplicit false

namespace ShiftReduce

/-- The name of the end of the input. -/
def endOfInputName : String := "$"

/-- The name of the augmented start symbol. -/
def augmentedName (start : String) : String :=
  start ++ "'"

/-- The symbols numbered so far. -/
structure Numbering where
  /-- The names of the terminals, in the order of their numbers. -/
  terminals : Array String
  /-- The names of the nonterminals, in the order of their numbers. -/
  nonterminals : Array String
  /-- The symbol of each name that has appeared. -/
  symbols : Std.TreeMap String Symbol := {}

namespace Numbering

/-- The numbering that knows only the two symbols that no rule mentions. -/
def initial (start : String) : Numbering where
  terminals := #[endOfInputName]
  nonterminals := #[augmentedName start]

/-- Number one more name, unless it has a number. -/
def add (isNonterminal : String → Bool) (numbering : Numbering) (name : String) :
    Except GrammarError Numbering :=
  if numbering.symbols.contains name then .ok numbering
  else if isNonterminal name then
    let index := numbering.nonterminals.size
    if index < capacity then
      .ok { numbering with
        nonterminals := numbering.nonterminals.push name
        symbols := numbering.symbols.insert name (.nonterminal ⟨index⟩) }
    else .error (.tooMany .nonterminals)
  else
    let index := numbering.terminals.size
    if index < capacity then
      .ok { numbering with
        terminals := numbering.terminals.push name
        symbols := numbering.symbols.insert name (.terminal ⟨index⟩) }
    else .error (.tooMany .terminals)

/-- Number names in the order in which they appear. -/
def ofNames (isNonterminal : String → Bool) (start : String) (names : List String) :
    Except GrammarError Numbering :=
  names.foldlM (add isNonterminal) (initial start)

/-- The symbol of a name; a name that has not appeared stands for the end of the input. -/
def symbol (numbering : Numbering) (name : String) : Symbol :=
  numbering.symbols.getD name (.terminal .endOfInput)

/-- The nonterminal of a name; a name of no nonterminal stands for the augmented start symbol. -/
def nonterminal (numbering : Numbering) (name : String) : Nonterminal :=
  match numbering.symbol name with
  | .nonterminal nonterminal => nonterminal
  | .terminal _ => .augmented

/-- A rule in the symbols of its names. -/
def production (numbering : Numbering) (rule : Rule) : Production :=
  ⟨numbering.nonterminal rule.left, rule.right.map numbering.symbol⟩

end Numbering

end ShiftReduce
