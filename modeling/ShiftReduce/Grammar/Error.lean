import ShiftReduce.Text.Quoted

/-!
# What can be wrong with a definition

The reasons for which a definition makes no grammar, and the text that reports each of them.
-/

set_option autoImplicit false

namespace ShiftReduce

/-- What a grammar can have too many of. -/
inductive Counted where
  | rules
  | nonterminals
  | terminals
deriving DecidableEq, Inhabited

/-- What the counted things are called. -/
def Counted.plural : Counted → String
  | .rules => "production rules"
  | .nonterminals => "nonterminal symbols"
  | .terminals => "terminal symbols"

/-- Why a definition makes no grammar. -/
inductive GrammarError where
  /-- There is no rule and no start symbol. -/
  | noRules
  /-- The start symbol is the left-hand side of no rule. -/
  | unknownStart (name : String)
  /-- A name is empty or holds a blank character. -/
  | invalidName (name : String)
  /-- A name is the one kept for the end of the input. -/
  | reservedName (name : String)
  /-- Something is left without a number. -/
  | tooMany (counted : Counted)
deriving DecidableEq, Inhabited

/-- The text that reports an error of a definition. -/
def GrammarError.message : GrammarError → String
  | .noRules => "the grammar has no production rules"
  | .unknownStart name => "unknown start symbol: `" ++ name ++ "'"
  | .invalidName name => "incorrect symbol name: " ++ Text.quoted name
  | .reservedName name => "the symbol `" ++ name ++ "' is reserved"
  | .tooMany counted => "too many " ++ counted.plural

end ShiftReduce
