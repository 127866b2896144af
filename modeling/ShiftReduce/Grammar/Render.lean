import ShiftReduce.Grammar.Basic
import ShiftReduce.Text.Lines

/-!
# Grammars as text

A production is printed as its left-hand side, an arrow, and the names of its right-hand side. A
whole grammar is printed in three sections: the terminals, the nonterminals with a mark at the start
symbol and at the augmented one, and the numbered productions, where a duplicate names the first
production that it repeats.
-/

set_option autoImplicit false

namespace ShiftReduce.Grammar

/-- The text of a production. -/
def renderProduction (grammar : Grammar) (production : Production) : String :=
  grammar.nonterminalName production.left ++ " ->" ++
    Text.spaced (production.right.map grammar.symbolName)

/-- The line that lists a nonterminal. -/
def nonterminalLine (grammar : Grammar) (nonterminal : Nonterminal) : String :=
  grammar.nonterminalName nonterminal ++
    if nonterminal = grammar.start then " (start)"
    else if nonterminal = .augmented then " (augmented)"
    else ""

/-- The line that lists a production. -/
def productionLine (grammar : Grammar) (id : ProductionId) : String :=
  let first := grammar.canonical id
  toString id.number ++ ": " ++ grammar.renderProduction (grammar.production id) ++
    if first = id then "" else " (same as " ++ toString first.number ++ ")"

/-- The text of a grammar. -/
def render (grammar : Grammar) : String :=
  Text.unlines <|
    ["## terminals:"] ++ grammar.terminals.toList ++
    ["", "## nonterminals:"] ++ grammar.nonterminalList.map grammar.nonterminalLine ++
    ["", "## productions:"] ++ grammar.productionIds.map grammar.productionLine

end ShiftReduce.Grammar
