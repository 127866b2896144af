import ShiftReduce.Grammar.Basic

/-!
# Derivations

A step of a derivation replaces a nonterminal in a string of symbols by the right-hand side of one
of its productions. Kinds of derivations differ in which nonterminal may be replaced: any, only the
rightmost one, or only one that is the last symbol of the string (`Place`).

A derivation records its productions in the order of its steps.
-/

set_option autoImplicit false

namespace ShiftReduce

/-- Which nonterminals of a string the steps of a derivation may replace. -/
inductive Place where
  | anywhere
  /-- Only terminals stand behind the nonterminal. -/
  | rightmost
  /-- Nothing stands behind the nonterminal. -/
  | last
deriving DecidableEq

/-- Whether the symbols behind a nonterminal allow it to be replaced. -/
def Place.Allows : Place → List Symbol → Prop
  | .anywhere, _ => True
  | .rightmost, after => ∀ symbol ∈ after, ∃ terminal, symbol = .terminal terminal
  | .last, after => after = []

/-- A derivation from one string of symbols to another, with its productions in order. -/
inductive Grammar.Derivation (grammar : Grammar) (place : Place) :
    List Symbol → List ProductionId → List Symbol → Prop where
  | done (form : List Symbol) : Derivation grammar place form [] form
  | step {before after result : List Symbol} {id : ProductionId} {ids : List ProductionId} :
      id ∈ grammar.productionIds → place.Allows after →
        Derivation grammar place (before ++ (grammar.production id).right ++ after) ids result →
          Derivation grammar place (before ++ .nonterminal (grammar.production id).left :: after)
            (id :: ids) result

namespace Grammar.Derivation

variable {grammar : Grammar} {form result : List Symbol} {ids : List ProductionId}

theorem mono {place weaker : Place} (allows : ∀ after, place.Allows after → weaker.Allows after)
    (derivation : grammar.Derivation place form ids result) :
    grammar.Derivation weaker form ids result := by
  induction derivation with
  | done form => exact .done form
  | step stored allowed _ ih => exact .step stored (allows _ allowed) ih

/-- Replacing the last symbol is replacing the rightmost nonterminal. -/
theorem rightmost (derivation : grammar.Derivation .last form ids result) :
    grammar.Derivation .rightmost form ids result := by
  refine derivation.mono fun after nothing => ?_
  cases nothing
  intro symbol impossible
  cases impossible

theorem anywhere {place : Place} (derivation : grammar.Derivation place form ids result) :
    grammar.Derivation .anywhere form ids result :=
  derivation.mono fun _ _ => trivial

/-- One step at the last symbol, in front of a derivation. -/
theorem last_step {before : List Symbol} {id : ProductionId} (stored : id ∈ grammar.productionIds)
    (derivation : grammar.Derivation .last (before ++ (grammar.production id).right) ids result) :
    grammar.Derivation .last (before ++ [.nonterminal (grammar.production id).left])
      (id :: ids) result := by
  have nothing : Place.last.Allows [] := rfl
  apply step stored nothing
  rwa [List.append_nil]

/-- Without productions a derivation goes nowhere. -/
theorem eq_of_nil {place : Place} (derivation : grammar.Derivation place form [] result) :
    form = result := by
  cases derivation
  rfl

end Grammar.Derivation

end ShiftReduce
