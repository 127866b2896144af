import ShiftReduce.Proofs.Grammar.LookUp

/-!
# Names of symbols

The names of the rules were checked when they were given, and the names of the two symbols that no
rule mentions are free of blanks as well. So no name of a grammar has blanks (`unbroken_names`).

A symbol of a grammar is told by its name, unless it shares the name with the augmented start symbol
(`Grammar.DistinctNames.eq_of_symbolName_eq`).
-/

set_option autoImplicit false

namespace ShiftReduce

namespace Grammar

variable {grammar : Grammar}

/-- Rules mention symbols of the grammar, and never the augmented start symbol. -/
theorem Mentionable.hasSymbol {symbol : Symbol} (mentionable : grammar.Mentionable symbol) :
    grammar.HasSymbol symbol ∧ symbol ≠ .nonterminal .augmented := by
  cases symbol with
  | terminal terminal => exact ⟨mentionable.1, Symbol.noConfusion⟩
  | nonterminal nonterminal =>
      obtain ⟨isListed, proper⟩ := List.mem_filter.1 mentionable
      refine ⟨isListed, fun isAugmented => bne_iff_ne.1 proper ?_⟩
      exact Symbol.nonterminal.inj isAugmented

/-- The names of all symbols. -/
def names (grammar : Grammar) : List String :=
  grammar.terminals.toList ++ grammar.nonterminals.toList

theorem symbolName_mem_names {symbol : Symbol} (isSymbol : grammar.HasSymbol symbol) :
    grammar.symbolName symbol ∈ grammar.names := by
  cases symbol with
  | terminal terminal =>
      have found := getElem?_terminals_iff.2 ⟨isSymbol, rfl⟩
      exact List.mem_append_left _ (Array.mem_toList_iff.2 (Array.mem_of_getElem? found))
  | nonterminal nonterminal =>
      have found := getElem?_nonterminals_iff.2 ⟨isSymbol, rfl⟩
      exact List.mem_append_right _ (Array.mem_toList_iff.2 (Array.mem_of_getElem? found))

/-- No other nonterminal is called like the augmented start symbol. -/
def Unshared (grammar : Grammar) : Prop :=
  ∀ nonterminal ∈ grammar.properNonterminals,
    grammar.nonterminalName nonterminal ≠ grammar.nonterminalName .augmented

instance (grammar : Grammar) : Decidable grammar.Unshared :=
  inferInstanceAs (Decidable (∀ nonterminal ∈ grammar.properNonterminals, _ ≠ _))

/-- A symbol that is not the augmented one is told by its name. -/
theorem DistinctNames.eq_of_symbolName_eq (distinct : grammar.DistinctNames) {first second : Symbol}
    (isFirst : grammar.HasSymbol first) (firstProper : first ≠ .nonterminal .augmented)
    (isSecond : grammar.HasSymbol second) (secondProper : second ≠ .nonterminal .augmented)
    (same : grammar.symbolName first = grammar.symbolName second) : first = second := by
  have found := distinct.findSymbol?_eq_some_iff.2 ⟨isFirst, firstProper, same⟩
  rw [distinct.findSymbol?_eq_some_iff.2 ⟨isSecond, secondProper, rfl⟩] at found
  exact (Option.some.inj found).symm

end Grammar

namespace Definition

variable {requests : List Request} {grammar : Grammar}

/-- The names of the rules have no blanks, whatever was asked for. -/
theorem unbroken_of_mem_names {name : String} (isName : name ∈ (ofRequests requests).names) :
    Text.Unbroken name := by
  obtain ⟨rule, isRule, mentioned⟩ := List.mem_flatMap.1 isName
  exact (validName_iff.1 ((admissible_ofRequests requests).names rule isRule name mentioned)).2

/-- **No name of a grammar has blanks.** -/
theorem unbroken_names (defined : (ofRequests requests).build = .ok grammar) :
    ∀ name ∈ grammar.names, Text.Unbroken name := by
  have unbroken : ∀ kind, ∀ name ∈ Numbering.distinct kind (ofRequests requests).names,
      Text.Unbroken name := fun kind name member =>
    unbroken_of_mem_names (List.mem_filter.1 (List.mem_eraseDups.1 member)).1
  have dollar : Text.Unbroken endOfInputName := by decide
  have mark : Text.Unbroken "'" := by decide
  have start : Text.Unbroken (grammar.nonterminalName grammar.start) := by
    obtain ⟨name, -, named, ⟨rule, isRule, isLeft⟩, -, -⟩ := build_eq_ok_iff.1 defined
    rw [(reads_of_build defined named).start, ← isLeft]
    exact unbroken_of_mem_names
      (List.mem_flatMap.2 ⟨rule, Array.mem_toList_iff.2 isRule, List.mem_cons_self⟩)
  rw [Grammar.names, terminals_of_build defined, nonterminals_of_build defined,
    List.forall_mem_append, List.forall_mem_cons, List.forall_mem_cons]
  exact ⟨⟨dollar, unbroken _⟩, start.append mark, unbroken _⟩

/-- The end of the input is a symbol of every grammar. -/
theorem hasSymbol_endOfInput {definition : Definition} (built : definition.build = .ok grammar) :
    grammar.HasSymbol (.terminal .endOfInput) := by
  have isFirst : grammar.terminals[Terminal.endOfInput.index]? = some endOfInputName := by
    rw [← Array.getElem?_toList, terminals_of_build built]
    rfl
  exact (Grammar.getElem?_terminals_iff.1 isFirst).1

theorem unbroken_symbolName (defined : (ofRequests requests).build = .ok grammar) {symbol : Symbol}
    (isSymbol : grammar.HasSymbol symbol) : Text.Unbroken (grammar.symbolName symbol) :=
  unbroken_names defined _ (Grammar.symbolName_mem_names isSymbol)

end Definition

end ShiftReduce
