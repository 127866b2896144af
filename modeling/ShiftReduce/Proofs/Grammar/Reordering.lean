import Mathlib.Data.List.Nodup
import Mathlib.Data.List.Perm.Basic
import ShiftReduce.Proofs.Automaton.Renumbering
import ShiftReduce.Proofs.Grammar.Admission
import ShiftReduce.Proofs.Table.Contents

/-!
# Rules in another order

When the start symbol is declared, the order of the rules decides only about numbers. Whether a
description makes a grammar depends on which rules it has and on how many
(`exists_build_of_mem_iff`, `Admissible.of_perm`). The grammars of two orders read as the same
rules, so their automata have the same states by name, and as many edges and conflicts
(`ofDescription_of_perm`).
-/

set_option autoImplicit false

namespace ShiftReduce

/-! ## Definitions of the same rules -/

/-- Whether names can be numbered depends only on which names there are. -/
theorem Numbering.Fits.of_mem_iff {isNonterminal : String → Bool} {names others : List String}
    (fits : Fits isNonterminal names) (sameNames : ∀ name, name ∈ others ↔ name ∈ names) :
    Fits isNonterminal others := by
  have sameLength : ∀ kind, (distinct kind others).length = (distinct kind names).length := by
    intro kind
    refine List.Perm.length_eq
      ((List.perm_ext_iff_of_nodup (nodup_eraseDups _) (nodup_eraseDups _)).2 fun name => ?_)
    simp only [List.mem_eraseDups, List.mem_filter, sameNames]
  rw [Fits, sameLength, sameLength]
  exact fits

namespace Definition

variable {first second : Definition}

theorem Admissible.of_perm (admissible : first.Admissible) (sameStart : second.start = first.start)
    (reordered : second.rules.toList.Perm first.rules.toList) : second.Admissible where
  start := by
    rw [sameStart]
    exact admissible.start
  names rule isRule := admissible.names rule (reordered.mem_iff.1 isRule)
  few := by
    have sameLength := reordered.length_eq
    rw [Array.length_toList, Array.length_toList] at sameLength
    rw [sameLength]
    exact admissible.few

/-- A definition of the same rules makes a grammar, too. -/
theorem exists_build_of_mem_iff (sameStart : second.startName = first.startName)
    (sameRules : ∀ rule, rule ∈ second.rules.toList ↔ rule ∈ first.rules.toList)
    (builds : ∃ grammar, first.build = .ok grammar) : ∃ grammar, second.build = .ok grammar := by
  obtain ⟨grammar, built⟩ := builds
  obtain ⟨start, numbering, named, ⟨rule, isRule, isLeft⟩, numbered, rfl⟩ := build_eq_ok_iff.1 built
  have sameNames : ∀ name, name ∈ second.names ↔ name ∈ first.names := by
    intro name
    simp only [names, List.mem_flatMap, sameRules]
  obtain ⟨other, otherNumbered⟩ := (@Numbering.exists_ofNames_iff _ start _).2
    ((Numbering.exists_ofNames_iff.1 ⟨numbering, numbered⟩).of_mem_iff sameNames)
  refine ⟨_, build_eq_ok_iff.2 ⟨start, other, sameStart.trans named, ⟨rule, ?_, isLeft⟩, ?_, rfl⟩⟩
  · rwa [← Array.mem_toList_iff, sameRules, Array.mem_toList_iff]
  · rwa [isNonterminal_lefts_eq sameRules]

end Definition

/-! ## Conflicts -/

/-- As many items of a state are complete as of the renumbered one. -/
theorem Automaton.Renumbers.length_conflicts_eq {renumber : StateId → StateId}
    {first second : Grammar} {start : String} {rules : Set Rule}
    (renumbers : Renumbers renumber first second) (firstReads : first.Reads start rules)
    (secondReads : second.Reads start rules) :
    (Table.generate second (generate second)).conflicts.length =
      (Table.generate first (generate first)).conflicts.length := by
  rw [Table.length_conflicts_generate firstReads.wellFormed,
    Table.length_conflicts_generate secondReads.wellFormed]
  refine (renumbers.perm_measures fun id state found isState isFound => ?_).sum_nat
  have counted : ∀ {grammar : Grammar} (state : State), grammar.Reads start rules →
      (state.completeItems grammar).length = (state.items.items.map (Item.named grammar)).countP
        fun item => (item.right start).length ≤ item.dot := by
    intro grammar state reads
    rw [State.completeItems, ← List.countP_eq_length_filter, List.countP_map]
    refine List.countP_congr fun item _ => ?_
    rw [Item.isComplete_named, reads.start]
    rfl
  obtain ⟨_, isOther, sameItems, -⟩ := renumbers.states id state isState
  rw [isFound] at isOther
  cases isOther
  rw [counted found secondReads, counted state firstReads, sameItems.countP_eq]

/-! ## Descriptions -/

namespace Description

variable {description other : Description} {start : String}

theorem startName_of_declared (declared : description.start = some start) :
    description.definition.startName = .ok start := by
  rw [Definition.startName, definition, declared]

theorem rules_of_perm (reordered : other.rules.toList.Perm description.rules.toList) :
    other.definition.rules.toList.Perm description.definition.rules.toList := by
  rw [definition, definition, Array.toList_map, Array.toList_map]
  exact reordered.map _

/-- Putting the rules in another order makes a grammar whenever there was one. -/
theorem exists_ofDescription_of_perm (declared : description.start = some start)
    (otherDeclared : other.start = some start)
    (reordered : other.rules.toList.Perm description.rules.toList)
    (succeeds : ∃ grammar, Grammar.ofDescription description = .ok grammar) :
    ∃ grammar, Grammar.ofDescription other = .ok grammar := by
  obtain ⟨grammar, made⟩ := succeeds
  obtain ⟨admissible, built⟩ := ofDescription_eq_ok_iff.1 made
  have sameStart : other.definition.start = description.definition.start :=
    otherDeclared.trans declared.symm
  obtain ⟨otherGrammar, otherBuilt⟩ := Definition.exists_build_of_mem_iff
    ((startName_of_declared otherDeclared).trans (startName_of_declared declared).symm)
    (fun rule => (rules_of_perm reordered).mem_iff) ⟨grammar, built⟩
  exact ⟨otherGrammar, ofDescription_eq_ok_iff.2
    ⟨admissible.of_perm sameStart (rules_of_perm reordered), otherBuilt⟩⟩

/-- The grammar of a description reads as the rules of the description. -/
theorem reads_ofDescription (declared : description.start = some start) {grammar : Grammar}
    (made : Grammar.ofDescription description = .ok grammar) :
    grammar.Reads start {rule | rule ∈ description.definition.rules.toList} :=
  Definition.reads_of_build (ofDescription_eq_ok_iff.1 made).2 (startName_of_declared declared)

/-- **The order of the rules decides only about numbers.** When the start symbol is declared, a
description makes a grammar in every order of its rules or in none. The automata of two orders are
the same by name up to the numbers of their states, so there are as many states, edges and
conflicts. -/
theorem ofDescription_of_perm (declared : description.start = some start)
    (otherDeclared : other.start = some start)
    (reordered : other.rules.toList.Perm description.rules.toList) :
    ((∃ grammar, Grammar.ofDescription description = .ok grammar) ↔
      ∃ grammar, Grammar.ofDescription other = .ok grammar) ∧
    ∀ first second, Grammar.ofDescription description = .ok first →
      Grammar.ofDescription other = .ok second →
      (∃ renumber, Automaton.Renumbers renumber first second) ∧
      (Automaton.generate second).size = (Automaton.generate first).size ∧
      (Automaton.generate second).edges.length = (Automaton.generate first).edges.length ∧
      (Table.generate second (Automaton.generate second)).conflicts.length =
        (Table.generate first (Automaton.generate first)).conflicts.length := by
  refine ⟨⟨exists_ofDescription_of_perm declared otherDeclared reordered,
    exists_ofDescription_of_perm otherDeclared declared reordered.symm⟩, ?_⟩
  intro first second made otherMade
  have firstReads := reads_ofDescription declared made
  have secondReads : second.Reads start {rule | rule ∈ description.definition.rules.toList} := by
    simpa only [(rules_of_perm reordered).mem_iff] using reads_ofDescription otherDeclared otherMade
  obtain ⟨renumber, renumbers⟩ := Automaton.exists_renumbers firstReads secondReads
  exact ⟨⟨renumber, renumbers⟩, renumbers.size_eq, renumbers.length_edges_eq,
    renumbers.length_conflicts_eq firstReads secondReads⟩

/-- A list that grows at its end. -/
def listRules : Array SourceRule :=
  #[⟨⟨"S", ["S", "b"]⟩, 1⟩, ⟨⟨"S", ["a"]⟩, 2⟩]

/-- The grammar of the list. -/
def listGrammar : Grammar where
  terminals := #["$", "b", "a"]
  nonterminals := #["S'", "S"]
  start := ⟨1⟩
  productions :=
    #[⟨⟨1⟩, [.nonterminal ⟨1⟩, .terminal ⟨1⟩]⟩, ⟨⟨1⟩, [.terminal ⟨2⟩]⟩]
  firsts := #[0, 1]
  alternatives := #[#[], #[0, 1]]

/-- The grammar of the list when its rules are given in the other order. -/
def reversedListGrammar : Grammar where
  terminals := #["$", "a", "b"]
  nonterminals := #["S'", "S"]
  start := ⟨1⟩
  productions :=
    #[⟨⟨1⟩, [.terminal ⟨1⟩]⟩, ⟨⟨1⟩, [.nonterminal ⟨1⟩, .terminal ⟨2⟩]⟩]
  firsts := #[0, 1]
  alternatives := #[#[], #[0, 1]]

theorem ofDescription_of_perm_list :
    Grammar.ofDescription ⟨some "S", listRules⟩ = .ok listGrammar ∧
      Grammar.ofDescription ⟨some "S", listRules.reverse⟩ = .ok reversedListGrammar ∧
      (∃ renumber, Automaton.Renumbers renumber listGrammar reversedListGrammar) ∧
      (Automaton.generate reversedListGrammar).size = (Automaton.generate listGrammar).size ∧
      (Automaton.generate reversedListGrammar).edges.length =
        (Automaton.generate listGrammar).edges.length ∧
      (Table.generate reversedListGrammar
          (Automaton.generate reversedListGrammar)).conflicts.length =
        (Table.generate listGrammar (Automaton.generate listGrammar)).conflicts.length := by
  have made : Grammar.ofDescription ⟨some "S", listRules⟩ = .ok listGrammar := by
    decide +kernel
  have reversed :
      Grammar.ofDescription ⟨some "S", listRules.reverse⟩ = .ok reversedListGrammar := by
    decide +kernel
  have reordered : listRules.reverse.toList.Perm listRules.toList := by
    decide +kernel
  obtain ⟨-, same⟩ := @ofDescription_of_perm ⟨some "S", listRules⟩ ⟨some "S", listRules.reverse⟩ "S"
    rfl rfl reordered
  exact ⟨made, reversed, same _ _ made reversed⟩

end Description

end ShiftReduce
