import ShiftReduce.Proofs.Grammar.Checks
import ShiftReduce.Proofs.Grammar.Reading

/-!
# Symbols that are looked up by name

A look-up gives the first symbol with a name, so it is inverse to the names of symbols when no name
is given twice. The names that are looked at are given once: the names of terminals and those of
nonterminals without the augmented start symbol are those of the rules, each of one kind, besides
the name of the end of the input, which no rule can mention (`distinctNames_of_build`).

The augmented start symbol is not looked at, so it may share its name with another symbol, and is
not found in its place (`findsByName_of_build`).
-/

set_option autoImplicit false

namespace ShiftReduce

/-! ## Look-ups in lists of names -/

/-- In a list of distinct names each name is found where it stands. -/
theorem findIdx?_eq_some_iff_of_nodup {names : Array String} (nodup : names.toList.Nodup)
    {name : String} {index : Nat} :
    names.findIdx? (· == name) = some index ↔ names[index]? = some name := by
  rw [Array.findIdx?_eq_some_iff_getElem]
  constructor
  · rintro ⟨inside, isName, -⟩
    rw [Array.getElem?_eq_getElem inside, eq_of_beq isName]
  · intro found
    obtain ⟨inside, rfl⟩ := Array.getElem?_eq_some_iff.1 found
    refine ⟨inside, BEq.rfl, fun earlier before same => Nat.ne_of_lt before ?_⟩
    rw [beq_iff_eq, ← Array.getElem_toList, ← Array.getElem_toList] at same
    exact nodup.getElem_inj_iff.1 same

theorem getElem?_extract_one (names : Array String) (position : Nat) :
    (names.extract 1)[position]? = names[position + 1]? := by
  rw [Array.getElem?_extract, Nat.add_comm]
  split
  · rfl
  · next outside =>
    rw [Nat.min_self] at outside
    exact (Array.getElem?_eq_none (by omega)).symm

theorem toList_extract_one (names : Array String) :
    (names.extract 1).toList = names.toList.tail := by
  refine List.ext_getElem? fun position => ?_
  rw [Array.getElem?_toList, getElem?_extract_one, List.getElem?_tail, Array.getElem?_toList]

theorem getElem?_eq_some_iff_getD {names : Array String} {index : Nat} {name : String} :
    names[index]? = some name ↔ index < names.size ∧ names.getD index "" = name := by
  rw [Array.getElem?_eq_some_iff, Array.getD_eq_getD_getElem?]
  constructor
  · rintro ⟨inside, rfl⟩
    simp [inside]
  · rintro ⟨inside, rfl⟩
    simp [inside]

namespace Grammar

variable {grammar : Grammar}

theorem getElem?_terminals_iff {terminal : Terminal} {name : String} :
    grammar.terminals[terminal.index]? = some name ↔
      terminal ∈ grammar.terminalList ∧ grammar.terminalName terminal = name := by
  cases terminal
  simp [getElem?_eq_some_iff_getD, terminalList, terminalName]

theorem getElem?_nonterminals_iff {nonterminal : Nonterminal} {name : String} :
    grammar.nonterminals[nonterminal.index]? = some name ↔
      nonterminal ∈ grammar.nonterminalList ∧ grammar.nonterminalName nonterminal = name := by
  cases nonterminal
  simp [getElem?_eq_some_iff_getD, nonterminalList, nonterminalName]

/-! ## Distinct names -/

/-- The names of terminals, and those of nonterminals but the augmented one, are all different. -/
structure DistinctNames (grammar : Grammar) : Prop where
  terminals : grammar.terminals.toList.Nodup
  nonterminals : (grammar.nonterminals.extract 1).toList.Nodup
  apart : ∀ name ∈ grammar.terminals.toList, name ∉ (grammar.nonterminals.extract 1).toList

/-- Whether a symbol is one of the symbols of a grammar. -/
def HasSymbol (grammar : Grammar) : Symbol → Prop
  | .terminal terminal => terminal ∈ grammar.terminalList
  | .nonterminal nonterminal => nonterminal ∈ grammar.nonterminalList

instance (grammar : Grammar) : DecidablePred grammar.HasSymbol
  | .terminal terminal => inferInstanceAs (Decidable (terminal ∈ grammar.terminalList))
  | .nonterminal nonterminal => inferInstanceAs (Decidable (nonterminal ∈ grammar.nonterminalList))

namespace DistinctNames

theorem findTerminal?_eq_some_iff (distinct : grammar.DistinctNames) {name : String}
    {terminal : Terminal} : grammar.findTerminal? name = some terminal ↔
      terminal ∈ grammar.terminalList ∧ grammar.terminalName terminal = name := by
  rw [← getElem?_terminals_iff, findTerminal?, Option.map_eq_some_iff]
  simp only [findIdx?_eq_some_iff_of_nodup distinct.terminals]
  constructor
  · rintro ⟨index, found, rfl⟩
    exact found
  · exact fun found => ⟨terminal.index, found, rfl⟩

theorem findNonterminal?_eq_some_iff (distinct : grammar.DistinctNames) {name : String}
    {nonterminal : Nonterminal} : grammar.findNonterminal? name = some nonterminal ↔
      nonterminal ∈ grammar.nonterminalList ∧ nonterminal ≠ .augmented ∧
        grammar.nonterminalName nonterminal = name := by
  rw [and_left_comm, ← getElem?_nonterminals_iff, findNonterminal?, Option.map_eq_some_iff]
  simp only [findIdx?_eq_some_iff_of_nodup distinct.nonterminals, getElem?_extract_one]
  constructor
  · rintro ⟨position, found, rfl⟩
    exact ⟨fun reserved => by simp [Nonterminal.augmented] at reserved, found⟩
  · rintro ⟨proper, found⟩
    obtain ⟨index⟩ := nonterminal
    cases index with
    | zero => exact absurd rfl proper
    | succ position => exact ⟨position, found, rfl⟩

/-- No name is one of a terminal and of a nonterminal. -/
theorem exclusive (distinct : grammar.DistinctNames) (name : String) :
    grammar.findTerminal? name = none ∨ grammar.findNonterminal? name = none := by
  cases isTerminal : grammar.findTerminal? name with
  | none => exact .inl rfl
  | some terminal =>
      refine .inr (Option.eq_none_iff_forall_ne_some.2 fun nonterminal isNonterminal => ?_)
      rw [findTerminal?, Option.map_eq_some_iff] at isTerminal
      rw [findNonterminal?, Option.map_eq_some_iff] at isNonterminal
      obtain ⟨index, atIndex, -⟩ := isTerminal
      obtain ⟨position, atPosition, -⟩ := isNonterminal
      rw [findIdx?_eq_some_iff_of_nodup distinct.terminals] at atIndex
      rw [findIdx?_eq_some_iff_of_nodup distinct.nonterminals] at atPosition
      exact distinct.apart name (Array.mem_toList_iff.2 (Array.mem_of_getElem? atIndex))
        (Array.mem_toList_iff.2 (Array.mem_of_getElem? atPosition))

/-- **A symbol is found under its name and under no other.** -/
theorem findSymbol?_eq_some_iff (distinct : grammar.DistinctNames) {name : String}
    {symbol : Symbol} : grammar.findSymbol? name = some symbol ↔
      grammar.HasSymbol symbol ∧ symbol ≠ .nonterminal .augmented ∧
        grammar.symbolName symbol = name := by
  have terminal_iff := @findTerminal?_eq_some_iff grammar distinct name
  have nonterminal_iff := @findNonterminal?_eq_some_iff grammar distinct name
  cases symbol with
  | terminal terminal =>
      have found_iff : grammar.findSymbol? name = some (.terminal terminal) ↔
          grammar.findTerminal? name = some terminal := by
        rw [findSymbol?]
        cases grammar.findTerminal? name <;> simp
      rw [found_iff, terminal_iff]
      simp [HasSymbol, symbolName]
  | nonterminal nonterminal =>
      have found_iff : grammar.findSymbol? name = some (.nonterminal nonterminal) ↔
          grammar.findNonterminal? name = some nonterminal := by
        rw [findSymbol?]
        cases isTerminal : grammar.findTerminal? name with
        | none => simp
        | some terminal =>
            have missing := (distinct.exclusive name).resolve_left (by simp [isTerminal])
            simp [missing]
      rw [found_iff, nonterminal_iff]
      simp [HasSymbol, symbolName]

end DistinctNames

end Grammar

/-! ## Grammars of definitions -/

/-- The look-ups of a grammar are inverse to the names of its symbols. -/
structure Grammar.FindsByName (grammar : Grammar) : Prop where
  symbol_iff : ∀ name symbol, grammar.findSymbol? name = some symbol ↔
    grammar.HasSymbol symbol ∧ symbol ≠ .nonterminal .augmented ∧ grammar.symbolName symbol = name
  terminal_iff : ∀ name terminal, grammar.findTerminal? name = some terminal ↔
    terminal ∈ grammar.terminalList ∧ grammar.terminalName terminal = name
  nonterminal_iff : ∀ name nonterminal, grammar.findNonterminal? name = some nonterminal ↔
    nonterminal ∈ grammar.nonterminalList ∧ nonterminal ≠ .augmented ∧
      grammar.nonterminalName nonterminal = name
  exclusive : ∀ name, grammar.findTerminal? name = none ∨ grammar.findNonterminal? name = none
  endOfInput : grammar.findTerminal? "$" = some .endOfInput ∧
    grammar.findNonterminal? "$" = none ∧ grammar.findSymbol? "$" = some (.terminal .endOfInput)
  augmented : ∀ name, grammar.findNonterminal? name ≠ some .augmented ∧
    grammar.findSymbol? name ≠ some (.nonterminal .augmented)
  augmentedName : grammar.nonterminalName .augmented = grammar.nonterminalName grammar.start ++ "'"
  /-- Another symbol may share the name of the augmented one, and is then found in its place. -/
  shared : ∀ symbol, grammar.HasSymbol symbol → symbol ≠ .nonterminal .augmented →
    grammar.symbolName symbol = grammar.nonterminalName .augmented →
    grammar.findSymbol? (grammar.nonterminalName .augmented) = some symbol

namespace Definition

variable {requests : List Request} {grammar : Grammar}

/-- No rule mentions the end of the input, whatever was asked for. -/
theorem endOfInput_notMem_names (requests : List Request) : "$" ∉ (ofRequests requests).names := by
  intro isName
  obtain ⟨rule, isRule, mentioned⟩ := List.mem_flatMap.1 isName
  exact (validName_iff.1 ((admissible_ofRequests requests).names rule isRule _ mentioned)).1 rfl

/-- **No name is given twice**, but for the name of the augmented start symbol. -/
theorem distinctNames_of_build (defined : (ofRequests requests).build = .ok grammar) :
    grammar.DistinctNames := by
  have mem_distinct : ∀ {kind name}, name ∈ Numbering.distinct kind (ofRequests requests).names →
      name ∈ (ofRequests requests).names ∧ kind name = true := fun member =>
    List.mem_filter.1 (List.mem_eraseDups.1 member)
  have reserved : ∀ kind, "$" ∉ Numbering.distinct kind (ofRequests requests).names :=
    fun kind member => endOfInput_notMem_names requests (mem_distinct member).1
  have nonterminals : (grammar.nonterminals.extract 1).toList =
      Numbering.distinct (isNonterminal (ofRequests requests).lefts)
        (ofRequests requests).names := by
    rw [toList_extract_one, nonterminals_of_build defined, List.tail_cons]
  constructor
  case terminals =>
    rw [terminals_of_build defined]
    exact List.nodup_cons.2 ⟨reserved _, nodup_eraseDups _⟩
  case nonterminals =>
    rw [nonterminals]
    exact nodup_eraseDups _
  case apart =>
    intro name isTerminal
    rw [nonterminals]
    rw [terminals_of_build defined] at isTerminal
    rcases List.mem_cons.1 isTerminal with rfl | member
    · exact reserved _
    · intro other
      have kind := (mem_distinct member).2
      rw [(mem_distinct other).2] at kind
      cases kind

/-- **Look-ups are inverse to the names of symbols, in every grammar.** -/
theorem findsByName_of_build (defined : (ofRequests requests).build = .ok grammar) :
    grammar.FindsByName := by
  have distinct := distinctNames_of_build defined
  have isEnd : grammar.findTerminal? "$" = some .endOfInput := by
    rw [distinct.findTerminal?_eq_some_iff, ← Grammar.getElem?_terminals_iff,
      ← Array.getElem?_toList, terminals_of_build defined]
    rfl
  constructor
  case symbol_iff => exact fun name symbol => distinct.findSymbol?_eq_some_iff
  case terminal_iff => exact fun name terminal => distinct.findTerminal?_eq_some_iff
  case nonterminal_iff => exact fun name nonterminal => distinct.findNonterminal?_eq_some_iff
  case exclusive => exact distinct.exclusive
  case endOfInput =>
    refine ⟨isEnd, (distinct.exclusive "$").resolve_left (by simp [isEnd]), ?_⟩
    rw [Grammar.findSymbol?, isEnd]
  case augmented =>
    intro name
    exact ⟨fun found => (distinct.findNonterminal?_eq_some_iff.1 found).2.1 rfl,
      fun found => (distinct.findSymbol?_eq_some_iff.1 found).2.1 rfl⟩
  case augmentedName =>
    have isFirst : grammar.nonterminals[Nonterminal.augmented.index]? =
        some (ShiftReduce.augmentedName (grammar.nonterminalName grammar.start)) := by
      rw [← Array.getElem?_toList, nonterminals_of_build defined]
      rfl
    exact (Grammar.getElem?_nonterminals_iff.1 isFirst).2
  case shared =>
    intro symbol isSymbol proper sameName
    exact distinct.findSymbol?_eq_some_iff.2 ⟨isSymbol, proper, sameName⟩

/-- Rules for a start symbol and for a name that the augmented start symbol has, too. -/
def primedRequests : List Request :=
  [.addRule ⟨"S", ["S'", "a"]⟩, .addRule ⟨"S'", ["b"]⟩]

/-- The grammar of these rules, in which two symbols have the same name. -/
def primed : Grammar where
  terminals := #["$", "a", "b"]
  nonterminals := #["S'", "S", "S'"]
  start := ⟨1⟩
  productions := #[⟨⟨1⟩, [.nonterminal ⟨2⟩, .terminal ⟨1⟩]⟩, ⟨⟨2⟩, [.terminal ⟨2⟩]⟩]
  firsts := #[0, 1]
  alternatives := #[#[], #[0], #[1]]

theorem findsByName_primed :
    (ofRequests primedRequests).build = .ok primed ∧ primed.FindsByName ∧
      primed.nonterminalName .augmented = "S'" ∧
      primed.findSymbol? "S'" = some (.nonterminal ⟨2⟩) := by
  have defined : (ofRequests primedRequests).build = .ok primed := by decide +kernel
  have finds := findsByName_of_build defined
  have found := finds.shared (.nonterminal ⟨2⟩) (by decide +kernel) (by decide) (by decide +kernel)
  exact ⟨defined, finds, by decide +kernel, found⟩

end Definition

end ShiftReduce
