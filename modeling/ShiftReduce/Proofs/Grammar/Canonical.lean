import ShiftReduce.Proofs.Grammar.Reading

/-!
# Canonical productions

The canonical production of a production is the first one that was defined with the same names.
Since different names have different symbols, this is the first one with the same symbols, too
(`firstAt_production`). The alternatives of a nonterminal are its canonical productions
(`mem_productionsOf_iff`), in the order of their numbers (`increasing_productionsOf`). Together this
is all that a grammar says about its duplicates (`canonicalProductions_of_build`).
-/

set_option autoImplicit false

namespace ShiftReduce

/-! ## First places -/

/-- An element stands at a place of a list, and nowhere before. -/
def FirstAt {α : Type} (list : List α) (element : α) (place : Nat) : Prop :=
  list[place]? = some element ∧ ∀ earlier < place, list[earlier]? ≠ some element

theorem firstAt_idxOf {α : Type} [BEq α] [LawfulBEq α] {list : List α} {element : α} {index : Nat}
    (found : list[index]? = some element) :
    FirstAt list element (list.idxOf element) ∧ list.idxOf element ≤ index := by
  refine ⟨⟨List.getElem?_idxOf (List.mem_of_getElem? found), fun _ => getElem?_ne_of_lt_idxOf⟩, ?_⟩
  exact Nat.le_of_not_lt fun before => getElem?_ne_of_lt_idxOf before found

/-! ## Duplicates in a grammar -/

/-- What a grammar of rules says about its duplicates. -/
structure Grammar.CanonicalProductions (grammar : Grammar) (rules : List Rule) : Prop where
  /-- The productions read as the rules that they were defined by. -/
  reads : grammar.productionIds.map grammar.ruleOf = rules
  /-- The canonical production is the first one that was defined with the same names. -/
  names : ∀ index rule, rules[index]? = some rule → ∃ place ≤ index,
    grammar.canonical (.stored index) = .stored place ∧ FirstAt rules rule place
  /-- It is the first one with the same symbols. -/
  symbols : ∀ index production, grammar.productions.toList[index]? = some production →
    ∃ place ≤ index, grammar.canonical (.stored index) = .stored place ∧
      FirstAt grammar.productions.toList production place
  idempotent : ∀ id ∈ grammar.productionIds,
    grammar.canonical (grammar.canonical id) = grammar.canonical id ∧
      (grammar.canonical id).number ≤ id.number
  same_iff : ∀ first second rule other, rules[first]? = some rule → rules[second]? = some other →
    (grammar.canonical (.stored first) = grammar.canonical (.stored second) ↔ rule = other)
  increasing : ∀ nonterminal,
    ((grammar.productionsOf nonterminal).map ProductionId.number).Pairwise (· < ·)
  mem_iff : ∀ nonterminal id, id ∈ grammar.productionsOf nonterminal ↔ id ∈ grammar.productionIds ∧
    (grammar.production id).left = nonterminal ∧ grammar.canonical id = id
  accept : ∀ nonterminal, .accept ∉ grammar.productionsOf nonterminal
  once : ∀ id ∈ grammar.productionIds, grammar.canonical id = id →
    ∃! nonterminal, id ∈ grammar.productionsOf nonterminal
  empty_iff : ∀ nonterminal, grammar.productionsOf nonterminal = [] ↔
    ∀ id ∈ grammar.productionIds, (grammar.production id).left ≠ nonterminal

namespace Grammar.WellFormed

variable {grammar : Grammar} (wellFormed : grammar.WellFormed)

include wellFormed

/-- The alternatives of a nonterminal are the canonical productions of which it is the left-hand
side. -/
theorem mem_productionsOf_iff {nonterminal : Nonterminal} {id : ProductionId} :
    id ∈ grammar.productionsOf nonterminal ↔ id ∈ grammar.productionIds ∧
      (grammar.production id).left = nonterminal ∧ grammar.canonical id = id := by
  rw [wellFormed.productionsOf, mem_canonicalIds, and_right_comm, and_assoc]

/-- Only a nonterminal that is nowhere a left-hand side has no alternatives. -/
theorem productionsOf_eq_nil_iff {nonterminal : Nonterminal} :
    grammar.productionsOf nonterminal = [] ↔
      ∀ id ∈ grammar.productionIds, (grammar.production id).left ≠ nonterminal := by
  rw [List.eq_nil_iff_forall_not_mem]
  constructor
  · -- Where the nonterminal is a left-hand side, the canonical production is an alternative.
    rintro nothing id stored rfl
    exact nothing _ (wellFormed.canonical_mem_productionsOf stored)
  · intro noLeft id isListed
    obtain ⟨stored, isLeft, -⟩ := wellFormed.mem_productionsOf_iff.1 isListed
    exact noLeft id stored isLeft

end Grammar.WellFormed

namespace Definition

variable {definition : Definition} {grammar : Grammar}

section Assembled

variable {numbering : Numbering} {start : String} {rules : Array Rule}

/-- Two productions have the same canonical one just when their rules are the same. -/
theorem canonical_eq_iff {first second : Nat} {rule other : Rule}
    (isFirst : rules.toList[first]? = some rule) (isSecond : rules.toList[second]? = some other) :
    (assemble numbering start rules).canonical (.stored first) =
      (assemble numbering start rules).canonical (.stored second) ↔ rule = other := by
  rw [canonical_assemble isFirst, canonical_assemble isSecond, ProductionId.stored.injEq]
  constructor
  · intro same
    have found := getElem?_idxOf isFirst
    rw [same, getElem?_idxOf isSecond] at found
    exact (Option.some.inj found).symm
  · rintro rfl
    rfl

/-- The alternatives of a nonterminal stand in the order of their numbers. -/
theorem increasing_productionsOf (nonterminal : Nonterminal) :
    (((assemble numbering start rules).productionsOf nonterminal).map
      ProductionId.number).Pairwise (· < ·) := by
  have positions : ∀ listed : List Nat,
      (listed.map ProductionId.stored).map ProductionId.number = listed := fun listed => by
    rw [List.map_map]
    exact List.map_id listed
  rw [Grammar.productionsOf, positions, assemble, Array.getD_eq_getD_getElem?,
    getElem?_alternativesOf]
  split
  · refine List.Pairwise.sublist (List.filter_sublist.map Prod.snd) ?_
    rw [List.zipIdx_map_snd]
    exact List.pairwise_lt_range'
  · exact List.Pairwise.nil

section Injective

variable (sound : numbering.Sound (isNonterminal definition.lefts))
  (covers : ∀ name ∈ definition.names, ∃ symbol, numbering.symbols[name]? = some symbol)

include sound covers

/-- Rules with the same symbols have the same names. -/
theorem eq_of_production_eq {rule other : Rule} (isRule : rule ∈ definition.rules.toList)
    (isOther : other ∈ definition.rules.toList)
    (same : numbering.production rule = numbering.production other) : rule = other := by
  have ruleFound := List.getElem?_idxOf isRule
  have otherFound := List.getElem?_idxOf isOther
  calc
    rule = (assemble numbering rule.left definition.rules).ruleOf
        (.stored (definition.rules.toList.idxOf rule)) :=
      (ruleOf_assemble sound covers ruleFound).symm
    _ = (assemble numbering rule.left definition.rules).ruleOf
        (.stored (definition.rules.toList.idxOf other)) := by
      rw [Grammar.ruleOf, Grammar.ruleOf, production_assemble ruleFound,
        production_assemble otherFound, same]
    _ = other := ruleOf_assemble sound covers otherFound

/-- A production stands first where its rule stands first. -/
theorem firstAt_production {rule : Rule} {place : Nat}
    (isFirst : FirstAt definition.rules.toList rule place) :
    FirstAt (definition.rules.toList.map numbering.production) (numbering.production rule)
      place := by
  obtain ⟨here, notBefore⟩ := isFirst
  refine ⟨by rw [List.getElem?_map, here, Option.map_some], fun earlier before again => ?_⟩
  rw [List.getElem?_map, Option.map_eq_some_iff] at again
  obtain ⟨other, isOther, same⟩ := again
  have sameRule := eq_of_production_eq sound covers (List.mem_of_getElem? isOther)
    (List.mem_of_getElem? here) same
  exact notBefore earlier before (sameRule ▸ isOther)

end Injective

end Assembled

/-- **Every grammar has the first production of each kind as its canonical one**, and lists the
canonical productions of each nonterminal in order. -/
theorem canonicalProductions_of_build (built : definition.build = .ok grammar) :
    grammar.CanonicalProductions definition.rules.toList := by
  have wellFormed := wellFormed_of_build built
  have reads := map_ruleOf_productionIds built
  obtain ⟨start, numbering, -, sound, covers, rfl⟩ := exists_of_build built
  constructor
  case reads => exact reads
  case names =>
    intro index rule found
    obtain ⟨isFirst, notBehind⟩ := firstAt_idxOf found
    exact ⟨_, notBehind, canonical_assemble found, isFirst⟩
  case symbols =>
    intro index production isProduction
    have toList : (assemble numbering start definition.rules).productions.toList =
        definition.rules.toList.map numbering.production := Array.toList_map
    rw [toList] at isProduction ⊢
    rw [List.getElem?_map, Option.map_eq_some_iff] at isProduction
    obtain ⟨rule, found, rfl⟩ := isProduction
    obtain ⟨isFirst, notBehind⟩ := firstAt_idxOf found
    exact ⟨_, notBehind, canonical_assemble found, firstAt_production sound covers isFirst⟩
  case idempotent =>
    intro id stored
    refine ⟨(Grammar.mem_canonicalIds.1 (wellFormed.canonical id stored).1).2, ?_⟩
    obtain ⟨index, rule, rfl, found⟩ := mem_productionIds_assemble.1 stored
    rw [canonical_assemble found]
    exact (firstAt_idxOf found).2
  case same_iff => exact fun first second rule other => canonical_eq_iff
  case increasing => exact increasing_productionsOf
  case mem_iff => exact fun nonterminal id => wellFormed.mem_productionsOf_iff
  case accept => exact wellFormed.accept_notMem_productionsOf
  case once =>
    intro id stored fixed
    refine ⟨_, wellFormed.mem_productionsOf_iff.2 ⟨stored, rfl, fixed⟩, fun other isListed => ?_⟩
    exact (wellFormed.mem_productionsOf_iff.1 isListed).2.1.symm
  case empty_iff => exact fun nonterminal => wellFormed.productionsOf_eq_nil_iff

/-- Rules that are given again behind other ones, one of them twice, and a rule without symbols. -/
def interleavedRequests : List Request :=
  [.addRule ⟨"S", ["T"]⟩, .addRule ⟨"T", []⟩, .addRule ⟨"S", ["T"]⟩, .addRule ⟨"T", ["S"]⟩,
    .addRule ⟨"S", ["T"]⟩, .addRule ⟨"T", ["S"]⟩]

/-- The grammar of the rules that are given again. -/
def interleaved : Grammar where
  terminals := #["$"]
  nonterminals := #["S'", "S", "T"]
  start := ⟨1⟩
  productions :=
    #[⟨⟨1⟩, [.nonterminal ⟨2⟩]⟩, ⟨⟨2⟩, []⟩, ⟨⟨1⟩, [.nonterminal ⟨2⟩]⟩, ⟨⟨2⟩, [.nonterminal ⟨1⟩]⟩,
      ⟨⟨1⟩, [.nonterminal ⟨2⟩]⟩, ⟨⟨2⟩, [.nonterminal ⟨1⟩]⟩]
  firsts := #[0, 1, 0, 3, 0, 3]
  alternatives := #[#[], #[0], #[1, 3]]

theorem canonicalProductions_interleaved :
    (ofRequests interleavedRequests).build = .ok interleaved ∧
      interleaved.CanonicalProductions
        [⟨"S", ["T"]⟩, ⟨"T", []⟩, ⟨"S", ["T"]⟩, ⟨"T", ["S"]⟩, ⟨"S", ["T"]⟩, ⟨"T", ["S"]⟩] := by
  have defined : (ofRequests interleavedRequests).build = .ok interleaved := by decide +kernel
  have rules : (ofRequests interleavedRequests).rules.toList =
      [⟨"S", ["T"]⟩, ⟨"T", []⟩, ⟨"S", ["T"]⟩, ⟨"T", ["S"]⟩, ⟨"S", ["T"]⟩, ⟨"T", ["S"]⟩] := by
    decide +kernel
  have canonical := canonicalProductions_of_build defined
  rw [rules] at canonical
  exact ⟨defined, canonical⟩

end Definition

end ShiftReduce
