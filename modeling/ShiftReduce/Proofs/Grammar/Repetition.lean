import Mathlib.Data.List.Perm.Subperm
import Mathlib.Order.Monotone.Basic
import ShiftReduce.Proofs.Grammar.Admission
import ShiftReduce.Proofs.Grammar.Appearance
import ShiftReduce.Proofs.Table.Contents
import ShiftReduce.Proofs.Table.Renaming

/-!
# Rules that are given again

A rule that is given again changes nothing but the positions of the rules behind it. Without its
repetitions a definition makes a grammar with the same symbols, and the productions of each
nonterminal are the same in the same order, at other positions (`productionsOf_assemble`). So the
smaller grammar embeds in the one with the repetitions (`embeds_distinct`), and the automaton and
the tables of both are the same but for the positions of the productions (`build_distinct`).
-/

set_option autoImplicit false

namespace ShiftReduce

theorem eraseDups_of_nodup {α : Type} [BEq α] [LawfulBEq α] {list : List α}
    (nodup : list.Nodup) : list.eraseDups = list := by
  classical
  induction list using List.reverseRecOn with
  | nil => rfl
  | append_singleton list last ih =>
      obtain ⟨earlier, -, apart⟩ := List.nodup_append.1 nodup
      have new : last ∉ list := fun old => apart last old last (List.mem_singleton.2 rfl) rfl
      rw [eraseDups_concat, if_neg new, ih earlier]

namespace Definition

variable {definition : Definition} {grammar : Grammar}

/-! ## Each rule once -/

/-- The definition that gives each rule once, where it is given first. -/
def distinct (definition : Definition) : Definition :=
  { definition with rules := definition.rules.toList.eraseDups.toArray }

/-- Where the rule at a position of the distinct definition is given first. Positions behind the
last rule stay behind it. -/
def place (definition : Definition) (index : Nat) : Nat :=
  match definition.distinct.rules[index]? with
  | some rule => definition.rules.toList.idxOf rule
  | none => definition.rules.size + index

/-- The production of the whole definition that stands for one of the distinct definition. -/
def original (definition : Definition) : ProductionId → ProductionId
  | .stored index => .stored (definition.place index)
  | .accept => .accept

theorem getElem?_distinct (definition : Definition) (index : Nat) :
    definition.distinct.rules[index]? = definition.rules.toList.eraseDups[index]? := by
  rw [distinct, List.getElem?_toArray]

theorem place_eq {index : Nat} {rule : Rule}
    (found : definition.distinct.rules[index]? = some rule) :
    definition.place index = definition.rules.toList.idxOf rule := by
  rw [place, found]

theorem mem_rules_of_distinct {index : Nat} {rule : Rule}
    (found : definition.distinct.rules[index]? = some rule) :
    rule ∈ definition.rules.toList := by
  rw [getElem?_distinct] at found
  exact List.mem_eraseDups.1 (List.mem_of_getElem? found)

/-- The place of a rule is where it is given first. -/
theorem getElem?_place {index : Nat} {rule : Rule}
    (found : definition.distinct.rules[index]? = some rule) :
    definition.rules[definition.place index]? = some rule ∧
      ∀ earlier < definition.place index, definition.rules[earlier]? ≠ some rule := by
  rw [place_eq found]
  simp only [← Array.getElem?_toList]
  exact ⟨List.getElem?_idxOf (mem_rules_of_distinct found), fun _ => getElem?_ne_of_lt_idxOf⟩

/-- **The places increase.** -/
theorem strictMono_place (definition : Definition) : StrictMono definition.place := by
  intro first second before
  cases later : definition.distinct.rules[second]? with
  | some rule =>
      obtain ⟨secondInside, isRule⟩ := Array.getElem?_eq_some_iff.1 later
      have firstInside : first < definition.distinct.rules.size := by omega
      have earlier := Array.getElem?_eq_getElem firstInside
      rw [place_eq earlier, place_eq later, ← isRule]
      have increasing := List.pairwise_iff_getElem.1
        (pairwise_idxOf_eraseDups definition.rules.toList) first second
      simp only [List.length_map, List.getElem_map] at increasing
      exact increasing firstInside secondInside before
  | none =>
      have atSecond : definition.place second = definition.rules.size + second := by
        rw [place, later]
      rw [atSecond]
      cases earlier : definition.distinct.rules[first]? with
      | some rule =>
          have inside := List.idxOf_lt_length_of_mem (mem_rules_of_distinct earlier)
          rw [place_eq earlier]
          rw [Array.length_toList] at inside
          omega
      | none =>
          have atFirst : definition.place first = definition.rules.size + first := by
            rw [place, earlier]
          omega

theorem original_injective (definition : Definition) : Function.Injective definition.original := by
  intro first second same
  cases first <;> cases second <;>
    simp only [original, ProductionId.stored.injEq, reduceCtorEq] at same
  case stored.stored => rw [definition.strictMono_place.injective same]
  case accept.accept => rfl

/-! ## The same names -/

theorem mem_rules_distinct (definition : Definition) (rule : Rule) :
    rule ∈ definition.distinct.rules.toList ↔ rule ∈ definition.rules.toList :=
  List.mem_eraseDups

theorem startName_distinct (definition : Definition) :
    definition.distinct.startName = definition.startName := by
  obtain ⟨start, ⟨rules⟩⟩ := definition
  cases rules with
  | nil => rfl
  | cons first rest =>
      cases start <;> simp [startName, distinct, List.eraseDups_cons]

theorem admissible_distinct (admissible : definition.Admissible) :
    definition.distinct.Admissible where
  start := admissible.start
  names rule isRule := admissible.names rule ((mem_rules_distinct definition rule).1 isRule)
  few := by
    have subset : definition.rules.toList.eraseDups ⊆ definition.rules.toList :=
      fun rule isRule => List.mem_eraseDups.1 isRule
    exact Nat.le_trans (List.subperm_of_subset (nodup_eraseDups _) subset).length_le admissible.few

/-! ## The grammar without repetitions -/

section Assembled

variable {numbering : Numbering} {start : String}

/-- **The alternatives of a nonterminal are its rules without their repetitions, each at the place
where it is given first.** -/
theorem productionsOf_assemble (rules : Array Rule) (nonterminal : Nonterminal) :
    (assemble numbering start rules).productionsOf nonterminal =
      if nonterminal.index < numbering.nonterminals.size then
        (rules.toList.eraseDups.filter
          fun rule => (numbering.nonterminal rule.left).index = nonterminal.index).map
          fun rule => .stored (rules.toList.idxOf rule)
      else [] := by
  have first : ∀ entry ∈ rules.toList.zipIdx,
      (FirstUse.ofRules rules).positions[entry.2]? = some (rules.toList.idxOf entry.1) :=
    fun entry member =>
      FirstUse.getElem?_positions_ofRules (List.mem_zipIdx_iff_getElem?.1 member)
  have listed : ((rules.map numbering.production).toList.zipIdx.filter fun entry =>
      entry.1.left.index = nonterminal.index ∧
        (FirstUse.ofRules rules).positions[entry.2]? = some entry.2).map Prod.snd =
      (rules.toList.eraseDups.filter
        fun rule => (numbering.nonterminal rule.left).index = nonterminal.index).map
        rules.toList.idxOf := by
    calc
      _ = ((rules.toList.zipIdx.filter fun entry => rules.toList.idxOf entry.1 = entry.2).filter
            fun entry => (numbering.nonterminal entry.1.left).index = nonterminal.index).map
            Prod.snd := by
        rw [Array.toList_map, List.zipIdx_map, List.filter_map, List.map_map, List.filter_filter]
        congr 1
        refine List.filter_congr fun entry member => ?_
        rw [Bool.eq_iff_iff, Function.comp_apply, decide_eq_true_iff, Bool.and_eq_true,
          decide_eq_true_iff, decide_eq_true_iff, Prod.map_snd, id_eq, first entry member,
          Option.some.injEq]
        rfl
      _ = _ := by
        rw [filter_zipIdx_idxOf, List.filter_map, List.map_map]
        rfl
  rw [Grammar.productionsOf, assemble, Array.getD_eq_getD_getElem?, getElem?_alternativesOf]
  split
  · rw [Option.getD_some, List.toList_toArray, listed, List.map_map]
    rfl
  · rfl

/-- **Without its repetitions a definition makes a grammar that embeds in the whole one.** -/
theorem embeds_distinct
    (wellFormed : (assemble numbering start definition.distinct.rules).WellFormed) :
    (assemble numbering start definition.distinct.rules).Embeds definition.original
      (assemble numbering start definition.rules) := by
  -- a usable production is the accepting one, or it stands for a rule at both places
  have usable : ∀ id, (assemble numbering start definition.distinct.rules).Usable id →
      id = .accept ∨ ∃ index rule, id = .stored index ∧
        definition.distinct.rules.toList[index]? = some rule := fun id usable =>
    usable.imp_right fun isListed => mem_productionIds_assemble.1
      (Grammar.mem_canonicalIds.1 (wellFormed.mem_canonicalIds_of_listed isListed)).1
  have placed : ∀ {index rule}, definition.distinct.rules.toList[index]? = some rule →
      definition.original (.stored index) = .stored (definition.rules.toList.idxOf rule) ∧
        definition.rules.toList[definition.rules.toList.idxOf rule]? = some rule := by
    intro index rule found
    rw [Array.getElem?_toList] at found
    rw [original, place_eq found]
    exact ⟨rfl, List.getElem?_idxOf (mem_rules_of_distinct found)⟩
  constructor
  case injective => exact definition.original_injective
  case accept => rfl
  case production =>
    intro id isUsable
    obtain rfl | ⟨index, rule, rfl, found⟩ := usable id isUsable
    · rfl
    · obtain ⟨isOriginal, isPlace⟩ := placed found
      rw [isOriginal, production_assemble isPlace, production_assemble found]
  case canonical =>
    intro id isUsable
    obtain rfl | ⟨index, rule, rfl, found⟩ := usable id isUsable
    · rfl
    · obtain ⟨isOriginal, isPlace⟩ := placed found
      rw [isOriginal, canonical_assemble isPlace, canonical_assemble found,
        (placed (getElem?_idxOf found)).1]
  case alternatives =>
    intro id isUsable nonterminal mentioned
    have once : definition.distinct.rules.toList = definition.rules.toList.eraseDups := rfl
    rw [productionsOf_assemble, productionsOf_assemble, once,
      eraseDups_of_nodup (nodup_eraseDups _)]
    split
    · rw [List.map_map]
      refine List.map_congr_left fun rule member => ?_
      have isRule : rule ∈ definition.distinct.rules.toList := (List.mem_filter.1 member).1
      exact (placed (List.getElem?_idxOf isRule)).1.symm
    · rfl
  case nonterminals =>
    exact ⟨[], (List.append_nil _).symm, fun id isUsable nonterminal none =>
      absurd none List.not_mem_nil⟩

end Assembled

end Definition

/-! ## The automaton and the tables -/

/-- A grammar has the symbols of another one, and its automaton and its tables are those of the
other one with the productions renamed. -/
structure Grammar.Condenses (rename : ProductionId → ProductionId)
    (condensed grammar : Grammar) : Prop where
  terminals : grammar.terminals = condensed.terminals
  nonterminals : grammar.nonterminals = condensed.nonterminals
  start : grammar.start = condensed.start
  automaton : (Automaton.generate condensed).Renamed rename (Automaton.generate grammar)
  table : Table.generate grammar (Automaton.generate grammar) =
    (Table.generate condensed (Automaton.generate condensed)).rename rename

namespace Definition

variable {definition : Definition} {grammar : Grammar}

/-- **Rules that are given again are inert.** Without them the definition is still admitted and
makes a grammar with the same symbols. The automaton and the tables of the whole grammar are those
of this one, with each production taken to the place where its rule is given first. -/
theorem build_distinct (built : definition.build = .ok grammar) :
    (definition.Admitted → definition.distinct.Admitted) ∧
      StrictMono definition.place ∧
      (∀ index rule, definition.distinct.rules[index]? = some rule →
        definition.rules[definition.place index]? = some rule ∧
          ∀ earlier < definition.place index, definition.rules[earlier]? ≠ some rule) ∧
      ∃ condensed, definition.distinct.build = .ok condensed ∧
        condensed.Condenses definition.original grammar := by
  refine ⟨fun admitted => ?_, definition.strictMono_place, fun index rule => getElem?_place, ?_⟩
  · exact admitted_iff.2 (admissible_distinct (admitted_iff.1 admitted))
  · obtain ⟨start, numbering, named, ⟨rule, isRule, isStart⟩, numbered, rfl⟩ :=
      build_eq_ok_iff.1 built
    have distinctBuilt : definition.distinct.build =
        .ok (assemble numbering start definition.distinct.rules) := by
      refine build_eq_ok_iff.2 ⟨start, numbering, ?_, ⟨rule, ?_, isStart⟩, ?_, rfl⟩
      · rw [startName_distinct, named]
      · rwa [← Array.mem_toList_iff, mem_rules_distinct, Array.mem_toList_iff]
      · rw [isNonterminal_lefts_eq definition.mem_rules_distinct, ← numbered]
        exact Numbering.ofNames_flatMap_eraseDups _ _
    have embeds := @embeds_distinct definition numbering start (wellFormed_of_build distinctBuilt)
    exact ⟨_, distinctBuilt, rfl, rfl, rfl, Automaton.renamed_generate embeds,
      Table.generate_rename embeds⟩

/-- The second rule of the smaller grammar is the third one of the looping rules. -/
theorem build_distinct_looping :
    (ofRequests loopingRules).build = .ok looping ∧
      (ofRequests loopingRules).distinct.rules = #[⟨"S", ["S"]⟩, ⟨"S", ["a"]⟩] ∧
      (ofRequests loopingRules).place 1 = 2 ∧
      ∃ condensed, (ofRequests loopingRules).distinct.build = .ok condensed ∧
        condensed.Condenses (ofRequests loopingRules).original looping := by
  have defined : (ofRequests loopingRules).build = .ok looping := by
    decide +kernel
  obtain ⟨-, -, -, condenses⟩ := build_distinct defined
  exact ⟨defined, by decide +kernel, by decide +kernel, condenses⟩

end Definition

end ShiftReduce
