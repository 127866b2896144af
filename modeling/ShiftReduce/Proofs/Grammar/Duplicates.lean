import ShiftReduce.Grammar.Definition

/-!
# Duplicates of rules

One pass over the rules finds for each of them the first rule equal to it
(`toList_positions_ofRules`): while the pass goes on, what it remembers is a table of the rules that
it has seen, each with the place where it was seen first (`Remembers`).

The alternatives of a nonterminal are then the positions of its productions that are the first of
their kind, in the order of definition (`getElem?_alternativesOf`).
-/

set_option autoImplicit false

namespace ShiftReduce

/-! ## First uses -/

namespace FirstUse

theorem eq_of_names {first second : Rule} (same : first.names = second.names) : first = second := by
  cases first
  cases second
  cases same
  rfl

/-- What a pass knows about the rules that it has seen. -/
structure Remembers (uses : FirstUse) (rules : List Rule) : Prop where
  seen : ∀ rule : Rule, uses.seen[rule.names]? =
    if rule ∈ rules then some (rules.idxOf rule) else none
  positions : uses.positions.toList = rules.map rules.idxOf

theorem Remembers.add {uses : FirstUse} {rules : List Rule} (remembers : uses.Remembers rules)
    (rule : Rule) : (uses.add rule).Remembers (rules ++ [rule]) := by
  have here : uses.positions.size = rules.length := by
    rw [← Array.length_toList, remembers.positions, List.length_map]
  constructor
  case seen =>
    intro other
    have known := remembers.seen other
    rw [FirstUse.add, Std.TreeMap.getElem?_insertIfNew, here]
    by_cases same : rule = other
    · subst same
      by_cases before : rule ∈ rules
      · rw [if_pos before] at known
        have kept : rule.names ∈ uses.seen := by
          rw [← Std.TreeMap.isSome_getElem?_iff_mem, known, Option.isSome_some]
        rw [if_neg (fun both => both.2 kept), known]
        simp [before, List.idxOf_append]
      · rw [if_neg before] at known
        have new : rule.names ∉ uses.seen := by
          rw [← Std.TreeMap.isSome_getElem?_iff_mem, known, Option.isSome_none]
          exact Bool.false_ne_true
        simp [new, before, List.idxOf_append]
    · have different : compare rule.names other.names ≠ .eq := fun equal =>
        same (eq_of_names (Std.LawfulEqOrd.eq_of_compare equal))
      have fresh : other ∈ rules ++ [rule] ↔ other ∈ rules := by
        simp [Ne.symm same]
      rw [if_neg (fun both => different both.1), known]
      simp only [fresh, List.idxOf_append]
      split
      · rfl
      · rfl
  case positions =>
    have earlier : rules.map (rules ++ [rule]).idxOf = rules.map rules.idxOf :=
      List.map_congr_left fun other before => by rw [List.idxOf_append, if_pos before]
    have last : (rules ++ [rule]).idxOf rule = uses.seen.getD rule.names uses.positions.size := by
      rw [Std.TreeMap.getD_eq_getD_getElem?, remembers.seen rule, here, List.idxOf_append]
      split
      · rfl
      · simp
    simp [FirstUse.add, remembers.positions, earlier, last]

theorem remembers_foldl (rules passed : List Rule) {uses : FirstUse}
    (remembers : uses.Remembers passed) :
    (rules.foldl FirstUse.add uses).Remembers (passed ++ rules) := by
  induction rules generalizing passed uses with
  | nil => simpa using remembers
  | cons rule rest ih =>
      have result := ih (passed ++ [rule]) (remembers.add rule)
      rwa [List.append_assoc] at result

/-- **For each rule the pass finds the first rule that is equal to it.** -/
theorem toList_positions_ofRules (rules : Array Rule) :
    (ofRules rules).positions.toList = rules.toList.map rules.toList.idxOf := by
  have nothing : FirstUse.Remembers {} [] := by
    constructor
    case seen =>
      intro rule
      simp
    case positions => rfl
  have remembers := remembers_foldl rules.toList [] nothing
  rw [List.nil_append] at remembers
  rw [ofRules, ← Array.foldl_toList]
  exact remembers.positions

theorem getElem?_positions_ofRules {rules : Array Rule} {index : Nat} {rule : Rule}
    (found : rules.toList[index]? = some rule) :
    (ofRules rules).positions[index]? = some (rules.toList.idxOf rule) := by
  rw [← Array.getElem?_toList, toList_positions_ofRules, List.getElem?_map, found, Option.map_some]

end FirstUse

/-! ## Alternatives -/

namespace Definition

theorem getElem?_foldl_addAlternative (firsts : Array Nat) (entries : List (Production × Nat))
    (alternatives : Array (Array Nat)) (index : Nat) :
    (entries.foldl (addAlternative firsts) alternatives)[index]? =
      alternatives[index]?.map (· ++ ((entries.filter fun entry =>
        entry.1.left.index = index ∧ firsts[entry.2]? = some entry.2).map Prod.snd).toArray) := by
  induction entries generalizing alternatives with
  | nil => simp
  | cons entry rest ih =>
      rw [List.foldl_cons, ih]
      by_cases isFirst : firsts[entry.2]? = some entry.2
      · by_cases isLeft : entry.1.left.index = index
        · rw [addAlternative, if_pos isFirst, Array.getElem?_modify, if_pos isLeft]
          cases alternatives[index]? with
          | none => rfl
          | some listed => simp [isFirst, isLeft]
        · rw [addAlternative, if_pos isFirst, Array.getElem?_modify, if_neg isLeft]
          simp [isLeft]
      · rw [addAlternative, if_neg isFirst]
        simp [isFirst]

/-- **The alternatives of a nonterminal are its productions that are the first of their kind.** -/
theorem getElem?_alternativesOf (nonterminals : Nat) (productions : Array Production)
    (firsts : Array Nat) (index : Nat) :
    (alternativesOf nonterminals productions firsts)[index]? =
      if index < nonterminals then
        some ((productions.toList.zipIdx.filter fun entry =>
          entry.1.left.index = index ∧ firsts[entry.2]? = some entry.2).map Prod.snd).toArray
      else none := by
  rw [alternativesOf, ← Array.foldl_toList, Array.toList_zipIdx, getElem?_foldl_addAlternative,
    Array.getElem?_replicate]
  split
  · simp
  · rfl

theorem mem_alternativesOf {nonterminals : Nat} {productions : Array Production}
    {firsts : Array Nat} {index position : Nat} :
    position ∈ ((alternativesOf nonterminals productions firsts).getD index #[]).toList ↔
      index < nonterminals ∧ firsts[position]? = some position ∧
        ∃ production, productions[position]? = some production ∧
          production.left.index = index := by
  rw [Array.getD_eq_getD_getElem?, getElem?_alternativesOf]
  split
  · next inside =>
    simp only [Option.getD_some, List.mem_map, List.mem_filter, List.mem_zipIdx_iff_getElem?,
      decide_eq_true_eq, Prod.exists, Array.getElem?_toList]
    constructor
    · rintro ⟨production, place, ⟨found, isLeft, isFirst⟩, rfl⟩
      exact ⟨inside, isFirst, production, found, isLeft⟩
    · rintro ⟨-, isFirst, production, found, isLeft⟩
      exact ⟨production, position, ⟨found, isLeft, isFirst⟩, rfl⟩
  · next outside =>
    simp [outside]

end Definition

end ShiftReduce
