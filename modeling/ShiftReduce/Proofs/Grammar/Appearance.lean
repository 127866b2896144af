import Mathlib.Data.List.Induction
import Mathlib.Data.List.Nodup
import ShiftReduce.Proofs.Grammar.Numbered

/-!
# Order of first appearance

A list without its repetitions keeps each element at the place where it appears first, so these
places increase (`pairwise_idxOf_eraseDups`).

A numbering lists the names of each kind in the order of their first appearance, behind the name of
the reserved symbol (`numbers_ofNames`). It exists exactly when there are numbers for all of them
(`exists_ofNames_iff`), and names that have appeared change nothing (`ofNames_flatMap_eraseDups`).
-/

set_option autoImplicit false

namespace ShiftReduce

/-! ## Lists without their repetitions -/

section Lists

variable {α : Type} [BEq α] [LawfulBEq α]

theorem eraseDups_concat (list : List α) (last : α) [Decidable (last ∈ list)] :
    (list ++ [last]).eraseDups =
      if last ∈ list then list.eraseDups else list.eraseDups ++ [last] := by
  rw [List.eraseDups_append]
  split
  · next before => simp [List.removeAll, before]
  · next new => simp [List.removeAll, List.eraseDups_cons, new]

theorem nodup_eraseDups (list : List α) : list.eraseDups.Nodup := by
  classical
  induction list using List.reverseRecOn with
  | nil => simp
  | append_singleton list last ih =>
      rw [eraseDups_concat]
      split
      · exact ih
      · next new =>
        rw [← List.concat_eq_append]
        exact ih.concat (by simpa using new)

/-- The elements that stand where they appear first are the elements without repetitions. -/
theorem filter_zipIdx_idxOf (list : List α) :
    list.zipIdx.filter (fun entry => list.idxOf entry.1 = entry.2) =
      list.eraseDups.map fun element => (element, list.idxOf element) := by
  classical
  induction list using List.reverseRecOn with
  | nil => rfl
  | append_singleton list last ih =>
      have earlier : list.zipIdx.filter (fun entry => (list ++ [last]).idxOf entry.1 = entry.2) =
          list.eraseDups.map fun element => (element, (list ++ [last]).idxOf element) := by
        have places : ∀ element ∈ list, (list ++ [last]).idxOf element = list.idxOf element :=
          fun element member => by rw [List.idxOf_append, if_pos member]
        rw [List.map_congr_left fun element member => by
          rw [places element (List.mem_eraseDups.1 member)], ← ih]
        refine List.filter_congr fun entry member => ?_
        rw [places entry.1 (List.fst_mem_of_mem_zipIdx member)]
      rw [List.zipIdx_append, List.filter_append, earlier, eraseDups_concat]
      by_cases before : last ∈ list
      · have apart : list.idxOf last ≠ list.length :=
          Nat.ne_of_lt (List.idxOf_lt_length_of_mem before)
        simp [before, List.idxOf_append, apart]
      · simp [before, List.idxOf_append]

/-- The places of first appearance increase. -/
theorem pairwise_idxOf_eraseDups (list : List α) :
    (list.eraseDups.map list.idxOf).Pairwise (· < ·) := by
  have places : list.eraseDups.map list.idxOf =
      (list.zipIdx.filter fun entry => list.idxOf entry.1 = entry.2).map Prod.snd := by
    rw [filter_zipIdx_idxOf, List.map_map]
    rfl
  have increasing : (list.zipIdx.map Prod.snd).Pairwise (· < ·) := by
    rw [List.zipIdx_map_snd]
    exact List.pairwise_lt_range'
  rw [places]
  exact increasing.sublist (List.filter_sublist.map Prod.snd)

/-- Nothing stands before the place where it appears first. -/
theorem getElem?_ne_of_lt_idxOf {list : List α} {element : α} {earlier : Nat}
    (before : earlier < list.idxOf element) : list[earlier]? ≠ some element := by
  intro again
  obtain ⟨inside, rfl⟩ := List.getElem?_eq_some_iff.1 again
  simpa using List.not_of_lt_findIdx before

end Lists

namespace Numbering

/-! ## The names of each kind -/

variable {isNonterminal : String → Bool} {start : String} {names : List String}
  {numbering next : Numbering} {name : String}

/-- The names of one kind, in the order of their first appearance. -/
def distinct (kind : String → Bool) (names : List String) : List String :=
  (names.filter kind).eraseDups

theorem distinct_concat (kind : String → Bool) (names : List String) (name : String) :
    distinct kind (names ++ [name]) =
      if kind name = true ∧ name ∉ names then distinct kind names ++ [name]
      else distinct kind names := by
  unfold distinct
  by_cases isKind : kind name = true
  · rw [List.filter_append, List.filter_singleton, isKind, cond_true, eraseDups_concat]
    by_cases before : name ∈ names
    · simp [isKind, before]
    · simp [isKind, before]
  · simp [isKind]

/-- There are numbers for all names, besides the number of the reserved symbol of each kind. -/
def Fits (isNonterminal : String → Bool) (names : List String) : Prop :=
  (distinct isNonterminal names).length < capacity ∧
    (distinct (fun name => !isNonterminal name) names).length < capacity

/-- A numbering lists the names of each kind in the order of their first appearance. -/
structure Numbers (isNonterminal : String → Bool) (start : String) (names : List String)
    (numbering : Numbering) : Prop where
  terminals : numbering.terminals.toList =
    endOfInputName :: distinct (fun name => !isNonterminal name) names
  nonterminals : numbering.nonterminals.toList = augmentedName start :: distinct isNonterminal names
  known : ∀ name, numbering.symbols.contains name = true ↔ name ∈ names

theorem numbers_initial : Numbers isNonterminal start [] (initial start) where
  terminals := rfl
  nonterminals := rfl
  known := by simp [initial]

theorem contains_insert (symbols : Std.TreeMap String Symbol) (name : String) (fresh : Symbol)
    (known : String) : (symbols.insert name fresh).contains known = true ↔
      known = name ∨ symbols.contains known = true := by
  rw [Std.TreeMap.contains_insert, Bool.or_eq_true, beq_iff_eq, Std.compare_eq_iff_eq, eq_comm]

theorem exists_ok_ite_iff {α ε : Type} {condition : Prop} [Decidable condition] {value : α}
    {error : ε} :
    (∃ result, (if condition then Except.ok value else .error error) = .ok result) ↔
      condition := by
  split
  · next holds => simp [holds]
  · next fails => simp [fails]

/-- Numbering one more name lists it if it has not appeared. -/
theorem Numbers.add (numbers : Numbers isNonterminal start names numbering)
    (added : add isNonterminal numbering name = .ok next) :
    Numbers isNonterminal start (names ++ [name]) next := by
  simp only [Numbering.add, numbers.known] at added
  split at added
  · next before =>
    cases added
    constructor
    case terminals => simpa [distinct_concat, before] using numbers.terminals
    case nonterminals => simpa [distinct_concat, before] using numbers.nonterminals
    case known =>
      intro other
      rw [numbers.known, List.mem_append, List.mem_singleton]
      exact ⟨Or.inl, fun member => member.elim id fun isName => isName ▸ before⟩
  · next new =>
    split at added
    · next kind =>
      split at added
      · cases added
        constructor
        case terminals => simpa [distinct_concat, kind] using numbers.terminals
        case nonterminals => simp [distinct_concat, kind, new, numbers.nonterminals]
        case known =>
          intro other
          simp only [contains_insert, numbers.known, List.mem_append, List.mem_singleton, or_comm]
      · cases added
    · next kind =>
      split at added
      · cases added
        constructor
        case terminals => simp [distinct_concat, kind, new, numbers.terminals]
        case nonterminals => simpa [distinct_concat, kind] using numbers.nonterminals
        case known =>
          intro other
          simp only [contains_insert, numbers.known, List.mem_append, List.mem_singleton, or_comm]
      · cases added

/-- One more name can be numbered exactly when there is a number for it. -/
theorem Numbers.exists_add_iff (numbers : Numbers isNonterminal start names numbering)
    (fits : Fits isNonterminal names) :
    (∃ next, Numbering.add isNonterminal numbering name = .ok next) ↔
      Fits isNonterminal (names ++ [name]) := by
  have terminals : numbering.terminals.size =
      (distinct (fun name => !isNonterminal name) names).length + 1 := by
    rw [← Array.length_toList, numbers.terminals, List.length_cons]
  have nonterminals : numbering.nonterminals.size = (distinct isNonterminal names).length + 1 := by
    rw [← Array.length_toList, numbers.nonterminals, List.length_cons]
  obtain ⟨fitsNonterminals, fitsTerminals⟩ := fits
  simp only [Numbering.add, numbers.known, Fits, distinct_concat, terminals, nonterminals]
  by_cases before : name ∈ names
  · simp [before, fitsNonterminals, fitsTerminals]
  · cases kind : isNonterminal name
    · simp [before, fitsNonterminals, exists_ok_ite_iff]
    · simp [before, fitsTerminals, exists_ok_ite_iff]

/-! ## Numbering all names -/

theorem ofNames_append (names more : List String) :
    ofNames isNonterminal start (names ++ more) =
      (ofNames isNonterminal start names).bind (more.foldlM (add isNonterminal)) := by
  rw [ofNames, List.foldlM_append]
  rfl

theorem ofNames_concat (names : List String) (name : String) :
    ofNames isNonterminal start (names ++ [name]) =
      (ofNames isNonterminal start names).bind (add isNonterminal · name) := by
  rw [ofNames_append]
  congr 1
  funext numbering
  rw [List.foldlM_cons]
  exact bind_pure _

/-- **A numbering lists the names of each kind in the order of their first appearance.** -/
theorem numbers_ofNames (numbered : ofNames isNonterminal start names = .ok numbering) :
    Numbers isNonterminal start names numbering := by
  induction names using List.reverseRecOn generalizing numbering with
  | nil =>
      cases numbered
      exact numbers_initial
  | append_singleton names name ih =>
      rw [ofNames_concat] at numbered
      cases earlier : ofNames isNonterminal start names with
      | error error =>
          rw [earlier] at numbered
          cases numbered
      | ok before =>
          rw [earlier] at numbered
          exact (ih earlier).add numbered

theorem Fits.of_concat (fits : Fits isNonterminal (names ++ [name])) :
    Fits isNonterminal names := by
  have shorter : ∀ kind : String → Bool,
      (distinct kind names).length ≤ (distinct kind (names ++ [name])).length := by
    intro kind
    rw [distinct_concat]
    split
    · simp
    · exact Nat.le_refl _
  exact ⟨Nat.lt_of_le_of_lt (shorter _) fits.1, Nat.lt_of_le_of_lt (shorter _) fits.2⟩

/-- **Names can be numbered exactly when there are numbers for all of them.** -/
theorem exists_ofNames_iff :
    (∃ numbering, ofNames isNonterminal start names = .ok numbering) ↔
      Fits isNonterminal names := by
  induction names using List.reverseRecOn with
  | nil =>
      have empty : ∀ kind, (distinct kind []).length < capacity := fun kind => by
        simp [distinct, capacity]
      exact ⟨fun _ => ⟨empty _, empty _⟩, fun _ => ⟨_, rfl⟩⟩
  | append_singleton names name ih =>
      rw [ofNames_concat]
      constructor
      · rintro ⟨numbering, numbered⟩
        cases earlier : ofNames isNonterminal start names with
        | error error =>
            rw [earlier] at numbered
            cases numbered
        | ok before =>
            rw [earlier] at numbered
            exact ((numbers_ofNames earlier).exists_add_iff (ih.1 ⟨before, earlier⟩)).1
              ⟨numbering, numbered⟩
      · intro fits
        obtain ⟨before, earlier⟩ := ih.2 fits.of_concat
        rw [earlier]
        exact ((numbers_ofNames earlier).exists_add_iff fits.of_concat).2 fits

/-! ## Names that have appeared -/

/-- Names that have appeared change nothing. -/
theorem Numbers.foldlM_of_subset (numbers : Numbers isNonterminal start names numbering)
    {again : List String} (appeared : again ⊆ names) :
    again.foldlM (Numbering.add isNonterminal) numbering = .ok numbering := by
  induction again with
  | nil => rfl
  | cons first rest ih =>
      obtain ⟨firstAppeared, restAppeared⟩ := List.cons_subset.1 appeared
      have same : Numbering.add isNonterminal numbering first = .ok numbering :=
        if_pos ((numbers.known first).2 firstAppeared)
      rw [List.foldlM_cons, same]
      exact ih restAppeared

/-- A group of names that is repeated as a whole changes nothing. -/
theorem ofNames_flatMap_eraseDups {α : Type} [BEq α] [LawfulBEq α] (groups : List α)
    (members : α → List String) :
    ofNames isNonterminal start (groups.eraseDups.flatMap members) =
      ofNames isNonterminal start (groups.flatMap members) := by
  classical
  induction groups using List.reverseRecOn with
  | nil => rfl
  | append_singleton groups last ih =>
      rw [eraseDups_concat, List.flatMap_append, List.flatMap_singleton, ofNames_append]
      split
      · next before =>
        rw [ih]
        cases earlier : ofNames isNonterminal start (groups.flatMap members) with
        | error error => rfl
        | ok numbering =>
            have appeared : members last ⊆ groups.flatMap members := fun name member =>
              List.mem_flatMap.2 ⟨last, before, member⟩
            exact ((numbers_ofNames earlier).foldlM_of_subset appeared).symm
      · rw [List.flatMap_append, List.flatMap_singleton, ofNames_append, ih]

end Numbering

end ShiftReduce
