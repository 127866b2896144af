import Mathlib.Data.List.Basic
import ShiftReduce.Automaton.Viable

/-!
# Renamed productions in items

A grammar embeds in a larger one when the productions that its items can have are found in the
larger one under other identifiers, in the same order, and expect nothing else there
(`Grammar.Embeds`). Numbers of symbols are the same in both grammars.

Everything that is done with item sets then does the same to the renamed items, in the same order:
closing (`Renamed.saturate`), collecting the labels, and leading on over a label
(`Renamed.successor`).
-/

set_option autoImplicit false

namespace ShiftReduce

/-- The same item of a production with another identifier. -/
def Item.rename (rename : ProductionId → ProductionId) (item : Item) : Item :=
  { item with production := rename item.production }

theorem Item.rename_injective {rename : ProductionId → ProductionId}
    (injective : Function.Injective rename) : Function.Injective (Item.rename rename) := by
  intro first second same
  cases first
  cases second
  simp only [Item.rename, Item.mk.injEq] at same ⊢
  exact ⟨injective same.1, same.2⟩

namespace Grammar

/-- Whether a viable item can have a production. -/
def Usable (grammar : Grammar) (id : ProductionId) : Prop :=
  id = .accept ∨ id ∈ grammar.listed

theorem usable_of_viable {grammar : Grammar} {item : Item} (viable : item ∈ grammar.viableItems) :
    grammar.Usable item.production :=
  ((grammar.mem_viableItems_iff item).1 viable).1

/-- The productions that viable items can have are found in a larger grammar under other
identifiers. -/
structure Embeds (rename : ProductionId → ProductionId) (small large : Grammar) : Prop where
  injective : Function.Injective rename
  accept : rename .accept = .accept
  production : ∀ id, small.Usable id → large.production (rename id) = small.production id
  canonical : ∀ id, small.Usable id → large.canonical (rename id) = rename (small.canonical id)
  /-- The nonterminals that usable productions mention have the same alternatives. -/
  alternatives : ∀ id, small.Usable id → ∀ nonterminal,
    .nonterminal nonterminal ∈ (small.production id).right →
      large.productionsOf nonterminal = (small.productionsOf nonterminal).map rename
  /-- Usable productions mention none of the additional nonterminals. -/
  nonterminals : ∃ more, large.nonterminalList = small.nonterminalList ++ more ∧
    ∀ id, small.Usable id → ∀ nonterminal ∈ more,
      .nonterminal nonterminal ∉ (small.production id).right

end Grammar

variable {rename : ProductionId → ProductionId} {small large : Grammar}

/-! ## Items -/

namespace Item

variable {item : Item}

theorem right_rename (embeds : small.Embeds rename large) (viable : item ∈ small.viableItems) :
    (item.rename rename).right large = item.right small :=
  congrArg Production.right (embeds.production _ (Grammar.usable_of_viable viable))

theorem nextSymbol?_rename (embeds : small.Embeds rename large)
    (viable : item ∈ small.viableItems) :
    (item.rename rename).nextSymbol? large = item.nextSymbol? small := by
  rw [nextSymbol?, right_rename embeds viable]
  rfl

/-- What a renamed item expects is what the item expects, renamed. -/
theorem expected_rename (embeds : small.Embeds rename large) (viable : item ∈ small.viableItems) :
    (item.rename rename).expected large = (item.expected small).map (Item.rename rename) := by
  rw [expected, nextSymbol?_rename embeds viable, expected]
  split
  · next nonterminal next =>
    have mentioned : .nonterminal nonterminal ∈ item.right small := List.mem_of_getElem? next
    rw [embeds.alternatives _ (Grammar.usable_of_viable viable) nonterminal mentioned,
      List.map_map, List.map_map]
    rfl
  · rfl

theorem advanceOver?_rename (embeds : small.Embeds rename large)
    (viable : item ∈ small.viableItems) (symbol : Symbol) :
    (item.rename rename).advanceOver? large symbol =
      (item.advanceOver? small symbol).map (Item.rename rename) := by
  ext advanced
  rw [advanceOver?_eq_some_iff, nextSymbol?_rename embeds viable, Option.map_eq_some_iff]
  constructor
  · rintro ⟨next, rfl⟩
    exact ⟨_, (advanceOver?_eq_some_iff _ _ _ _).2 ⟨next, rfl⟩, rfl⟩
  · rintro ⟨_, advances, rfl⟩
    obtain ⟨next, rfl⟩ := (advanceOver?_eq_some_iff _ _ _ _).1 advances
    exact ⟨next, rfl⟩

end Item

/-! ## Item sets -/

namespace ItemSet

/-- A set holds the items of another one, renamed, in the same order. -/
def Renamed (rename : ProductionId → ProductionId) (set renamed : ItemSet) : Prop :=
  renamed.items = set.items.map (Item.rename rename)

variable {set renamed : ItemSet}

/-- All items of a set are viable. -/
def Viable (grammar : Grammar) (set : ItemSet) : Prop :=
  ∀ item ∈ set.items, item ∈ grammar.viableItems

theorem Renamed.mem_iff (injective : Function.Injective rename)
    (related : set.Renamed rename renamed)
    (item : Item) : item.rename rename ∈ renamed.items ↔ item ∈ set.items := by
  rw [related]
  exact List.mem_map_of_injective (Item.rename_injective injective)

theorem Renamed.insert (injective : Function.Injective rename)
    (related : set.Renamed rename renamed) (item : Item) :
    (set.insert item).Renamed rename (renamed.insert (item.rename rename)) := by
  have present := related.mem_iff injective item
  unfold ItemSet.insert
  by_cases here : item ∈ set.items
  · rwa [dif_pos here, dif_pos (present.2 here)]
  · rw [dif_neg here, dif_neg (mt present.1 here)]
    show renamed.items ++ [item.rename rename] = _
    rw [related, List.map_append, List.map_singleton]

theorem Renamed.extend (injective : Function.Injective rename)
    (related : set.Renamed rename renamed) (items : List Item) :
    (set.extend items).Renamed rename (renamed.extend (items.map (Item.rename rename))) := by
  unfold ItemSet.extend
  induction items generalizing set renamed with
  | nil => exact related
  | cons first rest ih => exact ih (related.insert injective first)

/-- A round of closing finds the renamed items. -/
theorem Renamed.round (embeds : small.Embeds rename large) (viable : set.Viable small)
    (related : set.Renamed rename renamed) :
    (set.round small).Renamed rename (renamed.round large) := by
  have expected : renamed.expected large = (set.expected small).map (Item.rename rename) := by
    rw [ItemSet.expected, related, ItemSet.expected, List.flatMap_map, List.map_flatMap]
    exact List.flatMap_congr fun item member => Item.expected_rename embeds (viable item member)
  rw [ItemSet.round, ItemSet.round, expected]
  exact related.extend embeds.injective _

theorem Renamed.size_eq (related : set.Renamed rename renamed) : renamed.size = set.size := by
  rw [ItemSet.size, related, List.length_map, ItemSet.size]

theorem Viable.round (viable : set.Viable small) : (set.round small).Viable small := by
  intro item member
  rcases (mem_extend set _ item).1 member with old | new
  · exact viable item old
  · obtain ⟨source, isSource, isExpected⟩ := List.mem_flatMap.1 new
    exact Item.expected_viable small source (viable source isSource) item isExpected

/-- **Closing a renamed set gives the renamed closure.** -/
theorem Renamed.saturate (embeds : small.Embeds rename large) (viable : set.Viable small)
    (related : set.Renamed rename renamed) :
    (set.saturate small).Renamed rename (renamed.saturate large) := by
  revert renamed
  fun_induction ItemSet.saturate small set with
  | case1 set wider unchanged =>
    intro renamed related
    have round := related.round embeds viable
    have still : (renamed.round large).size = renamed.size := by
      rw [round.size_eq, related.size_eq]
      exact unchanged
    unfold ItemSet.saturate
    rwa [dif_pos still]
  | case2 set wider grown ih =>
    intro renamed related
    have round := related.round embeds viable
    have moves : ¬(renamed.round large).size = renamed.size := by
      rw [round.size_eq, related.size_eq]
      exact grown
    have goesOn : renamed.saturate large = (renamed.round large).saturate large := by
      rw [ItemSet.saturate, dif_neg moves]
    rw [goesOn]
    exact ih viable.round round

theorem renamed_closure (embeds : small.Embeds rename large) {seed : List Item}
    (viable : ∀ item ∈ seed, item ∈ small.viableItems) :
    (closure small seed).Renamed rename (closure large (seed.map (Item.rename rename))) := by
  have seeded : (ofList seed).Viable small := fun item member =>
    viable item ((mem_ofList seed item).1 member)
  have nothing : empty.Renamed rename empty := rfl
  exact (nothing.extend embeds.injective seed).saturate embeds seeded

/-! ## Labels and successors -/

theorem Renamed.labels (embeds : small.Embeds rename large) (viable : set.Viable small)
    (related : set.Renamed rename renamed) : renamed.labels large = set.labels small := by
  have next : renamed.items.filterMap (Item.nextSymbol? large) =
      set.items.filterMap (Item.nextSymbol? small) := by
    rw [related, List.filterMap_map]
    exact List.filterMap_congr fun item member =>
      Item.nextSymbol?_rename embeds (viable item member)
  rw [ItemSet.labels, next, ItemSet.labels]

/-- **A renamed set leads to the renamed successor.** -/
theorem Renamed.successor (embeds : small.Embeds rename large) (viable : set.Viable small)
    (related : set.Renamed rename renamed) (label : Symbol) :
    (set.successor small label).Renamed rename (renamed.successor large label) := by
  have kernel : renamed.kernel large label =
      (set.kernel small label).map (Item.rename rename) := by
    rw [ItemSet.kernel, related, ItemSet.kernel, List.filterMap_map, List.map_filterMap]
    exact List.filterMap_congr fun item member =>
      Item.advanceOver?_rename embeds (viable item member) label
  rw [ItemSet.successor, ItemSet.successor, kernel]
  refine renamed_closure embeds fun advanced member => ?_
  obtain ⟨item, isItem, advances⟩ := List.mem_filterMap.1 member
  exact item.advanceOver?_viable small label advanced (viable item isItem) advances

/-- Renamed sets have the same members exactly when the sets have. -/
theorem Renamed.same (injective : Function.Injective rename) {other otherRenamed : ItemSet}
    (related : set.Renamed rename renamed) (otherRelated : other.Renamed rename otherRenamed) :
    renamed.same otherRenamed = set.same other := by
  rw [Bool.eq_iff_iff, same_iff, same_iff]
  constructor
  · intro equal item
    rw [← related.mem_iff injective, ← otherRelated.mem_iff injective]
    exact equal _
  · intro equal item
    rw [related, otherRelated, List.mem_map, List.mem_map]
    simp only [equal]

end ItemSet

end ShiftReduce
