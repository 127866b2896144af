import Mathlib.Data.List.Forall2
import ShiftReduce.Proofs.Automaton.Collection
import ShiftReduce.Proofs.Item.Renaming

/-!
# Renamed productions in automata

When a grammar embeds in a larger one, the discovery of the states goes on in the same way for both.
After the same number of visits the same sets have been found, renamed, with the same edges and the
same queue (`Exploration.Renamed`). A set is found by one discovery where its renamed counterpart is
found by the other (`Renamed.register`), so following a label, a visit and the whole run keep this.

In the end the two automata have the same states in the same order, with the same items, renamed,
in the same order, and the same edges (`renamed_generate`).
-/

set_option autoImplicit false

namespace ShiftReduce

variable {rename : ProductionId → ProductionId} {small large : Grammar}

namespace Exploration

/-- A set holds the renamed items of a viable set. -/
def Counterpart (rename : ProductionId → ProductionId) (viableSet : ViableSet small)
    (other : ViableSet large) : Prop :=
  viableSet.set.Renamed rename other.set

/-- Two discoveries have found the same sets, renamed, and stand at the same point. -/
structure Renamed (rename : ProductionId → ProductionId) (exploration : Exploration small)
    (renamed : Exploration large) : Prop where
  sets : List.Forall₂ (Counterpart rename) exploration.sets.toList renamed.sets.toList
  edges : renamed.edges = exploration.edges
  pending : renamed.pending = exploration.pending

theorem findIdx?_eq_of_forall₂ {α β : Type} {related : α → β → Prop} {first : List α}
    {second : List β} {isFirst : α → Bool} {isSecond : β → Bool}
    (all : List.Forall₂ related first second)
    (agree : ∀ one other, related one other → isSecond other = isFirst one) :
    second.findIdx? isSecond = first.findIdx? isFirst := by
  induction all with
  | nil => rfl
  | cons here _ ih => rw [List.findIdx?_cons, List.findIdx?_cons, agree _ _ here, ih]

theorem findIdx?_toList {α : Type} (array : Array α) (test : α → Bool) :
    array.findIdx? test = array.toList.findIdx? test :=
  List.findIdx?_toArray test array.toList

section Register

variable {exploration : Exploration small} {renamed : Exploration large}
  {viableSet : ViableSet small} {other : ViableSet large}

theorem register_of_found {state : StateId}
    (found : exploration.sets.findIdx? (·.same viableSet) = some state) :
    exploration.register viableSet = (state, exploration) := by
  unfold register
  split
  · next known isKnown =>
    rw [found] at isKnown
    cases isKnown
    rfl
  · next isNew =>
    rw [found] at isNew
    cases isNew

theorem register_of_new (isNew : exploration.sets.findIdx? (·.same viableSet) = none) :
    ∃ extended, exploration.register viableSet = (exploration.sets.size, extended) ∧
      extended.sets = exploration.sets.push viableSet ∧
      extended.edges = exploration.edges.push [] ∧
      extended.pending = exploration.pending ++ [exploration.sets.size] := by
  unfold register
  split
  · next known isKnown =>
    rw [isNew] at isKnown
    cases isKnown
  · exact ⟨_, rfl, rfl, rfl, rfl⟩

theorem Renamed.size_sets (related : exploration.Renamed rename renamed) :
    renamed.sets.size = exploration.sets.size := by
  rw [← Array.length_toList, ← Array.length_toList, related.sets.length_eq]

theorem Renamed.findIdx? (injective : Function.Injective rename)
    (related : exploration.Renamed rename renamed)
    (counterpart : Counterpart rename viableSet other) :
    renamed.sets.findIdx? (·.same other) = exploration.sets.findIdx? (·.same viableSet) := by
  rw [findIdx?_toList, findIdx?_toList]
  exact findIdx?_eq_of_forall₂ related.sets fun _ _ here => here.same injective counterpart

/-- **Registering a set and its counterpart gives the same state in both discoveries.** -/
theorem Renamed.register (injective : Function.Injective rename)
    (related : exploration.Renamed rename renamed)
    (counterpart : Counterpart rename viableSet other) :
    (renamed.register other).1 = (exploration.register viableSet).1 ∧
      (exploration.register viableSet).2.Renamed rename (renamed.register other).2 := by
  have agree := related.findIdx? injective counterpart
  cases found : exploration.sets.findIdx? (·.same viableSet) with
  | some state =>
      rw [register_of_found found, register_of_found (agree.trans found)]
      exact ⟨rfl, related⟩
  | none =>
      obtain ⟨extended, result, sets, edges, pending⟩ := register_of_new found
      obtain ⟨otherExtended, otherResult, otherSets, otherEdges, otherPending⟩ :=
        register_of_new (agree.trans found)
      rw [result, otherResult]
      refine ⟨related.size_sets, ?_, ?_, ?_⟩
      · rw [sets, otherSets, Array.toList_push, Array.toList_push]
        exact List.rel_append related.sets (.cons counterpart .nil)
      · rw [edges, otherEdges, related.edges]
      · rw [pending, otherPending, related.pending, related.size_sets]

end Register

section Run

variable {exploration : Exploration small} {renamed : Exploration large}

/-- A state has the counterpart of the set that it has in the other discovery. -/
theorem Renamed.exists_counterpart (related : exploration.Renamed rename renamed)
    {state : StateId} {viableSet : ViableSet small}
    (isSet : exploration.sets[state]? = some viableSet) :
    ∃ other, renamed.sets[state]? = some other ∧ Counterpart rename viableSet other := by
  obtain ⟨lengths, each⟩ := List.forall₂_iff_get.1 related.sets
  rw [← Array.getElem?_toList] at isSet
  obtain ⟨inside, rfl⟩ := List.getElem?_eq_some_iff.1 isSet
  rw [← Array.getElem?_toList]
  exact ⟨_, List.getElem?_eq_getElem (lengths ▸ inside), each state inside (lengths ▸ inside)⟩

theorem Renamed.getElem?_eq_none (related : exploration.Renamed rename renamed) {state : StateId}
    (outside : exploration.sets[state]? = none) : renamed.sets[state]? = none := by
  rw [Array.getElem?_eq_none_iff] at outside ⊢
  rwa [related.size_sets]

theorem Renamed.follow (embeds : small.Embeds rename large)
    (related : exploration.Renamed rename renamed) {viableSet : ViableSet small}
    {other : ViableSet large} (counterpart : Counterpart rename viableSet other)
    (source : StateId) (label : Symbol) :
    (follow source viableSet exploration label).Renamed rename
      (follow source other renamed label) := by
  have successor : Counterpart rename (viableSet.successor label) (other.successor label) :=
    ItemSet.Renamed.successor embeds viableSet.viable counterpart label
  obtain ⟨target, registered⟩ := related.register embeds.injective successor
  refine ⟨registered.sets, ?_, registered.pending⟩
  simp only [Exploration.follow, addEdge, registered.edges, target]

theorem Renamed.foldl_follow (embeds : small.Embeds rename large)
    (related : exploration.Renamed rename renamed) {viableSet : ViableSet small}
    {other : ViableSet large} (counterpart : Counterpart rename viableSet other)
    (source : StateId) (labels : List Symbol) :
    (labels.foldl (Exploration.follow source viableSet) exploration).Renamed rename
      (labels.foldl (Exploration.follow source other) renamed) := by
  induction labels generalizing exploration renamed with
  | nil => exact related
  | cons label rest ih => exact ih (related.follow embeds counterpart source label)

/-- A visit goes on in the same way. -/
theorem Renamed.visit (embeds : small.Embeds rename large)
    (related : exploration.Renamed rename renamed) (source : StateId) :
    (exploration.visit source).Renamed rename (renamed.visit source) := by
  unfold Exploration.visit
  cases isSource : exploration.sets[source]? with
  | none =>
      rw [related.getElem?_eq_none isSource]
      exact related
  | some viableSet =>
      obtain ⟨other, isOther, counterpart⟩ := related.exists_counterpart isSource
      have labels : other.set.labels large = viableSet.set.labels small :=
        ItemSet.Renamed.labels embeds viableSet.viable counterpart
      simp only [isOther, labels]
      exact related.foldl_follow embeds counterpart source _

theorem Renamed.step?_eq_none (related : exploration.Renamed rename renamed)
    (stopped : exploration.step? = none) : renamed.step? = none := by
  unfold step? at stopped ⊢
  rw [related.pending]
  cases queue : exploration.pending with
  | nil => rfl
  | cons source rest =>
      rw [queue] at stopped
      cases stopped

theorem Renamed.step (embeds : small.Embeds rename large)
    (related : exploration.Renamed rename renamed) {next : Exploration small}
    (steps : exploration.step? = some next) :
    ∃ other, renamed.step? = some other ∧ next.Renamed rename other := by
  unfold step? at steps ⊢
  rw [related.pending]
  cases queue : exploration.pending with
  | nil =>
      rw [queue] at steps
      cases steps
  | cons source rest =>
      rw [queue] at steps
      cases steps
      have popped : Renamed rename { exploration with pending := rest }
          { renamed with pending := rest } :=
        ⟨related.sets, related.edges, rfl⟩
      exact ⟨_, rfl, popped.visit embeds source⟩

theorem run_of_step?_eq_none (stopped : renamed.step? = none) : renamed.run = renamed := by
  unfold Exploration.run
  split
  · rfl
  · next steps =>
    rw [stopped] at steps
    cases steps

theorem run_of_step?_eq_some {next : Exploration large} (steps : renamed.step? = some next) :
    renamed.run = next.run := by
  rw [Exploration.run]
  split
  · next stopped =>
    rw [steps] at stopped
    cases stopped
  · next other stepsToo =>
    rw [steps] at stepsToo
    cases stepsToo
    rfl

/-- **The whole discovery goes on in the same way.** -/
theorem Renamed.run (embeds : small.Embeds rename large)
    (related : exploration.Renamed rename renamed) :
    exploration.run.Renamed rename renamed.run := by
  fun_induction Exploration.run exploration generalizing renamed with
  | case1 exploration stopped =>
      rw [run_of_step?_eq_none (related.step?_eq_none stopped)]
      exact related
  | case2 exploration next steps ih =>
      obtain ⟨other, otherSteps, relatedNext⟩ := related.step embeds steps
      rw [run_of_step?_eq_some otherSteps]
      exact ih relatedNext

theorem renamed_start (embeds : small.Embeds rename large) :
    (start small).Renamed rename (start large) := by
  have nothing : Renamed rename ({} : Exploration small) ({} : Exploration large) :=
    ⟨.nil, rfl, rfl⟩
  have same : [Item.start].map (Item.rename rename) = [Item.start] := by
    simp [Item.rename, Item.start, Item.initial, embeds.accept]
  have viable : ∀ item ∈ [Item.start], item ∈ small.viableItems := fun item member =>
    List.mem_singleton.1 member ▸ Item.start_viable small
  have first : Counterpart rename (ViableSet.start small) (ViableSet.start large) := by
    have closed := ItemSet.renamed_closure embeds viable
    rwa [same] at closed
  exact (nothing.register embeds.injective first).2

end Run

end Exploration

/-! ## Automata -/

/-- An automaton has the items of another one, renamed, in the same order, and the same edges. -/
structure Automaton.Renamed (rename : ProductionId → ProductionId)
    (automaton renamed : Automaton) : Prop where
  size : renamed.size = automaton.size
  states : ∀ (id : StateId) (state : State), automaton.states[id]? = some state →
    ∃ other, renamed.states[id]? = some other ∧
      other.items.items = state.items.items.map (Item.rename rename) ∧ other.edges = state.edges

/-- **The automaton of the larger grammar is that of the embedded one, renamed.** -/
theorem Automaton.renamed_generate (embeds : small.Embeds rename large) :
    (generate small).Renamed rename (generate large) := by
  have related := (Exploration.renamed_start embeds).run embeds
  constructor
  case size => rw [size_generate, size_generate, related.size_sets]
  case states =>
    intro id state isState
    obtain ⟨viableSet, found, rfl⟩ := (getElem?_generate id state).1 isState
    obtain ⟨other, isOther, counterpart⟩ := related.exists_counterpart found
    refine ⟨_, (getElem?_generate id _).2 ⟨other, isOther, rfl⟩, counterpart, ?_⟩
    simp only [Exploration.row, related.edges]

/-- Without any renaming the two automata are the same. -/
theorem Automaton.Renamed.eq {automaton other : Automaton}
    (related : automaton.Renamed id other) : other = automaton := by
  have unrenamed : Item.rename id = id := rfl
  refine congrArg Automaton.mk (Array.ext related.size fun index otherInside inside => ?_)
  obtain ⟨state, isState, items, edges⟩ :=
    related.states index _ (Array.getElem?_eq_getElem inside)
  rw [Array.getElem?_eq_getElem otherInside, Option.some.injEq] at isState
  rw [unrenamed, List.map_id] at items
  calc
    other.states[index] = ⟨state.items, state.edges⟩ := isState
    _ = automaton.states[index] := by rw [ItemSet.eq_of_items items, edges]

end ShiftReduce
