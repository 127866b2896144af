import Mathlib.Logic.Relation
import ShiftReduce.Automaton.Exploration
import ShiftReduce.Proofs.Item.Labels

/-!
# What the discovery of states keeps true

Registering a set either finds its state or makes one new state at the end of the queue
(`register_cases`). From this one fact everything else is read off. At any time the discovery is
*consistent*: an edge leads to a state with the set that its label leads to, all sets are closed,
and every state is reached from the first one along edges.

Between two visits the queue holds exactly the states that were not visited, in order; a visited
state has followed all its labels, and the others none (`Visited`). During a visit the same holds
of all states but the one that is visited (`Visiting`). Each label that is followed, and so each
visit, takes one of these descriptions to the next, so that the whole run ends with all states
visited (`visited_run`). Whatever else each label that is followed keeps holds at the end of the run
as well (`Kept.run`).
-/

set_option autoImplicit false

namespace ShiftReduce.Exploration

variable {grammar : Grammar}

/-! ## Registering a set -/

/-- **Registering a set finds the state that has it, or makes a new state of it at the end of the
queue.** -/
theorem register_cases (exploration : Exploration grammar) (viableSet : ViableSet grammar) :
    (∃ state known, exploration.register viableSet = (state, exploration) ∧
      exploration.sets[state]? = some known ∧ known.same viableSet = true) ∨
    ∃ extended, exploration.register viableSet = (exploration.sets.size, extended) ∧
      extended.sets = exploration.sets.push viableSet ∧
      extended.edges = exploration.edges.push [] ∧
      extended.pending = exploration.pending ++ [exploration.sets.size] := by
  unfold register
  split
  · next state found =>
    obtain ⟨inside, isSame, -⟩ := Array.findIdx?_eq_some_iff_getElem.1 found
    exact Or.inl ⟨state, _, rfl, Array.getElem?_eq_getElem inside, isSame⟩
  · exact Or.inr ⟨_, rfl, rfl, rfl, rfl⟩

/-! ## Rows of edges -/

/-- The edges followed so far from a state. -/
def row (exploration : Exploration grammar) (source : StateId) : List (Symbol × StateId) :=
  exploration.edges.getD source []

/-- The labels followed so far from a state. -/
def followed (exploration : Exploration grammar) (source : StateId) : List Symbol :=
  (exploration.row source).map Prod.fst

/-- Some edge goes from one state to another. -/
def Linked (exploration : Exploration grammar) (source target : StateId) : Prop :=
  ∃ label, (label, target) ∈ exploration.row source

/-- Over a label the set of one state leads to the set of another. -/
def Leads (exploration : Exploration grammar) (source : StateId) (label : Symbol)
    (target : StateId) : Prop :=
  ∃ set next, exploration.sets[source]? = some set ∧ exploration.sets[target]? = some next ∧
    next.same (set.successor label) = true

theorem row_addEdge (exploration : Exploration grammar) (source : StateId) (label : Symbol)
    (target : StateId) (inside : source < exploration.edges.size) (state : StateId) :
    (exploration.addEdge source label target).row state =
      if state = source then exploration.row state ++ [(label, target)]
      else exploration.row state := by
  simp only [row, addEdge, Array.getD_eq_getD_getElem?, Array.getElem?_modify]
  by_cases here : source = state
  · subst here
    simp [inside]
  · simp [here, Ne.symm here]

theorem row_register (exploration : Exploration grammar) (viableSet : ViableSet grammar)
    (state : StateId) : (exploration.register viableSet).2.row state = exploration.row state := by
  rcases register_cases exploration viableSet with ⟨_, _, result, -⟩ | ⟨_, result, -, edges, -⟩
  · rw [result]
  · simp only [result, row, edges, Array.getD_eq_getD_getElem?, Array.getElem?_push]
    split
    · next last =>
      rw [Array.getElem?_eq_none (Nat.le_of_eq last.symm)]
      rfl
    · rfl

/-! ## Following one label -/

/-- The state that following a label finds. -/
def targetOf (exploration : Exploration grammar) (viableSet : ViableSet grammar)
    (label : Symbol) : StateId :=
  (exploration.register (viableSet.successor label)).1

section Follow

variable (source : StateId) (viableSet : ViableSet grammar) (exploration : Exploration grammar)
  (label : Symbol)

theorem row_follow (inside : source < exploration.edges.size) (state : StateId) :
    (follow source viableSet exploration label).row state =
      if state = source then
        exploration.row state ++ [(label, exploration.targetOf viableSet label)]
      else exploration.row state := by
  have stillInside :
      source < (exploration.register (viableSet.successor label)).2.edges.size := by
    rcases register_cases exploration (viableSet.successor label) with
      ⟨_, _, result, -⟩ | ⟨_, result, -, edges, -⟩
    · rwa [result]
    · simp only [result, edges, Array.size_push]
      exact Nat.lt_succ_of_lt inside
  have added := row_addEdge (exploration.register (viableSet.successor label)).2 source label
    (exploration.targetOf viableSet label) stillInside state
  rw [row_register] at added
  exact added

theorem sets_follow :
    (follow source viableSet exploration label).sets =
      (exploration.register (viableSet.successor label)).2.sets := rfl

theorem pending_follow :
    (follow source viableSet exploration label).pending =
      (exploration.register (viableSet.successor label)).2.pending := rfl

/-- Following a label keeps the sets that were found, and adds at most the one it leads to. -/
theorem getElem?_sets_follow (state : StateId) (set : ViableSet grammar) :
    (follow source viableSet exploration label).sets[state]? = some set ↔
      exploration.sets[state]? = some set ∨
        state = exploration.sets.size ∧ set = viableSet.successor label ∧
          exploration.targetOf viableSet label = exploration.sets.size := by
  rw [sets_follow, targetOf]
  rcases register_cases exploration (viableSet.successor label) with
    ⟨found, _, result, isKnown, -⟩ | ⟨_, result, sets, -, -⟩
  · rw [result]
    have inside := (Array.getElem?_eq_some_iff.1 isKnown).1
    constructor
    · exact Or.inl
    · rintro (known | ⟨-, -, equal⟩)
      · exact known
      · exact absurd equal (Nat.ne_of_lt inside)
  · simp only [result, sets, Array.getElem?_push]
    split
    · next last =>
      subst last
      simp [eq_comm]
    · next old =>
      simp [old]

/-- A label is followed to a state with the set that it leads to. -/
theorem exists_same_targetOf :
    ∃ next, (follow source viableSet exploration label).sets[
        exploration.targetOf viableSet label]? = some next ∧
      next.same (viableSet.successor label) = true := by
  rw [sets_follow, targetOf]
  rcases register_cases exploration (viableSet.successor label) with
    ⟨found, known, result, isKnown, same⟩ | ⟨_, result, sets, -, -⟩
  · rw [result]
    exact ⟨known, isKnown, same⟩
  · simp only [result, sets]
    exact ⟨viableSet.successor label, by simp, (ItemSet.same_iff _ _).2 fun _ => Iff.rfl⟩

end Follow

/-! ## Consistency -/

/-- What holds of the discovery at any time. -/
structure Consistent (exploration : Exploration grammar) : Prop where
  /-- There is a row of edges for each set. -/
  rows : exploration.edges.size = exploration.sets.size
  /-- The first set is the closure of the start item. -/
  first : exploration.sets[0]? = some (ViableSet.start grammar)
  /-- Every set is closed. -/
  closed : ∀ (state : StateId) (viableSet : ViableSet grammar),
    exploration.sets[state]? = some viableSet → viableSet.set.Closed grammar
  /-- An edge leads to a state with the set that its label leads to. -/
  leads : ∀ source label target, (label, target) ∈ exploration.row source →
    exploration.Leads source label target
  /-- Every state is reached from the first one along edges. -/
  reached : ∀ state, state < exploration.sets.size →
    Relation.ReflTransGen exploration.Linked 0 state

theorem Leads.follow {source : StateId} {label : Symbol} {target : StateId}
    {exploration : Exploration grammar} (leads : exploration.Leads source label target)
    (visiting : StateId) (viableSet : ViableSet grammar) (other : Symbol) :
    (follow visiting viableSet exploration other).Leads source label target := by
  obtain ⟨set, next, isSource, isTarget, same⟩ := leads
  exact ⟨set, next, (getElem?_sets_follow _ _ _ _ _ _).2 (Or.inl isSource),
    (getElem?_sets_follow _ _ _ _ _ _).2 (Or.inl isTarget), same⟩

theorem size_edges_follow {exploration : Exploration grammar}
    (rows : exploration.edges.size = exploration.sets.size) (source : StateId)
    (viableSet : ViableSet grammar) (label : Symbol) :
    (follow source viableSet exploration label).edges.size =
      (follow source viableSet exploration label).sets.size := by
  have same_size : (follow source viableSet exploration label).edges.size =
      (exploration.register (viableSet.successor label)).2.edges.size := Array.size_modify
  rw [same_size, sets_follow]
  rcases register_cases exploration (viableSet.successor label) with
    ⟨_, _, result, -⟩ | ⟨_, result, sets, edges, -⟩
  · rw [result]
    exact rows
  · simp [result, sets, edges, rows]

theorem Linked.follow {exploration : Exploration grammar} {first second source : StateId}
    (linked : exploration.Linked first second) (inside : source < exploration.edges.size)
    (viableSet : ViableSet grammar) (label : Symbol) :
    (follow source viableSet exploration label).Linked first second := by
  obtain ⟨edgeLabel, member⟩ := linked
  refine ⟨edgeLabel, ?_⟩
  rw [row_follow source viableSet exploration label inside]
  split
  · exact List.mem_append_left _ member
  · exact member

/-- The state that a label is followed to is linked with the one that it leaves. -/
theorem linked_follow {exploration : Exploration grammar} {source : StateId}
    (inside : source < exploration.edges.size) (viableSet : ViableSet grammar) (label : Symbol) :
    (follow source viableSet exploration label).Linked source
      (exploration.targetOf viableSet label) := by
  refine ⟨label, ?_⟩
  rw [row_follow source viableSet exploration label inside, if_pos rfl]
  exact List.mem_append_right _ (List.mem_singleton.2 rfl)

/-- Following a label of a state keeps the discovery consistent. -/
theorem Consistent.follow {exploration : Exploration grammar} (consistent : exploration.Consistent)
    {source : StateId} {viableSet : ViableSet grammar}
    (isSource : exploration.sets[source]? = some viableSet) (label : Symbol) :
    (follow source viableSet exploration label).Consistent := by
  have source_lt : source < exploration.sets.size := (Array.getElem?_eq_some_iff.1 isSource).1
  have source_row : source < exploration.edges.size := by
    rw [consistent.rows]
    exact source_lt
  have rows_eq := row_follow source viableSet exploration label source_row
  have stays : ∀ state, Relation.ReflTransGen exploration.Linked 0 state →
      Relation.ReflTransGen
        (Exploration.follow source viableSet exploration label).Linked 0 state := by
    intro state
    apply Relation.ReflTransGen.mono
    intro first second linked
    exact linked.follow source_row viableSet label
  constructor
  case rows => exact size_edges_follow consistent.rows source viableSet label
  case first => exact (getElem?_sets_follow _ _ _ _ _ _).2 (Or.inl consistent.first)
  case closed =>
    intro state set isSet
    rcases (getElem?_sets_follow _ _ _ _ _ _).1 isSet with known | ⟨-, rfl, -⟩
    · exact consistent.closed state set known
    · exact closed_closure _
  case leads =>
    intro first edgeLabel second member
    rw [rows_eq] at member
    split at member
    · next here =>
      rcases List.mem_append.1 member with old | new
      · exact (consistent.leads first edgeLabel second old).follow source viableSet label
      · obtain ⟨rfl, rfl⟩ := Prod.mk.inj (List.mem_singleton.1 new)
        obtain ⟨next, isTarget, same⟩ :=
          exists_same_targetOf source viableSet exploration edgeLabel
        subst here
        exact ⟨viableSet, next, (getElem?_sets_follow _ _ _ _ _ _).2 (Or.inl isSource),
          isTarget, same⟩
    · exact (consistent.leads first edgeLabel second member).follow source viableSet label
  case reached =>
    intro state inside
    rcases (getElem?_sets_follow _ _ _ _ _ _).1 (Array.getElem?_eq_getElem inside) with
      known | ⟨rfl, -, isNew⟩
    · have inside_before := (Array.getElem?_eq_some_iff.1 known).1
      exact stays state (consistent.reached state inside_before)
    · -- The new state is entered by the edge that was followed to it.
      have entered := linked_follow source_row viableSet label
      rw [isNew] at entered
      exact (stays source (consistent.reached source source_lt)).tail entered

/-! ## Visits -/

/-- Between two visits: the states before `visited` have followed all their labels, the others have
followed none, and these wait in the queue in order. -/
structure Visited (exploration : Exploration grammar) (visited : Nat) : Prop where
  consistent : exploration.Consistent
  bound : visited ≤ exploration.sets.size
  queue : exploration.pending = List.range' visited (exploration.sets.size - visited)
  followed : ∀ (state : StateId) (viableSet : ViableSet grammar),
    exploration.sets[state]? = some viableSet →
      exploration.followed state = if state < visited then viableSet.set.labels grammar else []

/-- During the visit of `source`, which has the given set: the same, but `source` has left the queue
and has followed some of its labels. -/
structure Visiting (exploration : Exploration grammar) (source : Nat)
    (viableSet : ViableSet grammar) (labels : List Symbol) : Prop where
  consistent : exploration.Consistent
  current : exploration.sets[source]? = some viableSet
  queue : exploration.pending = List.range' (source + 1) (exploration.sets.size - (source + 1))
  followed : ∀ (state : StateId) (set : ViableSet grammar),
    exploration.sets[state]? = some set →
      exploration.followed state =
        if state < source then set.set.labels grammar
        else if state = source then labels else []

theorem Visiting.bound {exploration : Exploration grammar} {source : Nat}
    {viableSet : ViableSet grammar} {labels : List Symbol}
    (visiting : exploration.Visiting source viableSet labels) : source < exploration.sets.size :=
  (Array.getElem?_eq_some_iff.1 visiting.current).1

theorem followed_follow (source : StateId) (viableSet : ViableSet grammar)
    (exploration : Exploration grammar) (label : Symbol)
    (inside : source < exploration.edges.size) (state : StateId) :
    (follow source viableSet exploration label).followed state =
      if state = source then exploration.followed state ++ [label]
      else exploration.followed state := by
  simp only [followed, row_follow source viableSet exploration label inside]
  split
  · simp
  · rfl

/-- A new state has followed no label. -/
theorem followed_size {exploration : Exploration grammar}
    (rows : exploration.edges.size = exploration.sets.size) :
    exploration.followed exploration.sets.size = [] := by
  simp [followed, row, ← rows]

section Visiting

variable {exploration : Exploration grammar} {source : Nat} {viableSet : ViableSet grammar}
  {labels : List Symbol}

/-- Following a label puts a new state at the end of the queue. -/
theorem Visiting.queue_follow (visiting : exploration.Visiting source viableSet labels)
    (label : Symbol) :
    (Exploration.follow source viableSet exploration label).pending =
      List.range' (source + 1)
        ((Exploration.follow source viableSet exploration label).sets.size - (source + 1)) := by
  have source_lt := visiting.bound
  rw [pending_follow, sets_follow]
  rcases register_cases exploration (viableSet.successor label) with
    ⟨_, _, result, -⟩ | ⟨_, result, sets, -, pending⟩
  · rw [result]
    exact visiting.queue
  · have longer : exploration.sets.size + 1 - (source + 1) =
        exploration.sets.size - (source + 1) + 1 := by omega
    have last : source + 1 + 1 * (exploration.sets.size - (source + 1)) =
        exploration.sets.size := by omega
    simp only [result, sets, pending, Array.size_push]
    rw [longer, List.range'_concat, last, visiting.queue]

/-- Following one more label of the visited state. -/
theorem Visiting.follow (visiting : exploration.Visiting source viableSet labels)
    (label : Symbol) :
    (Exploration.follow source viableSet exploration label).Visiting source viableSet
      (labels ++ [label]) := by
  have rows := visiting.consistent.rows
  have source_row : source < exploration.edges.size := by
    rw [rows]
    exact visiting.bound
  constructor
  case consistent => exact visiting.consistent.follow visiting.current label
  case current => exact (getElem?_sets_follow _ _ _ _ _ _).2 (Or.inl visiting.current)
  case queue => exact visiting.queue_follow label
  case followed =>
    intro state set isSet
    rw [followed_follow _ _ _ _ source_row]
    rcases (getElem?_sets_follow _ _ _ _ _ _).1 isSet with known | ⟨rfl, -, -⟩
    · rw [visiting.followed state set known]
      by_cases here : state = source
      · simp [here]
      · simp [here]
    · have later : exploration.sets.size ≠ source := Nat.ne_of_gt visiting.bound
      have notBefore : ¬exploration.sets.size < source :=
        Nat.not_lt.2 (Nat.le_of_lt visiting.bound)
      simp [later, notBefore, followed_size rows]

theorem Visiting.foldl_follow (visiting : exploration.Visiting source viableSet labels)
    (rest : List Symbol) :
    (rest.foldl (Exploration.follow source viableSet) exploration).Visiting source viableSet
      (labels ++ rest) := by
  induction rest generalizing labels exploration with
  | nil => simpa using visiting
  | cons label rest ih =>
      have after := ih (visiting.follow label)
      simpa using after

/-- A state that has followed all its labels is a visited one. -/
theorem Visiting.finish
    (visiting : exploration.Visiting source viableSet (viableSet.set.labels grammar)) :
    exploration.Visited (source + 1) := by
  constructor
  case consistent => exact visiting.consistent
  case bound => exact visiting.bound
  case queue => exact visiting.queue
  case followed =>
    intro state set isSet
    rw [visiting.followed state set isSet]
    by_cases before : state < source
    · rw [if_pos before, if_pos (Nat.lt_succ_of_lt before)]
    · by_cases here : state = source
      · subst here
        rw [visiting.current] at isSet
        cases isSet
        simp
      · have after : ¬state < source + 1 := fun below =>
          (Nat.lt_succ_iff_lt_or_eq.1 below).elim before here
        rw [if_neg before, if_neg here, if_neg after]

end Visiting

/-- Taking the first waiting state from the queue begins its visit. -/
theorem Visited.pop {exploration : Exploration grammar} {visited source : Nat}
    {rest : List StateId} (described : exploration.Visited visited)
    (isQueue : exploration.pending = source :: rest) :
    source = visited ∧ ∃ viableSet,
      Visiting { exploration with pending := rest } source viableSet [] := by
  have queue := described.queue
  rw [isQueue] at queue
  obtain ⟨count, remaining⟩ : ∃ count, exploration.sets.size - visited = count + 1 := by
    cases size : exploration.sets.size - visited with
    | zero =>
        rw [size] at queue
        cases queue
    | succ count => exact ⟨count, rfl⟩
  rw [remaining, List.range'_succ] at queue
  obtain ⟨rfl, rfl⟩ := List.cons.inj queue
  have inside : source < exploration.sets.size := by omega
  have counted : exploration.sets.size - (source + 1) = count := by omega
  refine ⟨rfl, exploration.sets[source], ?_⟩
  constructor
  case consistent => exact ⟨described.consistent.rows, described.consistent.first,
    described.consistent.closed, described.consistent.leads, described.consistent.reached⟩
  case current => exact Array.getElem?_eq_getElem inside
  case queue =>
    show List.range' (source + 1) count = _
    rw [← counted]
  case followed =>
    intro state viableSet isSet
    refine (described.followed state viableSet isSet).trans ?_
    split
    · rfl
    · simp

/-- **A visit makes the first waiting state a visited one.** -/
theorem Visited.step {exploration next : Exploration grammar} {visited : Nat}
    (described : exploration.Visited visited) (steps : exploration.step? = some next) :
    next.Visited (visited + 1) := by
  unfold step? at steps
  split at steps
  · cases steps
  · next source rest isQueue =>
    cases steps
    obtain ⟨rfl, viableSet, visiting⟩ := described.pop isQueue
    have followedAll := visiting.foldl_follow (viableSet.set.labels grammar)
    rw [List.nil_append] at followedAll
    rw [visit, visiting.current]
    exact followedAll.finish

/-! ## The whole run -/

/-- At the start the first state is found, and it waits. -/
theorem visited_start (grammar : Grammar) : (start grammar).Visited 0 := by
  rcases register_cases {} (ViableSet.start grammar) with
    ⟨_, _, _, isKnown, -⟩ | ⟨extended, result, sets, edges, pending⟩
  · simp at isKnown
  · have isStart : start grammar = extended := congrArg Prod.snd result
    have sets : extended.sets = #[ViableSet.start grammar] := sets
    have edges : extended.edges = #[[]] := edges
    have no_edges : ∀ source, extended.row source = [] := by
      intro source
      cases source <;> simp [row, edges]
    have only : ∀ (state : StateId) (viableSet : ViableSet grammar),
        extended.sets[state]? = some viableSet → state = 0 ∧ viableSet = .start grammar := by
      intro state viableSet isSet
      cases state with
      | zero => simpa [sets, eq_comm] using isSet
      | succ state => simp [sets] at isSet
    have consistent : extended.Consistent := by
      constructor
      case rows => simp [sets, edges]
      case first => simp [sets]
      case closed =>
        intro state viableSet isSet
        rw [(only state viableSet isSet).2]
        exact closed_closure [.start]
      case leads =>
        intro source label target member
        simp [no_edges] at member
      case reached =>
        intro state inside
        rw [(only state _ (Array.getElem?_eq_getElem inside)).1]
    rw [isStart]
    constructor
    case consistent => exact consistent
    case bound => exact Nat.zero_le _
    case queue =>
      rw [pending]
      simp [sets]
    case followed =>
      intro state viableSet _
      simp [followed, no_edges]

/-- **The run ends with all states visited.** -/
theorem visited_run {exploration : Exploration grammar} {visited : Nat}
    (described : exploration.Visited visited) :
    exploration.run.Visited exploration.run.sets.size := by
  fun_induction run exploration generalizing visited with
  | case1 exploration stopped =>
      have nothingWaits : exploration.pending = [] := by
        unfold step? at stopped
        split at stopped
        · next empty => exact empty
        · cases stopped
      have count := congrArg List.length described.queue
      rw [nothingWaits, List.length_range', List.length_nil] at count
      have bound := described.bound
      have all : visited = exploration.sets.size := by omega
      rwa [← all]
  | case2 exploration next steps ih => exact ih (described.step steps)

/-! ## Properties that visits keep -/

/-- A property of discoveries that taking a state from the queue keeps, and so does following the
next label of the visited state. -/
structure Kept (motive : Exploration grammar → Prop) : Prop where
  pop : ∀ exploration rest, motive exploration → motive { exploration with pending := rest }
  follow : ∀ exploration source viableSet labels label rest,
    exploration.Visiting source viableSet labels →
      viableSet.set.labels grammar = labels ++ label :: rest →
        motive exploration → motive (Exploration.follow source viableSet exploration label)

section Kept

variable {motive : Exploration grammar → Prop} {exploration : Exploration grammar} {visited : Nat}

theorem Kept.foldl_follow (kept : Kept motive) {source : Nat} {viableSet : ViableSet grammar}
    {labels rest : List Symbol} (visiting : exploration.Visiting source viableSet labels)
    (whole : viableSet.set.labels grammar = labels ++ rest) (holds : motive exploration) :
    motive (rest.foldl (Exploration.follow source viableSet) exploration) := by
  induction rest generalizing labels exploration with
  | nil => exact holds
  | cons label rest ih =>
      refine ih (visiting.follow label) ?_ (kept.follow _ _ _ _ _ _ visiting whole holds)
      rw [whole, List.append_assoc, List.singleton_append]

theorem Kept.step (kept : Kept motive) (described : exploration.Visited visited)
    (holds : motive exploration) {next : Exploration grammar}
    (steps : exploration.step? = some next) : motive next := by
  unfold step? at steps
  split at steps
  · cases steps
  · next source rest isQueue =>
    cases steps
    obtain ⟨rfl, viableSet, visiting⟩ := described.pop isQueue
    rw [visit, visiting.current]
    exact kept.foldl_follow visiting (List.nil_append _).symm (kept.pop _ _ holds)

/-- **What holds of a discovery, and is kept, holds at the end of its run.** -/
theorem Kept.run (kept : Kept motive) (described : exploration.Visited visited)
    (holds : motive exploration) : motive exploration.run := by
  fun_induction Exploration.run exploration generalizing visited with
  | case1 exploration stopped => exact holds
  | case2 exploration next steps ih =>
      exact ih (described.step steps) (kept.step described holds steps)

end Kept

end ShiftReduce.Exploration
