import ShiftReduce.Automaton.Basic
import ShiftReduce.Automaton.Viable
import ShiftReduce.Counting

/-!
# Discovery of the states

The states are found breadth first. The discovery keeps the sets found so far, one row of edges for
each of them, and a queue of the states whose edges are still to be followed. It begins with the
closure of the start item. To visit a state is to follow its labels in order: the set that a label
leads to is the state with that set if there is one, and otherwise a new state at the end of the
queue.

No two sets that are found have the same members, and all of them are viable, so at most as many
can be found as there are sets of viable items. The number of those that are not found yet together
with the length of the queue drops with every visit.
-/

set_option autoImplicit false

namespace ShiftReduce

/-! ## How many sets of viable items there are -/

namespace ViableSet

/-- Whether two viable sets have the same members. -/
def same {grammar : Grammar} (first second : ViableSet grammar) : Bool :=
  first.set.same second.set

/-- The members of a viable set in the order of the viable items. -/
def profile {grammar : Grammar} (viableSet : ViableSet grammar) : List Item :=
  grammar.viableItems.filter viableSet.set.contains

/-- Viable sets with the same profile have the same members. -/
theorem same_of_profile_eq {grammar : Grammar} {first second : ViableSet grammar}
    (equal : first.profile = second.profile) : first.same second = true := by
  have mem_profile : ∀ (viableSet : ViableSet grammar) (item : Item),
      item ∈ viableSet.profile ↔ item ∈ viableSet.set.items := by
    intro viableSet item
    simp only [profile, List.mem_filter, ItemSet.contains, decide_eq_true_eq, ItemSet.mem_iff]
    exact ⟨And.right, fun member => ⟨viableSet.viable item member, member⟩⟩
  exact (ItemSet.same_iff _ _).2 fun item => by
    rw [← mem_profile first, ← mem_profile second, equal]

/-- Viable sets with different members are at most as many as there are sets of viable items. -/
theorem length_le_of_distinct {grammar : Grammar} {sets : List (ViableSet grammar)}
    (distinct : sets.Pairwise fun first second => first.same second = false) :
    sets.length ≤ Nat.pow 2 grammar.viableItems.length := by
  have distinctProfiles : (sets.map profile).Nodup := by
    rw [List.Nodup, List.pairwise_map]
    refine distinct.imp fun {first second} different equal => ?_
    rw [same_of_profile_eq equal] at different
    exact Bool.noConfusion different
  have known : sets.map profile ⊆ sublists grammar.viableItems := by
    intro members isProfile
    obtain ⟨viableSet, -, rfl⟩ := List.mem_map.1 isProfile
    exact filter_mem_sublists _ _
  have bound := distinctProfiles.length_le_of_subset known
  rwa [List.length_map, length_sublists] at bound

end ViableSet

/-! ## The state of the discovery -/

/-- The sets found so far, their edges, and the states that are still to be visited. -/
structure Exploration (grammar : Grammar) where
  /-- The sets found, in the order of the state numbers. -/
  sets : Array (ViableSet grammar) := #[]
  /-- The edges followed so far from each state. -/
  edges : Array (List (Symbol × StateId)) := #[]
  /-- The states whose edges are still to be followed, first the one to visit next. -/
  pending : List StateId := []
  /-- No two sets have the same members. -/
  distinct : sets.toList.Pairwise fun first second => first.same second = false := by simp

namespace Exploration

variable {grammar : Grammar}

/-- The state of a set, which is a new one at the end of the queue if the set is new. -/
def register (exploration : Exploration grammar) (viableSet : ViableSet grammar) :
    StateId × Exploration grammar :=
  match found : exploration.sets.findIdx? (·.same viableSet) with
  | some state => (state, exploration)
  | none =>
    let state := exploration.sets.size
    (state,
      { sets := exploration.sets.push viableSet
        edges := exploration.edges.push []
        pending := exploration.pending ++ [state]
        distinct := by
          rw [Array.toList_push, List.pairwise_append]
          refine ⟨exploration.distinct, by simp, fun earlier isEarlier later isLater => ?_⟩
          rw [List.mem_singleton.1 isLater]
          exact Array.findIdx?_eq_none_iff.1 found earlier (Array.mem_toList_iff.1 isEarlier) })

/-- Record an edge at the end of the row of its source. -/
def addEdge (exploration : Exploration grammar) (source : StateId) (label : Symbol)
    (target : StateId) : Exploration grammar :=
  { exploration with edges := exploration.edges.modify source (· ++ [(label, target)]) }

/-- Follow one label of a state with the given set. -/
def follow (source : StateId) (viableSet : ViableSet grammar) (exploration : Exploration grammar)
    (label : Symbol) : Exploration grammar :=
  let (target, extended) := exploration.register (viableSet.successor label)
  extended.addEdge source label target

/-- Follow all labels of a state in order. -/
def visit (exploration : Exploration grammar) (source : StateId) : Exploration grammar :=
  match exploration.sets[source]? with
  | some viableSet => (viableSet.set.labels grammar).foldl (follow source viableSet) exploration
  | none => exploration

/-- Visit the next state of the queue. -/
def step? (exploration : Exploration grammar) : Option (Exploration grammar) :=
  match exploration.pending with
  | [] => none
  | next :: rest => some (visit { exploration with pending := rest } next)

/-- The discovery that has found the first state only. -/
def start (grammar : Grammar) : Exploration grammar :=
  (register {} (ViableSet.start grammar)).2

/-! ## Why the discovery ends -/

/-- The sets that can still be found, together with the states that are still to be visited. -/
def work (exploration : Exploration grammar) : Nat :=
  (Nat.pow 2 grammar.viableItems.length - exploration.sets.size) + exploration.pending.length

/-- Registering a set leaves the work as it is. -/
theorem work_register (exploration : Exploration grammar) (viableSet : ViableSet grammar) :
    (exploration.register viableSet).2.work = exploration.work := by
  unfold register
  split
  · rfl
  · next unknown =>
    have bound := ViableSet.length_le_of_distinct
      (exploration.register viableSet).2.distinct
    unfold register at bound
    split at bound
    · next known => simp [unknown] at known
    · simp only [Array.length_toList, Array.size_push] at bound
      simp only [work, Array.size_push, List.length_append, List.length_singleton]
      omega

/-- Following labels leaves the work as it is. -/
theorem work_follow (source : StateId) (viableSet : ViableSet grammar) (labels : List Symbol)
    (exploration : Exploration grammar) :
    (labels.foldl (follow source viableSet) exploration).work = exploration.work := by
  induction labels generalizing exploration with
  | nil => rfl
  | cons label rest ih =>
    rw [List.foldl_cons, ih]
    exact work_register exploration (viableSet.successor label)

/-- A visit takes one state off the work. -/
theorem work_step_lt (exploration next : Exploration grammar)
    (steps : exploration.step? = some next) : next.work < exploration.work := by
  unfold step? at steps
  split at steps
  · simp at steps
  · next source rest queue =>
    have fewer : Exploration.work { exploration with pending := rest } < exploration.work := by
      simp only [work, queue, List.length_cons]
      omega
    rw [← Option.some.inj steps]
    unfold visit
    split
    · rw [work_follow]
      exact fewer
    · exact fewer

/-- Visit states until the queue is empty. -/
def run (exploration : Exploration grammar) : Exploration grammar :=
  match _ : exploration.step? with
  | none => exploration
  | some next => next.run
termination_by exploration.work
decreasing_by exact work_step_lt exploration next (by assumption)

/-- The automaton of the sets and the edges found. -/
def automaton (exploration : Exploration grammar) : Automaton where
  states := exploration.sets.zipWith (fun viableSet edges => ⟨viableSet.set, edges⟩)
    exploration.edges

end Exploration

/-- The automaton of all states that are reachable from the closure of the start item. -/
def Automaton.generate (grammar : Grammar) : Automaton :=
  (Exploration.start grammar).run.automaton

end ShiftReduce
