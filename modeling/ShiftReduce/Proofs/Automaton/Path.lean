import ShiftReduce.Proofs.Automaton.Validity

/-!
# Stacks as paths

A stack of states, the top first, is a path of an automaton when each state is reached from the one
below it along an edge and the lowest one is state 0. The labels of the edges, read from the bottom,
are a string that the automaton follows to the top (`Path.follow?`), and what is below the last few
states of a path is a path as well (`Path.split`).

In a generated automaton all edges into a state have the same label (`label_unique`), so that a path
has no other labels (`Path.unique`).
-/

set_option autoImplicit false

namespace ShiftReduce.Automaton

/-- A stack of states that follows edges from state 0, with their labels from the bottom up. -/
inductive Path (automaton : Automaton) : List Symbol → List StateId → Prop where
  | start : Path automaton [] [0]
  | push {symbols : List Symbol} {symbol : Symbol} {top target : StateId} {below : List StateId} :
      Path automaton symbols (top :: below) → automaton.target? top symbol = some target →
        Path automaton (symbols ++ [symbol]) (target :: top :: below)

section

variable {automaton : Automaton} {symbols : List Symbol}

/-- The labels of a path lead from state 0 to its top. -/
theorem Path.follow? {top : StateId} {below : List StateId}
    (path : automaton.Path symbols (top :: below)) : automaton.follow? 0 symbols = some top := by
  generalize isStack : top :: below = stack at path
  induction path generalizing top below with
  | start =>
      cases isStack
      rfl
  | push _ leads ih =>
      cases isStack
      exact (follow?_concat _ _ _ _ _).2 ⟨_, ih rfl, leads⟩

theorem Path.exists_top {stack : List StateId} (path : automaton.Path symbols stack) :
    ∃ top below, stack = top :: below := by
  cases path with
  | start => exact ⟨0, [], rfl⟩
  | push => exact ⟨_, _, rfl⟩

theorem Path.concat_cases {symbol : Symbol} {stack : List StateId}
    (path : automaton.Path (symbols ++ [symbol]) stack) :
    ∃ target top below, stack = target :: top :: below ∧
      automaton.Path symbols (top :: below) ∧ automaton.target? top symbol = some target := by
  generalize whole : symbols ++ [symbol] = string at path
  cases path with
  | start => exact absurd whole (List.concat_ne_nil symbol symbols)
  | push path leads =>
      obtain ⟨rfl, same⟩ := List.append_inj' whole rfl
      cases same
      exact ⟨_, _, _, rfl, path, leads⟩

/-- A path with one label is one edge from state 0. -/
theorem Path.singleton_cases {symbol : Symbol} {stack : List StateId}
    (path : automaton.Path [symbol] stack) :
    ∃ target, automaton.target? 0 symbol = some target ∧ stack = [target, 0] := by
  rw [← List.nil_append [symbol]] at path
  obtain ⟨target, top, below, rfl, bottom, leads⟩ := path.concat_cases
  generalize empty : ([] : List Symbol) = symbols at bottom
  generalize isStack : top :: below = stack at bottom
  cases bottom with
  | start =>
      cases isStack
      exact ⟨target, leads, rfl⟩
  | push => exact absurd empty.symm (List.concat_ne_nil _ _)

/-- **As many states as a suffix of the labels is long can be taken from a path.** -/
theorem Path.split {suffix : List Symbol} {stack : List StateId}
    (path : automaton.Path (symbols ++ suffix) stack) :
    ∃ top below, stack.drop suffix.length = top :: below ∧
      automaton.Path symbols (top :: below) := by
  induction suffix using List.reverseRecOn generalizing stack with
  | nil =>
      rw [List.append_nil] at path
      obtain ⟨top, below, rfl⟩ := path.exists_top
      exact ⟨top, below, rfl, path⟩
  | append_singleton suffix symbol ih =>
      rw [← List.append_assoc] at path
      obtain ⟨target, top, below, rfl, shorter, -⟩ := path.concat_cases
      obtain ⟨exposed, rest, dropped, isPath⟩ := ih shorter
      refine ⟨exposed, rest, ?_, isPath⟩
      rw [List.length_append, List.length_singleton, List.drop_succ_cons]
      exact dropped

end

/-! ## Paths of generated automata -/

variable {grammar : Grammar}

/-- All edges into a state have the same label. -/
theorem label_unique {first second target : StateId} {label other : Symbol}
    (leads : (generate grammar).target? first label = some target)
    (leadsToo : (generate grammar).target? second other = some target) : label = other := by
  obtain ⟨source, isSource, member⟩ := (target?_generate_iff first label target).1 leads
  obtain ⟨origin, isOrigin, memberToo⟩ := (target?_generate_iff second other target).1 leadsToo
  obtain ⟨state, isState, items⟩ := target_generate isSource member
  obtain ⟨again, isAgain, itemsToo⟩ := target_generate isOrigin memberToo
  rw [isState] at isAgain
  cases isAgain
  have isLabel : label ∈ source.items.labels grammar := by
    rw [← labels_generate isSource]
    exact List.mem_map.2 ⟨_, member, rfl⟩
  obtain ⟨item, found, behind⟩ := ItemSet.exists_behind_of_label isLabel
  have foundToo := (itemsToo item).1 ((items item).2 found)
  have before := ItemSet.behind_label found behind
  rw [ItemSet.behind_label foundToo behind] at before
  exact (Option.some.inj before).symm

/-- **A path of a generated automaton has no other labels.** -/
theorem Path.unique {symbols other : List Symbol} {stack : List StateId}
    (path : (generate grammar).Path symbols stack) (pathToo : (generate grammar).Path other stack) :
    other = symbols := by
  induction path generalizing other with
  | start =>
      cases pathToo with
      | start => rfl
  | push _ leads ih =>
      cases pathToo with
      | push below leadsToo => rw [ih below, label_unique leads leadsToo]

end ShiftReduce.Automaton
