import ShiftReduce.Proofs.Automaton.Collection
import ShiftReduce.Table.Basic

/-!
# Cells of the tables

A write into a row is seen under its terminal and nowhere else (`lookup_write`). So a cell of the
action table holds what some item of the state writes there (`written_of_action?`), and when the
table has no conflict, it holds what every such item writes (`action?_of_written`).

A cell of the goto table tells where the edge over its nonterminal leads (`goto?_generate_iff`).
-/

set_option autoImplicit false

namespace ShiftReduce

/-! ## Writing a row -/

namespace ActionRow

/-- **What an item writes into the row of its state.** -/
theorem written?_eq_some_iff {grammar : Grammar} {state : State} {item : Item} {terminal : Terminal}
    {action : Action} :
    written? grammar state item = some (terminal, action) ↔
      (item.nextSymbol? grammar = some (.terminal terminal) ∧
        ∃ target, state.target? (.terminal terminal) = some target ∧ action = .shift target) ∨
      (item.nextSymbol? grammar = none ∧ item.production = .accept ∧
        terminal = .endOfInput ∧ action = .accept) ∨
      (item.nextSymbol? grammar = none ∧ item.production ≠ .accept ∧
        terminal = item.lookahead ∧ action = .reduce (grammar.canonical item.production)) := by
  unfold written?
  split
  · next complete =>
    split
    · next accepting => simp [complete, accepting, eq_comm]
    · next reducing => simp [complete, reducing, eq_comm]
  · next expected shifting =>
    simp only [shifting, Option.map_eq_some_iff, Prod.mk.injEq, Option.some.injEq,
      Symbol.terminal.injEq, reduceCtorEq, false_and, or_false]
    constructor
    · rintro ⟨target, leads, rfl, rfl⟩
      exact ⟨rfl, target, leads, rfl⟩
    · rintro ⟨rfl, target, leads, rfl⟩
      exact ⟨target, leads, rfl, rfl⟩
  · next nonterminal waiting => simp [waiting]

theorem lookup_replace (cells : List (Terminal × Action)) (terminal key : Terminal)
    (action : Action) :
    (replace cells terminal action).lookup key =
      if key = terminal then (cells.lookup key).map fun _ => action else cells.lookup key := by
  induction cells with
  | nil => simp [replace]
  | cons cell rest ih =>
      obtain ⟨place, earlier⟩ := cell
      change List.lookup key ((if place = terminal then (terminal, action) else (place, earlier)) ::
        replace rest terminal action) = _
      by_cases here : key = place
      · subst here
        by_cases replaced : key = terminal
        · simp [replaced]
        · simp [replaced]
      · have different : (key == place) = false := beq_eq_false_iff_ne.2 here
        by_cases replaced : place = terminal
        · subst replaced
          simp [List.lookup_cons, different, here, ih]
        · simp [List.lookup_cons, different, replaced, ih]

/-- A write is seen under its terminal and nowhere else. -/
theorem lookup_write (state : StateId) (row : ActionRow) (entry : Terminal × Action)
    (key : Terminal) :
    (write state row entry).cells.lookup key =
      if key = entry.1 then some entry.2 else row.cells.lookup key := by
  obtain ⟨terminal, action⟩ := entry
  by_cases here : key = terminal
  · subst here
    simp only [write, if_true]
    split
    · next unwritten => simp [List.lookup_append, unwritten]
    · next earlier written =>
      split
      · next same => rw [written, same]
      · simp [lookup_replace, written]
  · have different : (key == terminal) = false := beq_eq_false_iff_ne.2 here
    simp only [write, if_neg here]
    split
    · simp [List.lookup_append, List.lookup_cons, different]
    · split
      · rfl
      · rw [lookup_replace, if_neg here]

/-- A cell of a row holds what an entry wrote there, or what it held before. -/
theorem mem_of_lookup_foldl_write {state : StateId} {entries : List (Terminal × Action)}
    {row : ActionRow} {key : Terminal} {action : Action}
    (found : (entries.foldl (write state) row).cells.lookup key = some action) :
    (key, action) ∈ entries ∨ row.cells.lookup key = some action := by
  induction entries generalizing row with
  | nil => exact .inr found
  | cons entry rest ih =>
      rcases ih found with later | earlier
      · exact .inl (List.mem_cons_of_mem entry later)
      · rw [lookup_write] at earlier
        split at earlier
        · next here =>
          cases earlier
          exact .inl (here ▸ List.mem_cons_self)
        · exact .inr earlier

/-- A write of what the cell holds, or into an empty cell, meets no conflict. -/
theorem conflicts_write_of_agrees {state : StateId} {row : ActionRow} {entry : Terminal × Action}
    (agrees : ∀ earlier, row.cells.lookup entry.1 = some earlier → earlier = entry.2) :
    (write state row entry).conflicts = row.conflicts := by
  unfold write
  split
  · rfl
  · next earlier written => rw [if_pos (agrees earlier written)]

/-- A write over another action is a conflict. -/
theorem conflicts_write_of_differs {state : StateId} {row : ActionRow} {entry : Terminal × Action}
    {earlier : Action} (written : row.cells.lookup entry.1 = some earlier)
    (differs : earlier ≠ entry.2) :
    (write state row entry).conflicts = row.conflicts ++ [⟨state, entry.1, earlier, entry.2⟩] := by
  rw [write, written]
  exact congrArg ActionRow.conflicts (if_neg differs)

/-- A write that meets no conflict keeps all cells that were written. -/
theorem keeps_of_conflicts_write {state : StateId} {row : ActionRow} {entry : Terminal × Action}
    (free : (write state row entry).conflicts = []) :
    row.conflicts = [] ∧ ∀ key action, row.cells.lookup key = some action →
      (write state row entry).cells.lookup key = some action := by
  have agrees : ∀ earlier, row.cells.lookup entry.1 = some earlier → earlier = entry.2 := by
    intro earlier written
    refine Decidable.byContradiction fun differs => ?_
    rw [conflicts_write_of_differs written differs] at free
    exact List.concat_ne_nil _ _ free
  refine ⟨by rwa [conflicts_write_of_agrees agrees] at free, fun key action written => ?_⟩
  rw [lookup_write]
  split
  · next here =>
    rw [here] at written
    rw [agrees action written]
  · exact written

/-- When no conflict was met, every entry is found in the row. -/
theorem lookup_of_conflicts_foldl {state : StateId} {entries : List (Terminal × Action)}
    {row : ActionRow} (free : (entries.foldl (write state) row).conflicts = []) :
    row.conflicts = [] ∧
      (∀ key action, row.cells.lookup key = some action →
        (entries.foldl (write state) row).cells.lookup key = some action) ∧
      ∀ entry ∈ entries,
        (entries.foldl (write state) row).cells.lookup entry.1 = some entry.2 := by
  induction entries generalizing row with
  | nil => exact ⟨free, fun _ _ written => written, by simp⟩
  | cons entry rest ih =>
      obtain ⟨nextFree, keeps, found⟩ := ih free
      obtain ⟨rowFree, nextKeeps⟩ := keeps_of_conflicts_write nextFree
      refine ⟨rowFree,
        fun key action written => keeps key action (nextKeeps key action written), ?_⟩
      intro other member
      rcases List.mem_cons.1 member with rfl | later
      · exact keeps _ _ (by rw [lookup_write, if_pos rfl])
      · exact found other later

end ActionRow

/-! ## The generated tables -/

theorem lookup_filterMap {α β : Type} [BEq α] [LawfulBEq α] (value? : α → Option β) (keys : List α)
    (key : α) (result : β) :
    (keys.filterMap fun known => (value? known).map fun value => (known, value)).lookup key =
      some result ↔ key ∈ keys ∧ value? key = some result := by
  induction keys with
  | nil => simp
  | cons first rest ih =>
      rw [List.filterMap_cons, List.mem_cons]
      by_cases here : key = first
      · subst here
        cases valued : value? key with
        | none => simp [ih, valued]
        | some value => simp
      · have different : (key == first) = false := beq_eq_false_iff_ne.2 here
        cases value? first with
        | none => simp [ih, here]
        | some value => simp [List.lookup_cons, different, ih, here]

namespace Table

variable {grammar : Grammar} {automaton : Automaton} {id : StateId} {state : State}

theorem actionsOf_generate (found : automaton.states[id]? = some state) :
    (generate grammar automaton).actionsOf id = (ActionRow.ofState grammar state id).cells := by
  simp [actionsOf, generate, Automaton.numbered, Array.getD_eq_getD_getElem?, List.getElem?_zipIdx,
    found]

theorem actionsOf_generate_none (outside : automaton.states[id]? = none) :
    (generate grammar automaton).actionsOf id = [] := by
  simp [actionsOf, generate, Automaton.numbered, Array.getD_eq_getD_getElem?, List.getElem?_zipIdx,
    outside]

/-- **An action of the table was written by an item of the state.** -/
theorem written_of_action? {terminal : Terminal} {action : Action}
    (found : (generate grammar automaton).action? id terminal = some action) :
    ∃ state, automaton.states[id]? = some state ∧ ∃ item ∈ state.items,
      ActionRow.written? grammar state item = some (terminal, action) := by
  rw [action?] at found
  cases isState : automaton.states[id]? with
  | none =>
      rw [actionsOf_generate_none isState] at found
      cases found
  | some state =>
      rw [actionsOf_generate isState, ActionRow.ofState] at found
      rcases ActionRow.mem_of_lookup_foldl_write found with member | impossible
      · obtain ⟨item, isItem, written⟩ := List.mem_filterMap.1 member
        exact ⟨state, rfl, item, isItem, written⟩
      · cases impossible

/-- **In a table without conflicts every item of a state finds its action.** -/
theorem action?_of_written {item : Item} {terminal : Terminal} {action : Action}
    (free : (generate grammar automaton).conflicts = [])
    (found : automaton.states[id]? = some state) (member : item ∈ state.items)
    (written : ActionRow.written? grammar state item = some (terminal, action)) :
    (generate grammar automaton).action? id terminal = some action := by
  have isNumbered : (state, id) ∈ automaton.numbered := by
    apply List.mem_zipIdx_iff_getElem?.2
    rw [Array.getElem?_toList, found]
  have rowFree : (ActionRow.ofState grammar state id).conflicts = [] :=
    List.flatMap_eq_nil_iff.1 free _ (List.mem_map.2 ⟨(state, id), isNumbered, rfl⟩)
  rw [action?, actionsOf_generate found]
  exact (ActionRow.lookup_of_conflicts_foldl rowFree).2.2 (terminal, action)
    (List.mem_filterMap.2 ⟨item, member, written⟩)

/-- **The goto table tells where the edges over the nonterminals of the grammar lead.** -/
theorem goto?_generate_iff (nonterminal : Nonterminal) (target : StateId) :
    (generate grammar automaton).goto? id nonterminal = some target ↔
      nonterminal ∈ grammar.nonterminalList ∧
        automaton.target? id (.nonterminal nonterminal) = some target := by
  cases found : automaton.states[id]? with
  | none => simp [goto?, gotosOf, generate, Automaton.target?, Array.getD_eq_getD_getElem?, found]
  | some state =>
      have row : (generate grammar automaton).gotosOf id = gotoRow grammar state := by
        simp [gotosOf, generate, Array.getD_eq_getD_getElem?, found]
      rw [goto?, row, gotoRow, lookup_filterMap]
      simp [Automaton.target?, found]

end Table

end ShiftReduce
