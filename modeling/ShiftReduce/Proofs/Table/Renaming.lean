import ShiftReduce.Proofs.Automaton.Renaming
import ShiftReduce.Proofs.Automaton.Validity
import ShiftReduce.Table.Basic

/-!
# Renamed productions in tables

When a grammar embeds in a larger one, the table of the larger one is that of the embedded one with
its productions renamed: the same cells in the same order, the same gotos, and the same conflicts in
the same order (`generate_rename`).

A row is written by the renamed items in the same order. Since no two productions get one name, an
entry agrees with what its cell holds exactly when it did before (`write_rename`).
-/

set_option autoImplicit false

namespace ShiftReduce

/-! ## Renamed actions -/

/-- The same action by a production with another identifier. -/
def Action.rename (rename : ProductionId → ProductionId) : Action → Action
  | .shift target => .shift target
  | .reduce production => .reduce (rename production)
  | .accept => .accept

theorem Action.rename_injective {rename : ProductionId → ProductionId}
    (injective : Function.Injective rename) : Function.Injective (Action.rename rename) := by
  intro first second same
  cases first <;> cases second <;> simp_all [Action.rename, injective.eq_iff]

/-- A cell with its action renamed. -/
def Action.renameCell (rename : ProductionId → ProductionId) (cell : Terminal × Action) :
    Terminal × Action :=
  (cell.1, cell.2.rename rename)

/-- The same conflict between renamed actions. -/
def Conflict.rename (rename : ProductionId → ProductionId) (conflict : Conflict) : Conflict :=
  { conflict with
    discarded := conflict.discarded.rename rename
    kept := conflict.kept.rename rename }

/-- The same row with its productions renamed. -/
def ActionRow.rename (rename : ProductionId → ProductionId) (row : ActionRow) : ActionRow where
  cells := row.cells.map (Action.renameCell rename)
  conflicts := row.conflicts.map (Conflict.rename rename)

/-- The same table with its productions renamed. -/
def Table.rename (rename : ProductionId → ProductionId) (table : Table) : Table where
  actions := table.actions.map (·.map (Action.renameCell rename))
  gotos := table.gotos
  conflicts := table.conflicts.map (Conflict.rename rename)

/-- Without any renaming a table stays the same. -/
theorem Table.rename_id (table : Table) : table.rename id = table := by
  have action : Action.rename id = id := by
    funext action
    cases action <;> rfl
  have cell : Action.renameCell id = id := by
    funext cell
    rw [Action.renameCell, action]
    rfl
  have conflict : Conflict.rename id = id := by
    funext conflict
    rw [Conflict.rename, action]
    rfl
  rw [Table.rename, cell, conflict, List.map_id]
  simp

variable {rename : ProductionId → ProductionId} {small large : Grammar}

/-! ## Rows -/

namespace ActionRow

theorem lookup_renameCell (cells : List (Terminal × Action)) (terminal : Terminal) :
    (cells.map (Action.renameCell rename)).lookup terminal =
      (cells.lookup terminal).map (Action.rename rename) := by
  induction cells with
  | nil => rfl
  | cons cell rest ih =>
      obtain ⟨place, action⟩ := cell
      rw [List.map_cons, Action.renameCell, List.lookup_cons, List.lookup_cons, ih]
      cases terminal == place <;> rfl

theorem replace_rename (cells : List (Terminal × Action)) (terminal : Terminal) (action : Action) :
    replace (cells.map (Action.renameCell rename)) terminal (action.rename rename) =
      (replace cells terminal action).map (Action.renameCell rename) := by
  unfold replace
  rw [List.map_map, List.map_map]
  refine List.map_congr_left fun cell _ => ?_
  by_cases here : cell.1 = terminal
  · simp [Action.renameCell, here]
  · simp [Action.renameCell, here]

/-- **A renamed entry is written into a renamed row as the entry is written into the row.** -/
theorem write_rename (injective : Function.Injective rename) (id : StateId) (row : ActionRow)
    (entry : Terminal × Action) :
    write id (row.rename rename) (Action.renameCell rename entry) =
      (write id row entry).rename rename := by
  have agrees : ∀ earlier : Action, earlier.rename rename = entry.2.rename rename ↔
      earlier = entry.2 := fun earlier => (Action.rename_injective injective).eq_iff
  have cell := @lookup_renameCell rename row.cells entry.1
  unfold write
  cases written : row.cells.lookup entry.1 with
  | none =>
      rw [written] at cell
      simp [ActionRow.rename, Action.renameCell, cell]
  | some earlier =>
      rw [written] at cell
      by_cases same : earlier = entry.2
      · simp [ActionRow.rename, Action.renameCell, cell, same]
      · simp [ActionRow.rename, Action.renameCell, cell, same, agrees, replace_rename,
          Conflict.rename]

theorem foldl_write_rename (injective : Function.Injective rename) (id : StateId)
    (entries : List (Terminal × Action)) (row : ActionRow) :
    (entries.map (Action.renameCell rename)).foldl (write id) (row.rename rename) =
      (entries.foldl (write id) row).rename rename := by
  induction entries generalizing row with
  | nil => rfl
  | cons entry rest ih =>
      rw [List.map_cons, List.foldl_cons, List.foldl_cons, write_rename injective, ih]

/-- What a renamed item writes is what the item writes, renamed. -/
theorem written?_rename (embeds : small.Embeds rename large) {state other : State}
    (edges : other.edges = state.edges) {item : Item} (viable : item ∈ small.viableItems) :
    written? large other (item.rename rename) =
      (written? small state item).map (Action.renameCell rename) := by
  have usable := Grammar.usable_of_viable viable
  have accepts : (item.rename rename).production = .accept ↔ item.production = .accept := by
    rw [← @Function.Injective.eq_iff _ _ _ embeds.injective item.production, embeds.accept]
    rfl
  have canonical : large.canonical (item.rename rename).production =
      rename (small.canonical item.production) := embeds.canonical _ usable
  unfold written?
  rw [Item.nextSymbol?_rename embeds viable]
  split
  · by_cases accepting : item.production = .accept
    · rw [if_pos accepting, if_pos (accepts.2 accepting)]
      rfl
    · rw [if_neg accepting, if_neg (mt accepts.1 accepting), canonical]
      rfl
  · rw [State.target?, edges, Option.map_map]
    rfl
  · rfl

/-- The row of a state with renamed items is the renamed row. -/
theorem ofState_rename (embeds : small.Embeds rename large) {state other : State}
    (items : other.items.items = state.items.items.map (Item.rename rename))
    (edges : other.edges = state.edges) (viable : state.items.Viable small) (id : StateId) :
    ofState large other id = (ofState small state id).rename rename := by
  have entries : other.items.items.filterMap (written? large other) =
      (state.items.items.filterMap (written? small state)).map (Action.renameCell rename) := by
    rw [items, List.filterMap_map, List.map_filterMap]
    exact List.filterMap_congr fun item member =>
      written?_rename embeds edges (viable item member)
  rw [ofState, entries, ofState]
  exact foldl_write_rename embeds.injective id _ {}

end ActionRow

/-! ## Tables -/

namespace Table

/-- The states have no gotos for the additional nonterminals. -/
theorem gotoRow_rename (embeds : small.Embeds rename large) {id : StateId} {state other : State}
    (isState : (Automaton.generate small).states[id]? = some state)
    (edges : other.edges = state.edges) : gotoRow large other = gotoRow small state := by
  obtain ⟨more, nonterminals, unmentioned⟩ := embeds.nonterminals
  have nothing : more.filterMap (fun nonterminal =>
      (state.target? (.nonterminal nonterminal)).map fun target => (nonterminal, target)) = [] := by
    refine List.filterMap_eq_nil_iff.2 fun nonterminal isMore => ?_
    rw [Option.map_eq_none_iff]
    cases leads : state.target? (.nonterminal nonterminal) with
    | none => rfl
    | some target =>
        have isEdge : (Automaton.generate small).target? id (.nonterminal nonterminal) =
            some target := by
          rw [Automaton.target?, isState]
          exact leads
        obtain ⟨item, member, next⟩ :=
          (Automaton.exists_target?_generate_iff isState _).1 ⟨target, isEdge⟩
        have usable := Grammar.usable_of_viable (Automaton.viable_generate isState item member)
        exact absurd (List.mem_of_getElem? next) (unmentioned _ usable nonterminal isMore)
  unfold gotoRow
  simp only [State.target?, edges] at nothing ⊢
  rw [nonterminals, List.filterMap_append, nothing, List.append_nil]

/-- In the same place of both automata there are a state and its renamed counterpart. -/
theorem getElem?_states_cases (embeds : small.Embeds rename large) (id : StateId) :
    ((Automaton.generate small).states[id]? = none ∧
      (Automaton.generate large).states[id]? = none) ∨
    ∃ state other, (Automaton.generate small).states[id]? = some state ∧
      (Automaton.generate large).states[id]? = some other ∧
      other.items.items = state.items.items.map (Item.rename rename) ∧
      other.edges = state.edges := by
  have related := Automaton.renamed_generate embeds
  cases isState : (Automaton.generate small).states[id]? with
  | none =>
      rw [Array.getElem?_eq_none_iff] at isState ⊢
      exact .inl ⟨rfl, Nat.le_trans (Nat.le_of_eq related.size) isState⟩
  | some state =>
      obtain ⟨other, isOther, items, edges⟩ := related.states id state isState
      exact .inr ⟨state, other, rfl, isOther, items, edges⟩

theorem rows_rename (embeds : small.Embeds rename large) :
    ((Automaton.generate large).numbered.map fun (state, id) => ActionRow.ofState large state id) =
      ((Automaton.generate small).numbered.map fun (state, id) =>
        ActionRow.ofState small state id).map (ActionRow.rename rename) := by
  refine List.ext_getElem? fun id => ?_
  simp only [Automaton.numbered, List.getElem?_map, List.getElem?_zipIdx, Array.getElem?_toList]
  rcases getElem?_states_cases embeds id with
    ⟨isNone, otherNone⟩ | ⟨state, other, isState, isOther, items, edges⟩
  · rw [isNone, otherNone]
    rfl
  · rw [isState, isOther]
    exact congrArg some (ActionRow.ofState_rename embeds items edges
      (Automaton.viable_generate isState) _)

theorem gotos_rename (embeds : small.Embeds rename large) :
    (Automaton.generate large).states.map (gotoRow large) =
      (Automaton.generate small).states.map (gotoRow small) := by
  refine Array.ext_getElem? fun id => ?_
  rw [Array.getElem?_map, Array.getElem?_map]
  rcases getElem?_states_cases embeds id with
    ⟨isNone, otherNone⟩ | ⟨state, other, isState, isOther, -, edges⟩
  · rw [isNone, otherNone]
    rfl
  · rw [isState, isOther]
    exact congrArg some (gotoRow_rename embeds isState edges)

/-- **The table of the larger grammar is that of the embedded one, renamed.** -/
theorem generate_rename (embeds : small.Embeds rename large) :
    generate large (Automaton.generate large) =
      (generate small (Automaton.generate small)).rename rename := by
  have rows := rows_rename embeds
  unfold generate Table.rename
  simp only [rows, gotos_rename embeds, Table.mk.injEq]
  refine ⟨?_, trivial, ?_⟩
  · simp [ActionRow.rename, Function.comp_def]
  · rw [List.flatMap_map, List.map_flatMap]
    rfl

end Table

end ShiftReduce
