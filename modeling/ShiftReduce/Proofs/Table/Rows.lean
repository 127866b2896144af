import ShiftReduce.Proofs.Automaton.Members
import ShiftReduce.Proofs.Table.Cells

/-!
# Rows of generated tables

The items of a state write its row one after the other. An incomplete item writes a shift, never
under the end of the input, and always along the same edge under one terminal. A complete item
writes under the end of the input, and no two complete items of a state write the same action. So
while the row is written, the cell of the end of the input holds the action of the last complete
item so far, and each complete item but the first meets a conflict with the one before it
(`Written`). One more item keeps this (`Written.add`), and in the end it tells the whole row
(`written_ofState`).
-/

set_option autoImplicit false

namespace ShiftReduce

/-! ## Neighbours in a list -/

/-- Each element of a list but the last one, with the element that comes next. -/
def neighbours {α : Type} (list : List α) : List (α × α) :=
  list.zip list.tail

theorem neighbours_concat {α : Type} (list : List α) (last : α) :
    neighbours (list ++ [last]) =
      neighbours list ++ (list.getLast?.map fun previous => (previous, last)).toList := by
  induction list with
  | nil => rfl
  | cons first rest ih =>
      cases rest with
      | nil => rfl
      | cons second rest =>
          rw [List.getLast?_cons_cons]
          exact congrArg ((first, second) :: ·) ih

theorem length_neighbours {α : Type} (list : List α) :
    (neighbours list).length = list.length - 1 := by
  rw [neighbours, List.length_zip, List.length_tail]
  exact Nat.min_eq_right (Nat.sub_le _ _)

/-- In a list without repetition the second of two neighbours is not the first element. -/
theorem head?_ne_of_neighbours {α : Type} {list : List α} (distinct : list.Nodup) {pair : α × α}
    (member : pair ∈ neighbours list) : list.head? ≠ some pair.2 := by
  have inTail : pair.2 ∈ list.tail := (List.of_mem_zip member).2
  cases list with
  | nil => simp
  | cons first rest =>
      intro isFirst
      cases isFirst
      exact (List.nodup_cons.1 distinct).1 inTail

/-! ## Complete items -/

/-- What a complete item tells a parser to do: to reduce by its production, or to accept. -/
def Item.completion (item : Item) : Action :=
  match item.production with
  | .accept => .accept
  | .stored index => .reduce (.stored index)

theorem Item.production_eq_of_completion_eq {first second : Item}
    (same : first.completion = second.completion) : first.production = second.production := by
  unfold Item.completion at same
  cases isFirst : first.production <;> cases isSecond : second.production <;>
    simp_all

theorem Item.production_eq_accept_of_completion {item : Item}
    (accepts : item.completion = .accept) : item.production = .accept := by
  unfold Item.completion at accepts
  split at accepts
  · assumption
  · cases accepts

/-- The complete items of a state, in order. -/
def State.completeItems (grammar : Grammar) (state : State) : List Item :=
  state.items.items.filter (Item.isComplete grammar)

theorem State.mem_completeItems {grammar : Grammar} {state : State} {item : Item} :
    item ∈ state.completeItems grammar ↔ item ∈ state.items ∧ item.isComplete grammar = true := by
  rw [completeItems, List.mem_filter, ItemSet.mem_iff]

/-! ## Writing the row of a state -/

/-- The conflict in which the action of a complete item is overwritten by that of a later one. -/
def Conflict.between (id : StateId) (pair : Item × Item) : Conflict :=
  ⟨id, .endOfInput, pair.1.completion, pair.2.completion⟩

/-- Complete items shift nothing. -/
theorem Conflict.kind_between_ne (id : StateId) (pair : Item × Item) :
    (Conflict.between id pair).kind ≠ .shiftReduce := by
  unfold Conflict.between Conflict.kind Item.completion
  cases pair.1.production <;> cases pair.2.production <;> exact ConflictKind.noConfusion

namespace ActionRow

variable {grammar : Grammar} {id : StateId} {state : State} {item : Item}

/-- What the items of a state write, one after the other. -/
def ofItems (grammar : Grammar) (state : State) (id : StateId) (items : List Item) : ActionRow :=
  (items.filterMap (written? grammar state)).foldl (write id) {}

/-- A complete item writes its action under the end of the input. -/
theorem written?_of_complete (wellFormed : grammar.WellFormed)
    (isState : (Automaton.generate grammar).states[id]? = some state) (member : item ∈ state.items)
    (complete : item.isComplete grammar = true) :
    written? grammar state item = some (.endOfInput, item.completion) := by
  have nothing := (Item.isComplete_iff grammar item).1 complete
  obtain ⟨origin, isEnd⟩ := Automaton.known_of_mem wellFormed isState member
  rw [written?_eq_some_iff, Item.completion]
  rcases origin with accepting | isCanonical
  · rw [accepting]
    exact .inr (.inl ⟨nothing, rfl, rfl, rfl⟩)
  · obtain ⟨stored, fixed⟩ := Grammar.mem_canonicalIds.1 isCanonical
    obtain ⟨index, isIndex, -⟩ := Grammar.mem_productionIds.1 stored
    rw [fixed, isIndex]
    exact .inr (.inr ⟨nothing, ProductionId.noConfusion, isEnd.symm, rfl⟩)

/-- What is written so far when some items of a state have written into its row. -/
structure Written (grammar : Grammar) (state : State) (id : StateId) (items : List Item)
    (row : ActionRow) : Prop where
  /-- The other cells hold the shifts over the terminals that the items have next. -/
  shifts : ∀ terminal, terminal ≠ .endOfInput → ∀ action,
    row.cells.lookup terminal = some action ↔
      (∃ item ∈ items, item.nextSymbol? grammar = some (.terminal terminal)) ∧
        ∃ target, state.target? (.terminal terminal) = some target ∧ action = .shift target
  /-- The cell of the end of the input holds the action of the last complete item. -/
  last : row.cells.lookup .endOfInput =
    (items.filter (Item.isComplete grammar)).getLast?.map Item.completion
  /-- Neighbours among the complete items are in conflict. -/
  conflicts : row.conflicts =
    (neighbours (items.filter (Item.isComplete grammar))).map (Conflict.between id)

theorem written_nil : Written grammar state id [] {} where
  shifts := by simp
  last := rfl
  conflicts := rfl

section Written

variable {items : List Item} {row : ActionRow}

/-- An item that has a nonterminal next writes nothing. -/
theorem Written.wait (written : Written grammar state id items row) {nonterminal : Nonterminal}
    (next : item.nextSymbol? grammar = some (.nonterminal nonterminal)) :
    Written grammar state id (items ++ [item]) row := by
  have incomplete : ¬item.isComplete grammar = true := by
    simp [Item.isComplete_iff, next]
  constructor
  case shifts =>
    intro terminal proper action
    simp [written.shifts terminal proper action, next, or_and_right, exists_or]
  case last => simpa [incomplete] using written.last
  case conflicts => simpa [incomplete] using written.conflicts

/-- A shift is written where nothing or the same shift stands. -/
theorem Written.shift (written : Written grammar state id items row) {terminal : Terminal}
    (proper : terminal ≠ .endOfInput) {target : StateId}
    (next : item.nextSymbol? grammar = some (.terminal terminal))
    (leads : state.target? (.terminal terminal) = some target) :
    Written grammar state id (items ++ [item]) (write id row (terminal, .shift target)) := by
  have incomplete : ¬item.isComplete grammar = true := by
    simp [Item.isComplete_iff, next]
  have agrees : ∀ earlier, row.cells.lookup terminal = some earlier → earlier = .shift target := by
    intro earlier isEarlier
    obtain ⟨-, other, leadsToo, rfl⟩ := (written.shifts terminal proper earlier).1 isEarlier
    rw [leads] at leadsToo
    cases leadsToo
    rfl
  constructor
  case shifts =>
    intro other otherProper action
    rw [lookup_write]
    by_cases here : other = terminal
    · subst here
      simp [next, leads, eq_comm]
    · simp [here, written.shifts other otherProper action, next, Ne.symm here, or_and_right,
        exists_or]
  case last =>
    rw [lookup_write, if_neg (Ne.symm proper)]
    simpa [incomplete] using written.last
  case conflicts =>
    rw [conflicts_write_of_agrees agrees]
    simpa [incomplete] using written.conflicts

/-- The action of a complete item is in conflict with that of the complete item before it. -/
theorem Written.complete (written : Written grammar state id items row)
    (complete : item.isComplete grammar = true)
    (differs : ∀ other ∈ items, other.isComplete grammar = true →
      other.completion ≠ item.completion) :
    Written grammar state id (items ++ [item])
      (write id row (.endOfInput, item.completion)) := by
  have nothing := (Item.isComplete_iff grammar item).1 complete
  have filtered : (items ++ [item]).filter (Item.isComplete grammar) =
      items.filter (Item.isComplete grammar) ++ [item] := by
    simp [complete]
  constructor
  case shifts =>
    intro terminal proper action
    rw [lookup_write, if_neg proper, written.shifts terminal proper action]
    simp [nothing, or_and_right, exists_or]
  case last =>
    rw [lookup_write, if_pos rfl, filtered, List.getLast?_concat]
    rfl
  case conflicts =>
    rw [filtered, neighbours_concat, List.map_append, ← written.conflicts]
    have cell := written.last
    cases isLast : (items.filter (Item.isComplete grammar)).getLast? with
    | none =>
        rw [isLast, Option.map_none] at cell
        rw [conflicts_write_of_agrees (by simp [cell])]
        simp
    | some previous =>
        rw [isLast, Option.map_some] at cell
        obtain ⟨isPrevious, previousComplete⟩ :=
          List.mem_filter.1 (List.mem_of_getLast? isLast)
        rw [conflicts_write_of_differs cell (differs previous isPrevious previousComplete)]
        rfl

end Written

/-- **One more item of the state keeps what is known about its row.** -/
theorem Written.add (wellFormed : grammar.WellFormed)
    (isState : (Automaton.generate grammar).states[id]? = some state) {items : List Item}
    (written : Written grammar state id items (ofItems grammar state id items))
    (member : item ∈ state.items) (known : ∀ other ∈ items, other ∈ state.items)
    (isNew : item ∉ items) :
    Written grammar state id (items ++ [item]) (ofItems grammar state id (items ++ [item])) := by
  have added : ∀ entry, written? grammar state item = some entry →
      ofItems grammar state id (items ++ [item]) =
        write id (ofItems grammar state id items) entry := by
    intro entry isEntry
    simp [ofItems, isEntry]
  cases next : item.nextSymbol? grammar with
  | none =>
      have complete := (Item.isComplete_iff grammar item).2 next
      rw [added _ (written?_of_complete wellFormed isState member complete)]
      refine written.complete complete fun other isOther otherComplete same => isNew ?_
      rwa [Automaton.eq_of_complete isState member complete (known other isOther) otherComplete
        (Item.production_eq_of_completion_eq same).symm]
  | some symbol =>
      cases symbol with
      | nonterminal nonterminal =>
          have unchanged : ofItems grammar state id (items ++ [item]) =
              ofItems grammar state id items := by
            simp [ofItems, written?, next]
          rw [unchanged]
          exact written.wait next
      | terminal terminal =>
          have proper := (Automaton.mentionable_of_next wellFormed isState member next).2
          obtain ⟨target, leads⟩ :=
            (Automaton.exists_target?_generate_iff isState (.terminal terminal)).2
              ⟨item, member, next⟩
          rw [Automaton.target?, isState] at leads
          rw [added _ (written?_eq_some_iff.2 (.inl ⟨next, target, leads, rfl⟩))]
          exact written.shift proper next leads

/-- **When all items of a state have written, its row is known.** -/
theorem written_ofState (wellFormed : grammar.WellFormed)
    (isState : (Automaton.generate grammar).states[id]? = some state) :
    Written grammar state id state.items.items (ofState grammar state id) := by
  have general : ∀ items : List Item, (∀ item ∈ items, item ∈ state.items) → items.Nodup →
      Written grammar state id items (ofItems grammar state id items) := by
    intro items
    induction items using List.reverseRecOn with
    | nil => exact fun _ _ => written_nil
    | append_singleton items item ih =>
        intro known distinct
        obtain ⟨earlierDistinct, -, apart⟩ := List.nodup_append.1 distinct
        have earlierKnown : ∀ other ∈ items, other ∈ state.items := fun other isOther =>
          known other (List.mem_append_left _ isOther)
        have isNew : item ∉ items := fun old =>
          apart item old item (List.mem_singleton.2 rfl) rfl
        exact (ih earlierKnown earlierDistinct).add wellFormed isState
          (known item (List.mem_append_right _ (List.mem_singleton.2 rfl))) earlierKnown isNew
  exact general state.items.items (fun item member => member) state.items.nodup

end ActionRow

end ShiftReduce
