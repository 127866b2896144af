import ShiftReduce.Automaton.Render
import ShiftReduce.Proofs.Automaton.Members
import ShiftReduce.Proofs.Item.Printed
import ShiftReduce.Proofs.Text.Grid

/-!
# Automata that are printed

The items of the states are items of the grammar (`Automaton.within_of_mem`), so each line that
lists a state was written as words (`Automaton.worded_lines`), and no line breaks apart. The lines
are told by their words: titles begin with signs of their own, an item has an arrow in the place in
which an edge has another one, items are told by their words, and edges by the names of their
labels. So no two lines of a state are equal (`Automaton.nodup_lines`).

Together with the items that are told by their texts this says what the text of an automaton tells
(`tellsItems_of_build`).
-/

set_option autoImplicit false

namespace ShiftReduce

/-- What holds of the elements of all lists, and of those of a separator, holds of all elements when
the lists are joined. -/
theorem forall_mem_intercalate {α : Type} {motive : α → Prop} {separator : List α}
    {lists : List (List α)} (between : ∀ element ∈ separator, motive element)
    (inside : ∀ list ∈ lists, ∀ element ∈ list, motive element) :
    ∀ element ∈ separator.intercalate lists, motive element := by
  induction lists with
  | nil => simp
  | cons first rest ih =>
      obtain ⟨inFirst, inRest⟩ := List.forall_mem_cons.1 inside
      cases rest with
      | nil => simpa using inFirst
      | cons next rest =>
          rw [List.intercalate_cons_cons, List.forall_mem_append, List.forall_mem_append]
          exact ⟨⟨inFirst, between⟩, ih inRest⟩

theorem Text.unbroken_twoDigits (number : Nat) : Text.Unbroken (Text.twoDigits number) := by
  have zero : Text.Unbroken "0" := by decide
  rw [Text.twoDigits]
  split
  · exact zero.append (Text.unbroken_toString number)
  · exact Text.unbroken_toString number

variable {requests : List Request} {grammar : Grammar}

/-! ## Words of lines -/

/-- The words of the line that lists an edge. -/
def edgeWords (grammar : Grammar) (edge : Symbol × StateId) : List String :=
  ["-", grammar.symbolName edge.1, "=>", Text.twoDigits edge.2]

/-- The words of the lines that list a state. -/
def State.lineWords (grammar : Grammar) (id : StateId) (state : State) : List (List String) :=
  [["####", "State", Text.twoDigits id], ["##", "items"]] ++
    state.items.items.map (fun item => "-" :: item.words grammar) ++
    [["##", "transitions"]] ++
    state.edges.map (edgeWords grammar)

theorem worded_edgeLine {edge : Symbol × StateId}
    (unbroken : Text.Unbroken (grammar.symbolName edge.1)) :
    Text.Worded (edgeLine grammar edge) (edgeWords grammar edge) := by
  constructor
  case text => simp [edgeLine, edgeWords, Text.spaced, ← String.toList_inj]
  case unbroken =>
    have mark : Text.Unbroken "-" ∧ Text.Unbroken "=>" := by decide
    simp only [edgeWords, List.forall_mem_cons]
    exact ⟨mark.1, unbroken, mark.2, Text.unbroken_twoDigits _, by simp⟩

theorem worded_title (id : StateId) :
    Text.Worded ("#### State " ++ Text.twoDigits id) ["####", "State", Text.twoDigits id] := by
  constructor
  case text => simp [Text.spaced, ← String.toList_inj]
  case unbroken =>
    have title : Text.Unbroken "####" ∧ Text.Unbroken "State" := by decide
    simp only [List.forall_mem_cons]
    exact ⟨title.1, title.2, Text.unbroken_twoDigits _, by simp⟩

namespace Automaton

variable {id : StateId} {state : State} {item : Item}

/-- The items of the states are items of the grammar. -/
theorem within_of_mem {definition : Definition} (built : definition.build = .ok grammar)
    (isState : (generate grammar).states[id]? = some state) (member : item ∈ state.items) :
    item.Within grammar := by
  have wellFormed := Definition.wellFormed_of_build built
  obtain ⟨-, inside, isEnd⟩ :=
    (grammar.mem_viableItems_iff item).1 (viable_generate isState item member)
  constructor
  case production =>
    exact (production_of_mem wellFormed isState member).imp_right fun isCanonical =>
      (Grammar.mem_canonicalIds.1 isCanonical).1
  case dot => exact inside
  case lookahead =>
    rw [isEnd]
    exact Definition.hasSymbol_endOfInput built

/-- Edges have labels that rules can mention. -/
theorem mentionable_of_edge (wellFormed : grammar.WellFormed)
    (isState : (generate grammar).states[id]? = some state) {label : Symbol}
    (isLabel : label ∈ state.edges.map Prod.fst) : grammar.Mentionable label := by
  rw [labels_generate isState] at isLabel
  obtain ⟨item, member, next⟩ := (state.items.mem_labels_iff label).1 isLabel
  exact mentionable_of_next wellFormed isState member next

/-- **The lines of a state were written as words.** -/
theorem worded_lines (defined : (Definition.ofRequests requests).build = .ok grammar)
    (isState : (generate grammar).states[id]? = some state) :
    List.Forall₂ Text.Worded (state.lines grammar id) (state.lineWords grammar id) := by
  have wellFormed := Definition.wellFormed_of_build defined
  have title : List.Forall₂ Text.Worded ["#### State " ++ Text.twoDigits id, "## items"]
      [["####", "State", Text.twoDigits id], ["##", "items"]] :=
    .cons (worded_title id) (.cons ⟨by decide, by decide⟩ .nil)
  have transitions : List.Forall₂ Text.Worded ["## transitions"] [["##", "transitions"]] :=
    .cons ⟨by decide, by decide⟩ .nil
  have items : List.Forall₂ Text.Worded
      (state.items.items.map fun item => "- " ++ item.render grammar)
      (state.items.items.map fun item => "-" :: item.words grammar) := by
    rw [List.forall₂_map_left_iff, List.forall₂_map_right_iff, List.forall₂_same]
    intro item member
    have dash : Text.Unbroken "-" := by decide
    exact ((within_of_mem defined isState member).worded defined).cons dash
  have edges : List.Forall₂ Text.Worded (state.edges.map (edgeLine grammar))
      (state.edges.map (edgeWords grammar)) := by
    rw [List.forall₂_map_left_iff, List.forall₂_map_right_iff, List.forall₂_same]
    intro edge isEdge
    have mentionable := mentionable_of_edge wellFormed isState (List.mem_map_of_mem isEdge)
    exact worded_edgeLine (Definition.unbroken_symbolName defined mentionable.hasSymbol.1)
  exact List.rel_append (List.rel_append (List.rel_append title items) transitions) edges

/-! ## Lines that are told apart -/

/-- The items of a state are told by their words. -/
theorem nodup_itemWords (defined : (Definition.ofRequests requests).build = .ok grammar)
    (noDot : "." ∉ grammar.names)
    (unshared : grammar.Unshared)
    (isState : (generate grammar).states[id]? = some state) :
    (state.items.items.map fun item => "-" :: item.words grammar).Nodup := by
  have wellFormed := Definition.wellFormed_of_build defined
  refine List.Nodup.map_on ?_ state.items.nodup
  intro first isFirst second isSecond sameWords
  obtain ⟨sameDot, sameLookahead, -, sameCanonical⟩ :=
    Item.same_of_words_eq defined noDot unshared (within_of_mem defined isState isFirst)
      (within_of_mem defined isState isSecond) (List.cons.inj sameWords).2
  -- The productions of the items are canonical.
  have fixed : ∀ item ∈ state.items, grammar.canonical item.production = item.production := by
    intro item member
    rcases production_of_mem wellFormed isState member with accepting | isCanonical
    · rw [accepting]
      rfl
    · exact (Grammar.mem_canonicalIds.1 isCanonical).2
  rw [fixed first isFirst, fixed second isSecond] at sameCanonical
  cases first
  cases second
  cases sameDot
  cases sameLookahead
  cases sameCanonical
  rfl

/-- The edges of a state are told by the names of their labels. -/
theorem nodup_edgeWords (defined : (Definition.ofRequests requests).build = .ok grammar)
    (isState : (generate grammar).states[id]? = some state) :
    (state.edges.map (edgeWords grammar)).Nodup := by
  have wellFormed := Definition.wellFormed_of_build defined
  have distinct := List.pairwise_map.1 (labels_nodup_generate isState)
  refine List.pairwise_map.2 (distinct.imp_of_mem ?_)
  intro first second isFirst isSecond different sameWords
  have isFirst := (mentionable_of_edge wellFormed isState (List.mem_map_of_mem isFirst)).hasSymbol
  have isSecond := (mentionable_of_edge wellFormed isState (List.mem_map_of_mem isSecond)).hasSymbol
  have sameName : grammar.symbolName first.1 = grammar.symbolName second.1 :=
    (List.cons.inj (List.cons.inj sameWords).2).1
  exact different ((Definition.distinctNames_of_build defined).eq_of_symbolName_eq
    isFirst.1 isFirst.2 isSecond.1 isSecond.2 sameName)

/-- **No two lines of a state are equal**, if no symbol is called a dot, and no other nonterminal
like the augmented start symbol. -/
theorem nodup_lines (defined : (Definition.ofRequests requests).build = .ok grammar)
    (noDot : "." ∉ grammar.names)
    (unshared : grammar.Unshared)
    (isState : (generate grammar).states[id]? = some state) : (state.lines grammar id).Nodup := by
  refine Text.nodup_of_worded (worded_lines defined isState) ?_
  have items := nodup_itemWords defined noDot unshared isState
  have edges := nodup_edgeWords defined isState
  -- The third word of an item is its arrow, and that of an edge is another one.
  have apart : ∀ item ∈ state.items.items, ∀ edge ∈ state.edges,
      "-" :: item.words grammar ≠ edgeWords grammar edge := by
    intro item _ edge _ same
    simp [Item.words, edgeWords] at same
  simp only [State.lineWords, List.nodup_append, List.forall_mem_append, List.forall_mem_map]
  refine ⟨⟨⟨?_, items, ?_⟩, ?_, ?_⟩, edges, ⟨?_, apart⟩, ?_⟩
  all_goals simp [edgeWords]

end Automaton

/-! ## What the texts tell -/

/-- What the texts of items and the lines of states tell. -/
structure Grammar.TellsItems (grammar : Grammar) : Prop where
  /-- Items with the same text have the same dot, the same lookahead and equal productions. -/
  items : ∀ first second : Item, first.Within grammar → second.Within grammar →
    first.render grammar = second.render grammar →
      first.dot = second.dot ∧ first.lookahead = second.lookahead ∧
        grammar.production first.production = grammar.production second.production ∧
        grammar.canonical first.production = grammar.canonical second.production
  /-- The lines of the text of the automaton are those of its states, with empty lines between. -/
  lines : Text.linesOf ((Automaton.generate grammar).render grammar) =
    [""].intercalate ((Automaton.generate grammar).numbered.map fun (state, id) =>
      State.lines grammar id state)
  /-- No two lines of a state are equal. -/
  distinct : ∀ (id : StateId) (state : State),
    (Automaton.generate grammar).states[id]? = some state → (state.lines grammar id).Nodup

namespace Automaton

/-- No line of the text of an automaton breaks apart. -/
theorem linesOf_render (defined : (Definition.ofRequests requests).build = .ok grammar) :
    Text.linesOf ((generate grammar).render grammar) =
      [""].intercalate ((generate grammar).numbered.map fun (state, id) =>
        State.lines grammar id state) := by
  refine Text.linesOf_unlines (forall_mem_intercalate (by simp) ?_)
  refine List.forall_mem_map.2 fun entry isNumbered => ?_
  exact Text.feed_notMem_of_worded (worded_lines defined (mem_numbered_iff.1 isNumbered))

end Automaton

/-- **The texts of items tell the items, and the lines of a state are different**, if no symbol is
called a dot, and no other nonterminal like the augmented start symbol. -/
theorem tellsItems_of_build (defined : (Definition.ofRequests requests).build = .ok grammar)
    (noDot : "." ∉ grammar.names)
    (unshared : grammar.Unshared) :
    grammar.TellsItems where
  items := fun _ _ isFirst isSecond =>
    Item.same_of_render_eq defined noDot unshared isFirst isSecond
  lines := Automaton.linesOf_render defined
  distinct := fun _ _ => Automaton.nodup_lines defined noDot unshared

/-- Rules whose symbols are called like the signs in the texts of items. -/
def bracketRules : List Request :=
  [.addRule ⟨"[", ["->", ",", "[", "]"]⟩, .addRule ⟨"[", ["->"]⟩, .addRule ⟨"[", []⟩]

/-- The grammar of the rules of signs. -/
def bracketed : Grammar where
  terminals := #["$", "->", ",", "]"]
  nonterminals := #["['", "["]
  start := ⟨1⟩
  productions :=
    #[⟨⟨1⟩, [.terminal ⟨1⟩, .terminal ⟨2⟩, .nonterminal ⟨1⟩, .terminal ⟨3⟩]⟩,
      ⟨⟨1⟩, [.terminal ⟨1⟩]⟩, ⟨⟨1⟩, []⟩]
  firsts := #[0, 1, 2]
  alternatives := #[#[], #[0, 1, 2]]

theorem tellsItems_bracketed :
    (Definition.ofRequests bracketRules).build = .ok bracketed ∧ "." ∉ bracketed.names ∧
      bracketed.Unshared ∧ bracketed.TellsItems ∧
      Item.render bracketed ⟨.stored 0, 1, ⟨2⟩⟩ = "[[ -> -> . , [ ], ,]" := by
  have defined : (Definition.ofRequests bracketRules).build = .ok bracketed := by decide +kernel
  have noDot : "." ∉ bracketed.names := by decide
  have unshared : bracketed.Unshared := by decide
  exact ⟨defined, noDot, unshared, tellsItems_of_build defined noDot unshared, by decide +kernel⟩

/-- A symbol that is called a dot hides the place of the dot. -/
example : ∃ grammar, (Definition.ofRequests [.addRule ⟨"S", ["."]⟩]).build = .ok grammar ∧
    Item.render grammar ⟨.stored 0, 0, .endOfInput⟩ =
      Item.render grammar ⟨.stored 0, 1, .endOfInput⟩ :=
  ⟨⟨#["$", "."], #["S'", "S"], ⟨1⟩, #[⟨⟨1⟩, [.terminal ⟨1⟩]⟩], #[0], #[#[], #[0]]⟩,
    by decide +kernel, by decide +kernel⟩

/-- A nonterminal that is called like the augmented start symbol takes its place in the texts. -/
example : ∃ grammar, (Definition.ofRequests [.addRule ⟨"S", []⟩, .addRule ⟨"S'", ["S"]⟩]).build =
      .ok grammar ∧
    Item.render grammar ⟨.accept, 0, .endOfInput⟩ =
      Item.render grammar ⟨.stored 1, 0, .endOfInput⟩ :=
  ⟨⟨#["$"], #["S'", "S", "S'"], ⟨1⟩, #[⟨⟨1⟩, []⟩, ⟨⟨2⟩, [.nonterminal ⟨1⟩]⟩], #[0, 1],
    #[#[], #[0], #[1]]⟩, by decide +kernel, by decide +kernel⟩

end ShiftReduce
