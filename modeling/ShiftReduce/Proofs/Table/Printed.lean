import ShiftReduce.Proofs.Grammar.Names
import ShiftReduce.Proofs.Table.Contents
import ShiftReduce.Proofs.Text.Grid
import ShiftReduce.Table.Render
import Std.Data.String.ToNat

/-!
# Tables that are read from their text

The grid of a table shows the table (`Shows`): behind a heading line with the names of the columns
it has a line for each state, whose words are the number of the state and a text for each column,
and the words of all lines stand in the same places. The text of a cell is read back: a dash is an
empty cell, and the short form of an action tells the action, as long as it reduces by a stored
production (`Action.read?_brief`).

The texts of a grid have to be free of blanks for this. The short forms are, and so are the names of
the columns, since the names in rules are checked when a grammar is defined
(`Grammar.unbroken_columns`). So the tables of every grammar can be read from their text
(`Table.isReadFrom_render`).
-/

set_option autoImplicit false

namespace ShiftReduce

/-! ## Cells -/

/-- The action that a short form stands for. -/
def Action.read? (text : String) : Option Action :=
  match text.toList with
  | ['a', 'c', 'c'] => some .accept
  | 's' :: digits => (String.ofList digits).toNat?.map .shift
  | 'r' :: digits => (String.ofList digits).toNat?.map fun index => .reduce (.stored index)
  | _ => none

theorem toNat?_toString (number : Nat) : (toString number).toNat? = some number := by
  rw [Nat.toString_eq_repr, Nat.toNat?_repr]

theorem toNat?_emptyCell : Table.emptyCell.toNat? = none := by
  refine String.toNat?_eq_none_iff.2 (Bool.eq_false_iff.2 fun isNat => ?_)
  obtain ⟨-, digits, -⟩ := String.isNat_iff.1 isNat
  exact absurd (digits '-' (by decide)) (by decide)

/-- **The short form of an action is read back**, unless it reduces by the accepting production. -/
theorem Action.read?_brief {action : Action} (proper : action ≠ .reduce .accept) :
    Action.read? action.brief = some action := by
  have isNumber : ∀ number : Nat, (String.ofList (toString number).toList).toNat? = some number :=
    fun number => by rw [String.ofList_toList, toNat?_toString]
  cases action with
  | shift target =>
      rw [Action.read?, Action.brief, String.toList_append]
      exact congrArg (Option.map Action.shift) (isNumber target)
  | reduce production =>
      cases production with
      | stored index =>
          rw [Action.read?, Action.brief, String.toList_append]
          exact congrArg (Option.map fun index => Action.reduce (.stored index)) (isNumber index)
      | accept => exact absurd rfl proper
  | accept => rfl

theorem Action.unbroken_brief (action : Action) : Text.Unbroken action.brief := by
  cases action with
  | shift target => exact Text.Unbroken.append (by decide) (Text.unbroken_toString target)
  | reduce production =>
      exact Text.Unbroken.append (by decide) (Text.unbroken_toString production.number)
  | accept => decide

namespace Table

section Cells

variable {α γ : Type} {read? : String → Option α} {render : α → String} {content : Option α}

/-- The content of a cell with a text. -/
def readCell? (read? : String → Option α) (text : String) : Option (Option α) :=
  if text = emptyCell then some none else (read? text).map some

theorem readCell?_cell (dash : read? emptyCell = none)
    (reads : ∀ value, content = some value → read? (render value) = some value) :
    readCell? read? (cell render content) = some content := by
  cases content with
  | none => rfl
  | some value =>
      have isValue := reads value rfl
      have apart : render value ≠ emptyCell := fun same => by
        rw [same, dash] at isValue
        cases isValue
      rw [cell, Option.elim_some, readCell?, if_neg apart, isValue, Option.map_some]

theorem unbroken_cell (unbroken : ∀ value, Text.Unbroken (render value)) :
    Text.Unbroken (cell render content) := by
  cases content with
  | none =>
      have dash : Text.Unbroken emptyCell := by decide
      exact dash
  | some value => exact unbroken value

/-! ## Sections -/

/-- Lines that show what a table holds for the numbers below a bound and for some columns: a heading
line with the names of the columns, and a line for each number, whose words are the number and a
text for each column that can be read back. The words of all lines stand in the same places. -/
structure Shows (read? : String → Option α) (columns : List γ) (name : γ → String) (size : Nat)
    (entry : Nat → γ → Option α) (lines : List String) : Prop where
  length : lines.length = size + 1
  heading : ∀ line, lines[0]? = some line →
    (Text.words line).map Prod.snd = "state" :: columns.map name
  row : ∀ index line, lines[index + 1]? = some line → ∃ cells,
    (Text.words line).map Prod.snd = toString index :: cells ∧
      cells.map (readCell? read?) = columns.map fun column => some (entry index column)
  fields : ∀ line ∈ lines, (Text.words line).length = columns.length + 1
  aligned : ∀ first ∈ lines, ∀ second ∈ lines,
    (Text.words first).map Prod.fst = (Text.words second).map Prod.fst

/-- The grid of a table. -/
def gridOf (render : α → String) (columns : List γ) (name : γ → String) (size : Nat)
    (entry : Nat → γ → Option α) : Text.Grid where
  corner := stateHeading
  labels := columns.map name
  rows := (List.range size).map fun index =>
    columns.map fun column => cell render (entry index column)

variable {columns : List γ} {name : γ → String} {size : Nat} {entry : Nat → γ → Option α}

theorem regular_gridOf (names : ∀ column ∈ columns, Text.Unbroken (name column))
    (unbroken : ∀ value, Text.Unbroken (render value)) :
    (gridOf render columns name size entry).Regular := by
  constructor
  case corner =>
    have corner : Text.Unbroken stateHeading := by decide
    exact corner
  case labels => exact List.forall_mem_map.2 names
  case cells =>
    refine List.forall_mem_map.2 fun index _ => List.forall_mem_map.2 fun column _ => ?_
    exact unbroken_cell unbroken
  case sameLength =>
    refine List.forall_mem_map.2 fun index _ => ?_
    simp [gridOf]

/-- **The grid of a table shows it.** -/
theorem shows_gridOf (names : ∀ column ∈ columns, Text.Unbroken (name column))
    (unbroken : ∀ value, Text.Unbroken (render value)) (dash : read? emptyCell = none)
    (reads : ∀ index, ∀ column ∈ columns, ∀ value, entry index column = some value →
      read? (render value) = some value) :
    Shows read? columns name size entry (gridOf render columns name size entry).lines := by
  have regular := @regular_gridOf _ _ render columns name size entry names unbroken
  constructor
  case length => simp [gridOf, Text.Grid.lines]
  case heading =>
    intro line found
    obtain ⟨texts, isTexts, isWords, -⟩ := regular.words_of_getElem? found
    cases isTexts
    exact isWords
  case row =>
    intro index line found
    obtain ⟨texts, isTexts, isWords, -⟩ := regular.words_of_getElem? found
    have isRow : texts =
        toString index :: columns.map fun column => cell render (entry index column) := by
      simp only [Text.Grid.contents, gridOf, List.getElem?_cons_succ, List.getElem?_map,
        List.getElem?_zipIdx, Option.map_map] at isTexts
      obtain ⟨same, isSame, rfl⟩ := Option.map_eq_some_iff.1 isTexts
      obtain ⟨inside, rfl⟩ := List.getElem?_eq_some_iff.1 isSame
      simp
    refine ⟨_, isWords.trans isRow, ?_⟩
    rw [List.map_map]
    exact List.map_congr_left fun column member => readCell?_cell dash (reads index column member)
  case fields =>
    intro line member
    rw [← List.length_map Prod.fst, regular.map_fst_words member, regular.length_places]
    simp [gridOf]
  case aligned =>
    intro first isFirst second isSecond
    rw [regular.map_fst_words isFirst, regular.map_fst_words isSecond]

end Cells

end Table

/-! ## Columns -/

/-- Leaving out the first symbol of a kind leaves the others in order. -/
theorem filter_ne_first {α : Type} [BEq α] [LawfulBEq α] {make : Nat → α}
    (others : ∀ index, make (index + 1) ≠ make 0) (count : Nat) :
    ((List.range count).map make).filter (· != make 0) = ((List.range count).map make).drop 1 := by
  cases count with
  | zero => rfl
  | succ count =>
      rw [List.range_succ_eq_map, List.map_cons, List.drop_one, List.tail_cons,
        List.filter_cons_of_neg (by simp), List.filter_eq_self, List.map_map]
      refine List.forall_mem_map.2 fun index _ => ?_
      exact bne_iff_ne.2 (others index)

namespace Grammar

theorem properTerminals_eq (grammar : Grammar) :
    grammar.terminalList.filter (· != .endOfInput) = grammar.terminalList.drop 1 :=
  @filter_ne_first Terminal _ _ .mk (by simp) grammar.terminals.size

theorem properNonterminals_eq (grammar : Grammar) :
    grammar.properNonterminals = grammar.nonterminalList.drop 1 :=
  @filter_ne_first Nonterminal _ _ .mk (by simp) grammar.nonterminals.size

/-- The end of the input has the last column, and the other terminals are in order. -/
theorem columnTerminals_eq (grammar : Grammar) :
    grammar.columnTerminals = grammar.terminalList.drop 1 ++ [.endOfInput] := by
  rw [columnTerminals, properTerminals_eq]

variable {requests : List Request} {grammar : Grammar}

/-- **No name of a column has blanks**, since the names of the rules were checked. -/
theorem unbroken_columns (defined : (Definition.ofRequests requests).build = .ok grammar) :
    (∀ terminal ∈ grammar.terminalList.drop 1 ++ [.endOfInput],
      Text.Unbroken (grammar.terminalName terminal)) ∧
    ∀ nonterminal ∈ grammar.nonterminalList.drop 1,
      Text.Unbroken (grammar.nonterminalName nonterminal) := by
  have unbroken : ∀ symbol, grammar.HasSymbol symbol → Text.Unbroken (grammar.symbolName symbol) :=
    fun _ => Definition.unbroken_symbolName defined
  constructor
  · refine List.forall_mem_append.2 ⟨fun terminal member => ?_, List.forall_mem_singleton.2 ?_⟩
    · exact unbroken (.terminal terminal) (List.mem_of_mem_drop member)
    · exact unbroken (.terminal .endOfInput) (Definition.hasSymbol_endOfInput defined)
  · intro nonterminal member
    exact unbroken (.nonterminal nonterminal) (List.mem_of_mem_drop member)

end Grammar

/-! ## Both tables -/

namespace Table

theorem actionGrid_eq (grammar : Grammar) (table : Table) :
    table.actionGrid grammar =
      gridOf Action.brief (grammar.terminalList.drop 1 ++ [.endOfInput]) grammar.terminalName
        table.size table.action? := by
  rw [actionGrid, toList_eq_map_getD table.actions [], List.map_map, Grammar.columnTerminals_eq]
  rfl

theorem gotoGrid_eq (grammar : Grammar) (table : Table) :
    table.gotoGrid grammar =
      gridOf toString (grammar.nonterminalList.drop 1) grammar.nonterminalName
        table.gotos.size table.goto? := by
  rw [gotoGrid, toList_eq_map_getD table.gotos [], List.map_map, Grammar.properNonterminals_eq]
  rfl

theorem regular_actionGrid {grammar : Grammar} (table : Table)
    (terminals : ∀ terminal ∈ grammar.terminalList.drop 1 ++ [.endOfInput],
      Text.Unbroken (grammar.terminalName terminal)) : (table.actionGrid grammar).Regular := by
  rw [actionGrid_eq]
  exact regular_gridOf terminals Action.unbroken_brief

theorem regular_gotoGrid {grammar : Grammar} (table : Table)
    (nonterminals : ∀ nonterminal ∈ grammar.nonterminalList.drop 1,
      Text.Unbroken (grammar.nonterminalName nonterminal)) : (table.gotoGrid grammar).Regular := by
  rw [gotoGrid_eq]
  exact regular_gridOf nonterminals Text.unbroken_toString

/-- A table can be read from a text: behind its title each section has a heading line and a line for
each state, with a column for each terminal, the end of the input last, or for each nonterminal but
the augmented one. -/
def IsReadFrom (grammar : Grammar) (table : Table) (text : String) : Prop :=
  ∃ actionLines gotoLines,
    Text.linesOf text = ["## action"] ++ actionLines ++ ["", "## goto"] ++ gotoLines ∧
    Shows Action.read? (grammar.terminalList.drop 1 ++ [.endOfInput]) grammar.terminalName
      table.size table.action? actionLines ∧
    Shows String.toNat? (grammar.nonterminalList.drop 1) grammar.nonterminalName
      table.size table.goto? gotoLines

/-- Tables can be read from their text when no name of a column has blanks and every reduction is by
a stored production. -/
theorem isReadFrom_of_proper {grammar : Grammar} {table : Table}
    (terminals : ∀ terminal ∈ grammar.terminalList.drop 1 ++ [.endOfInput],
      Text.Unbroken (grammar.terminalName terminal))
    (nonterminals : ∀ nonterminal ∈ grammar.nonterminalList.drop 1,
      Text.Unbroken (grammar.nonterminalName nonterminal))
    (proper : ∀ state terminal, table.action? state terminal ≠ some (.reduce .accept))
    (sameSize : table.gotos.size = table.size) :
    table.IsReadFrom grammar (table.render grammar) := by
  refine ⟨(table.actionGrid grammar).lines, (table.gotoGrid grammar).lines, ?_, ?_, ?_⟩
  · refine Text.linesOf_unlines ?_
    simp only [List.forall_mem_append, List.forall_mem_cons]
    exact ⟨⟨⟨by decide, (regular_actionGrid table terminals).feed_notMem⟩, by decide, by decide,
      by simp⟩, (regular_gotoGrid table nonterminals).feed_notMem⟩
  · rw [actionGrid_eq]
    refine shows_gridOf terminals Action.unbroken_brief rfl
      fun state terminal _ action isAction => ?_
    exact Action.read?_brief fun reducing => proper state terminal (reducing ▸ isAction)
  · rw [gotoGrid_eq, sameSize]
    exact shows_gridOf nonterminals Text.unbroken_toString toNat?_emptyCell fun _ _ _ target _ =>
      toNat?_toString target

/-- **The tables of every grammar can be read from their text.** -/
theorem isReadFrom_render {requests : List Request} {grammar : Grammar}
    (defined : (Definition.ofRequests requests).build = .ok grammar) :
    (generate grammar (Automaton.generate grammar)).IsReadFrom grammar
      ((generate grammar (Automaton.generate grammar)).render grammar) := by
  obtain ⟨terminals, nonterminals⟩ := Grammar.unbroken_columns defined
  have wellFormed := Definition.wellFormed_of_build defined
  refine isReadFrom_of_proper terminals nonterminals (fun state terminal reducing => ?_) ?_
  · exact Grammar.accept_notMem_productionIds
      (Grammar.mem_canonicalIds.1 (reduce_generate wellFormed reducing)).1
  · simp [generate, size, Automaton.numbered]

/-- Sums, with names that are wider than their cells and take more than one byte for a character. -/
def sumRules : List Request :=
  [.addRule ⟨"Σ", ["Σ", "più", "número"]⟩, .addRule ⟨"Σ", ["número"]⟩]

/-- The grammar of sums. -/
def sums : Grammar where
  terminals := #["$", "più", "número"]
  nonterminals := #["Σ'", "Σ"]
  start := ⟨1⟩
  productions :=
    #[⟨⟨1⟩, [.nonterminal ⟨1⟩, .terminal ⟨1⟩, .terminal ⟨2⟩]⟩, ⟨⟨1⟩, [.terminal ⟨2⟩]⟩]
  firsts := #[0, 1]
  alternatives := #[#[], #[0, 1]]

theorem isReadFrom_render_sums :
    (Definition.ofRequests sumRules).build = .ok sums ∧
      (generate sums (Automaton.generate sums)).size = 5 ∧
      (generate sums (Automaton.generate sums)).IsReadFrom sums
        ((generate sums (Automaton.generate sums)).render sums) := by
  have defined : (Definition.ofRequests sumRules).build = .ok sums := by decide +kernel
  exact ⟨defined, by decide +kernel, isReadFrom_render defined⟩

end Table

end ShiftReduce
