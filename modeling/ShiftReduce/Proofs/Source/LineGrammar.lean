import ShiftReduce.Source.Line

/-!
# The line grammar

A line of a grammar file that holds any token is a declaration of the start symbol or a rule
(`Line.Says`), or it breaks the format in one of the ways of `Line.Breaks`. What is wrong with a
line is judged from its front: a right-hand side is refused for the first of its tokens that is no
symbol.

These are all the lines there are (`exists_said_or_fault`), so it is enough to know how each of them
is read (`Says.entry`, `Breaks.entry`).
-/

set_option autoImplicit false

namespace ShiftReduce

/-- The tokens of the line that gives a rule. -/
def Rule.tokens (rule : Rule) : List Token :=
  .symbol rule.left :: .arrow :: rule.right.map .symbol

theorem Rule.symbol_mem_tokens {rule : Rule} {name : String} :
    .symbol name ∈ rule.tokens ↔ name ∈ rule.names := by
  simp [tokens, names]

namespace Line

/-! ## Lines and what they say -/

/-- What a well-formed line says. -/
inductive Says : List Token → Entry → Prop
  | start (name : String) : Says [.start, .symbol name] (.start name)
  | rule {rule : Rule} : rule.right ≠ [] → Says rule.tokens (.rule rule)

/-- How a line breaks the format. -/
inductive Breaks : List Token → SyntaxFault → Prop
  | malformedStart {rest : List Token} : (∀ name, rest ≠ [.symbol name]) →
      Breaks (.start :: rest) .malformedStart
  | missingLeft (rest : List Token) : Breaks (.arrow :: rest) .missingLeft
  | emptyRight (left : String) : Breaks [.symbol left, .arrow] .emptyRight
  | unexpectedArrow (left : String) (names : List String) (rest : List Token) :
      Breaks (.symbol left :: .arrow :: (names.map .symbol ++ .arrow :: rest)) .unexpectedArrow
  | unexpectedStart (left : String) (names : List String) (rest : List Token) :
      Breaks (.symbol left :: .arrow :: (names.map .symbol ++ .start :: rest)) .unexpectedStart
  | missingArrow (left : String) {rest : List Token} : rest.head? ≠ some .arrow →
      Breaks (.symbol left :: rest) .missingArrow

variable {tokens : List Token}

/-! ## Right-hand sides -/

theorem mapM_symbolName (names : List String) :
    (names.map .symbol).mapM symbolName = .ok names := by
  induction names with
  | nil => rfl
  | cons name names ih =>
      rw [List.map_cons, List.mapM_cons, ih]
      rfl

/-- The first token that is no symbol decides. -/
theorem mapM_symbolName_append (names : List String) {token : Token} (rest : List Token)
    {fault : SyntaxFault} (refused : symbolName token = .error fault) :
    (names.map Token.symbol ++ token :: rest).mapM symbolName = .error fault := by
  induction names with
  | nil =>
      rw [List.map_nil, List.nil_append, List.mapM_cons, refused]
      rfl
  | cons name names ih =>
      rw [List.map_cons, List.cons_append, List.mapM_cons, ih]
      rfl

/-- Tokens are symbols up to the first one that is none. -/
theorem symbols_or_not (tokens : List Token) :
    (∃ names : List String, tokens = names.map .symbol) ∨
      ∃ (names : List String) (token : Token) (rest : List Token),
        tokens = names.map Token.symbol ++ token :: rest ∧ ∀ name, token ≠ .symbol name := by
  induction tokens with
  | nil => exact .inl ⟨[], rfl⟩
  | cons first rest ih =>
      by_cases isSymbol : ∃ name, first = .symbol name
      · obtain ⟨name, rfl⟩ := isSymbol
        rcases ih with ⟨names, rfl⟩ | ⟨names, token, rest, rfl, other⟩
        · exact .inl ⟨name :: names, rfl⟩
        · exact .inr ⟨name :: names, token, rest, rfl, other⟩
      · exact .inr ⟨[], first, rest, rfl, fun name same => isSymbol ⟨name, same⟩⟩

/-! ## Reading a line -/

theorem entry_symbol_arrow (left : String) {right : List Token} (ne_nil : right ≠ []) :
    entry (.symbol left :: .arrow :: right) =
      (right.mapM symbolName).map fun right => .rule ⟨left, right⟩ := by
  obtain ⟨first, rest, rfl⟩ := List.exists_cons_of_ne_nil ne_nil
  rw [entry]
  · cases (first :: rest).mapM symbolName <;> rfl
  · exact List.cons_ne_nil _ _

/-- A well-formed line is read as what it says. -/
theorem Says.entry {said : Entry} (isSaid : Says tokens said) : Line.entry tokens = .ok said := by
  cases isSaid with
  | start name => rfl
  | @rule rule ne_nil =>
      have someSymbol : rule.right.map Token.symbol ≠ [] := by
        rwa [Ne, List.map_eq_nil_iff]
      rw [Rule.tokens, entry_symbol_arrow _ someSymbol, mapM_symbolName]
      rfl

theorem Breaks.ne_nil {fault : SyntaxFault} (breaks : Breaks tokens fault) : tokens ≠ [] := by
  cases breaks <;> exact List.cons_ne_nil _ _

/-- A line that breaks the format is refused for it. -/
theorem Breaks.entry {fault : SyntaxFault} (breaks : Breaks tokens fault) :
    Line.entry tokens = .error fault := by
  cases breaks with
  | @malformedStart rest other =>
      rw [Line.entry]
      intro name isName
      exact other name isName
  | missingLeft rest => rfl
  | emptyRight left => rfl
  | unexpectedArrow left names rest =>
      rw [entry_symbol_arrow _ (by simp), mapM_symbolName_append names rest rfl]
      rfl
  | unexpectedStart left names rest =>
      rw [entry_symbol_arrow _ (by simp), mapM_symbolName_append names rest rfl]
      rfl
  | @missingArrow left rest noArrow =>
      cases rest with
      | nil => rfl
      | cons second rest =>
          cases second with
          | arrow => exact absurd rfl noArrow
          | _ => rfl

/-- A well-formed line does not break the format. -/
theorem Says.not_breaks {said : Entry} {fault : SyntaxFault} (isSaid : Says tokens said) :
    ¬Breaks tokens fault := fun breaks => by
  have both := isSaid.entry.symm.trans breaks.entry
  cases both

/-- **A line between two line ends is well-formed or breaks the format.** -/
theorem exists_said_or_fault (ne_nil : tokens ≠ []) (inLine : .newline ∉ tokens) :
    (∃ said, Says tokens said) ∨ ∃ fault, Breaks tokens fault := by
  obtain ⟨first, rest, rfl⟩ := List.exists_cons_of_ne_nil ne_nil
  cases first with
  | newline => exact absurd List.mem_cons_self inLine
  | arrow => exact .inr ⟨_, .missingLeft rest⟩
  | start =>
      by_cases isStart : ∃ name, rest = [.symbol name]
      · obtain ⟨name, rfl⟩ := isStart
        exact .inl ⟨_, .start name⟩
      · exact .inr ⟨_, .malformedStart fun name same => isStart ⟨name, same⟩⟩
  | symbol left =>
      by_cases isArrow : rest.head? = some .arrow
      · obtain ⟨right, rfl⟩ := List.head?_eq_some_iff.1 isArrow
        rcases symbols_or_not right with ⟨names, rfl⟩ | ⟨names, token, behind, rfl, other⟩
        · by_cases empty : names = []
          · subst empty
            exact .inr ⟨_, .emptyRight left⟩
          · exact .inl ⟨_, @Says.rule ⟨left, names⟩ empty⟩
        · cases token with
          | arrow => exact .inr ⟨_, .unexpectedArrow left names behind⟩
          | start => exact .inr ⟨_, .unexpectedStart left names behind⟩
          | symbol name => exact absurd rfl (other name)
          | newline => simp at inLine
      · exact .inr ⟨_, .missingArrow left isArrow⟩

end Line

end ShiftReduce
