import ShiftReduce.CommandLine
import ShiftReduce.Proofs.Automaton.Printed
import ShiftReduce.Proofs.Table.Printed

/-!
# Lines of a report

A report on a grammar is a text of lines, and the warnings of conflicts are its last lines. A line
that warns of a conflict begins with certain words (`warnsOfConflict`), and no other line of the
report begins with them: the first word is another one, or the second one, or there is no second
word (`Plain`). So everything in front of the warnings is a text of plain lines (`plainText_front`),
whatever the symbols are called, and the warnings can be read off the report
(`filter_linesOf_report`).
-/

set_option autoImplicit false

namespace ShiftReduce

/-! ## Names and digits -/

variable {requests : List Request} {grammar : Grammar}

/-- No name breaks a line apart. -/
theorem Definition.feed_notMem_symbolName (defined : (ofRequests requests).build = .ok grammar)
    (symbol : Symbol) : '\n' ∉ (grammar.symbolName symbol).toList := by
  have ofName : ∀ (names : Array String) (index : Nat),
      (∀ name ∈ names.toList, name ∈ grammar.names) →
      '\n' ∉ (names.getD index "").toList := by
    intro names index known
    rw [Array.getD_eq_getD_getElem?]
    cases found : names[index]? with
    | none => simp
    | some name =>
        have isName := known name (Array.mem_toList_iff.2 (Array.mem_of_getElem? found))
        exact (unbroken_names defined name isName).feed_notMem
  cases symbol with
  | terminal terminal => exact ofName _ _ fun name => List.mem_append_left _
  | nonterminal nonterminal => exact ofName _ _ fun name => List.mem_append_right _

theorem Text.exists_digit_of_mem_toDigits {number : Nat} {character : Char}
    (member : character ∈ Nat.toDigits 16 number) : ∃ digit < 16, character = digit.digitChar := by
  induction number using Nat.strongRecOn with
  | ind number ih =>
      rw [Nat.toDigits_eq_if (by decide)] at member
      split at member
      · next small => exact ⟨number, small, List.mem_singleton.1 member⟩
      · next large =>
        rcases List.mem_append.1 member with inFront | isLast
        · exact ih _ (Nat.div_lt_self (by omega) (by decide)) inFront
        · exact ⟨number % 16, Nat.mod_lt _ (by decide), List.mem_singleton.1 isLast⟩

/-- Quoted texts do not break a line apart, since line feeds are escaped. -/
theorem Text.feed_notMem_quoted (text : String) : '\n' ∉ (Text.quoted text).toList := by
  have inCode : ∀ character, '\n' ∉ Text.codePointEscape character := by
    intro character inEscape
    simp only [Text.codePointEscape, List.mem_append] at inEscape
    rcases inEscape with (inFront | isDigit) | inBack
    · exact absurd inFront (by decide)
    · obtain ⟨digit, small, isFeed⟩ := Text.exists_digit_of_mem_toDigits isDigit
      revert digit
      decide
    · exact absurd inBack (by decide)
  have escaped : ∀ character, '\n' ∉ Text.escape character := by
    intro character inEscape
    unfold Text.escape at inEscape
    split at inEscape
    case h_7 _ notFeed _ _ _ =>
      split at inEscape
      · exact inCode _ inEscape
      · exact notFeed (List.mem_singleton.1 inEscape).symm
    all_goals simp at inEscape
  rw [Text.quoted, String.toList_ofList]
  simp [escaped]

theorem Text.feed_notMem_quotedList (texts : List String) :
    '\n' ∉ (Text.quotedList texts).toList := by
  have inside : ∀ character ∈ (", ".intercalate (texts.map Text.quoted)).toList,
      character ≠ '\n' := by
    rw [String.toList_intercalate, List.map_map]
    refine forall_mem_intercalate (by simp)
      (List.forall_mem_map.2 fun text _ character inText => ?_)
    rintro rfl
    exact Text.feed_notMem_quoted text inText
  rw [Text.quotedList, String.toList_append, String.toList_append]
  simp only [List.mem_append, not_or]
  exact ⟨⟨by decide, fun inText => inside _ inText rfl⟩, by decide⟩

namespace CommandLine

/-! ## Warnings of conflicts -/

/-- Whether a line begins like a warning of a conflict. -/
def warnsOfConflict (line : String) : Bool :=
  [ConflictKind.shiftReduce, .reduceReduce, .acceptReduce].any fun kind =>
    ("[warning] " ++ kind.name ++ " conflict in state ").toList.isPrefixOf line.toList

theorem warnsOfConflict_iff {line : String} : warnsOfConflict line = true ↔ ∃ kind : ConflictKind,
    ("[warning] " ++ kind.name ++ " conflict in state ").toList <+: line.toList := by
  simp only [warnsOfConflict, List.any_eq_true, List.isPrefixOf_iff_prefix]
  constructor
  · rintro ⟨kind, -, begins⟩
    exact ⟨kind, begins⟩
  · rintro ⟨kind, begins⟩
    exact ⟨kind, by cases kind <;> simp, begins⟩

theorem unbroken_mark : Text.Unbroken "[warning]" := by decide

theorem exists_words_append {first second : String} (firstUnbroken : Text.Unbroken first)
    (secondUnbroken : Text.Unbroken second) (rest : String) : ∃ behind,
      (Text.words (first ++ " " ++ second ++ " " ++ rest)).map Prod.snd =
        first :: second :: behind := by
  have split : (first ++ " " ++ second ++ " " ++ rest).toList =
      first.toList ++ ' ' :: (second.toList ++ ' ' :: rest.toList) := by
    simp
  rw [Text.words, split, Text.map_snd_wordsFrom_append_space firstUnbroken,
    Text.map_snd_wordsFrom_append_space secondUnbroken]
  exact ⟨_, rfl⟩

/-- Words that begin like those of a warning of a conflict. -/
def WarningWords (names : List String) : Prop :=
  ∃ (kind : ConflictKind) (behind : List String), names = "[warning]" :: kind.name :: behind

theorem warningWords_of_warnsOfConflict {line : String} (warns : warnsOfConflict line = true) :
    WarningWords ((Text.words line).map Prod.snd) := by
  obtain ⟨kind, rest, isLine⟩ := warnsOfConflict_iff.1 warns
  have split : line =
      "[warning]" ++ " " ++ kind.name ++ " " ++ ("conflict in state " ++ String.ofList rest) := by
    rw [← String.toList_inj, ← isLine]
    simp
  have isKind : Text.Unbroken kind.name := by cases kind <;> decide
  obtain ⟨behind, isWords⟩ := exists_words_append unbroken_mark isKind
    ("conflict in state " ++ String.ofList rest)
  exact ⟨kind, behind, split ▸ isWords⟩

theorem feed_notMem_renderProduction
    (defined : (Definition.ofRequests requests).build = .ok grammar)
    (production : Production) : '\n' ∉ (grammar.renderProduction production).toList := by
  have left := Definition.feed_notMem_symbolName defined (.nonterminal production.left)
  have right : '\n' ∉ (Text.spaced (production.right.map grammar.symbolName)).toList :=
    Text.feed_notMem_spaced (List.forall_mem_map.2 fun symbol _ =>
      Definition.feed_notMem_symbolName defined symbol)
  rw [Grammar.renderProduction, String.toList_append, String.toList_append, List.mem_append,
    List.mem_append, not_or, not_or]
  exact ⟨⟨left, by decide⟩, right⟩

theorem feed_notMem_action (defined : (Definition.ofRequests requests).build = .ok grammar)
    (action : Action) : '\n' ∉ (action.render grammar).toList := by
  cases action with
  | shift target =>
      have number := (Text.unbroken_twoDigits target).feed_notMem
      simpa [Action.render] using number
  | reduce production =>
      have text := feed_notMem_renderProduction defined (grammar.production production)
      simpa [Action.render] using text
  | accept => simp [Action.render]

/-- **A warning of a conflict is one line that begins like one.** -/
theorem conflictWarning_line (defined : (Definition.ofRequests requests).build = .ok grammar)
    (conflict : Conflict) : '\n' ∉ ("[warning] " ++ conflict.render grammar).toList ∧
      warnsOfConflict ("[warning] " ++ conflict.render grammar) = true := by
  have kind : '\n' ∉ conflict.kind.name.toList := by cases conflict.kind <;> decide
  have state := (Text.unbroken_twoDigits conflict.state).feed_notMem
  have terminal := Definition.feed_notMem_symbolName defined (.terminal conflict.terminal)
  rw [Grammar.symbolName] at terminal
  have discarded := feed_notMem_action defined conflict.discarded
  have kept := feed_notMem_action defined conflict.kept
  constructor
  · simp [Conflict.render, kind, state, terminal, discarded, kept]
  · have split : "[warning] " ++ conflict.render grammar =
        ("[warning] " ++ conflict.kind.name ++ " conflict in state ") ++
          (Text.twoDigits conflict.state ++ " on `" ++ grammar.terminalName conflict.terminal ++
            "': " ++ conflict.discarded.render grammar ++ " discarded in favor of " ++
            conflict.kept.render grammar) := by
      simp only [Conflict.render, String.append_assoc]
    rw [split]
    exact warnsOfConflict_iff.2 ⟨conflict.kind, _, String.toList_append.symm⟩

/-! ## Plain lines -/

/-- A line that is no warning of a conflict. -/
structure Plain (line : String) : Prop where
  feed : '\n' ∉ line.toList
  silent : warnsOfConflict line = false

instance (line : String) : Decidable (Plain line) :=
  decidable_of_iff ('\n' ∉ line.toList ∧ warnsOfConflict line = false)
    ⟨fun plain => ⟨plain.1, plain.2⟩, fun plain => ⟨plain.feed, plain.silent⟩⟩

/-- A line is plain if its first words are not those of a warning. -/
theorem plain_of_words {line : String} {names : List String} (feed : '\n' ∉ line.toList)
    (isWords : (Text.words line).map Prod.snd = names) (other : ¬WarningWords names) :
    Plain line where
  feed := feed
  silent := by
    refine Bool.eq_false_iff.2 fun warns => other ?_
    rw [← isWords]
    exact warningWords_of_warnsOfConflict warns

/-- A line that was written as other words is plain. -/
theorem plain_of_worded {line : String} {names : List String} (worded : Text.Worded line names)
    (other : ¬WarningWords names) : Plain line :=
  plain_of_words worded.feed_notMem worded.map_snd_words other

/-- One word is a plain line. -/
theorem plain_word {word : String} (unbroken : Text.Unbroken word) : Plain word :=
  plain_of_worded (Text.worded_word unbroken) fun ⟨_, _, same⟩ => by simp at same

theorem plain_of_worded_lines {lines : List String} {lists : List (List String)}
    (worded : List.Forall₂ Text.Worded lines lists)
    (other : ∀ names ∈ lists, ¬WarningWords names) : ∀ line ∈ lines, Plain line := by
  induction worded with
  | nil => simp
  | cons first _ ih =>
      obtain ⟨otherFirst, otherRest⟩ := List.forall_mem_cons.1 other
      exact List.forall_mem_cons.2 ⟨plain_of_worded first otherFirst, ih otherRest⟩

/-- A text of plain lines. -/
def PlainText (text : String) : Prop :=
  ∃ lines, (∀ line ∈ lines, Plain line) ∧ Text.unlines lines = text

theorem PlainText.append {first second : String} (isFirst : PlainText first)
    (isSecond : PlainText second) : PlainText (first ++ second) := by
  obtain ⟨lines, plain, rfl⟩ := isFirst
  obtain ⟨others, othersPlain, rfl⟩ := isSecond
  exact ⟨lines ++ others, List.forall_mem_append.2 ⟨plain, othersPlain⟩, Text.unlines_append _ _⟩

/-- An empty line behind a plain text. -/
theorem PlainText.feed {text : String} (plain : PlainText text) : PlainText (text ++ "\n") :=
  plain.append ⟨[""], by decide, rfl⟩

theorem plainText_line {line : String} (plain : Plain line) : PlainText (line ++ "\n") :=
  ⟨[line], List.forall_mem_singleton.2 plain, by simp [Text.unlines]⟩

/-- Sections that are plain with the line feeds behind them make a plain text. -/
theorem plainText_unlines {sections : List String}
    (plain : ∀ text ∈ sections, PlainText (text ++ "\n")) : PlainText (Text.unlines sections) := by
  induction sections with
  | nil => exact ⟨[], by simp, rfl⟩
  | cons first rest ih =>
      obtain ⟨firstPlain, restPlain⟩ := List.forall_mem_cons.1 plain
      have split : Text.unlines (first :: rest) = (first ++ "\n") ++ Text.unlines rest := by
        simp [Text.unlines]
      rw [split]
      exact firstPlain.append (ih restPlain)

/-! ## Sections of the report -/

/-- The line of a nonterminal is plain: it has a second word only if the word is a mark. -/
theorem plain_nonterminalLine (defined : (Definition.ofRequests requests).build = .ok grammar)
    {nonterminal : Nonterminal} (isListed : nonterminal ∈ grammar.nonterminalList) :
    Plain (grammar.nonterminalLine nonterminal) := by
  have isSymbol : grammar.HasSymbol (.nonterminal nonterminal) := isListed
  have name : Text.Unbroken (grammar.nonterminalName nonterminal) :=
    Definition.unbroken_symbolName defined isSymbol
  have marked : ∀ mark : String, Text.Unbroken mark → (∀ kind, mark ≠ ConflictKind.name kind) →
      Plain (grammar.nonterminalName nonterminal ++ " " ++ mark) := by
    intro mark unbroken other
    refine plain_of_worded ((Text.worded_word unbroken).cons name) ?_
    rintro ⟨kind, behind, same⟩
    exact other kind (List.cons.inj (List.cons.inj same).2).1
  rw [Grammar.nonterminalLine]
  split
  · have plain := marked "(start)" (by decide) fun kind => by cases kind <;> decide
    rwa [String.append_assoc] at plain
  · split
    · have plain := marked "(augmented)" (by decide) fun kind => by cases kind <;> decide
      rwa [String.append_assoc] at plain
    · rw [String.append_empty]
      exact plain_word name

/-- The line of a production is plain: its first word is a number with a colon. -/
theorem plain_productionLine (defined : (Definition.ofRequests requests).build = .ok grammar)
    (id : ProductionId) : Plain (grammar.productionLine id) := by
  have number : Text.Unbroken (toString id.number ++ ":") :=
    (Text.unbroken_toString id.number).append (by decide)
  have text := feed_notMem_renderProduction defined (grammar.production id)
  have first := (Text.unbroken_toString (grammar.canonical id).number).feed_notMem
  obtain ⟨note, isLine, noteFeed⟩ : ∃ note,
      grammar.productionLine id = toString id.number ++ ": " ++
        grammar.renderProduction (grammar.production id) ++ note ∧ '\n' ∉ note.toList := by
    refine ⟨_, rfl, ?_⟩
    split
    · simp
    · simpa using first
  have split : (grammar.productionLine id).toList = (toString id.number ++ ":").toList ++
      ' ' :: ((grammar.renderProduction (grammar.production id)).toList ++ note.toList) := by
    rw [isLine]
    simp
  have isWords := @Text.map_snd_wordsFrom_append_space 0
    ((grammar.renderProduction (grammar.production id)).toList ++ note.toList) _ number
  rw [← split] at isWords
  refine plain_of_words ?_ isWords ?_
  · rw [split]
    simp only [List.mem_append, List.mem_cons, not_or]
    exact ⟨number.feed_notMem, by decide, text, noteFeed⟩
  · rintro ⟨kind, behind, same⟩
    have lastCharacter := congrArg (fun word => word.toList.getLast?) (List.cons.inj same).1
    simp at lastCharacter

/-- The grammar is printed in plain lines. -/
theorem plainText_grammar (defined : (Definition.ofRequests requests).build = .ok grammar) :
    PlainText grammar.render := by
  have terminals : ∀ name ∈ grammar.terminals.toList, Plain name := by
    intro name isName
    exact plain_word (Definition.unbroken_names defined name (List.mem_append_left _ isName))
  have nonterminals : ∀ line ∈ grammar.nonterminalList.map grammar.nonterminalLine, Plain line :=
    List.forall_mem_map.2 fun nonterminal => plain_nonterminalLine defined
  have productions : ∀ line ∈ grammar.productionIds.map grammar.productionLine, Plain line :=
    List.forall_mem_map.2 fun id _ => plain_productionLine defined id
  refine ⟨_, ?_, rfl⟩
  simp only [List.forall_mem_append]
  exact ⟨⟨⟨⟨⟨by decide, terminals⟩, by decide⟩, nonterminals⟩, by decide⟩, productions⟩

/-- The warning about nonterminals is a plain line. -/
theorem plain_undefinedWarning (names : List String) :
    ∀ line ∈ undefinedWarning names, Plain line := by
  intro line isLine
  rw [undefinedWarning] at isLine
  split at isLine
  · cases isLine
  · have split : line = "[warning]" ++ " " ++ "The" ++ " " ++
        ("following nonterminals have no associated production rule: " ++
          Text.quotedList names) := by
      rw [List.mem_singleton.1 isLine]
      simp [← String.toList_inj]
    have article : Text.Unbroken "The" := by decide
    obtain ⟨behind, isWords⟩ := exists_words_append unbroken_mark article
      ("following nonterminals have no associated production rule: " ++ Text.quotedList names)
    rw [← split] at isWords
    refine plain_of_words ?_ isWords ?_
    · rw [split]
      simpa using Text.feed_notMem_quotedList names
    · rintro ⟨kind, others, same⟩
      have isKind := (List.cons.inj (List.cons.inj same).2).1
      cases kind <;> exact absurd isKind (by decide)

/-- The automaton is printed in plain lines. -/
theorem plainText_automaton (defined : (Definition.ofRequests requests).build = .ok grammar) :
    PlainText ((Automaton.generate grammar).render grammar) := by
  refine ⟨_, ?_, rfl⟩
  refine forall_mem_intercalate (by decide) (List.forall_mem_map.2 fun entry isNumbered => ?_)
  refine plain_of_worded_lines
    (Automaton.worded_lines defined (Automaton.mem_numbered_iff.1 isNumbered)) ?_
  simp only [State.lineWords, List.forall_mem_append, List.forall_mem_map]
  refine ⟨⟨⟨?_, ?_⟩, ?_⟩, ?_⟩
  all_goals simp [WarningWords, edgeWords]

/-- A grid is printed in plain lines: the first word is its corner or a number. -/
theorem plain_grid {grid : Text.Grid} (regular : grid.Regular) (other : grid.corner ≠ "[warning]") :
    ∀ line ∈ grid.lines, Plain line := by
  intro line isLine
  obtain ⟨index, found⟩ := List.mem_iff_getElem?.1 isLine
  obtain ⟨texts, isTexts, isWords, -⟩ := regular.words_of_getElem? found
  refine plain_of_words (regular.feed_notMem line isLine) isWords ?_
  rintro ⟨kind, behind, rfl⟩
  cases index with
  | zero =>
      exact other (List.cons.inj (Option.some.inj isTexts)).1
  | succ row =>
      rw [Text.Grid.contents, List.getElem?_cons_succ, List.getElem?_map] at isTexts
      obtain ⟨entry, -, isRow⟩ := Option.map_eq_some_iff.1 isTexts
      have isNumber : toString entry.2 = "[warning]" := (List.cons.inj isRow).1
      have isDigit := Nat.isDigit_of_mem_toDigits (b := 10) (n := entry.2) (c := '[') (by decide)
        (by decide) (by rw [← Text.toList_toString, isNumber]; decide)
      exact absurd isDigit (by decide)

/-- The tables are printed in plain lines. -/
theorem plainText_table (defined : (Definition.ofRequests requests).build = .ok grammar)
    (table : Table) : PlainText (table.render grammar) := by
  obtain ⟨terminals, nonterminals⟩ := Grammar.unbroken_columns defined
  have corner : Table.stateHeading ≠ "[warning]" := by decide
  have actions := plain_grid (Table.regular_actionGrid table terminals) corner
  have gotos := plain_grid (Table.regular_gotoGrid table nonterminals) corner
  refine ⟨_, ?_, rfl⟩
  simp only [List.forall_mem_append]
  exact ⟨⟨⟨by decide, actions⟩, by decide⟩, gotos⟩

/-! ## The whole report -/

/-- The sections of a report in front of the warnings of conflicts. -/
def frontSections (options : Options) (grammar : Grammar) (automaton : Automaton) (table : Table) :
    List String :=
  [grammar.render] ++
    undefinedWarning (undefinedNames grammar) ++
    (if options.automaton then [automaton.render grammar] else []) ++
    [table.render grammar]

theorem report_eq (options : Options) (grammar : Grammar) (automaton : Automaton) (table : Table) :
    report options grammar automaton table =
      frontSections options grammar automaton table ++
        table.conflicts.map fun conflict => "[warning] " ++ conflict.render grammar := rfl

/-- **Everything in front of the warnings is printed in plain lines.** -/
theorem plainText_front (defined : (Definition.ofRequests requests).build = .ok grammar)
    (options : Options) (table : Table) :
    PlainText (Text.unlines
      (frontSections options grammar (Automaton.generate grammar) table)) := by
  refine plainText_unlines ?_
  simp only [frontSections, List.forall_mem_append, List.forall_mem_singleton]
  refine ⟨⟨⟨(plainText_grammar defined).feed, ?_⟩, ?_⟩, (plainText_table defined table).feed⟩
  · exact fun line isLine => plainText_line (plain_undefinedWarning _ line isLine)
  · split
    · exact List.forall_mem_singleton.2 (plainText_automaton defined).feed
    · simp

/-- **The warnings can be read off the lines of a report.** -/
theorem filter_linesOf_report (defined : (Definition.ofRequests requests).build = .ok grammar)
    (options : Options) (table : Table) :
    (Text.linesOf (Text.unlines
        (report options grammar (Automaton.generate grammar) table))).filter warnsOfConflict =
      table.conflicts.map fun conflict => "[warning] " ++ conflict.render grammar := by
  obtain ⟨lines, plain, isFront⟩ := plainText_front defined options table
  have feeds : ∀ line ∈ lines ++
      table.conflicts.map (fun conflict => "[warning] " ++ conflict.render grammar),
      '\n' ∉ line.toList :=
    List.forall_mem_append.2 ⟨fun line isLine => (plain line isLine).feed,
      List.forall_mem_map.2 fun conflict _ => (conflictWarning_line defined conflict).1⟩
  have none : lines.filter warnsOfConflict = [] :=
    List.filter_eq_nil_iff.2 fun line isLine => by simp [(plain line isLine).silent]
  rw [report_eq, Text.unlines_append, ← isFront, ← Text.unlines_append, Text.linesOf_unlines feeds,
    List.filter_append, none, List.nil_append, List.filter_eq_self]
  exact List.forall_mem_map.2 fun conflict _ => (conflictWarning_line defined conflict).2

end CommandLine

end ShiftReduce
