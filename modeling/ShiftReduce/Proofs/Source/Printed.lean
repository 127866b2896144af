import ShiftReduce.Proofs.Source.FileGrammar
import ShiftReduce.Text.Lines

/-!
# Printing descriptions and reading them back

A description is printed with its start symbol in a first line, if it has one, and one line for each
rule (`Description.printed`). When its names are names that a text can give, and no right-hand side
is empty (`Description.Printable`), reading the text gives it back, and each rule has the number of
its line (`parse_printed`). What is read from any text is printable (`printable_of_parse`).

A printed line is read by its words (`lineTokens_text`), and the lines of a printed text are those
that were printed (`readFrom_intercalate`).
-/

set_option autoImplicit false

namespace ShiftReduce

/-- The line that gives a rule. -/
def Rule.text (rule : Rule) : String :=
  rule.left ++ " ->" ++ Text.spaced rule.right

/-! ## Printed lines -/

namespace Source

theorem isWord_arrowChars : IsWord arrowChars := by
  decide

theorem isWord_startKeyword : IsWord Pattern.startKeyword := by
  decide

theorem isSpacing_of_head?_space {line : List Char} (character : Char)
    (isHead : (' ' :: line).head? = some character) : isSpacing character = true := by
  cases isHead
  rfl

/-- A word behind a space is the next token of a line. -/
theorem lineTokens_space_word {word line : List Char} (isWord : IsWord word)
    (spaced : ∀ character, line.head? = some character → isSpacing character = true) :
    lineTokens (' ' :: (word ++ line)) = Token.ofWord word :: lineTokens line := by
  have isSpace : ∀ character ∈ [' '], isSpacing character = true :=
    List.forall_mem_singleton.2 rfl
  rw [← List.singleton_append, lineTokens_append_spacing isSpace,
    lineTokens_append_word isWord spaced]

/-- Names behind spaces begin with a space. -/
theorem isSpacing_of_head?_spaced {names : List String} (character : Char)
    (isHead : (Text.spaced names).toList.head? = some character) : isSpacing character = true := by
  cases names with
  | nil => cases isHead
  | cons name names =>
      simp only [Text.spaced, List.map_cons, String.join_cons, String.toList_append] at isHead
      exact isSpacing_of_head?_space character isHead

/-- Names behind spaces are the symbols of a line. -/
theorem lineTokens_spaced {names : List String} (areNames : ∀ name ∈ names, IsSymbolName name) :
    lineTokens (Text.spaced names).toList = names.map .symbol := by
  induction names with
  | nil => rfl
  | cons name names ih =>
      obtain ⟨isName, areLater⟩ := List.forall_mem_cons.1 areNames
      have split : (Text.spaced (name :: names)).toList =
          ' ' :: (name.toList ++ (Text.spaced names).toList) := by
        simp [Text.spaced]
      rw [split, lineTokens_space_word isName.isWord isSpacing_of_head?_spaced,
        Token.ofWord_toList isName, ih areLater, List.map_cons]

/-- **The line of a rule has the tokens of the rule.** -/
theorem lineTokens_text {rule : Rule} (areNames : ∀ name ∈ rule.names, IsSymbolName name) :
    lineTokens rule.text.toList = rule.tokens := by
  obtain ⟨isLeft, areRight⟩ := List.forall_mem_cons.1 areNames
  have split : rule.text.toList = rule.left.toList ++
      ' ' :: (arrowChars ++ (Text.spaced rule.right).toList) := by
    simp [Rule.text, arrowChars]
  rw [split, lineTokens_append_word isLeft.isWord isSpacing_of_head?_space,
    lineTokens_space_word isWord_arrowChars isSpacing_of_head?_spaced, lineTokens_spaced areRight,
    Token.ofWord_toList isLeft]
  rfl

/-- The line of a start symbol declares it. -/
theorem lineTokens_start {name : String} (isName : IsSymbolName name) :
    lineTokens ("@start " ++ name).toList = [.start, .symbol name] := by
  have split : ("@start " ++ name).toList =
      Pattern.startKeyword ++ ' ' :: (name.toList ++ []) := by
    simp [Pattern.startKeyword]
  rw [split, lineTokens_append_word isWord_startKeyword isSpacing_of_head?_space,
    lineTokens_space_word isName.isWord (by simp), Token.ofWord_toList isName]
  rfl

theorem inLine_of_isSymbolName {name : String} (isName : IsSymbolName name) :
    ∀ character ∈ name.toList, isLineEnd character = false := fun character member =>
  isLineEnd_eq_false (isName.isWord.chars character member)

/-- The line of a rule is a single line. -/
theorem inLine_text {rule : Rule} (areNames : ∀ name ∈ rule.names, IsSymbolName name) :
    ∀ character ∈ rule.text.toList, isLineEnd character = false := by
  obtain ⟨isLeft, areRight⟩ := List.forall_mem_cons.1 areNames
  have split : rule.text.toList = rule.left.toList ++
      (' ' :: '-' :: '>' :: rule.right.flatMap fun name => ' ' :: name.toList) := by
    simp [Rule.text, Text.spaced, String.toList_join, List.flatMap_map]
  rw [split]
  intro character member
  rcases List.mem_append.1 member with inLeft | behind
  · exact inLine_of_isSymbolName isLeft character inLeft
  · simp only [List.mem_cons, List.mem_flatMap] at behind
    rcases behind with rfl | rfl | rfl | ⟨name, isRight, rfl | inRight⟩
    · rfl
    · rfl
    · rfl
    · rfl
    · exact inLine_of_isSymbolName (areRight name isRight) character inRight

/-- The line of a start symbol is a single line. -/
theorem inLine_start {name : String} (isName : IsSymbolName name) :
    ∀ character ∈ ("@start " ++ name).toList, isLineEnd character = false := by
  have inKeyword : ∀ character ∈ "@start ".toList, isLineEnd character = false := by
    simp [isLineEnd]
  intro character member
  rw [String.toList_append] at member
  exact (List.mem_append.1 member).elim (inKeyword character)
    (inLine_of_isSymbolName isName character)

end Source

namespace Description

/-- The lines of the text of a description. -/
def printed (description : Description) : List String :=
  (description.start.map ("@start " ++ ·)).toList ++
    description.rules.toList.map fun rule => rule.text

/-- A description that a text can give. -/
structure Printable (description : Description) : Prop where
  start : ∀ name, description.start = some name → IsSymbolName name
  names : ∀ rule ∈ description.rules.toList, ∀ name ∈ rule.names, IsSymbolName name
  rights : ∀ rule ∈ description.rules.toList, rule.right ≠ []

/-- The description in which each rule has the number of its line in the printed text. -/
def lined (description : Description) : Description :=
  { description with
    rules := description.rules.mapIdx fun index rule =>
      { rule with line := description.start.toList.length + 1 + index } }

/-! ## Reading lines -/

/-- Read the lines of a text, the first of which has a number. -/
def readFrom (description : Description) (number : Nat) (text : List Char) :
    Except SyntaxError Description :=
  (Source.numbered number (Source.joinLineEnds text)).foldlM (fun description line =>
    description.addTokens line.1 (Source.lineTokens line.2)) description

theorem parse_eq_readFrom (source : String) : parse source = readFrom {} 1 source.toList := by
  obtain ⟨lexemes, isStream, -, scanned⟩ := Lexeme.exists_ofText source
  apply parse_eq_foldlM isStream scanned
  apply (Lexeme.lines_of_scanned scanned).imp
  intro group line ofLine
  exact ⟨ofLine.tokens, fun first isFirst => ofLine.number first (List.mem_of_mem_head? isFirst)⟩

section ReadFrom

variable {description : Description} {number : Nat} {line rest : List Char}

/-- What a text reads is what its first line and the rest of it read. -/
theorem readFrom_append (inLine : ∀ character ∈ line, isLineEnd character = false) :
    description.readFrom number (line ++ '\n' :: rest) =
      description.addTokens number (Source.lineTokens line) >>= fun next =>
        next.readFrom (number + 1) rest := by
  have lineFeed : Source.joinLineEnds ('\n' :: rest) = '\n' :: Source.joinLineEnds rest := by
    simp [Source.joinLineEnds]
  have first : Source.numbered number ('\n' :: Source.joinLineEnds rest) =
      (number, []) :: Source.numbered (number + 1) (Source.joinLineEnds rest) := rfl
  rw [readFrom, Source.joinLineEnds_append inLine, Source.numbered_append inLine, lineFeed, first,
    List.modifyHead_cons, List.foldlM_cons, Prod.map_apply, List.append_nil]
  rfl

theorem readFrom_line (inLine : ∀ character ∈ line, isLineEnd character = false) :
    description.readFrom number line = description.addTokens number (Source.lineTokens line) := by
  have joined := @Source.joinLineEnds_append line [] inLine
  rw [Source.joinLineEnds, List.append_nil] at joined
  rw [readFrom, joined, Source.numbered_of_inLine inLine, List.foldlM_cons]
  exact bind_pure _

end ReadFrom

/-- Lines with line feeds between them are read one after the other. -/
theorem readFrom_intercalate {lines : List (List Char)} {ending : List Char}
    (inLines : ∀ line ∈ lines, ∀ character ∈ line, isLineEnd character = false)
    (isEnding : ending = [] ∨ ending = ['\n']) (description : Description) (number : Nat) :
    description.readFrom number (['\n'].intercalate lines ++ ending) =
      (lines.zipIdx number).foldlM (fun description line =>
        description.addTokens line.2 (Source.lineTokens line.1)) description := by
  induction lines generalizing description number with
  | nil =>
      rcases isEnding with rfl | rfl
      · rfl
      · rfl
  | cons line lines ih =>
      obtain ⟨inLine, inLater⟩ := List.forall_mem_cons.1 inLines
      rw [List.zipIdx_cons, List.foldlM_cons]
      cases lines with
      | nil =>
          rcases isEnding with rfl | rfl
          · rw [List.intercalate_singleton, List.append_nil, readFrom_line inLine]
            exact (bind_pure _).symm
          · rw [List.intercalate_singleton, readFrom_append inLine]
            rfl
      | cons second lines =>
          rw [List.intercalate_cons_cons, List.append_assoc, List.append_assoc,
            List.singleton_append, readFrom_append inLine]
          congr 1
          funext next
          exact ih inLater next (number + 1)

/-- The lines of rules are read as the rules, each with the number of its line. -/
theorem foldlM_text {rules : List SourceRule}
    (areNames : ∀ rule ∈ rules, ∀ name ∈ rule.names, IsSymbolName name)
    (rights : ∀ rule ∈ rules, rule.right ≠ []) (description : Description) (number : Nat) :
    ((rules.map fun rule => rule.text.toList).zipIdx number).foldlM (fun description line =>
        description.addTokens line.2 (Source.lineTokens line.1)) description =
      .ok { description with
        rules := description.rules ++
          (rules.mapIdx fun index rule => { rule with line := number + index }).toArray } := by
  induction rules generalizing description number with
  | nil => simp [pure, Except.pure]
  | cons rule rules ih =>
      obtain ⟨isNames, areLater⟩ := List.forall_mem_cons.1 areNames
      obtain ⟨ne_nil, laterRights⟩ := List.forall_mem_cons.1 rights
      have taken : description.addTokens number rule.tokens = .ok _ := (Takes.rule ne_nil).addTokens
      rw [List.map_cons, List.zipIdx_cons, List.foldlM_cons, Source.lineTokens_text isNames, taken]
      refine (ih areLater laterRights _ (number + 1)).trans ?_
      have shifted (index : Nat) : number + 1 + index = number + (index + 1) := by omega
      simp [List.mapIdx_cons, shifted]

/-- Every printed line is a single line. -/
theorem inLine_of_mem_printed {description : Description} (printable : description.Printable) :
    ∀ line ∈ description.printed.map String.toList,
      ∀ character ∈ line, isLineEnd character = false := by
  intro line isLine
  obtain ⟨text, isText, rfl⟩ := List.mem_map.1 isLine
  rcases List.mem_append.1 isText with isStart | isRule
  · rw [Option.mem_toList, Option.map_eq_some_iff] at isStart
    obtain ⟨name, isStart, rfl⟩ := isStart
    exact Source.inLine_start (printable.start name isStart)
  · obtain ⟨rule, isListed, rfl⟩ := List.mem_map.1 isRule
    exact Source.inLine_text (printable.names rule isListed)

theorem lined_eq (description : Description) : description.lined = ⟨description.start,
    (description.rules.toList.mapIdx fun index rule =>
      { rule with line := description.start.toList.length + 1 + index }).toArray⟩ := by
  rw [lined, ← Array.toList_mapIdx, Array.toArray_toList]

/-- **Printing and reading gives a description back.** -/
theorem parse_printed {description : Description} (printable : description.Printable)
    {ending : String} (isEnding : ending = "" ∨ ending = "\n") :
    parse ("\n".intercalate description.printed ++ ending) = .ok description.lined := by
  have isEnding : ending.toList = [] ∨ ending.toList = ['\n'] := by
    rcases isEnding with rfl | rfl
    · exact .inl rfl
    · exact .inr rfl
  rw [parse_eq_readFrom, String.toList_append, String.toList_intercalate]
  refine (readFrom_intercalate (inLine_of_mem_printed printable) isEnding {} 1).trans ?_
  cases isStart : description.start with
  | none =>
      have isPrinted : description.printed.map String.toList =
          description.rules.toList.map fun rule => rule.text.toList := by
        simp [printed, isStart]
      rw [isPrinted]
      refine (foldlM_text printable.names printable.rights {} 1).trans ?_
      simp [lined_eq, isStart]
  | some name =>
      have isPrinted : description.printed.map String.toList = ("@start " ++ name).toList ::
          description.rules.toList.map fun rule => rule.text.toList := by
        simp [printed, isStart]
      have taken : addTokens {} 1 [.start, .symbol name] = .ok _ := (Takes.start name rfl).addTokens
      rw [isPrinted, List.zipIdx_cons, List.foldlM_cons,
        Source.lineTokens_start (printable.start name isStart), taken]
      refine (foldlM_text printable.names printable.rights _ 2).trans ?_
      simp [lined_eq, isStart]

/-! ## What a text can give -/

/-- The symbols of a text are words of it. -/
theorem isSymbolName_of_mem {location : Location} {text : List Char} {lexemes : List Lexeme}
    (scanned : Lexeme.Scanned location text lexemes) {line : List Lexeme}
    (isLine : line ∈ Lexeme.lines lexemes) {name : String}
    (isToken : .symbol name ∈ line.map Lexeme.token) : IsSymbolName name := by
  obtain ⟨lexeme, member, isSymbol⟩ := List.mem_map.1 isToken
  have inText := (Lexeme.mem_of_mem_lines isLine lexeme member).1
  obtain ⟨piece, behind, -, spells⟩ := scanned.written lexeme inText
  rw [isSymbol] at spells
  cases spells with
  | symbol _ isName => exact isName

/-- **What is read from a text can be printed.** -/
theorem printable_of_parse {source : String} {description : Description}
    (read : parse source = .ok description) : description.Printable := by
  obtain ⟨lexemes, -, scanned, inLines, isRead⟩ := exists_parse_eq_addLines source
  rw [isRead] at read
  have readable := (exists_addLines_iff _ inLines).1 ⟨description, read⟩
  obtain ⟨start, rules⟩ := describes_of_addLines inLines read
  have isLine {rule : SourceRule} (isRule : rule ∈ description.rules.toList) :
      ∃ line ∈ Lexeme.lines lexemes, line.map Lexeme.token = rule.tokens := by
    have listed : (rule.line, rule.tokens) ∈ description.rules.toList.map fun rule =>
        (rule.line, rule.tokens) := List.mem_map_of_mem isRule
    rw [rules] at listed
    obtain ⟨line, isLine, same⟩ := List.mem_map.1 listed
    exact ⟨line, (List.mem_filter.1 isLine).1, (Prod.mk.inj same).2⟩
  constructor
  · intro name isStart
    obtain ⟨line, isLine, isTokens⟩ := (start name).1 isStart
    apply isSymbolName_of_mem scanned isLine
    rw [isTokens]
    simp
  · intro rule isRule name isName
    obtain ⟨line, isLine, isTokens⟩ := isLine isRule
    apply isSymbolName_of_mem scanned isLine
    rwa [isTokens, Rule.symbol_mem_tokens]
  · intro rule isRule empty
    obtain ⟨line, isLine, isTokens⟩ := isLine isRule
    have wellFormed := readable.wellFormed line isLine
    have isFault : rule.tokens = [.symbol rule.left, .arrow] := by
      rw [Rule.tokens, empty]
      rfl
    rw [isTokens, isFault] at wellFormed
    rcases wellFormed with blank | ⟨said, isSaid⟩
    · cases blank
    · exact isSaid.not_breaks (.emptyRight rule.left)

end Description

end ShiftReduce
