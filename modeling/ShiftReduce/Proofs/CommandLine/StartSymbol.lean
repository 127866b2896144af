import ShiftReduce.CommandLine
import ShiftReduce.Proofs.Source.Joined

/-!
# The start symbol of a run

The start symbol comes from the options of a run or from the text of the file. The grammar depends
on the start symbol and on the rules of a description, not on the lines of the rules
(`Grammar.ofDescription_congr`), and the report depends on the options only through what is printed
and denied. So a run is told by its description, with the start symbol that is settled in the end
(`run_eq_of_descriptions`).

A text that declares no start symbol declares one when a line for it is added
(`parse_append_start`), and the rules keep their lines. So the option says what that line would say,
and it takes the place of whatever a text declares (`settlesStart_of_parse`).
-/

set_option autoImplicit false

namespace ShiftReduce

/-! ## Descriptions with the same rules -/

namespace Description

/-- The rules of two descriptions are the same, whatever their lines and the start symbols. -/
def SameRules (first second : Description) : Prop :=
  first.rules.toList.map SourceRule.toRule = second.rules.toList.map SourceRule.toRule

instance (first second : Description) : Decidable (first.SameRules second) :=
  inferInstanceAs (Decidable (_ = _))

variable {first second : Description}

/-- The requests of a description do not tell the lines of its rules. -/
theorem requests_congr (sameStart : first.start = second.start)
    (sameRules : first.SameRules second) : first.requests = second.requests := by
  have split : ∀ description : Description, description.requests =
      (description.start.map .setStart).toList ++
        (description.rules.toList.map SourceRule.toRule).map .addRule := by
    intro description
    rw [List.map_map]
    rfl
  rw [split, split, sameStart, sameRules]

end Description

/-- The grammar depends on the start symbol and the rules alone. -/
theorem Grammar.ofDescription_congr {first second : Description}
    (sameStart : first.start = second.start) (sameRules : first.SameRules second) :
    ofDescription first = ofDescription second := by
  rw [ofDescription, ofDescription, Description.define, Description.define,
    Description.requests_congr sameStart sameRules]

/-! ## A line for the start symbol -/

namespace Description

/-- **A line for a start symbol, added to a text that declares none, declares it** and changes
nothing else. -/
theorem parse_append_start {source name ending : String} {description : Description}
    (read : parse source = .ok description) (undeclared : description.start = none)
    (isName : IsSymbolName name) (isEnding : ending = "" ∨ ending = "\n") :
    parse (source ++ "\n" ++ "@start " ++ name ++ ending) =
      .ok { description with start := some name } := by
  have split : (source ++ "\n" ++ "@start " ++ name ++ ending).toList =
      source.toList ++ '\n' :: (("@start " ++ name).toList ++ ending.toList) := by
    simp
  have inLine := Source.inLine_start isName
  have declares (number : Nat) :
      description.addTokens number (Source.lineTokens ("@start " ++ name).toList) =
        .ok { description with start := some name } := by
    rw [Source.lineTokens_start isName]
    exact (Takes.start name undeclared).addTokens
  rw [parse_eq_readFrom] at read
  rw [parse_eq_readFrom, split, readFrom_append_lineEnd (show isLineEnd '\n' = true from rfl), read]
  show description.readFrom _ _ = _
  rcases isEnding with rfl | rfl
  · rw [String.toList_empty, List.append_nil, readFrom_line inLine, declares]
  · refine (readFrom_append inLine).trans ?_
    rw [declares]
    rfl

end Description

/-! ## Runs -/

namespace CommandLine

theorem fromUTF8?_toUTF8 (source : String) : String.fromUTF8? source.toUTF8 = some source := by
  rw [String.fromUTF8?]
  exact dif_pos source.isValidUTF8

/-- A run reports on the grammar that the file makes. -/
theorem run_of_made {options : Options} {contents : Except ReadError ByteArray}
    {description : Description} {grammar : Grammar}
    (loaded : Description.ofFile contents = .ok description)
    (made : Grammar.ofDescription (overrideStart options description) = .ok grammar)
    (file : String) : run options file contents = reportOn options grammar := by
  simp only [run, loaded, made]

/-- A run on a text is told by the description of the text. -/
theorem run_of_parse {source : String} {description : Description}
    (read : Description.parse source = .ok description) (options : Options) (file : String) :
    run options file (.ok source.toUTF8) =
      match Grammar.ofDescription (overrideStart options description) with
      | .error error => .failureOf "invalid grammar definition" error.message
      | .ok grammar => reportOn options grammar := by
  have loaded : Description.ofFile (.ok source.toUTF8) = .ok description := by
    simp only [Description.ofFile, fromUTF8?_toUTF8, read]
  cases made : Grammar.ofDescription (overrideStart options description) with
  | error error => simp only [run, loaded, made]
  | ok grammar => exact run_of_made loaded made file

/-- **A run depends on the rules of a text and on the start symbol that is settled in the end**, and
not on where the start symbol comes from. -/
theorem run_eq_of_descriptions {source other : String} {description otherDescription : Description}
    (read : Description.parse source = .ok description)
    (readOther : Description.parse other = .ok otherDescription)
    (sameRules : description.SameRules otherDescription) {start otherStart : Option String}
    (settled : start.or description.start = otherStart.or otherDescription.start)
    (options : Options) (file : String) :
    run { options with start := start } file (.ok source.toUTF8) =
      run { options with start := otherStart } file (.ok other.toUTF8) := by
  have start_override : ∀ (options : Options) (description : Description),
      (overrideStart options description).start = options.start.or description.start := by
    intro options description
    rw [overrideStart]
    cases options.start <;> rfl
  have rules_override : ∀ (options : Options) (description : Description),
      (overrideStart options description).rules = description.rules := by
    intro options description
    rw [overrideStart]
    cases options.start <;> rfl
  have sameGrammar : Grammar.ofDescription (overrideStart { options with start } description) =
      Grammar.ofDescription (overrideStart { options with start := otherStart }
        otherDescription) := by
    refine Grammar.ofDescription_congr ?_ ?_
    · rw [start_override, start_override]
      exact settled
    · rw [Description.SameRules, rules_override, rules_override]
      exact sameRules
  rw [run_of_parse read, run_of_parse readOther, sameGrammar]
  rfl

/-- What a start symbol among the options does to a run on a text, whatever the other options. -/
structure SettlesStart (source : String) (description : Description) : Prop where
  /-- It does what a line for it does, if it is added to a text that declares no start symbol. -/
  asDeclared : description.start = none → ∀ name, IsSymbolName name →
    ∀ ending, ending = "" ∨ ending = "\n" → ∀ (options : Options) (file : String),
      run { options with start := some name } file (.ok source.toUTF8) =
        run { options with start := none } file
          (.ok (source ++ "\n" ++ "@start " ++ name ++ ending).toUTF8)
  /-- It takes the place of any start symbol that a text with these rules declares, wherever the
  rules stand in the text. -/
  inPlace : ∀ other otherDescription, Description.parse other = .ok otherDescription →
    description.SameRules otherDescription → ∀ (name : String) (options : Options) (file : String),
      run { options with start := some name } file (.ok source.toUTF8) =
        run { options with start := some name } file (.ok other.toUTF8)

/-- **A start symbol among the options is as good as a line for it in the text**, and it takes the
place of any start symbol of the text. -/
theorem settlesStart_of_parse {source : String} {description : Description}
    (read : Description.parse source = .ok description) : SettlesStart source description := by
  constructor
  case asDeclared =>
    intro undeclared name isName ending isEnding options file
    have readLonger := Description.parse_append_start read undeclared isName isEnding
    refine run_eq_of_descriptions read readLonger rfl ?_ options file
    rw [undeclared]
    rfl
  case inPlace =>
    intro other otherDescription readOther sameRules name options file
    exact run_eq_of_descriptions read readOther sameRules rfl options file

/-- A text with a comment at its end and no start symbol. -/
def undeclaredSource : String := "E -> E + T\nT -> x // last"

/-- What the text without a start symbol describes. -/
def undeclaredSums : Description where
  start := none
  rules := #[⟨⟨"E", ["E", "+", "T"]⟩, 1⟩, ⟨⟨"T", ["x"]⟩, 2⟩]

/-- The same rules in other lines, behind a start symbol that no grammar may have. -/
def reservedSource : String := "@start $\n\nE -> E + T\r\nT -> x"

theorem settlesStart_reserved :
    Description.parse undeclaredSource = .ok undeclaredSums ∧
      SettlesStart undeclaredSource undeclaredSums ∧
      run { start := some "T" } "sums" (.ok undeclaredSource.toUTF8) =
        run {} "sums" (.ok (undeclaredSource ++ "\n" ++ "@start " ++ "T").toUTF8) ∧
      run { start := some "T" } "sums" (.ok undeclaredSource.toUTF8) =
        run { start := some "T" } "sums" (.ok reservedSource.toUTF8) ∧
      (run { start := some "T" } "sums" (.ok reservedSource.toUTF8)).code = 0 ∧
      (run {} "sums" (.ok reservedSource.toUTF8)).code = 1 := by
  have read : Description.parse undeclaredSource = .ok undeclaredSums := by decide +kernel
  have readOther : Description.parse reservedSource =
      .ok ⟨some "$", #[⟨⟨"E", ["E", "+", "T"]⟩, 3⟩, ⟨⟨"T", ["x"]⟩, 4⟩]⟩ := by decide +kernel
  have settles := settlesStart_of_parse read
  have declared := settles.asDeclared rfl "T" (by decide) "" (.inl rfl) {} "sums"
  have replaced := settles.inPlace _ _ readOther (by decide) "T" {} "sums"
  rw [String.append_empty] at declared
  exact ⟨read, settles, declared, replaced, by decide +kernel, by decide +kernel⟩

end CommandLine

end ShiftReduce
