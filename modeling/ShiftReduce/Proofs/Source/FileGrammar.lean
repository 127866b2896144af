import Mathlib.Data.List.Induction
import Mathlib.Data.String.Basic
import ShiftReduce.Proofs.Source.LineGrammar
import ShiftReduce.Proofs.Source.Loader
import ShiftReduce.Proofs.Source.Spans

/-!
# The grammar of files

A file is read line by line. It can be read when each of its lines is blank or well-formed and no
two of them declare a start symbol (`Description.Readable`); the description then has this start
symbol and one rule for each line that gives one (`Description.Describes`). Otherwise the first line
that offends decides the error (`Line.Offends`).

One line is taken in or refused (`takes_or_offends`). So a description is built up along the lines
(`Describes.takes`), and a whole file is read as its lines say (`parse_spec`). Lines are counted by
the line feeds in front of their first token (`Source.lineNumber`).
-/

set_option autoImplicit false

namespace ShiftReduce

/-! ## Lines among others -/

namespace Line

/-- A line is blank or says something. -/
def WellFormed (tokens : List Token) : Prop :=
  tokens = [] ∨ ∃ said, Says tokens said

/-- A line declares a start symbol. -/
def IsStart (tokens : List Token) : Prop :=
  ∃ name, tokens = [.start, .symbol name]

/-- Whether a line begins with a symbol, as the lines of rules do. -/
def isRule : List Token → Bool
  | .symbol _ :: _ => true
  | _ => false

/-- What is wrong with a line, given whether an earlier one declares a start symbol. -/
inductive Offends (started : Prop) : List Token → SyntaxFault → Prop
  | breaks {tokens : List Token} {fault : SyntaxFault} : Breaks tokens fault →
      Offends started tokens fault
  | duplicatedStart (name : String) : started →
      Offends started [.start, .symbol name] .duplicatedStart

/-- No line holds anything that is not recognized. -/
theorem Offends.ne_unrecognized {started : Prop} {tokens : List Token} {fault : SyntaxFault}
    (offends : Offends started tokens fault) (column : Nat) : fault ≠ .unrecognized column := by
  rintro rfl
  cases offends with
  | breaks breaks => cases breaks

end Line

/-- The number of a line: one more than the line feeds of the source before its first token. -/
def Source.lineNumber (source : String) : List Lexeme → Nat
  | [] => 1
  | first :: _ =>
    1 + ((0 : String.Pos.Raw).extract source ⟨first.start.byte⟩).toList.count '\n'

namespace Description

open Line

/-- Lines that can be read one after the other. -/
structure Readable (lines : List (List Lexeme)) : Prop where
  wellFormed : ∀ line ∈ lines, WellFormed (line.map Lexeme.token)
  single : lines.Pairwise fun first second =>
    ¬(IsStart (first.map Lexeme.token) ∧ IsStart (second.map Lexeme.token))

/-- A description says what the lines of a file say, which have the given numbers. -/
structure Describes (number : List Lexeme → Nat) (lines : List (List Lexeme))
    (description : Description) : Prop where
  start : ∀ name, description.start = some name ↔
    ∃ line ∈ lines, line.map Lexeme.token = [.start, .symbol name]
  rules : description.rules.toList.map (fun rule => (rule.line, rule.tokens)) =
    (lines.filter fun line => isRule (line.map Lexeme.token)).map fun line =>
      (number line, line.map Lexeme.token)

/-! ## One more line -/

/-- What one more line makes of a description. -/
inductive Takes (description : Description) (number : Nat) : List Token → Description → Prop
  | blank : Takes description number [] description
  | start (name : String) : description.start = none →
      Takes description number [.start, .symbol name] { description with start := some name }
  | rule {rule : Rule} : rule.right ≠ [] → Takes description number rule.tokens
      { description with rules := description.rules.push { rule with line := number } }

section Line

variable {number : Nat} {tokens : List Token} {description next : Description}

theorem Takes.addTokens (takes : description.Takes number tokens next) :
    description.addTokens number tokens = .ok next := by
  cases takes with
  | blank => rfl
  | start name unset =>
      simp [Description.addTokens, Line.entry, enter, unset, bind, Except.bind]
  | rule ne_nil =>
      rw [Description.addTokens, if_neg (by simp [Rule.tokens]), (Says.rule ne_nil).entry]
      rfl

theorem addTokens_of_offends {fault : SyntaxFault}
    (offends : Offends (description.start ≠ none) tokens fault) :
    description.addTokens number tokens = .error ⟨number, fault⟩ := by
  cases offends with
  | breaks breaks =>
      rw [addTokens, if_neg breaks.ne_nil, breaks.entry]
      rfl
  | duplicatedStart name started =>
      obtain ⟨earlier, isEarlier⟩ := Option.ne_none_iff_exists'.1 started
      simp [addTokens, Line.entry, enter, isEarlier, bind, Except.bind]

/-- **A line is taken in, or it offends.** -/
theorem takes_or_offends (description : Description) (number : Nat) (inLine : .newline ∉ tokens) :
    (∃ next, description.Takes number tokens next) ∨
      ∃ fault, Offends (description.start ≠ none) tokens fault := by
  by_cases blank : tokens = []
  · subst blank
    exact .inl ⟨_, .blank⟩
  · rcases exists_said_or_fault blank inLine with ⟨said, isSaid⟩ | ⟨fault, breaks⟩
    · cases isSaid with
      | start name =>
          by_cases unset : description.start = none
          · exact .inl ⟨_, .start name unset⟩
          · exact .inr ⟨_, .duplicatedStart name unset⟩
      | rule ne_nil => exact .inl ⟨_, .rule ne_nil⟩
    · exact .inr ⟨fault, .breaks breaks⟩

/-- A start symbol is taken in only as the first one. -/
theorem Takes.start_eq_none (takes : description.Takes number tokens next)
    (isStart : IsStart tokens) : description.start = none := by
  obtain ⟨name, isTokens⟩ := isStart
  cases takes with
  | blank => cases isTokens
  | start _ unset => exact unset
  | rule => cases isTokens

theorem Takes.wellFormed (takes : description.Takes number tokens next) : WellFormed tokens := by
  cases takes with
  | blank => exact .inl rfl
  | start name => exact .inr ⟨_, .start name⟩
  | rule ne_nil => exact .inr ⟨_, .rule ne_nil⟩

end Line

/-! ## All lines -/

/-- Take in the lines of a file, which have the given numbers. -/
def addLines (number : List Lexeme → Nat) (lines : List (List Lexeme)) :
    Except SyntaxError Description :=
  lines.foldlM (fun description line =>
    description.addTokens (number line) (line.map Lexeme.token)) {}

section Lines

variable {number : List Lexeme → Nat} {lines : List (List Lexeme)} {line : List Lexeme}
  {description next : Description}

theorem addLines_append (number : List Lexeme → Nat) (before behind : List (List Lexeme)) :
    addLines number (before ++ behind) = addLines number before >>= fun description =>
      behind.foldlM (fun description line =>
        description.addTokens (number line) (line.map Lexeme.token)) description :=
  List.foldlM_append

/-- What the lines say so far tells whether a start symbol has been declared. -/
theorem Describes.start_ne_none_iff (describes : Describes number lines description) :
    description.start ≠ none ↔ ∃ line ∈ lines, IsStart (line.map Lexeme.token) := by
  rw [Option.ne_none_iff_exists']
  constructor
  · rintro ⟨name, isStart⟩
    obtain ⟨line, isLine, isStart⟩ := (describes.start name).1 isStart
    exact ⟨line, isLine, name, isStart⟩
  · rintro ⟨line, isLine, name, isStart⟩
    exact ⟨name, (describes.start name).2 ⟨line, isLine, isStart⟩⟩

/-- **One more line makes one more line described.** -/
theorem Describes.takes (describes : Describes number lines description)
    (takes : description.Takes (number line) (line.map Lexeme.token) next) :
    Describes number (lines ++ [line]) next := by
  obtain ⟨start, rules⟩ := describes
  generalize isTokens : line.map Lexeme.token = tokens at takes
  cases takes with
  | blank =>
      constructor
      · simp [start, isTokens]
      · simp [rules, isTokens, isRule]
  | start name unset =>
      constructor
      · intro other
        have noEarlier : ¬∃ line ∈ lines, line.map Lexeme.token = [.start, .symbol other] := by
          rw [← start, unset]
          exact Option.some_ne_none other ∘ Eq.symm
        simp [noEarlier, isTokens]
      · simp [rules, isTokens, isRule]
  | @rule rule ne_nil =>
      have begins : isRule rule.tokens = true := rfl
      constructor
      · simp [start, isTokens, Rule.tokens]
      · simp [rules, isTokens, begins]

/-- Lines can be read if the last of them is well-formed and no second one that declares a start
symbol. -/
theorem Readable.concat (readable : Readable lines)
    (wellFormed : WellFormed (line.map Lexeme.token))
    (single : IsStart (line.map Lexeme.token) →
      ¬∃ earlier ∈ lines, IsStart (earlier.map Lexeme.token)) : Readable (lines ++ [line]) := by
  constructor
  · simpa [or_imp, forall_and] using ⟨readable.wellFormed, wellFormed⟩
  · rw [List.pairwise_append]
    refine ⟨readable.single, List.pairwise_singleton _ _, ?_⟩
    rintro earlier isEarlier _ (_ | ⟨_, ⟨⟩⟩) ⟨first, second⟩
    exact single second ⟨earlier, isEarlier, first⟩

/-- No line offends among lines that can be read. -/
theorem Readable.not_offends {before behind : List (List Lexeme)} {fault : SyntaxFault}
    (readable : Readable (before ++ line :: behind)) :
    ¬Offends (∃ earlier ∈ before, IsStart (earlier.map Lexeme.token))
      (line.map Lexeme.token) fault := by
  have wellFormed := readable.wellFormed line (by simp)
  have single := (List.pairwise_append.1 readable.single).2.2
  intro offends
  generalize isTokens : line.map Lexeme.token = tokens at offends wellFormed
  cases offends with
  | breaks breaks =>
      rcases wellFormed with blank | ⟨said, isSaid⟩
      · exact breaks.ne_nil blank
      · exact isSaid.not_breaks breaks
  | duplicatedStart name started =>
      obtain ⟨earlier, isEarlier, first⟩ := started
      exact single earlier isEarlier line List.mem_cons_self ⟨first, name, isTokens⟩

/-- **Lines are read as what they say, or up to the first one that offends.** -/
theorem describes_or_offends (number : List Lexeme → Nat)
    (inLines : ∀ line ∈ lines, .newline ∉ line.map Lexeme.token) :
    (Readable lines ∧ ∃ description, addLines number lines = .ok description ∧
        Describes number lines description) ∨
      ∃ before line behind fault, lines = before ++ line :: behind ∧ Readable before ∧
        Offends (∃ earlier ∈ before, IsStart (earlier.map Lexeme.token))
          (line.map Lexeme.token) fault ∧
        addLines number lines = .error ⟨number line, fault⟩ := by
  induction lines using List.reverseRecOn with
  | nil => exact .inl ⟨⟨by simp, .nil⟩, {}, rfl, by simp, rfl⟩
  | append_singleton lines line ih =>
      rw [addLines_append]
      rcases ih fun line member => inLines line (by simp [member]) with
        ⟨readable, description, made, describes⟩ |
        ⟨before, first, behind, fault, rfl, readable, offends, refused⟩
      · rw [made]
        rcases takes_or_offends description (number line)
            (inLines line (by simp)) with ⟨next, takes⟩ | ⟨fault, offends⟩
        · refine .inl ⟨readable.concat takes.wellFormed ?_, next, ?_, describes.takes takes⟩
          · intro isStart
            rw [← describes.start_ne_none_iff, not_ne_iff]
            exact takes.start_eq_none isStart
          · simp [takes.addTokens, bind, Except.bind, pure, Except.pure]
        · rw [describes.start_ne_none_iff] at offends
          refine .inr ⟨lines, line, [], fault, rfl, readable, offends, ?_⟩
          rw [← describes.start_ne_none_iff] at offends
          simp [addTokens_of_offends offends, bind, Except.bind]
      · rw [refused]
        exact .inr ⟨before, first, behind ++ [line], fault, by simp, readable, offends, rfl⟩

/-- Lines make a description exactly when they can be read. -/
theorem exists_addLines_iff (number : List Lexeme → Nat)
    (inLines : ∀ line ∈ lines, .newline ∉ line.map Lexeme.token) :
    (∃ description, addLines number lines = .ok description) ↔ Readable lines := by
  rcases describes_or_offends number inLines with ⟨readable, description, made, -⟩ |
    ⟨before, line, behind, fault, rfl, -, offends, refused⟩
  · exact iff_of_true ⟨description, made⟩ readable
  · refine iff_of_false ?_ fun readable => readable.not_offends offends
    rintro ⟨description, made⟩
    rw [refused] at made
    cases made

theorem describes_of_addLines (inLines : ∀ line ∈ lines, .newline ∉ line.map Lexeme.token)
    (made : addLines number lines = .ok description) :
    Describes number lines description := by
  rcases describes_or_offends number inLines with ⟨-, other, same, describes⟩ |
    ⟨_, _, _, _, -, -, -, refused⟩
  · rw [made] at same
    cases same
    exact describes
  · rw [made] at refused
    cases refused

/-- **The first line that offends decides the error.** -/
theorem addLines_eq_error_iff (inLines : ∀ line ∈ lines, .newline ∉ line.map Lexeme.token)
    {error : SyntaxError} :
    addLines number lines = .error error ↔
      ∃ before line behind, lines = before ++ line :: behind ∧ Readable before ∧
        Offends (∃ earlier ∈ before, IsStart (earlier.map Lexeme.token))
          (line.map Lexeme.token) error.fault ∧ error.line = number line := by
  constructor
  · intro refused
    rcases describes_or_offends number inLines with ⟨-, description, made, -⟩ |
      ⟨before, line, behind, fault, split, readable, offends, isError⟩
    · rw [made] at refused
      cases refused
    · rw [refused] at isError
      cases isError
      exact ⟨before, line, behind, split, readable, offends, rfl⟩
  · rintro ⟨before, line, behind, rfl, readable, offends, isNumber⟩
    have inEarlier : ∀ earlier ∈ before, .newline ∉ earlier.map Lexeme.token :=
      fun earlier member => inLines earlier (by simp [member])
    obtain ⟨description, made⟩ := (exists_addLines_iff number inEarlier).2 readable
    rw [← (describes_of_addLines inEarlier made).start_ne_none_iff] at offends
    have refused : description.addTokens (number line) (line.map Lexeme.token) = .error error := by
      rw [addTokens_of_offends offends, ← isNumber]
    rw [addLines_append, made]
    simp [refused, bind, Except.bind]

end Lines

/-! ## The lines of a source -/

section Source

variable {source : String} {lexemes : List Lexeme}

/-- The front of a text up to a byte. -/
theorem extract_front {before behind : List Char} (split : source.toList = before ++ behind) :
    (0 : String.Pos.Raw).extract source ⟨(String.ofList before).utf8ByteSize⟩ =
      String.ofList before := by
  have extracted := String.extract_of_valid [] before behind
  rw [List.nil_append, ← split, String.ofList_toList, String.utf8Len_nil, Nat.zero_add,
    ← String.utf8ByteSize_ofList] at extracted
  exact extracted

/-- The place of a lexeme counts the line feeds in front of it. -/
theorem lineNumber_cons (scanned : Lexeme.Scanned {} source.toList lexemes) {first : Lexeme}
    (member : first ∈ lexemes) (rest : List Lexeme) :
    first.start.line + 1 = Source.lineNumber source (first :: rest) := by
  obtain ⟨piece, behind, ⟨before, split, start, -⟩, -⟩ := scanned.written first member
  rw [List.append_assoc] at split
  have line : first.start.line = before.count '\n' := by
    rw [start, Location.line_after, Nat.zero_add]
  have byte : first.start.byte = (String.ofList before).utf8ByteSize := by
    rw [start, Location.byte_after, Nat.zero_add]
  rw [Source.lineNumber, line, byte, extract_front split, String.toList_ofList, Nat.add_comm]

/-- **A file is read by taking in one line after the other**, whatever tells the number and the
tokens of each line. -/
theorem parse_eq_foldlM {Line : Type} {lines : List Line} {number : Line → Nat}
    {tokens : Line → List Token} (isStream : Lexeme.stream {} source.toList = lexemes.map .ok)
    (scanned : Lexeme.Scanned {} source.toList lexemes)
    (same : List.Forall₂ (fun group line => group.map Lexeme.token = tokens line ∧
      ∀ first ∈ group.head?, first.start.line + 1 = number line) (Lexeme.lines lexemes) lines) :
    parse source = lines.foldlM (fun description line =>
      description.addTokens (number line) (tokens line)) {} := by
  rw [parse_eq_foldlM_addLexemes isStream scanned]
  generalize ({} : Description) = description
  generalize Lexeme.lines lexemes = groups at same
  induction same generalizing description with
  | nil => rfl
  | @cons group line groups lines isLine _ ih =>
      obtain ⟨isTokens, isNumber⟩ := isLine
      have isAdded : description.addLexemes group =
          description.addTokens (number line) (tokens line) := by
        rw [← isTokens]
        cases group with
        | nil => rfl
        | cons first rest => rw [← isNumber first rfl, addLexemes]
      rw [List.foldlM_cons, List.foldlM_cons, isAdded]
      congr 1
      funext next
      exact ih next

/-- The lines of a file are those of its lexemes. -/
theorem exists_parse_eq_addLines (source : String) :
    ∃ lexemes, Lexeme.ofText source = .ok lexemes ∧ Lexeme.Scanned {} source.toList lexemes ∧
      (∀ line ∈ Lexeme.lines lexemes, .newline ∉ line.map Lexeme.token) ∧
      parse source = addLines (Source.lineNumber source) (Lexeme.lines lexemes) := by
  obtain ⟨lexemes, isStream, isOk, scanned⟩ := Lexeme.exists_ofText source
  refine ⟨lexemes, isOk, scanned, ?_, ?_⟩
  · intro line isLine isNewline
    obtain ⟨lexeme, member, isToken⟩ := List.mem_map.1 isNewline
    exact (Lexeme.mem_of_mem_lines isLine lexeme member).2 isToken
  · apply parse_eq_foldlM isStream scanned
    rw [List.forall₂_same]
    refine fun line isLine => ⟨rfl, fun first isFirst => ?_⟩
    obtain ⟨rest, rfl⟩ := List.head?_eq_some_iff.1 isFirst
    have inText := (Lexeme.mem_of_mem_lines isLine first List.mem_cons_self).1
    exact lineNumber_cons scanned inText rest

/-- **A file is read exactly as its lines say.** -/
theorem parse_spec (source : String) :
    ∃ lexemes, Lexeme.ofText source = .ok lexemes ∧
      ((∃ description, parse source = .ok description) ↔ Readable (Lexeme.lines lexemes)) ∧
      (∀ description, parse source = .ok description →
        Describes (Source.lineNumber source) (Lexeme.lines lexemes) description) ∧
      (∀ error, parse source = .error error ↔
        ∃ before line behind, Lexeme.lines lexemes = before ++ line :: behind ∧ Readable before ∧
          Offends (∃ earlier ∈ before, IsStart (earlier.map Lexeme.token))
            (line.map Lexeme.token) error.fault ∧ error.line = Source.lineNumber source line) ∧
      ∀ line column, parse source ≠ .error ⟨line, .unrecognized column⟩ := by
  obtain ⟨lexemes, isOk, -, inLines, isRead⟩ := exists_parse_eq_addLines source
  rw [isRead]
  refine ⟨lexemes, isOk, exists_addLines_iff _ inLines, fun _ => describes_of_addLines inLines,
    fun _ => addLines_eq_error_iff inLines, fun line column refused => ?_⟩
  obtain ⟨_, _, _, -, -, offends, -⟩ := (addLines_eq_error_iff inLines).1 refused
  exact offends.ne_unrecognized column rfl

end Source

end Description

end ShiftReduce
