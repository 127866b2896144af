import ShiftReduce.Proofs.Source.Printed

/-!
# Texts joined by a line feed

A text may be cut at any character that ends a line. The part in front of it is read first, and the
part behind it is read with what the first part says and with the line feeds counted so far
(`readFrom_append_lineEnd`). The carriage returns in front of a line feed need no care here: each of
them would end a blank line, and a blank line says nothing (`readFrom_eq_readLines`).

Counting lines from further down moves the lines of the rules and of an error. An earlier text adds
its rules in front, and its start symbol turns a start symbol of the later text into an error at its
line (`readLines_followedBy`). So what two texts say when they are joined by a line feed is told by
what they say alone (`composes_parse`).
-/

set_option autoImplicit false

namespace ShiftReduce

/-! ## Cutting a text at a line end -/

namespace Source

/-- A whole line of a text, and its number, which the line feeds in front of it give. -/
structure IsLine (text : List Char) (number : Nat) (line : List Char) : Prop where
  inLine : ∀ character ∈ line, isLineEnd character = false
  whole : ∃ before behind, text = before ++ line ++ behind ∧
    (∀ character, before.getLast? = some character → isLineEnd character = true) ∧
    (∀ character, behind.head? = some character → isLineEnd character = true) ∧
    number = 1 + before.count '\n'

variable {ending : Char}

theorem numbered_cons_lineEnd (isEnd : isLineEnd ending = true) (number : Nat)
    (behind : List Char) :
    numbered number (ending :: behind) =
      (number, []) :: numbered (number + [ending].count '\n') behind := by
  rw [numbered, if_pos isEnd]
  by_cases isFeed : ending = '\n'
  · subst isFeed
    rfl
  · simp [isFeed]

/-- The lines on both sides of a line end are the lines of both parts of the text. -/
theorem numbered_append_lineEnd (isEnd : isLineEnd ending = true) (number : Nat)
    (before behind : List Char) :
    numbered number (before ++ ending :: behind) =
      numbered number before ++ numbered (number + (before ++ [ending]).count '\n') behind := by
  induction before generalizing number with
  | nil => exact numbered_cons_lineEnd isEnd number behind
  | cons first rest ih =>
      by_cases isEnd' : isLineEnd first = true
      · have counted : number + [first].count '\n' + (rest ++ [ending]).count '\n' =
            number + (first :: rest ++ [ending]).count '\n' := by
          rw [Nat.add_assoc, ← List.count_append]
          rfl
        rw [List.cons_append, numbered_cons_lineEnd isEnd', ih, counted,
          numbered_cons_lineEnd isEnd']
        rfl
      · have noFeed : first ≠ '\n' := by
          rintro rfl
          exact isEnd' rfl
        have counted : (first :: rest ++ [ending]).count '\n' = (rest ++ [ending]).count '\n' :=
          List.count_cons_of_ne noFeed
        obtain ⟨line, others, isCons, -⟩ := exists_numbered_eq_cons number rest
        rw [List.cons_append, numbered, if_neg isEnd', ih, counted, numbered, if_neg isEnd', isCons]
        rfl

/-- Counting from further down moves the numbers of all lines. -/
theorem numbered_add (number lines : Nat) (text : List Char) :
    numbered (number + lines) text = (numbered number text).map (Prod.map (· + lines) id) := by
  induction text generalizing number with
  | nil => rfl
  | cons first rest ih =>
      by_cases isEnd : isLineEnd first = true
      · rw [numbered_cons_lineEnd isEnd, numbered_cons_lineEnd isEnd, Nat.add_right_comm, ih]
        rfl
      · rw [numbered, if_neg isEnd, numbered, if_neg isEnd, ih]
        cases numbered number rest <;> rfl

/-- A text is a single line, or a shorter text and its last line with a line end between them. -/
theorem lastLine_induction {motive : List Char → Prop}
    (single : ∀ line, (∀ character ∈ line, isLineEnd character = false) → motive line)
    (append : ∀ before ending line, isLineEnd ending = true →
      (∀ character ∈ line, isLineEnd character = false) → motive before →
        motive (before ++ ending :: line))
    (text : List Char) : motive text := by
  suffices general : ∀ line, (∀ character ∈ line, isLineEnd character = false) →
      motive (text ++ line) by
    simpa using general [] (by simp)
  induction text using List.reverseRecOn with
  | nil => exact single
  | append_singleton before last ih =>
      intro line inLine
      rw [List.append_assoc, List.singleton_append]
      by_cases isEnd : isLineEnd last = true
      · refine append before last line isEnd inLine ?_
        simpa using ih [] (by simp)
      · exact ih (last :: line) (List.forall_mem_cons.2 ⟨by simpa using isEnd, inLine⟩)

/-- The numbered lines of a text are whole lines of it. -/
theorem isLine_of_mem_numbered {text : List Char} {entry : Nat × List Char}
    (member : entry ∈ numbered 1 text) : IsLine text entry.1 entry.2 := by
  induction text using lastLine_induction with
  | single line inLine =>
      rw [numbered_of_inLine inLine, List.mem_singleton] at member
      subst member
      exact ⟨inLine, [], [], by simp⟩
  | append before ending line isEnd inLine ih =>
      rw [numbered_append_lineEnd isEnd, numbered_of_inLine inLine, List.mem_append,
        List.mem_singleton] at member
      rcases member with earlier | rfl
      · obtain ⟨inLine, front, behind, rfl, begins, ends, isNumber⟩ := ih earlier
        refine ⟨inLine, front, behind ++ ending :: line, by simp, begins, ?_, isNumber⟩
        cases behind with
        | nil =>
            rintro _ ⟨⟩
            exact isEnd
        | cons first behind => exact ends
      · refine ⟨inLine, before ++ [ending], [], by simp, ?_, by simp, rfl⟩
        simpa using isEnd

theorem newline_notMem_lineTokens (line : List Char) : .newline ∉ lineTokens line := by
  intro member
  obtain ⟨word, -, isNewline⟩ := List.mem_map.1 member
  exact Token.ofWord_ne_newline word isNewline

end Source

namespace Description

open Source

/-! ## Reading numbered lines -/

/-- Read lines that have numbers. -/
def readLines (description : Description) (lines : List (Nat × List Char)) :
    Except SyntaxError Description :=
  lines.foldlM (fun description line => description.addTokens line.1 (lineTokens line.2))
    description

theorem readLines_cons (description : Description) (line : Nat × List Char)
    (lines : List (Nat × List Char)) :
    description.readLines (line :: lines) =
      description.addTokens line.1 (lineTokens line.2) >>= fun next => next.readLines lines :=
  List.foldlM_cons

theorem readLines_append (description : Description) (lines later : List (Nat × List Char)) :
    description.readLines (lines ++ later) =
      description.readLines lines >>= fun next => next.readLines later :=
  List.foldlM_append

/-- A blank line says nothing. -/
theorem readLines_blank (description : Description) (number : Nat)
    (lines : List (Nat × List Char)) :
    description.readLines ((number, []) :: lines) = description.readLines lines :=
  readLines_cons description _ lines

/-- A carriage return in front of a line end only ends a blank line. -/
theorem readLines_return {ending : Char} (isEnd : isLineEnd ending = true)
    (description : Description) (number : Nat) (before behind : List Char) :
    description.readLines (numbered number (before ++ '\r' :: ending :: behind)) =
      description.readLines (numbered number (before ++ ending :: behind)) := by
  have isReturn : isLineEnd '\r' = true := rfl
  have counted : number + (before ++ ['\r']).count '\n' + [ending].count '\n' =
      number + (before ++ [ending]).count '\n' := by
    rw [List.count_append, List.count_append, List.count_eq_zero_of_not_mem (l := ['\r'])
      (by decide), Nat.add_zero, Nat.add_assoc]
  rw [numbered_append_lineEnd isReturn, numbered_append_lineEnd isEnd, numbered_cons_lineEnd isEnd,
    readLines_append, readLines_append, counted]
  simp only [readLines_blank]

/-- Joining line ends only drops blank lines. -/
theorem readLines_joinLineEnds (description : Description) (number : Nat)
    (before text : List Char) :
    description.readLines (numbered number (before ++ joinLineEnds text)) =
      description.readLines (numbered number (before ++ text)) := by
  induction text generalizing description number before with
  | nil => rfl
  | cons first rest ih =>
      rw [joinLineEnds]
      split
      · next fed =>
        obtain ⟨rfl, fed⟩ := fed
        rw [ih]
        -- The rest of the run begins with a line end, so that the return ends a blank line.
        obtain ⟨second, rest, rfl, isEnd⟩ : ∃ second behind, rest = second :: behind ∧
            isLineEnd second = true := by
          cases rest with
          | nil => cases fed
          | cons second behind =>
              refine ⟨second, behind, rfl, ?_⟩
              by_cases isReturn : second = '\r'
              · subst isReturn
                rfl
              · rw [List.dropWhile_cons, if_neg (by simpa using isReturn)] at fed
                cases fed
                rfl
        exact (readLines_return isEnd description number before rest).symm
      · next unfed =>
        by_cases isEnd : isLineEnd first = true
        · rw [numbered_append_lineEnd isEnd, numbered_append_lineEnd isEnd, readLines_append,
            readLines_append]
          congr 1
          funext next
          exact ih next _ []
        · simpa using ih description number (before ++ [first])

/-- **A text is read line by line, whatever ends its lines.** -/
theorem readFrom_eq_readLines (description : Description) (number : Nat) (text : List Char) :
    description.readFrom number text = description.readLines (numbered number text) :=
  readLines_joinLineEnds description number [] text

/-- **A text is read up to the end of a line, and from there on.** -/
theorem readFrom_append_lineEnd {ending : Char} (isEnd : isLineEnd ending = true)
    (description : Description) (number : Nat) (before behind : List Char) :
    description.readFrom number (before ++ ending :: behind) =
      description.readFrom number before >>= fun next =>
        next.readFrom (number + (before ++ [ending]).count '\n') behind := by
  simp only [readFrom_eq_readLines, numbered_append_lineEnd isEnd, readLines_append]

/-! ## What an earlier text changes -/

/-- The rules of the first description and then those of the second one, whose lines are moved down,
with the start symbol of either. -/
def followedBy (first : Description) (lines : Nat) (second : Description) : Description where
  start := first.start.or second.start
  rules := first.rules ++ second.rules.map fun rule => { rule with line := rule.line + lines }

section Cons

variable {description next : Description} {line : Nat × List Char} {text : List (Nat × List Char)}

/-- Reading lines begins with taking in the first one. -/
theorem readLines_cons_eq_ok_iff : description.readLines (line :: text) = .ok next ↔
    ∃ middle, description.Takes line.1 (lineTokens line.2) middle ∧
      middle.readLines text = .ok next := by
  rw [readLines_cons]
  constructor
  · intro read
    rcases takes_or_offends description line.1 (newline_notMem_lineTokens line.2) with
      ⟨middle, takes⟩ | ⟨fault, offends⟩
    · rw [takes.addTokens] at read
      exact ⟨middle, takes, read⟩
    · rw [addTokens_of_offends offends] at read
      cases read
  · rintro ⟨middle, takes, read⟩
    rw [takes.addTokens]
    exact read

/-- Reading lines fails at the first one or behind it. -/
theorem exists_of_readLines_cons_eq_error {error : SyntaxError}
    (refused : description.readLines (line :: text) = .error error) :
    Line.Offends (description.start ≠ none) (lineTokens line.2) error.fault ∧ error.line = line.1 ∨
      ∃ middle, description.Takes line.1 (lineTokens line.2) middle ∧
        middle.readLines text = .error error := by
  rw [readLines_cons] at refused
  rcases takes_or_offends description line.1 (newline_notMem_lineTokens line.2) with
    ⟨middle, takes⟩ | ⟨fault, offends⟩
  · rw [takes.addTokens] at refused
    exact .inr ⟨middle, takes, refused⟩
  · rw [addTokens_of_offends offends] at refused
    cases refused
    exact .inl ⟨offends, rfl⟩

theorem readLines_of_offends {fault : SyntaxFault}
    (offends : Line.Offends (description.start ≠ none) (lineTokens line.2) fault) :
    description.readLines (line :: text) = .error ⟨line.1, fault⟩ := by
  rw [readLines_cons, addTokens_of_offends offends]
  rfl

end Cons

section Followed

variable {first second next : Description} {number lines : Nat} {tokens : List Token}

/-- A start symbol stays declared. -/
theorem Takes.start_eq_some (takes : second.Takes number tokens next) {name : String}
    (isStart : second.start = some name) : next.start = some name := by
  cases takes with
  | blank => exact isStart
  | start other unset =>
      rw [unset] at isStart
      cases isStart
  | rule => exact isStart

/-- Only a line that declares a start symbol gives one. -/
theorem Takes.tokens_eq (takes : second.Takes number tokens next) {name : String}
    (unset : second.start = none) (isStart : next.start = some name) :
    tokens = [.start, .symbol name] := by
  cases takes with
  | blank =>
      rw [unset] at isStart
      cases isStart
  | start other =>
      cases isStart
      rfl
  | rule =>
      rw [unset] at isStart
      cases isStart

theorem readLines_start_eq_some {text : List (Nat × List Char)} {name : String}
    (read : second.readLines text = .ok next) (isStart : second.start = some name) :
    next.start = some name := by
  induction text generalizing second with
  | nil =>
      cases read
      exact isStart
  | cons line text ih =>
      obtain ⟨middle, takes, read⟩ := readLines_cons_eq_ok_iff.1 read
      exact ih read (takes.start_eq_some isStart)

theorem start_eq_none_of_readLines {text : List (Nat × List Char)}
    (read : second.readLines text = .ok next) (unset : next.start = none) :
    second.start = none := by
  rw [Option.eq_none_iff_forall_ne_some]
  intro name isStart
  rw [readLines_start_eq_some read isStart] at unset
  cases unset

/-- **A line that is taken in is taken in behind an earlier text, unless both declare a start
symbol.** -/
theorem Takes.followedBy (takes : second.Takes number tokens next) (first : Description)
    (lines : Nat) (single : first.start = none ∨ next.start = none) :
    (first.followedBy lines second).Takes (number + lines) tokens
      (first.followedBy lines next) := by
  cases takes with
  | blank => exact .blank
  | start name unset =>
      have unset' : first.start = none := single.resolve_right (Option.some_ne_none name)
      have isNext : first.followedBy lines { second with start := some name } =
          { first.followedBy lines second with start := some name } := by
        simp [Description.followedBy, unset']
      rw [isNext]
      exact .start name (by simp [Description.followedBy, unset', unset])
  | @rule rule ne_nil =>
      have isNext : first.followedBy lines
          { second with rules := second.rules.push { rule with line := number } } =
          { first.followedBy lines second with
            rules := (first.followedBy lines second).rules.push
              { rule with line := number + lines } } := by
        simp [Description.followedBy]
      rw [isNext]
      exact .rule ne_nil

/-- Without a start symbol an earlier text leaves the faults of later lines as they are. -/
theorem start_followedBy (lines : Nat) (unset : first.start = none) :
    (first.followedBy lines second).start = second.start := by
  rw [Description.followedBy, unset, Option.none_or]

variable {text : List (Nat × List Char)}

/-- Lines that can be read are read behind an earlier text, unless both declare a start symbol. -/
theorem readLines_followedBy (read : second.readLines text = .ok next)
    (single : first.start = none ∨ next.start = none) :
    (first.followedBy lines second).readLines (text.map (Prod.map (· + lines) id)) =
      .ok (first.followedBy lines next) := by
  induction text generalizing second with
  | nil =>
      cases read
      rfl
  | cons line text ih =>
      obtain ⟨middle, takes, read⟩ := readLines_cons_eq_ok_iff.1 read
      have singleHere : first.start = none ∨ middle.start = none :=
        single.imp_right (start_eq_none_of_readLines read)
      exact readLines_cons_eq_ok_iff.2
        ⟨_, takes.followedBy first lines singleHere, ih read⟩

/-- The first line that offends does so behind a text without a start symbol. -/
theorem readLines_followedBy_error {error : SyntaxError} (unset : first.start = none)
    (refused : second.readLines text = .error error) :
    (first.followedBy lines second).readLines (text.map (Prod.map (· + lines) id)) =
      .error { error with line := error.line + lines } := by
  induction text generalizing second with
  | nil => cases refused
  | cons line text ih =>
      rw [List.map_cons]
      rcases exists_of_readLines_cons_eq_error refused with ⟨offends, isLine⟩ |
        ⟨middle, takes, refused⟩
      · rw [← start_followedBy lines unset] at offends
        rw [isLine]
        exact readLines_of_offends offends
      · rw [readLines_cons, Prod.map_fst, Prod.map_snd, id,
          (takes.followedBy first lines (.inl unset)).addTokens]
        exact ih refused

/-- A start symbol is refused behind a text that declares one. -/
theorem readLines_followedBy_start (lines : Nat) {name : String} (started : first.start ≠ none)
    (unset : second.start = none) (read : second.readLines text = .ok next)
    (isStart : next.start = some name) :
    ∃ line ∈ text, lineTokens line.2 = [.start, .symbol name] ∧
      (first.followedBy lines second).readLines (text.map (Prod.map (· + lines) id)) =
        .error ⟨line.1 + lines, .duplicatedStart⟩ := by
  induction text generalizing second with
  | nil =>
      cases read
      rw [unset] at isStart
      cases isStart
  | cons line text ih =>
      obtain ⟨middle, takes, read⟩ := readLines_cons_eq_ok_iff.1 read
      by_cases isHere : middle.start = none
      · obtain ⟨declaring, member, isTokens, refused⟩ := ih isHere read
        refine ⟨declaring, List.mem_cons_of_mem line member, isTokens, ?_⟩
        rw [List.map_cons, readLines_cons, Prod.map_fst, Prod.map_snd, id,
          (takes.followedBy first lines (.inr isHere)).addTokens]
        exact refused
      · obtain ⟨other, isOther⟩ := Option.ne_none_iff_exists'.1 isHere
        obtain rfl : other = name := by
          rw [readLines_start_eq_some read isOther] at isStart
          exact Option.some.inj isStart
        have isTokens := takes.tokens_eq unset isOther
        refine ⟨line, List.mem_cons_self, isTokens, readLines_of_offends ?_⟩
        rw [Prod.map_snd, id, isTokens]
        refine .duplicatedStart other fun missing => started ?_
        exact (Option.or_eq_none_iff.1 missing).1

end Followed

/-! ## Two texts -/

/-- How many lines two texts that are joined by a line feed have in front of the second one. -/
def linesBefore (first : String) : Nat :=
  1 + first.toList.count '\n'

/-- A text that is joined to an earlier one is read with what the earlier one says. -/
theorem parse_joined (first second : String) :
    parse (first ++ "\n" ++ second) = parse first >>= fun before =>
      (before.followedBy (linesBefore first) {}).readLines
        ((numbered 1 second.toList).map (Prod.map (· + linesBefore first) id)) := by
  have split : (first ++ "\n" ++ second).toList = first.toList ++ '\n' :: second.toList := by
    simp
  have counted : 1 + (first.toList ++ ['\n']).count '\n' = 1 + linesBefore first := by
    simp [linesBefore, Nat.add_comm 1 (List.count _ _)]
  rw [parse_eq_readFrom, parse_eq_readFrom, split,
    readFrom_append_lineEnd (show isLineEnd '\n' = true from rfl), counted]
  congr 1
  funext before
  have isFirst : before.followedBy (linesBefore first) {} = before := by
    simp [Description.followedBy]
  rw [readFrom_eq_readLines, numbered_add, isFirst]

/-- What is read from two texts with a line feed between them, told by what is read from each. -/
structure Composes (first second : String) : Prop where
  /-- An error in the first text is the error of both. -/
  firstError : ∀ error, parse first = .error error →
    parse (first ++ "\n" ++ second) = .error error
  /-- Texts that can be read, with at most one start symbol, give both their rules. -/
  description : ∀ before behind, parse first = .ok before → parse second = .ok behind →
    before.start = none ∨ behind.start = none →
      parse (first ++ "\n" ++ second) = .ok (before.followedBy (linesBefore first) behind)
  /-- Behind a text without a start symbol an error in the second text is the error of both. -/
  secondError : ∀ before error, parse first = .ok before → before.start = none →
    parse second = .error error →
      parse (first ++ "\n" ++ second) =
        .error { error with line := error.line + linesBefore first }
  /-- Of two start symbols the second one is refused, at its line. -/
  duplicatedStart : ∀ before behind name, parse first = .ok before → before.start ≠ none →
    parse second = .ok behind → behind.start = some name →
      ∃ number line, IsLine second.toList number line ∧
        lineTokens line = [.start, .symbol name] ∧
        parse (first ++ "\n" ++ second) =
          .error ⟨number + linesBefore first, .duplicatedStart⟩

/-- **Texts joined by a line feed are read as what they say alone.** -/
theorem composes_parse (first second : String) : Composes first second := by
  have alone : parse second = readLines {} (numbered 1 second.toList) := by
    rw [parse_eq_readFrom, readFrom_eq_readLines]
  constructor
  case firstError =>
    intro error refused
    rw [parse_joined, refused]
    rfl
  case description =>
    intro before behind readFirst readSecond single
    rw [parse_joined, readFirst]
    exact readLines_followedBy (alone.symm.trans readSecond) single
  case secondError =>
    intro before error readFirst unset refused
    rw [parse_joined, readFirst]
    exact readLines_followedBy_error unset (alone.symm.trans refused)
  case duplicatedStart =>
    intro before behind name readFirst started readSecond isStart
    obtain ⟨line, member, isTokens, refused⟩ :=
      readLines_followedBy_start (linesBefore first) started rfl (alone.symm.trans readSecond)
        isStart
    refine ⟨line.1, line.2, isLine_of_mem_numbered member, isTokens, ?_⟩
    rw [parse_joined, readFirst]
    exact refused

-- The first text ends in a comment and returns, and the line feed makes them one line end.
example : Description.parse ("S -> a // b\r\r" ++ "\n" ++ "\n@start S") =
    .ok ⟨some "S", #[⟨⟨"S", ["a"]⟩, 1⟩]⟩ := by
  decide +kernel

end Description

end ShiftReduce
