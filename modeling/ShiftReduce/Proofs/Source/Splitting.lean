import Mathlib.Data.List.Forall2
import ShiftReduce.Proofs.Source.Scanned

/-!
# Lines and words

A text can be cut into tokens without looking for longest matches. It is cut into lines at its line
ends, each line into words at its spaces and tabs, and a line ends early at the first word that
begins with two slashes (`Source.tokens`). The carriage returns in front of a line feed belong to
its line end, and any other carriage return is a line end of its own (`Source.joinLineEnds`).

The lexemes of a text, cut at their line ends, are these lines one after the other, each with the
number that the line feeds before it give (`lines_of_scanned`). So the tokens of a text are those of
its lines (`map_token_of_scanned`).
-/

set_option autoImplicit false

namespace ShiftReduce

namespace Source

/-! ## Cutting at line ends and at spacing -/

/-- The text without the carriage returns that belong to the line end of a line feed. -/
def joinLineEnds : List Char → List Char
  | [] => []
  | first :: rest =>
    if first = '\r' ∧ (rest.dropWhile (· == '\r')).head? = some '\n' then joinLineEnds rest
    else first :: joinLineEnds rest

/-- The lines of a text. -/
def lines (text : List Char) : List (List Char) :=
  (joinLineEnds text).splitOnP isLineEnd

/-- The words of a line: its longest runs without spaces and tabs. -/
def words (line : List Char) : List (List Char) :=
  (line.splitOnP isSpacing).filter (· ≠ [])

/-- The tokens of a line: those of its words in front of a comment. -/
def lineTokens (line : List Char) : List Token :=
  ((words line).takeWhile fun word => !slashes.isPrefixOf word).map Token.ofWord

/-- The tokens of a text: those of its lines, with a line end between two of them. -/
def tokens (text : List Char) : List Token :=
  [Token.newline].intercalate ((lines text).map lineTokens)

/-- The lines of a text with single line ends, each with its number. Only a line feed counts. -/
def numbered (number : Nat) : List Char → List (Nat × List Char)
  | [] => [(number, [])]
  | first :: rest =>
    if isLineEnd first then
      (number, []) :: numbered (if first = '\n' then number + 1 else number) rest
    else (numbered number rest).modifyHead (Prod.map id (first :: ·))

variable {piece rest line : List Char} {number : Nat}

/-! ## Pieces of lines -/

theorem numbered_append (inLine : ∀ character ∈ piece, isLineEnd character = false) :
    numbered number (piece ++ rest) =
      (numbered number rest).modifyHead (Prod.map id (piece ++ ·)) := by
  induction piece with
  | nil =>
      rw [List.nil_append]
      cases numbered number rest <;> rfl
  | cons first piece ih =>
      obtain ⟨here, behind⟩ := List.forall_mem_cons.1 inLine
      rw [List.cons_append, numbered, if_neg (by simp [here]), ih behind]
      cases numbered number rest <;> rfl

/-- A text without a line end is a single line. -/
theorem numbered_of_inLine (inLine : ∀ character ∈ piece, isLineEnd character = false) :
    numbered number piece = [(number, piece)] := by
  have isNumbered := @numbered_append piece [] number inLine
  rw [List.append_nil] at isNumbered
  rw [isNumbered, numbered, List.modifyHead_cons, Prod.map_apply, List.append_nil]
  rfl

theorem map_snd_numbered (number : Nat) (text : List Char) :
    (numbered number text).map Prod.snd = text.splitOnP isLineEnd := by
  induction text generalizing number with
  | nil => simp [numbered]
  | cons first rest ih =>
      rw [numbered, List.splitOnP_cons_eq_if_modifyHead]
      split
      · rw [List.map_cons, ih]
      · rw [← ih number]
        cases numbered number rest <;> rfl

/-- The first line has the given number, and it is empty unless the text begins in a line. -/
theorem exists_numbered_eq_cons (number : Nat) (text : List Char) :
    ∃ line others, numbered number text = (number, line) :: others ∧
      ∀ character, line.head? = some character →
        text.head? = some character ∧ isLineEnd character = false := by
  induction text with
  | nil => exact ⟨[], [], rfl, fun _ => by simp⟩
  | cons first rest ih =>
      by_cases isEnd : isLineEnd first = true
      · refine ⟨[], _, by rw [numbered, if_pos isEnd], fun _ => by simp⟩
      · obtain ⟨line, others, isRest, -⟩ := ih
        refine ⟨first :: line, others, by rw [numbered, if_neg isEnd, isRest]; rfl, ?_⟩
        rintro _ ⟨⟩
        exact ⟨rfl, by simpa using isEnd⟩

theorem joinLineEnds_append (inLine : ∀ character ∈ piece, isLineEnd character = false) :
    joinLineEnds (piece ++ rest) = piece ++ joinLineEnds rest := by
  induction piece with
  | nil => rfl
  | cons first piece ih =>
      obtain ⟨here, behind⟩ := List.forall_mem_cons.1 inLine
      have noReturn : first ≠ '\r' := by
        rintro rfl
        cases here
      rw [List.cons_append, joinLineEnds, if_neg (fun both => noReturn both.1), ih behind,
        List.cons_append]

theorem joinLineEnds_lineFeed (returns : Nat) :
    joinLineEnds (List.replicate returns '\r' ++ ['\n'] ++ rest) = '\n' :: joinLineEnds rest := by
  induction returns with
  | zero => simp [joinLineEnds]
  | succ returns ih =>
      have fed : (List.dropWhile (· == '\r')
          (List.replicate returns '\r' ++ ['\n'] ++ rest)).head? = some '\n' := by
        rw [List.append_assoc, List.dropWhile_append_of_pos (by simp)]
        rfl
      rw [List.replicate_succ, List.cons_append, List.cons_append, joinLineEnds, if_pos ⟨rfl, fed⟩,
        ih]

/-- A text whose joined lines begin in a line begins there itself. -/
theorem head?_of_head?_joinLineEnds {character : Char} (inLine : isLineEnd character = false) :
    (joinLineEnds rest).head? = some character → rest.head? = some character := by
  induction rest with
  | nil => exact id
  | cons first rest ih =>
      rw [joinLineEnds]
      split
      · next fed =>
        intro isHead
        cases rest with
        | nil => cases isHead
        | cons second rest =>
            cases ih isHead
            have notReturn : ¬(character == '\r') = true := by
              rintro isReturn
              rw [eq_of_beq isReturn] at inLine
              cases inLine
            have isFeed := fed.2
            rw [List.dropWhile_cons, if_neg notReturn] at isFeed
            cases isFeed
            cases inLine
      · exact id

theorem words_append_spacing (all : ∀ character ∈ piece, isSpacing character = true) :
    words (piece ++ line) = words line := by
  induction piece with
  | nil => rfl
  | cons first piece ih =>
      obtain ⟨here, behind⟩ := List.forall_mem_cons.1 all
      rw [List.cons_append, words, List.splitOnP_cons_eq_if_modifyHead, if_pos here, ← ih behind]
      rfl

theorem words_append_word (isWord : IsWord piece)
    (spaced : ∀ character, line.head? = some character → isSpacing character = true) :
    words (piece ++ line) = piece :: words line := by
  have noSpacing : ∀ character ∈ piece, isSpacing character = false := fun character member =>
    isSpacing_eq_false (isWord.chars character member)
  cases line with
  | nil =>
      rw [List.append_nil, words, List.splitOnP_eq_singleton noSpacing]
      simp [words, isWord.ne_nil]
  | cons first rest =>
      have isSpace := spaced first rfl
      rw [words, List.splitOnP_append_cons_of_forall_mem noSpacing first isSpace,
        List.filter_cons_of_pos (by simp [isWord.ne_nil]), words,
        List.splitOnP_cons_eq_if_modifyHead, if_pos isSpace]
      rfl

theorem lineTokens_append_spacing (all : ∀ character ∈ piece, isSpacing character = true) :
    lineTokens (piece ++ line) = lineTokens line := by
  rw [lineTokens, words_append_spacing all, lineTokens]

theorem lineTokens_append_word (isWord : IsWord piece)
    (spaced : ∀ character, line.head? = some character → isSpacing character = true) :
    lineTokens (piece ++ line) = Token.ofWord piece :: lineTokens line := by
  have goesOn : (!slashes.isPrefixOf piece) = true := by
    rw [Bool.not_eq_true', Bool.eq_false_iff, Ne, List.isPrefixOf_iff_prefix]
    exact isWord.noComment
  rw [lineTokens, words_append_word isWord spaced, List.takeWhile_cons, if_pos goesOn,
    List.map_cons, lineTokens]

/-- A line has no tokens from a comment on. -/
theorem lineTokens_comment (isComment : IsComment piece) : lineTokens piece = [] := by
  obtain @⟨body, -⟩ := isComment
  obtain ⟨first, others, isSplit⟩ :=
    List.exists_cons_of_ne_nil (List.splitOnP_ne_nil isSpacing body)
  have isWords : words ('/' :: '/' :: body) =
      ('/' :: '/' :: first) :: others.filter (· ≠ []) := by
    rw [words, List.splitOnP_cons_eq_if_modifyHead, List.splitOnP_cons_eq_if_modifyHead, isSplit]
    rfl
  rw [lineTokens, isWords]
  rfl

/-- A line end of any kind becomes a single character, and counts if it has a line feed. -/
theorem numbered_lineEnd (lineEnd : IsLineEnd piece rest) :
    numbered number (joinLineEnds (piece ++ rest)) =
      (number, []) :: numbered (number + piece.count '\n') (joinLineEnds rest) := by
  cases lineEnd with
  | lineFeed returns =>
      have counted : (List.replicate returns '\r' ++ ['\n']).count '\n' = 1 := by
        simp [List.count_replicate]
      rw [joinLineEnds_lineFeed, counted]
      rfl
  | carriageReturn unfed =>
      rw [List.singleton_append, joinLineEnds, if_neg fun both => unfed both.2]
      rfl

end Source

/-! ## Lexemes between line ends -/

namespace Lexeme

/-- The lexemes of a text, cut at its line ends. -/
def lines (lexemes : List Lexeme) : List (List Lexeme) :=
  lexemes.splitOnP fun lexeme => lexeme.token == .newline

/-- The lexemes of a line that has a number. -/
structure OfLine (lexemes : List Lexeme) (line : Nat × List Char) : Prop where
  tokens : lexemes.map token = Source.lineTokens line.2
  number : ∀ lexeme ∈ lexemes, lexeme.start.line + 1 = line.1

theorem lines_cons (first : Lexeme) (rest : List Lexeme) :
    lines (first :: rest) = if (first.token == .newline) = true then [] :: lines rest
      else (lines rest).modifyHead (first :: ·) :=
  List.splitOnP_cons_eq_if_modifyHead first rest

theorem lines_newline (start stop : Location) (lexemes : List Lexeme) :
    lines (⟨.newline, start, stop⟩ :: lexemes) = [] :: lines lexemes := by
  rw [lines_cons, if_pos (by rfl)]

theorem lines_ofWord (word : List Char) (start stop : Location) (lexemes : List Lexeme) :
    lines (⟨Token.ofWord word, start, stop⟩ :: lexemes) =
      (lines lexemes).modifyHead (⟨Token.ofWord word, start, stop⟩ :: ·) := by
  rw [lines_cons, if_neg (by simp [Token.ofWord_ne_newline])]

/-- The lexemes of a line are lexemes of the text, and none of them is a line end. -/
theorem mem_of_mem_lines {lexemes line : List Lexeme} (isLine : line ∈ lines lexemes) :
    ∀ lexeme ∈ line, lexeme ∈ lexemes ∧ lexeme.token ≠ .newline := by
  induction lexemes generalizing line with
  | nil =>
      rw [lines, List.splitOnP_nil, List.mem_singleton] at isLine
      simp [isLine]
  | cons first rest ih =>
      have later {line : List Lexeme} (isLater : line ∈ lines rest) :
          ∀ lexeme ∈ line, lexeme ∈ first :: rest ∧ lexeme.token ≠ .newline :=
        fun lexeme member => ⟨List.mem_cons_of_mem _ (ih isLater lexeme member).1,
          (ih isLater lexeme member).2⟩
      rw [lines_cons] at isLine
      split at isLine
      · rcases List.mem_cons.1 isLine with rfl | isLater
        · simp
        · exact later isLater
      · next isToken =>
        obtain ⟨line', others, isCons⟩ := List.exists_cons_of_ne_nil
          (List.splitOnP_ne_nil (fun lexeme => lexeme.token == Token.newline) rest)
        change lines rest = line' :: others at isCons
        rw [isCons] at isLine later
        rcases List.mem_cons.1 isLine with rfl | isLater
        · rw [List.forall_mem_cons]
          refine ⟨⟨List.mem_cons_self, by simpa using isToken⟩, later List.mem_cons_self⟩
        · exact later (List.mem_cons_of_mem _ isLater)

/-- The place behind a piece without line ends is in the same line. -/
theorem line_after_of_inLine {piece : List Char} (location : Location)
    (inLine : ∀ character ∈ piece, isLineEnd character = false) :
    (location.after piece).line = location.line := by
  have noFeed : '\n' ∉ piece := fun isFeed => by
    have := inLine _ isFeed
    cases this
  rw [Location.line_after, List.count_eq_zero_of_not_mem noFeed, Nat.add_zero]

/-- A piece without line ends is in front of the first line of the rest of its text. This line goes
on with the rest, unless the rest begins with a line end. -/
theorem forall₂_ofLine_append {location : Location} {piece rest : List Char}
    {groups : List (List Lexeme)} (extend : List Lexeme → List Lexeme)
    (inLine : ∀ character ∈ piece, isLineEnd character = false)
    (ofLines : List.Forall₂ OfLine groups
      (Source.numbered ((location.after piece).line + 1) (Source.joinLineEnds rest)))
    (extended : ∀ group line, OfLine group (location.line + 1, line) →
      (∀ character, line.head? = some character →
        rest.head? = some character ∧ isLineEnd character = false) →
      OfLine (extend group) (location.line + 1, piece ++ line)) :
    List.Forall₂ OfLine (groups.modifyHead extend)
      (Source.numbered (location.line + 1) (Source.joinLineEnds (piece ++ rest))) := by
  obtain ⟨line, lines, isNumbered, begins⟩ :=
    Source.exists_numbered_eq_cons (location.line + 1) (Source.joinLineEnds rest)
  rw [line_after_of_inLine location inLine, isNumbered] at ofLines
  obtain ⟨group, others, ofLine, ofOthers, rfl⟩ := List.forall₂_cons_right_iff.1 ofLines
  rw [Source.joinLineEnds_append inLine, Source.numbered_append inLine, isNumbered]
  refine .cons (extended group line ofLine fun character isHead => ?_) ofOthers
  obtain ⟨inText, noEnd⟩ := begins character isHead
  exact ⟨Source.head?_of_head?_joinLineEnds noEnd inText, noEnd⟩

/-- **The lexemes of a text, cut at their line ends, are those of its numbered lines.** -/
theorem lines_of_scanned {location : Location} {text : List Char} {lexemes : List Lexeme}
    (scanned : Scanned location text lexemes) :
    List.Forall₂ OfLine (lines lexemes)
      (Source.numbered (location.line + 1) (Source.joinLineEnds text)) := by
  induction scanned with
  | nil location => exact .cons ⟨rfl, by simp⟩ .nil
  | @spacing location piece rest lexemes _ all _ _ ih =>
      have inLine : ∀ character ∈ piece, isLineEnd character = false := fun character member =>
        isLineEnd_of_isSpacing (all character member)
      have unchanged : (lines lexemes).modifyHead id = lines lexemes :=
        congrFun List.modifyHead_id _
      rw [← unchanged]
      apply forall₂_ofLine_append id inLine ih
      intro group line ofLine _
      exact ⟨ofLine.tokens.trans (Source.lineTokens_append_spacing all).symm, ofLine.number⟩
  | @comment location piece rest lexemes isComment stops _ ih =>
      have unchanged : (lines lexemes).modifyHead id = lines lexemes :=
        congrFun List.modifyHead_id _
      rw [← unchanged]
      apply forall₂_ofLine_append id isComment.inLine ih
      intro group line ofLine begins
      -- The comment reaches up to the end of its line.
      have isEmpty : line = [] := by
        rw [← List.head?_eq_none_iff, Option.eq_none_iff_forall_not_mem]
        intro character isHead
        obtain ⟨inRest, noEnd⟩ := begins character isHead
        have isEnd : (!isLineEnd character) = false := stops character inRest
        rw [noEnd] at isEnd
        cases isEnd
      subst isEmpty
      refine ⟨?_, ofLine.number⟩
      rw [List.append_nil, Source.lineTokens_comment isComment]
      exact ofLine.tokens
  | @lineEnd location piece rest lexemes lineEnd _ ih =>
      rw [lines_newline, Source.numbered_lineEnd lineEnd]
      refine .cons ⟨rfl, by simp⟩ ?_
      rwa [Location.line_after, Nat.add_right_comm] at ih
  | @word location piece rest lexemes isWord stops _ ih =>
      have inLine : ∀ character ∈ piece, isLineEnd character = false := fun character member =>
        isLineEnd_eq_false (isWord.chars character member)
      rw [lines_ofWord]
      apply forall₂_ofLine_append _ inLine ih
      intro group line ofLine begins
      have spaced : ∀ character, line.head? = some character → isSpacing character = true := by
        intro character isHead
        obtain ⟨inRest, noEnd⟩ := begins character isHead
        simpa [isWordChar, noEnd] using stops character inRest
      refine ⟨?_, List.forall_mem_cons.2 ⟨rfl, ofLine.number⟩⟩
      rw [List.map_cons, ofLine.tokens]
      exact (Source.lineTokens_append_word isWord spaced).symm

/-- Line ends are the same in the tokens of the lexemes. -/
theorem map_lines (lexemes : List Lexeme) :
    (lines lexemes).map (List.map token) = (lexemes.map token).splitOn .newline := by
  rw [List.splitOn_eq_splitOnP]
  induction lexemes with
  | nil => rfl
  | cons first rest ih =>
      rw [List.map_cons, lines_cons, List.splitOnP_cons_eq_if_modifyHead, ← ih]
      split
      · rfl
      · cases lines rest <;> rfl

/-- **The tokens of a text are those of its lines, with a line end between two of them.** -/
theorem map_token_of_scanned {location : Location} {text : List Char} {lexemes : List Lexeme}
    (scanned : Scanned location text lexemes) : lexemes.map token = Source.tokens text := by
  have ofLines : (lines lexemes).map (List.map token) =
      (Source.numbered (location.line + 1) (Source.joinLineEnds text)).map
        fun line => Source.lineTokens line.2 := by
    rw [← List.forall₂_eq_eq_eq, List.forall₂_map_left_iff, List.forall₂_map_right_iff]
    exact (lines_of_scanned scanned).imp fun _ _ ofLine => ofLine.tokens
  have isLines := Source.map_snd_numbered (location.line + 1) (Source.joinLineEnds text)
  calc
    lexemes.map token = [Token.newline].intercalate ((lexemes.map token).splitOn .newline) :=
      (List.intercalate_splitOn _).symm
    _ = Source.tokens text := by
      rw [← map_lines, ofLines, Source.tokens, Source.lines, ← isLines, List.map_map]
      rfl

-- A carriage return in front of a line feed belongs to its line end, any other one does not.
example : Source.tokens "S -> x//y // z\r\r\n\r->a".toList =
    [.symbol "S", .arrow, .symbol "x//y", .newline, .newline, .symbol "->a"] := by
  decide +kernel

end Lexeme

end ShiftReduce
