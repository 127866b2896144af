import Mathlib.Data.List.TakeWhile
import ShiftReduce.Source.Token

/-!
# What the longest match takes

At the front of a text stands one of four things: spaces and tabs, a line end, a comment, or a word.
Each of them reaches as far as it can (`Stops`), and the longest match takes exactly it
(`longest_spacing`, `longest_lineEnd`, `longest_comment`, `longest_word`). A word is an arrow or the
start keyword only as a whole (`Pattern.ofWord`). Two slashes in front make a comment and no word.

The longest match is the first of those with the greatest length, so it is enough to compare its
length with that of the patterns before it and of those behind it (`longest_of_split`).
-/

set_option autoImplicit false

namespace ShiftReduce

/-! ## Pieces of a text -/

/-- A text does not go on with a character of a class. -/
def Stops (inside : Char → Bool) (rest : List Char) : Prop :=
  ∀ character, rest.head? = some character → inside character = false

theorem stops_dropWhile (inside : Char → Bool) (text : List Char) :
    Stops inside (text.dropWhile inside) := by
  intro character isHead
  have outside := List.head?_dropWhile_not inside text
  rwa [isHead] at outside

theorem takeWhile_append_of_stops {inside : Char → Bool} {piece rest : List Char}
    (all : ∀ character ∈ piece, inside character = true) (stops : Stops inside rest) :
    (piece ++ rest).takeWhile inside = piece := by
  rw [List.takeWhile_append_of_pos all]
  cases rest with
  | nil => simp
  | cons first rest => simp [stops first rfl]

/-- The carriage returns in front of a text are nothing but carriage returns. -/
theorem takeWhile_return (text : List Char) :
    text.takeWhile (· == '\r') = List.replicate (text.takeWhile (· == '\r')).length '\r' :=
  List.eq_replicate_of_mem fun character inRun => by simpa using List.mem_takeWhile_imp inRun

/-- Two slashes. -/
def slashes : List Char := ['/', '/']

/-- The characters of an arrow. -/
def arrowChars : List Char := ['-', '>']

theorem slashes_chars : ∀ character ∈ slashes, isWordChar character = true :=
  List.all_eq_true.1 rfl

theorem arrowChars_chars : ∀ character ∈ arrowChars, isWordChar character = true :=
  List.all_eq_true.1 rfl

theorem startKeyword_chars : ∀ character ∈ Pattern.startKeyword, isWordChar character = true :=
  List.all_eq_true.1 rfl

/-- Characters that can make up a word. They do not begin with two slashes. -/
structure IsWord (word : List Char) : Prop where
  ne_nil : word ≠ []
  chars : ∀ character ∈ word, isWordChar character = true
  noComment : ¬slashes <+: word

instance (word : List Char) : Decidable (IsWord word) :=
  decidable_of_iff (word ≠ [] ∧ word.all isWordChar = true ∧ ¬slashes <+: word)
    ⟨fun ⟨ne_nil, chars, noComment⟩ => ⟨ne_nil, List.all_eq_true.1 chars, noComment⟩,
      fun isWord => ⟨isWord.ne_nil, List.all_eq_true.2 isWord.chars, isWord.noComment⟩⟩

/-- A comment up to the end of its line. -/
inductive IsComment : List Char → Prop
  | slashes {body : List Char} : (∀ character ∈ body, isLineEnd character = false) →
      IsComment ('/' :: '/' :: body)

theorem isLineEnd_of_isSpacing {character : Char} (isSpace : isSpacing character = true) :
    isLineEnd character = false := by
  simp only [isSpacing, Bool.or_eq_true, beq_iff_eq] at isSpace
  rcases isSpace with rfl | rfl <;> decide

/-- A comment holds no line end. -/
theorem IsComment.inLine {piece : List Char} (isComment : IsComment piece) :
    ∀ character ∈ piece, isLineEnd character = false := by
  obtain @⟨body, noEnds⟩ := isComment
  simp only [List.forall_mem_cons]
  exact ⟨rfl, rfl, noEnds⟩

/-- A line end in front of the rest of a text: carriage returns and the line feed behind them, or a
carriage return that is in front of no such run. -/
inductive IsLineEnd : List Char → List Char → Prop
  | lineFeed (returns : Nat) (rest : List Char) :
      IsLineEnd (List.replicate returns '\r' ++ ['\n']) rest
  | carriageReturn {rest : List Char} : (rest.dropWhile (· == '\r')).head? ≠ some '\n' →
      IsLineEnd ['\r'] rest

theorem IsLineEnd.ne_nil {piece rest : List Char} (lineEnd : IsLineEnd piece rest) :
    piece ≠ [] := by
  cases lineEnd <;> simp

theorem isSpacing_eq_false {character : Char} (isWord : isWordChar character = true) :
    isSpacing character = false := by
  simp only [isWordChar, Bool.not_eq_true', Bool.or_eq_false_iff] at isWord
  exact isWord.1

theorem isLineEnd_eq_false {character : Char} (isWord : isWordChar character = true) :
    isLineEnd character = false := by
  simp only [isWordChar, Bool.not_eq_true', Bool.or_eq_false_iff] at isWord
  exact isWord.2

namespace Pattern

variable {text piece rest : List Char} {first : Char}

/-! ## The first of the longest matches -/

theorem foldl_better_lt {length : Nat} (patterns : List Pattern) (best : Match)
    (short : best.length < length) (shorter : ∀ other ∈ patterns, other.matchLength text < length) :
    (patterns.foldl (better text) best).length < length := by
  induction patterns generalizing best with
  | nil => exact short
  | cons pattern patterns ih =>
      obtain ⟨here, behind⟩ := List.forall_mem_cons.1 shorter
      refine ih _ ?_ behind
      simp only [better]
      split
      · exact here
      · exact short

theorem foldl_better_eq (patterns : List Pattern) (best : Match)
    (notLonger : ∀ other ∈ patterns, other.matchLength text ≤ best.length) :
    patterns.foldl (better text) best = best := by
  induction patterns with
  | nil => rfl
  | cons pattern patterns ih =>
      obtain ⟨here, behind⟩ := List.forall_mem_cons.1 notLonger
      have kept : better text best pattern = best := if_neg (Nat.not_lt.2 here)
      rw [List.foldl_cons, kept, ih behind]

/-- **A pattern decides when it takes more than those before it and no less than those behind.** -/
theorem longest_of_split (before : List Pattern) {behind : List Pattern} {pattern : Pattern}
    (split : all = before ++ pattern :: behind) (length : pattern.matchLength text = piece.length)
    (positive : piece ≠ [])
    (earlier : ∀ other ∈ before, other.matchLength text < piece.length)
    (later : ∀ other ∈ behind, other.matchLength text ≤ piece.length) :
    longest text = ⟨pattern, piece.length⟩ := by
  have short : (before.foldl (better text) ⟨.spacing, 0⟩).length < piece.length :=
    foldl_better_lt before _ (List.length_pos_iff.2 positive) earlier
  have decides : better text (before.foldl (better text) ⟨.spacing, 0⟩) pattern =
      ⟨pattern, piece.length⟩ := by
    simp only [better, length, short, if_true]
  rw [longest, split, List.foldl_append, List.foldl_cons, decides]
  exact foldl_better_eq behind _ later

/-! ## What does not match -/

theorem matchLength_spacing_eq_zero (outside : isSpacing first = false) :
    matchLength .spacing (first :: rest) = 0 := by
  simp [matchLength, outside]

theorem matchLength_newline_eq_zero (outside : isLineEnd first = false) :
    matchLength .newline (first :: rest) = 0 := by
  simp only [isLineEnd, Bool.or_eq_false_iff, beq_eq_false_iff_ne] at outside
  simp [matchLength, newlineLength, outside.1, outside.2]

theorem matchLength_word_eq_zero (outside : isWordChar first = false) :
    matchLength .word (first :: rest) = 0 := by
  simp [matchLength, outside]

theorem matchLength_comment_eq_zero (unlike : ¬slashes <+: text) :
    matchLength .comment text = 0 := by
  rw [matchLength]
  unfold commentLength
  split
  · next body => exact absurd (List.prefix_append slashes body) unlike
  · rfl

theorem matchLength_arrow_eq_zero (unlike : ¬arrowChars <+: text) :
    matchLength .arrow text = 0 := by
  have unlike : ¬['-', '>'].isPrefixOf text = true := fun isFront =>
    unlike (List.isPrefixOf_iff_prefix.1 isFront)
  rw [matchLength, if_neg unlike]

theorem matchLength_start_eq_zero (unlike : ¬startKeyword <+: text) :
    matchLength .start text = 0 := by
  have unlike : ¬startKeyword.isPrefixOf text = true := fun isFront =>
    unlike (List.isPrefixOf_iff_prefix.1 isFront)
  rw [matchLength, if_neg unlike]

/-- A text that begins with no character of a word begins with no keyword. -/
theorem not_prefix_of_not_wordChar {keyword : List Char} (ne_nil : keyword ≠ [])
    (chars : ∀ character ∈ keyword, isWordChar character = true)
    (outside : isWordChar first = false) : ¬keyword <+: first :: rest := by
  rintro ⟨behind, joined⟩
  obtain ⟨head, tail, rfl⟩ := List.exists_cons_of_ne_nil ne_nil
  obtain ⟨rfl, -⟩ := List.cons.inj joined
  rw [chars head List.mem_cons_self] at outside
  cases outside

/-- Where no word begins, only spacing and line ends match. -/
theorem matchLength_eq_zero_of_not_wordChar (outside : isWordChar first = false) :
    ∀ other ∈ [comment, arrow, start, word], other.matchLength (first :: rest) = 0 := by
  simp only [List.forall_mem_cons, List.not_mem_nil, false_imp_iff, implies_true, and_true]
  refine ⟨matchLength_comment_eq_zero ?_, matchLength_arrow_eq_zero ?_,
    matchLength_start_eq_zero ?_, matchLength_word_eq_zero outside⟩
  · exact not_prefix_of_not_wordChar (List.cons_ne_nil _ _) slashes_chars outside
  · exact not_prefix_of_not_wordChar (List.cons_ne_nil _ _) arrowChars_chars outside
  · exact not_prefix_of_not_wordChar (List.cons_ne_nil _ _) startKeyword_chars outside

/-! ## Spacing and line ends -/

theorem longest_spacing (ne_nil : piece ≠ [])
    (all : ∀ character ∈ piece, isSpacing character = true) (stops : Stops isSpacing rest) :
    longest (piece ++ rest) = ⟨.spacing, piece.length⟩ := by
  have length : matchLength .spacing (piece ++ rest) = piece.length := by
    rw [matchLength, takeWhile_append_of_stops all stops]
  obtain ⟨first, tail, rfl⟩ := List.exists_cons_of_ne_nil ne_nil
  have isSpace := all first List.mem_cons_self
  have noWord : isWordChar first = false := by
    simp [isWordChar, isSpace]
  have noLineEnd : isLineEnd first = false := isLineEnd_of_isSpacing isSpace
  refine longest_of_split [] rfl length ne_nil (by simp) ?_
  rw [List.forall_mem_cons]
  refine ⟨?_, fun other isOther => ?_⟩
  · rw [List.cons_append, matchLength_newline_eq_zero noLineEnd]
    exact Nat.zero_le _
  · rw [List.cons_append, matchLength_eq_zero_of_not_wordChar noWord other isOther]
    exact Nat.zero_le _

theorem getElem?_length_takeWhile (inside : Char → Bool) (text : List Char) :
    text[(text.takeWhile inside).length]? = (text.dropWhile inside).head? := by
  calc
    _ = (text.takeWhile inside ++ text.dropWhile inside)[(text.takeWhile inside).length]? := by
      rw [List.takeWhile_append_dropWhile]
    _ = _ := by
      rw [List.getElem?_append_right (Nat.le_refl _), Nat.sub_self, List.head?_eq_getElem?]

/-- A line end is taken as a whole. -/
theorem newlineLength_append (lineEnd : IsLineEnd piece rest) :
    newlineLength (piece ++ rest) = piece.length := by
  cases lineEnd with
  | lineFeed returns =>
      have run : ((List.replicate returns '\r' ++ ['\n'] ++ rest).takeWhile (· == '\r')).length =
          returns := by
        rw [List.append_assoc, takeWhile_append_of_stops, List.length_replicate]
        · intro character isReturn
          rw [List.eq_of_mem_replicate isReturn]
          rfl
        · rintro _ ⟨⟩
          rfl
      have isFeed : (List.replicate returns '\r' ++ ['\n'] ++ rest)[returns]? = some '\n' := by
        simp
      simp only [newlineLength, run, isFeed, if_true, List.length_append, List.length_replicate,
        List.length_singleton]
  | carriageReturn unfed =>
      have notFed : ('\r' :: rest)[(rest.takeWhile (· == '\r')).length + 1]? ≠ some '\n' := by
        rwa [List.getElem?_cons_succ, getElem?_length_takeWhile]
      simp only [newlineLength, List.singleton_append, List.takeWhile_cons, BEq.rfl, if_true,
        List.length_cons, if_neg notFed]
      simp

theorem longest_lineEnd (lineEnd : IsLineEnd piece rest) :
    longest (piece ++ rest) = ⟨.newline, piece.length⟩ := by
  obtain ⟨first, tail, isPiece, isEnd⟩ : ∃ first tail, piece = first :: tail ∧
      isLineEnd first = true := by
    cases lineEnd with
    | lineFeed returns =>
        cases returns with
        | zero => exact ⟨'\n', [], rfl, rfl⟩
        | succ returns => exact ⟨'\r', List.replicate returns '\r' ++ ['\n'], rfl, rfl⟩
    | carriageReturn => exact ⟨'\r', [], rfl, rfl⟩
  have ne_nil : piece ≠ [] := by
    simp [isPiece]
  have noSpacing : isSpacing first = false := by
    simp only [isLineEnd, Bool.or_eq_true, beq_iff_eq] at isEnd
    rcases isEnd with rfl | rfl <;> decide
  have noWord : isWordChar first = false := by
    simp [isWordChar, isEnd]
  refine longest_of_split [.spacing] rfl (newlineLength_append lineEnd) ne_nil ?_ ?_
  · rw [List.forall_mem_singleton, isPiece, List.cons_append, matchLength_spacing_eq_zero noSpacing]
    exact Nat.succ_pos _
  · intro other isOther
    rw [isPiece, List.cons_append, matchLength_eq_zero_of_not_wordChar noWord other isOther]
    exact Nat.zero_le _

/-! ## Comments -/

/-- A narrower class reaches no further. -/
theorem length_takeWhile_le (narrow wide : Char → Bool) (text : List Char)
    (narrower : ∀ character, narrow character = true → wide character = true) :
    (text.takeWhile narrow).length ≤ (text.takeWhile wide).length := by
  have inner : text.takeWhile narrow = (text.takeWhile wide).takeWhile narrow := by
    rw [List.takeWhile_takeWhile]
    congr 1
    funext character
    rw [Bool.eq_iff_iff, decide_eq_true_iff]
    exact ⟨fun isNarrow => ⟨isNarrow, narrower character isNarrow⟩, And.left⟩
  rw [inner]
  exact (List.takeWhile_prefix _).length_le

theorem longest_comment (isComment : IsComment piece)
    (stops : Stops (fun character => !isLineEnd character) rest) :
    longest (piece ++ rest) = ⟨.comment, piece.length⟩ := by
  obtain @⟨body, noEnds⟩ := isComment
  have inLine : ∀ character ∈ '/' :: '/' :: body, (!isLineEnd character) = true := by
    simp only [List.forall_mem_cons, Bool.not_eq_true']
    exact ⟨rfl, rfl, noEnds⟩
  have length : matchLength .comment ('/' :: '/' :: body ++ rest) =
      ('/' :: '/' :: body).length := by
    have reaches : (body ++ rest).takeWhile (fun character => !isLineEnd character) = body :=
      takeWhile_append_of_stops (fun character member => by simp [noEnds character member]) stops
    simp only [matchLength, commentLength, List.cons_append, reaches, List.length_cons]
    omega
  have word : matchLength .word ('/' :: '/' :: body ++ rest) ≤ ('/' :: '/' :: body).length := by
    have wider := length_takeWhile_le isWordChar (fun character => !isLineEnd character)
      ('/' :: '/' :: body ++ rest) fun character isWord => by simp [isLineEnd_eq_false isWord]
    rwa [takeWhile_append_of_stops inLine stops] at wider
  have noArrow : ¬arrowChars <+: '/' :: '/' :: body ++ rest := by
    rintro ⟨behind, joined⟩
    cases joined
  have noStart : ¬startKeyword <+: '/' :: '/' :: body ++ rest := by
    rintro ⟨behind, joined⟩
    cases joined
  refine longest_of_split [.spacing, .newline] rfl length (by simp) ?_ ?_
  · simp only [List.forall_mem_cons, List.cons_append, List.length_cons,
      matchLength_spacing_eq_zero (show isSpacing '/' = false from rfl),
      matchLength_newline_eq_zero (show isLineEnd '/' = false from rfl)]
    simp
  · simp only [List.forall_mem_cons, matchLength_arrow_eq_zero noArrow,
      matchLength_start_eq_zero noStart, word]
    simp

/-! ## Words -/

/-- The pattern that a word as a whole belongs to. -/
def ofWord (word : List Char) : Pattern :=
  if word = arrowChars then .arrow else if word = startKeyword then .start else .word

/-- A keyword in front of a text is in front of its first word. -/
theorem prefix_of_prefix_append {keyword : List Char}
    (chars : ∀ character ∈ keyword, isWordChar character = true) (isWord : IsWord piece)
    (stops : Stops isWordChar rest) (isFront : keyword <+: piece ++ rest) : keyword <+: piece := by
  obtain ⟨behind, joined⟩ := isFront
  have reaches := takeWhile_append_of_stops isWord.chars stops
  rw [← joined, List.takeWhile_append_of_pos chars] at reaches
  exact ⟨_, reaches⟩

theorem keyword_le {keyword : List Char}
    (chars : ∀ character ∈ keyword, isWordChar character = true) (isWord : IsWord piece)
    (stops : Stops isWordChar rest) :
    (if keyword.isPrefixOf (piece ++ rest) = true then keyword.length else 0) ≤ piece.length := by
  split
  · next isFront =>
    have inWord := prefix_of_prefix_append chars isWord stops (List.isPrefixOf_iff_prefix.1 isFront)
    exact inWord.length_le
  · exact Nat.zero_le _

theorem keyword_lt {keyword : List Char}
    (chars : ∀ character ∈ keyword, isWordChar character = true) (isWord : IsWord piece)
    (stops : Stops isWordChar rest) (other : piece ≠ keyword) :
    (if keyword.isPrefixOf (piece ++ rest) = true then keyword.length else 0) < piece.length := by
  split
  · next isFront =>
    have inWord := prefix_of_prefix_append chars isWord stops (List.isPrefixOf_iff_prefix.1 isFront)
    exact Nat.lt_of_le_of_ne inWord.length_le fun same => other (inWord.eq_of_length same).symm
  · exact List.length_pos_iff.2 isWord.ne_nil

/-- **The longest match takes a word as a whole.** -/
theorem longest_word (isWord : IsWord piece) (stops : Stops isWordChar rest) :
    longest (piece ++ rest) = ⟨ofWord piece, piece.length⟩ := by
  have positive : 0 < piece.length := List.length_pos_iff.2 isWord.ne_nil
  have word : matchLength .word (piece ++ rest) = piece.length := by
    rw [matchLength, takeWhile_append_of_stops isWord.chars stops]
  have comment : matchLength .comment (piece ++ rest) = 0 :=
    matchLength_comment_eq_zero fun isFront => isWord.noComment
      (prefix_of_prefix_append slashes_chars isWord stops isFront)
  obtain ⟨spacing, newline⟩ : matchLength .spacing (piece ++ rest) = 0 ∧
      matchLength .newline (piece ++ rest) = 0 := by
    obtain ⟨first, tail, rfl⟩ := List.exists_cons_of_ne_nil isWord.ne_nil
    have isFirst := isWord.chars first List.mem_cons_self
    exact ⟨matchLength_spacing_eq_zero (isSpacing_eq_false isFirst),
      matchLength_newline_eq_zero (isLineEnd_eq_false isFirst)⟩
  unfold ofWord
  split
  · next isArrow =>
    have arrow : matchLength .arrow (piece ++ rest) = piece.length := by
      rw [isArrow]
      rfl
    have start : matchLength .start (piece ++ rest) ≤ piece.length :=
      keyword_le startKeyword_chars isWord stops
    refine longest_of_split [.spacing, .newline, .comment] rfl arrow isWord.ne_nil ?_ ?_
    · simp [spacing, newline, comment, positive]
    · simp [start, word]
  · next noArrow =>
    have arrow : matchLength .arrow (piece ++ rest) < piece.length :=
      keyword_lt arrowChars_chars isWord stops noArrow
    split
    · next isStart =>
      have start : matchLength .start (piece ++ rest) = piece.length := by
        rw [isStart]
        rfl
      refine longest_of_split [.spacing, .newline, .comment, .arrow] rfl start
        isWord.ne_nil ?_ ?_
      · simp [spacing, newline, comment, positive, arrow]
      · simp [word]
    · next noStart =>
      have start : matchLength .start (piece ++ rest) < piece.length :=
        keyword_lt startKeyword_chars isWord stops noStart
      refine longest_of_split [.spacing, .newline, .comment, .arrow, .start] rfl word
        isWord.ne_nil ?_ ?_
      · simp [spacing, newline, comment, positive, arrow, start]
      · simp

end Pattern

end ShiftReduce
