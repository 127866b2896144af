import Mathlib.Data.List.Basic
import Mathlib.Data.List.Induction
import ShiftReduce.Proofs.Source.Scanned

/-!
# What the patterns match

Each pattern matches pieces of text as a whole (`Pattern.Matches`): a run of spaces and tabs, some
carriage returns and a line feed, a single carriage return, two slashes and more characters of their
line, an arrow, the start keyword, or a run of any other characters.

A pattern takes the longest piece in front of a text that it matches (`longestFront_matchLength`),
even if this is not what its first characters promise: of carriage returns that no line feed
follows, only the first one is taken. Among all patterns the first one of those is chosen that match
the longest piece (`Pattern.Chosen`), and the longest match takes this piece (`exists_chosen`).

So a text is cut into lexemes by choosing a pattern again and again (`stream_eq_iff`).
-/

set_option autoImplicit false

namespace ShiftReduce

namespace Pattern

/-- The pieces of text that a pattern matches as a whole. -/
inductive Matches : Pattern → List Char → Prop
  | spacing {piece : List Char} : piece ≠ [] → (∀ character ∈ piece, character ∈ [' ', '\t']) →
      Matches .spacing piece
  | lineFeed (returns : Nat) : Matches .newline (List.replicate returns '\r' ++ ['\n'])
  | carriageReturn : Matches .newline ['\r']
  | comment {body : List Char} : (∀ character ∈ body, character ∉ ['\r', '\n']) →
      Matches .comment ('/' :: '/' :: body)
  | arrow : Matches .arrow ['-', '>']
  | start : Matches .start ['@', 's', 't', 'a', 'r', 't']
  | word {piece : List Char} : piece ≠ [] →
      (∀ character ∈ piece, character ∉ [' ', '\t', '\r', '\n']) → Matches .word piece

/-- A length is that of the longest piece in front of a text that has a property; it is zero if
there is none. -/
structure LongestFront (property : List Char → Prop) (text : List Char) (length : Nat) : Prop where
  taken : length ≠ 0 → length ≤ text.length ∧ property (text.take length)
  longest : ∀ front, front <+: text → property front → front.length ≤ length

variable {text front : List Char} {character : Char}

theorem isSpacing_iff : isSpacing character = true ↔ character ∈ [' ', '\t'] := by
  simp [isSpacing]

theorem not_isLineEnd_iff : (!isLineEnd character) = true ↔ character ∉ ['\r', '\n'] := by
  simp [isLineEnd]

theorem isWordChar_iff : isWordChar character = true ↔ character ∉ [' ', '\t', '\r', '\n'] := by
  simp [isWordChar, isSpacing, isLineEnd, and_assoc]

/-! ## Runs of characters and fixed words -/

theorem take_length_takeWhile (inside : Char → Bool) (text : List Char) :
    text.take (text.takeWhile inside).length = text.takeWhile inside :=
  (List.prefix_iff_eq_take.1 (List.takeWhile_prefix inside)).symm

/-- The longest run of characters of a class is no shorter than any other one. -/
theorem length_le_takeWhile {inside : Char → Bool} (isFront : front <+: text)
    (all : ∀ character ∈ front, inside character = true) :
    front.length ≤ (text.takeWhile inside).length := by
  obtain ⟨rest, rfl⟩ := isFront
  rw [List.takeWhile_append_of_pos all, List.length_append]
  exact Nat.le_add_right _ _

theorem longestFront_run {inside : Char → Bool} {property : List Char → Prop}
    (isRun : ∀ piece, property piece ↔ piece ≠ [] ∧ ∀ character ∈ piece, inside character = true)
    (text : List Char) : LongestFront property text (text.takeWhile inside).length where
  taken positive := by
    refine ⟨(List.takeWhile_prefix inside).length_le, ?_⟩
    rw [take_length_takeWhile, isRun]
    exact ⟨mt List.length_eq_zero_iff.2 positive, fun _ => List.mem_takeWhile_imp⟩
  longest front isFront holds := length_le_takeWhile isFront ((isRun front).1 holds).2

theorem longestFront_keyword {property : List Char → Prop} {keyword : List Char}
    (isKeyword : ∀ piece, property piece ↔ piece = keyword) (text : List Char) :
    LongestFront property text (if keyword.isPrefixOf text = true then keyword.length else 0) := by
  constructor
  · split
    · next isFront =>
      rw [List.isPrefixOf_iff_prefix] at isFront
      intro _
      exact ⟨isFront.length_le, (isKeyword _).2 (List.prefix_iff_eq_take.1 isFront).symm⟩
    · exact fun positive => absurd rfl positive
  · intro front isFront holds
    rw [isKeyword] at holds
    subst holds
    rw [if_pos (List.isPrefixOf_iff_prefix.2 isFront)]

/-! ## Line ends and comments -/

theorem longestFront_newline (text : List Char) :
    LongestFront (Matches .newline) text (newlineLength text) := by
  by_cases fed : text[(text.takeWhile (· == '\r')).length]? = some '\n'
  · have isLength : newlineLength text = (text.takeWhile (· == '\r')).length + 1 := if_pos fed
    rw [isLength]
    constructor
    case taken =>
      intro _
      refine ⟨(List.getElem?_eq_some_iff.1 fed).1, ?_⟩
      rw [List.take_add_one, fed, take_length_takeWhile, takeWhile_return]
      exact .lineFeed _
    case longest =>
      rintro front ⟨rest, rfl⟩ holds
      cases holds with
      | lineFeed returns => rw [← isLength, newlineLength_append (.lineFeed returns rest)]
      | carriageReturn => exact Nat.le_add_left _ _
  · have isLength : newlineLength text = min (text.takeWhile (· == '\r')).length 1 := if_neg fed
    constructor
    case taken =>
      rw [isLength]
      intro positive
      cases text with
      | nil => exact absurd rfl positive
      | cons first rest =>
          have isReturn : first = '\r' := by
            by_contra other
            simp [other] at positive
          subst isReturn
          have single : min (('\r' :: rest).takeWhile (· == '\r')).length 1 = 1 :=
            Nat.min_eq_right (by simp)
          rw [single]
          exact ⟨by simp, .carriageReturn⟩
    case longest =>
      rintro front ⟨rest, rfl⟩ holds
      cases holds with
      | lineFeed returns => rw [newlineLength_append (.lineFeed returns rest)]
      | carriageReturn =>
          rw [isLength]
          exact Nat.le_min.2 ⟨by simp, Nat.le_refl 1⟩

theorem longestFront_comment (text : List Char) :
    LongestFront (Matches .comment) text (commentLength text) := by
  constructor
  case taken =>
    unfold commentLength
    split
    · next rest =>
      intro _
      have isFront : rest.takeWhile (fun character => !isLineEnd character) <+: rest :=
        List.takeWhile_prefix _
      refine ⟨by simpa [Nat.add_comm 2] using isFront.length_le, ?_⟩
      rw [Nat.add_comm, List.take_succ_cons, List.take_succ_cons, take_length_takeWhile]
      refine .comment fun character member => not_isLineEnd_iff.1 ?_
      exact @List.mem_takeWhile_imp _ (fun character => !isLineEnd character) _ _ member
    · exact fun positive => absurd rfl positive
  case longest =>
    rintro front ⟨rest, rfl⟩ holds
    cases holds with
    | @comment body inLine =>
      have reaches : body.length ≤
          ((body ++ rest).takeWhile fun character => !isLineEnd character).length :=
        length_le_takeWhile (List.prefix_append body rest) fun character member =>
          not_isLineEnd_iff.2 (inLine character member)
      simp only [List.cons_append, commentLength, List.length_cons]
      omega

/-! ## All patterns -/

/-- **A pattern takes the longest front of a text that it matches.** -/
theorem longestFront_matchLength (pattern : Pattern) (text : List Char) :
    LongestFront pattern.Matches text (pattern.matchLength text) := by
  cases pattern with
  | spacing =>
      refine longestFront_run (fun piece => ⟨?_, ?_⟩) text
      · intro holds
        cases holds with
        | spacing ne_nil all =>
          exact ⟨ne_nil, fun character member => isSpacing_iff.2 (all character member)⟩
      · rintro ⟨ne_nil, all⟩
        exact .spacing ne_nil fun character member => isSpacing_iff.1 (all character member)
  | newline => exact longestFront_newline text
  | comment => exact longestFront_comment text
  | arrow =>
      refine longestFront_keyword (fun piece => ⟨?_, ?_⟩) text
      · rintro ⟨⟩
        rfl
      · rintro rfl
        exact .arrow
  | start =>
      refine longestFront_keyword (fun piece => ⟨?_, ?_⟩) text
      · rintro ⟨⟩
        rfl
      · rintro rfl
        exact .start
  | word =>
      refine longestFront_run (fun piece => ⟨?_, ?_⟩) text
      · intro holds
        cases holds with
        | word ne_nil all =>
          exact ⟨ne_nil, fun character member => isWordChar_iff.2 (all character member)⟩
      · rintro ⟨ne_nil, all⟩
        exact .word ne_nil fun character member => isWordChar_iff.1 (all character member)

/-- The best match of some patterns is that of the first one which takes as much as any of them. -/
theorem foldl_better_spec (text : List Char) (patterns : List Pattern) :
    (∀ other ∈ patterns,
      other.matchLength text ≤ (patterns.foldl (better text) ⟨.spacing, 0⟩).length) ∧
    ((patterns.foldl (better text) ⟨.spacing, 0⟩).length ≠ 0 → ∃ before pattern behind,
      patterns = before ++ pattern :: behind ∧
        patterns.foldl (better text) ⟨.spacing, 0⟩ = ⟨pattern, pattern.matchLength text⟩ ∧
        ∀ other ∈ before, other.matchLength text < pattern.matchLength text) := by
  induction patterns using List.reverseRecOn with
  | nil => exact ⟨by simp, fun positive => absurd rfl positive⟩
  | append_singleton patterns last ih =>
      obtain ⟨all, found⟩ := ih
      rw [List.foldl_append, List.foldl_cons, List.foldl_nil, List.forall_mem_append,
        List.forall_mem_singleton]
      generalize patterns.foldl (better text) ⟨.spacing, 0⟩ = best at all found
      by_cases longer : best.length < last.matchLength text
      · have isBetter : better text best last = ⟨last, last.matchLength text⟩ := if_pos longer
        rw [isBetter]
        refine ⟨⟨fun other member => (all other member).trans (Nat.le_of_lt longer),
          Nat.le_refl _⟩, fun _ => ⟨patterns, last, [], rfl, rfl, fun other member => ?_⟩⟩
        exact Nat.lt_of_le_of_lt (all other member) longer
      · have isKept : better text best last = best := if_neg longer
        rw [isKept]
        refine ⟨⟨all, Nat.not_lt.1 longer⟩, fun positive => ?_⟩
        obtain ⟨before, pattern, behind, rfl, isBest, shorter⟩ := found positive
        exact ⟨before, pattern, behind ++ [last], by simp, isBest, shorter⟩

theorem mem_all (pattern : Pattern) : pattern ∈ all := by
  cases pattern <;> decide

/-- A pattern is chosen to take a piece in front of a text: it matches the piece, no pattern matches
a longer piece, and no earlier pattern matches this one. -/
structure Chosen (pattern : Pattern) (piece text : List Char) : Prop where
  isMatch : pattern.Matches piece
  longest : ∀ (other : Pattern) (front : List Char),
    front <+: text → other.Matches front → front.length ≤ piece.length
  first : ∀ other : Pattern, other.Matches piece → all.idxOf pattern ≤ all.idxOf other

/-- A pattern and a piece of a text are chosen at most once. -/
theorem Chosen.unique {first second : Pattern} {piece other : List Char}
    (chosen : first.Chosen piece text) (isFront : piece <+: text)
    (chosenOther : second.Chosen other text) (isFrontOther : other <+: text) :
    first = second ∧ piece = other := by
  have samePiece : piece = other := by
    have sameLength : piece.length = other.length := Nat.le_antisymm
      (chosenOther.longest first piece isFront chosen.isMatch)
      (chosen.longest second other isFrontOther chosenOther.isMatch)
    rw [List.prefix_iff_eq_take.1 isFront, List.prefix_iff_eq_take.1 isFrontOther, sameLength]
  subst samePiece
  refine ⟨?_, rfl⟩
  have samePlace := Nat.le_antisymm (chosen.first second chosenOther.isMatch)
    (chosenOther.first first chosen.isMatch)
  exact (List.idxOf_inj (mem_all first)).1 samePlace

/-- Some pattern matches in front of any text that is not empty. -/
theorem longest_length_ne_zero (nonempty : text ≠ []) : (longest text).length ≠ 0 := by
  obtain ⟨first, rest, rfl⟩ := List.exists_cons_of_ne_nil nonempty
  obtain ⟨pattern, isMatch⟩ : ∃ pattern : Pattern, pattern.Matches [first] := by
    by_cases inWord : first ∉ [' ', '\t', '\r', '\n']
    · exact ⟨.word, .word (List.cons_ne_nil _ _) (List.forall_mem_singleton.2 inWord)⟩
    · simp only [not_not, List.mem_cons, List.not_mem_nil, or_false] at inWord
      rcases inWord with rfl | rfl | rfl | rfl
      · exact ⟨.spacing, .spacing (List.cons_ne_nil _ _) (by simp)⟩
      · exact ⟨.spacing, .spacing (List.cons_ne_nil _ _) (by simp)⟩
      · exact ⟨.newline, .carriageReturn⟩
      · exact ⟨.newline, .lineFeed 0⟩
  have taken := (longestFront_matchLength pattern (first :: rest)).longest [first] ⟨rest, rfl⟩
    isMatch
  have notShorter := (foldl_better_spec (first :: rest) all).1 pattern (mem_all pattern)
  exact Nat.ne_of_gt (taken.trans notShorter)

/-- **A pattern is chosen in front of any text that is not empty, and the longest match takes its
piece.** -/
theorem exists_chosen (nonempty : text ≠ []) :
    ∃ pattern piece rest, text = piece ++ rest ∧ piece ≠ [] ∧ Chosen pattern piece text ∧
      longest text = ⟨pattern, piece.length⟩ := by
  have positive := longest_length_ne_zero nonempty
  obtain ⟨notShorter, found⟩ := foldl_better_spec text all
  rw [← longest] at notShorter found
  obtain ⟨before, pattern, behind, split, isBest, shorter⟩ := found positive
  rw [isBest] at positive notShorter
  obtain ⟨bound, isMatch⟩ := (longestFront_matchLength pattern text).taken positive
  have length : (text.take (pattern.matchLength text)).length = pattern.matchLength text :=
    List.length_take_of_le bound
  have ne_nil : text.take (pattern.matchLength text) ≠ [] := by
    rw [← List.length_pos_iff, length]
    exact Nat.pos_of_ne_zero positive
  refine ⟨pattern, _, _, (List.take_append_drop _ text).symm, ne_nil, ⟨isMatch, ?_, ?_⟩, ?_⟩
  · intro other front isFront isOther
    rw [length]
    have taken := (longestFront_matchLength other text).longest front isFront isOther
    exact taken.trans (notShorter other (mem_all other))
  · intro other isOther
    have taken := (longestFront_matchLength other text).longest _ (List.take_prefix _ _) isOther
    rw [length] at taken
    have isLater : other ∉ before := fun isEarlier =>
      absurd (shorter other isEarlier) (Nat.not_lt.2 taken)
    have notEarlier : pattern ∉ before := fun isEarlier =>
      absurd (shorter pattern isEarlier) (Nat.lt_irrefl _)
    rw [split, List.idxOf_append_of_notMem isLater, List.idxOf_append_of_notMem notEarlier,
      List.idxOf_cons_self]
    exact Nat.add_le_add_left (Nat.zero_le _) _
  · rw [isBest, length]

/-- The longest match takes the piece for which a pattern is chosen. -/
theorem longest_of_chosen {pattern : Pattern} {piece rest : List Char}
    (chosen : pattern.Chosen piece (piece ++ rest)) (ne_nil : piece ≠ []) :
    longest (piece ++ rest) = ⟨pattern, piece.length⟩ := by
  have nonempty : piece ++ rest ≠ [] := by simp [ne_nil]
  obtain ⟨best, front, behind, split, -, chosenBest, isBest⟩ := exists_chosen nonempty
  have isFront : front <+: piece ++ rest := ⟨behind, split.symm⟩
  obtain ⟨rfl, rfl⟩ := chosen.unique (List.prefix_append piece rest) chosenBest isFront
  exact isBest

end Pattern

namespace Lexeme

/-! ## Cutting by the patterns -/

/-- The lexemes that the patterns give for a text whose first character stands at a place: a pattern
is chosen for the piece in front, and the rest of the text is cut likewise. -/
inductive CutByPatterns : Location → List Char → List Lexeme → Prop
  | nil (location : Location) : CutByPatterns location [] []
  | skip {location : Location} {pattern : Pattern} {piece rest : List Char}
      {lexemes : List Lexeme} : piece ≠ [] → pattern.Chosen piece (piece ++ rest) →
      pattern.token? piece = none → CutByPatterns (location.after piece) rest lexemes →
      CutByPatterns location (piece ++ rest) lexemes
  | give {location : Location} {pattern : Pattern} {piece rest : List Char} {token : Token}
      {lexemes : List Lexeme} : piece ≠ [] → pattern.Chosen piece (piece ++ rest) →
      pattern.token? piece = some token → CutByPatterns (location.after piece) rest lexemes →
      CutByPatterns location (piece ++ rest) (⟨token, location, location.after piece⟩ :: lexemes)

variable {location : Location} {text : List Char} {lexemes : List Lexeme}

theorem CutByPatterns.stream_eq (cut : CutByPatterns location text lexemes) :
    stream location text = lexemes.map .ok := by
  induction cut with
  | nil location =>
      rw [stream]
      rfl
  | skip ne_nil chosen gives _ ih =>
      rw [stream_append (Pattern.longest_of_chosen chosen ne_nil) ne_nil, gives]
      exact ih
  | give ne_nil chosen gives _ ih =>
      rw [stream_append (Pattern.longest_of_chosen chosen ne_nil) ne_nil, gives]
      exact congrArg _ ih

/-- Every text can be cut by the patterns. -/
theorem exists_cutByPatterns (location : Location) (text : List Char) :
    ∃ lexemes, CutByPatterns location text lexemes := by
  induction isLength : text.length using Nat.strongRecOn generalizing location text with
  | ind length ih =>
      by_cases empty : text = []
      · subst empty
        exact ⟨[], .nil location⟩
      · obtain ⟨pattern, piece, rest, rfl, ne_nil, chosen, -⟩ := Pattern.exists_chosen empty
        have shorter : rest.length < length := isLength ▸ length_rest_lt ne_nil
        obtain ⟨following, cut⟩ := ih rest.length shorter (location.after piece) rest rfl
        cases gives : pattern.token? piece with
        | none => exact ⟨_, .skip ne_nil chosen gives cut⟩
        | some token => exact ⟨_, .give ne_nil chosen gives cut⟩

/-- **A text is cut as the patterns say.** -/
theorem stream_eq_iff :
    stream location text = lexemes.map .ok ↔ CutByPatterns location text lexemes := by
  refine ⟨fun isStream => ?_, CutByPatterns.stream_eq⟩
  obtain ⟨others, cut⟩ := exists_cutByPatterns location text
  rw [cut.stream_eq] at isStream
  rwa [← (List.map_inj_right fun _ _ => Except.ok.inj).1 isStream]

end Lexeme

end ShiftReduce
