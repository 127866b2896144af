import ShiftReduce.Proofs.Source.Longest
import ShiftReduce.Source.Lexeme

/-!
# Cutting a text piece by piece

Every text that is not empty begins with spacing, a comment, a line end or a word (`exists_front`),
and the longest match cuts off exactly this piece. So cutting a text never fails, and its lexemes
are told by the pieces one after the other (`exists_scanned`): line ends and words give one lexeme
each, spacing and comments give none. What is proved about the lexemes of a text goes by induction
on `Scanned`.
-/

set_option autoImplicit false

namespace ShiftReduce

/-- A name that a text can give: a word, but neither an arrow nor the start keyword. -/
structure IsSymbolName (name : String) : Prop where
  isWord : IsWord name.toList
  not_arrow : name ≠ "->"
  not_start : name ≠ "@start"

instance (name : String) : Decidable (IsSymbolName name) :=
  decidable_of_iff (IsWord name.toList ∧ name ≠ "->" ∧ name ≠ "@start")
    ⟨fun ⟨isWord, not_arrow, not_start⟩ => ⟨isWord, not_arrow, not_start⟩,
      fun isName => ⟨isName.isWord, isName.not_arrow, isName.not_start⟩⟩

namespace Token

/-- The token of a word. -/
def ofWord (word : List Char) : Token :=
  if word = arrowChars then .arrow
  else if word = Pattern.startKeyword then .start
  else .symbol (String.ofList word)

/-- A word is an arrow, the start keyword, or the name of a symbol. -/
theorem ofWord_cases {word : List Char} (isWord : IsWord word) :
    (word = arrowChars ∧ ofWord word = .arrow) ∨
      (word = Pattern.startKeyword ∧ ofWord word = .start) ∨
        (IsSymbolName (String.ofList word) ∧ ofWord word = .symbol (String.ofList word)) := by
  by_cases isArrow : word = arrowChars
  · exact .inl ⟨isArrow, if_pos isArrow⟩
  · by_cases isStart : word = Pattern.startKeyword
    · exact .inr (.inl ⟨isStart, by rw [ofWord, if_neg isArrow, if_pos isStart]⟩)
    · refine .inr (.inr ⟨⟨?_, ?_, ?_⟩, by rw [ofWord, if_neg isArrow, if_neg isStart]⟩)
      · rwa [String.toList_ofList]
      · rintro same
        exact isArrow (by rw [← @String.toList_ofList word, same]; rfl)
      · rintro same
        exact isStart (by rw [← @String.toList_ofList word, same]; rfl)

/-- The name of a symbol is the word that gives it. -/
theorem ofWord_toList {name : String} (isName : IsSymbolName name) :
    ofWord name.toList = .symbol name := by
  rcases ofWord_cases isName.isWord with ⟨isArrow, -⟩ | ⟨isStart, -⟩ | ⟨-, isSymbol⟩
  · exact absurd (String.toList_injective isArrow) isName.not_arrow
  · exact absurd (String.toList_injective isStart) isName.not_start
  · rwa [String.ofList_toList] at isSymbol

theorem ofWord_ne_newline (word : List Char) : ofWord word ≠ .newline := by
  unfold ofWord
  split
  · exact Token.noConfusion
  · split
    · exact Token.noConfusion
    · exact Token.noConfusion

end Token

theorem Pattern.token?_ofWord (word : List Char) :
    (Pattern.ofWord word).token? word = some (Token.ofWord word) := by
  unfold Pattern.ofWord Token.ofWord
  split
  · rfl
  · split
    · rfl
    · rfl

/-! ## Places -/

namespace Location

theorem line_after (location : Location) (text : List Char) :
    (location.after text).line = location.line + text.count '\n' := by
  induction text generalizing location with
  | nil => rfl
  | cons first rest ih =>
      have step : (location.advance first).line =
          location.line + if first = '\n' then 1 else 0 := by
        unfold advance
        split <;> simp_all
      rw [after, List.foldl_cons, ← after, ih, step, List.count_cons, Nat.add_right_comm,
        Nat.add_assoc]
      simp only [beq_iff_eq]

theorem byte_after (location : Location) (text : List Char) :
    (location.after text).byte = location.byte + (String.ofList text).utf8ByteSize := by
  induction text generalizing location with
  | nil => rfl
  | cons first rest ih =>
      have step : (location.advance first).byte = location.byte + first.utf8Size := by
        unfold advance
        split <;> rfl
      rw [after, List.foldl_cons, ← after, ih, step, String.ofList_cons, String.utf8ByteSize_append,
        String.utf8ByteSize_singleton, Nat.add_assoc]

end Location

/-! ## What a text begins with -/

/-- The piece that a text begins with, and the rest of the text behind it. -/
inductive IsFront : List Char → List Char → Prop
  | spacing {piece rest : List Char} : piece ≠ [] →
      (∀ character ∈ piece, isSpacing character = true) → Stops isSpacing rest → IsFront piece rest
  | comment {piece rest : List Char} : IsComment piece →
      Stops (fun character => !isLineEnd character) rest → IsFront piece rest
  | lineEnd {piece rest : List Char} : IsLineEnd piece rest → IsFront piece rest
  | word {piece rest : List Char} : IsWord piece → Stops isWordChar rest → IsFront piece rest

namespace IsFront

theorem ne_nil {piece rest : List Char} (front : IsFront piece rest) : piece ≠ [] := by
  cases front with
  | spacing ne_nil => exact ne_nil
  | comment isComment =>
      cases isComment
      exact List.cons_ne_nil _ _
  | lineEnd lineEnd => exact lineEnd.ne_nil
  | word isWord => exact isWord.ne_nil

end IsFront

theorem exists_front_of_return (rest : List Char) :
    ∃ piece behind, '\r' :: rest = piece ++ behind ∧ IsLineEnd piece behind := by
  by_cases fed : (rest.dropWhile (· == '\r')).head? = some '\n'
  · obtain ⟨behind, isBehind⟩ := List.head?_eq_some_iff.1 fed
    refine ⟨_, behind, ?_, .lineFeed ((rest.takeWhile (· == '\r')).length + 1) behind⟩
    rw [List.replicate_succ, ← takeWhile_return, List.append_assoc, List.singleton_append,
      ← isBehind, List.cons_append, List.takeWhile_append_dropWhile]
  · exact ⟨['\r'], rest, rfl, .carriageReturn fed⟩

/-- **A text that is not empty begins with one of the four kinds of pieces.** -/
theorem exists_front {text : List Char} (nonempty : text ≠ []) :
    ∃ piece rest, text = piece ++ rest ∧ IsFront piece rest := by
  obtain ⟨first, tail, rfl⟩ := List.exists_cons_of_ne_nil nonempty
  by_cases space : isSpacing first = true
  · refine ⟨_, _, List.takeWhile_append_dropWhile.symm, .spacing ?_
      (fun _ => List.mem_takeWhile_imp) (stops_dropWhile isSpacing _)⟩
    simp [space]
  · by_cases lineEnd : isLineEnd first = true
    · simp only [isLineEnd, Bool.or_eq_true, beq_iff_eq] at lineEnd
      rcases lineEnd with rfl | rfl
      · obtain ⟨piece, rest, cut, isEnd⟩ := exists_front_of_return tail
        exact ⟨piece, rest, cut, .lineEnd isEnd⟩
      · exact ⟨['\n'], tail, rfl, .lineEnd (.lineFeed 0 tail)⟩
    · have isWordFirst : isWordChar first = true := by
        simp [isWordChar, space, lineEnd]
      by_cases isComment : slashes <+: first :: tail
      · obtain ⟨behind, joined⟩ := isComment
        refine ⟨'/' :: '/' :: behind.takeWhile fun character => !isLineEnd character,
          behind.dropWhile fun character => !isLineEnd character, ?_, .comment (.slashes ?_)
            (stops_dropWhile _ _)⟩
        · rw [List.cons_append, List.cons_append, List.takeWhile_append_dropWhile, ← joined]
          rfl
        · intro character inLine
          simpa using List.mem_takeWhile_imp inLine
      · refine ⟨_, _, List.takeWhile_append_dropWhile.symm, .word ⟨?_,
          fun _ => List.mem_takeWhile_imp, ?_⟩ (stops_dropWhile isWordChar _)⟩
        · simp [isWordFirst]
        · exact fun isFront => isComment (isFront.trans (List.takeWhile_prefix _))

namespace Lexeme

/-! ## The lexemes of a text -/

/-- The lexemes that the pieces of a text give, one piece after the other. -/
inductive Scanned : Location → List Char → List Lexeme → Prop
  | nil (location : Location) : Scanned location [] []
  | spacing {location : Location} {piece rest : List Char} {lexemes : List Lexeme} :
      piece ≠ [] → (∀ character ∈ piece, isSpacing character = true) → Stops isSpacing rest →
      Scanned (location.after piece) rest lexemes → Scanned location (piece ++ rest) lexemes
  | comment {location : Location} {piece rest : List Char} {lexemes : List Lexeme} :
      IsComment piece → Stops (fun character => !isLineEnd character) rest →
      Scanned (location.after piece) rest lexemes → Scanned location (piece ++ rest) lexemes
  | lineEnd {location : Location} {piece rest : List Char} {lexemes : List Lexeme} :
      IsLineEnd piece rest → Scanned (location.after piece) rest lexemes →
      Scanned location (piece ++ rest) (⟨.newline, location, location.after piece⟩ :: lexemes)
  | word {location : Location} {piece rest : List Char} {lexemes : List Lexeme} :
      IsWord piece → Stops isWordChar rest → Scanned (location.after piece) rest lexemes →
      Scanned location (piece ++ rest)
        (⟨Token.ofWord piece, location, location.after piece⟩ :: lexemes)

theorem length_rest_lt {piece rest : List Char} (ne_nil : piece ≠ []) :
    rest.length < (piece ++ rest).length := by
  rw [List.length_append]
  exact Nat.lt_add_of_pos_left (List.length_pos_iff.2 ne_nil)

/-- Cutting goes on behind the longest match. -/
theorem stream_append {location : Location} {pattern : Pattern} {piece rest : List Char}
    (longest : Pattern.longest (piece ++ rest) = ⟨pattern, piece.length⟩) (nonempty : piece ≠ []) :
    stream location (piece ++ rest) = match pattern.token? piece with
      | none => stream (location.after piece) rest
      | some token => .ok ⟨token, location, location.after piece⟩ ::
          stream (location.after piece) rest := by
  have notEmpty : ¬(piece ++ rest).isEmpty = true := by
    simp [nonempty]
  have positive : ¬piece.length = 0 := mt List.length_eq_zero_iff.1 nonempty
  rw [stream, dif_neg notEmpty]
  cases gives : pattern.token? piece with
  | none => simp only [longest, dif_neg positive, List.take_left, List.drop_left, gives]
  | some token => simp only [longest, dif_neg positive, List.take_left, List.drop_left, gives]

/-- **Cutting a text never fails, and its lexemes are those of its pieces.** -/
theorem exists_scanned (location : Location) (text : List Char) :
    ∃ lexemes, stream location text = lexemes.map .ok ∧ Scanned location text lexemes := by
  induction isLength : text.length using Nat.strongRecOn generalizing location text with
  | ind length ih =>
      by_cases empty : text = []
      · subst empty
        refine ⟨[], ?_, .nil location⟩
        rw [stream]
        rfl
      · obtain ⟨piece, rest, rfl, front⟩ := exists_front empty
        have shorter : rest.length < length := isLength ▸ length_rest_lt front.ne_nil
        obtain ⟨following, isStream, isScanned⟩ :=
          ih rest.length shorter (location.after piece) rest rfl
        have nonempty := front.ne_nil
        cases front with
        | spacing _ all stops =>
            have step := @stream_append location _ _ _
              (Pattern.longest_spacing nonempty all stops) nonempty
            exact ⟨_, step.trans isStream, .spacing nonempty all stops isScanned⟩
        | comment isComment stops =>
            have step := @stream_append location _ _ _
              (Pattern.longest_comment isComment stops) nonempty
            exact ⟨_, step.trans isStream, .comment isComment stops isScanned⟩
        | lineEnd lineEnd =>
            have step := @stream_append location _ _ _ (Pattern.longest_lineEnd lineEnd) nonempty
            exact ⟨_, step.trans (congrArg _ isStream), .lineEnd lineEnd isScanned⟩
        | word isWord stops =>
            have step := @stream_append location _ _ _ (Pattern.longest_word isWord stops) nonempty
            rw [Pattern.token?_ofWord] at step
            exact ⟨_, step.trans (congrArg _ isStream), .word isWord stops isScanned⟩

/-- The lexemes of a whole text. -/
theorem exists_ofText (text : String) :
    ∃ lexemes, stream {} text.toList = lexemes.map .ok ∧ ofText text = .ok lexemes ∧
      Scanned {} text.toList lexemes := by
  obtain ⟨lexemes, isStream, scanned⟩ := exists_scanned {} text.toList
  refine ⟨lexemes, isStream, ?_, scanned⟩
  rw [ofText, isStream, List.mapM_map]
  exact List.mapM_pure.trans (congrArg _ (List.map_id lexemes))

end Lexeme

end ShiftReduce
