import ShiftReduce.Proofs.Source.Splitting

/-!
# Where the tokens of a text stand

The lexemes of a text record the bytes at which they begin and end. They follow each other, each one
spells its token, and what they leave of the text is spacing and comments (`Lexeme.Covers`). With
the tokens told by lines and words, this is all that cutting a text into lexemes does
(`ofText_spec`).

A place inside a text is told by the text in front of it, so a lexeme stands between two places when
it splits the text there (`IsPiece`). The bytes of these places are read off in the end
(`IsPiece.isSlice`).
-/

set_option autoImplicit false

namespace ShiftReduce

/-! ## Pieces at a place -/

/-- A piece of a text between two places, and the rest of the text behind it. The text itself begins
at a place. -/
def IsPiece (location : Location) (text : List Char) (start stop : Location)
    (piece behind : List Char) : Prop :=
  ∃ before, text = before ++ piece ++ behind ∧ start = location.after before ∧
    stop = location.after (before ++ piece)

/-- A piece of a text between two bytes, and the rest of the text behind it. -/
def IsSlice (source : String) (start stop : Nat) (piece behind : List Char) : Prop :=
  ∃ before, source.toList = before ++ piece ++ behind ∧
    start = (String.ofList before).utf8ByteSize ∧
    stop = (String.ofList (before ++ piece)).utf8ByteSize

namespace IsPiece

variable {location start stop : Location} {text piece behind : List Char}

/-- What begins a text is in front of all of it. -/
theorem front (location : Location) (piece behind : List Char) :
    IsPiece location (piece ++ behind) location (location.after piece) piece behind :=
  ⟨[], rfl, rfl, rfl⟩

/-- A piece of the rest of a text is a piece of the text. -/
theorem append {first : List Char}
    (inRest : IsPiece (location.after first) text start stop piece behind) :
    IsPiece location (first ++ text) start stop piece behind := by
  obtain ⟨before, rfl, rfl, rfl⟩ := inRest
  refine ⟨first ++ before, by simp, ?_, ?_⟩
  · rw [Location.after_append]
  · rw [List.append_assoc, Location.after_append location]

theorem isSlice {source : String} (inText : IsPiece {} source.toList start stop piece behind) :
    IsSlice source start.byte stop.byte piece behind := by
  obtain ⟨before, split, rfl, rfl⟩ := inText
  refine ⟨before, split, ?_, ?_⟩
  · rw [Location.byte_after, Nat.zero_add]
  · rw [Location.byte_after, Nat.zero_add]

end IsPiece

/-- What a token is written as in front of the rest of a text. -/
inductive Token.Spells : Token → List Char → List Char → Prop
  | arrow (behind : List Char) : Spells .arrow arrowChars behind
  | start (behind : List Char) : Spells .start Pattern.startKeyword behind
  | symbol {name : String} (behind : List Char) : IsSymbolName name →
      Spells (.symbol name) name.toList behind
  | newline {piece behind : List Char} : IsLineEnd piece behind → Spells .newline piece behind

/-- Spaces and tabs, and behind them possibly a comment that goes on to the end of its line. -/
inductive IsGap : List Char → List Char → Prop
  | spacing {piece : List Char} (behind : List Char) :
      (∀ character ∈ piece, isSpacing character = true) → IsGap piece behind
  | comment {spaces piece behind : List Char} :
      (∀ character ∈ spaces, isSpacing character = true) → IsComment piece →
      Stops (fun character => !isLineEnd character) behind → IsGap (spaces ++ piece) behind

theorem Token.spells_ofWord {piece : List Char} (behind : List Char) (isWord : IsWord piece) :
    Spells (ofWord piece) piece behind := by
  rcases ofWord_cases isWord with ⟨rfl, isArrow⟩ | ⟨rfl, isStart⟩ | ⟨isName, isSymbol⟩
  · rw [isArrow]
    exact .arrow behind
  · rw [isStart]
    exact .start behind
  · rw [isSymbol]
    have spelled := Spells.symbol behind isName
    rwa [String.toList_ofList] at spelled

theorem Token.Spells.ne_nil {token : Token} {piece behind : List Char}
    (spells : token.Spells piece behind) : piece ≠ [] := by
  cases spells with
  | arrow => exact List.cons_ne_nil _ _
  | start => exact List.cons_ne_nil _ _
  | symbol _ isName => exact isName.isWord.ne_nil
  | newline lineEnd => exact lineEnd.ne_nil

namespace IsGap

variable {piece behind : List Char}

/-- Spacing in front of a gap belongs to it. -/
theorem append {spaces : List Char} (all : ∀ character ∈ spaces, isSpacing character = true)
    (gap : IsGap piece behind) : IsGap (spaces ++ piece) behind := by
  cases gap with
  | spacing _ spacing =>
      exact .spacing behind fun character member => (List.mem_append.1 member).elim
        (all character) (spacing character)
  | comment spacing isComment stops =>
      rw [← List.append_assoc]
      refine .comment (fun character member => ?_) isComment stops
      exact (List.mem_append.1 member).elim (all character) (spacing character)

/-- No gap stands in front of a line end. -/
theorem eq_nil (gap : IsGap piece behind)
    (stops : Stops (fun character => !isLineEnd character) (piece ++ behind)) : piece = [] := by
  have inLine : ∀ character ∈ piece, isLineEnd character = false := by
    cases gap with
    | spacing _ all => exact fun character member => isLineEnd_of_isSpacing (all character member)
    | comment all isComment =>
        intro character member
        rcases List.mem_append.1 member with inSpaces | inComment
        · exact isLineEnd_of_isSpacing (all character inSpaces)
        · exact isComment.inLine character inComment
  cases piece with
  | nil => rfl
  | cons first rest =>
      have isEnd : (!isLineEnd first) = false := stops first rfl
      rw [inLine first List.mem_cons_self] at isEnd
      cases isEnd

end IsGap

namespace Lexeme

/-! ## Lexemes at a place -/

/-- The bytes between the lexemes of a text, from its first byte to its last one. -/
def gaps (start : Nat) (lexemes : List Lexeme) (stop : Nat) : List (Nat × Nat) :=
  match lexemes with
  | [] => [(start, stop)]
  | first :: rest => (start, first.start.byte) :: gaps first.stop.byte rest stop

/-- The lexemes of a text by the bytes where they stand. -/
structure Covers (source : String) (lexemes : List Lexeme) : Prop where
  /-- No lexeme is empty. -/
  proper : ∀ lexeme ∈ lexemes, lexeme.start.byte < lexeme.stop.byte
  /-- Every lexeme ends before the next ones begin. -/
  increasing : lexemes.Pairwise fun first second => first.stop.byte ≤ second.start.byte
  /-- Every lexeme is written in the text. -/
  spelled : ∀ lexeme ∈ lexemes, ∃ piece behind,
    IsSlice source lexeme.start.byte lexeme.stop.byte piece behind ∧
      lexeme.token.Spells piece behind
  /-- Nothing but spacing and comments is left. -/
  between : ∀ gap ∈ gaps 0 lexemes source.utf8ByteSize, ∃ piece behind,
    IsSlice source gap.1 gap.2 piece behind ∧ IsGap piece behind

/-- A lexeme is written in a text that begins at a place. -/
def Written (location : Location) (text : List Char) (lexeme : Lexeme) : Prop :=
  ∃ piece behind, IsPiece location text lexeme.start lexeme.stop piece behind ∧
    lexeme.token.Spells piece behind

/-- Nothing but spacing and comments stands between two bytes of a text that begins at a place. -/
def Blank (location : Location) (text : List Char) (gap : Nat × Nat) : Prop :=
  ∃ start stop piece behind, gap = (start.byte, stop.byte) ∧
    IsPiece location text start stop piece behind ∧ IsGap piece behind

section Behind

variable {location : Location} {first rest : List Char}

theorem Written.append {lexeme : Lexeme} (inRest : Written (location.after first) rest lexeme) :
    Written location (first ++ rest) lexeme := by
  obtain ⟨piece, behind, isPiece, spells⟩ := inRest
  exact ⟨piece, behind, isPiece.append, spells⟩

theorem Blank.append {gap : Nat × Nat} (inRest : Blank (location.after first) rest gap) :
    Blank location (first ++ rest) gap := by
  obtain ⟨start, stop, piece, behind, same, isPiece, isGap⟩ := inRest
  exact ⟨start, stop, piece, behind, same, isPiece.append, isGap⟩

/-- The gaps behind a first lexeme are gaps of the whole text. -/
theorem blank_gaps {piece behind : List Char} {lexemes : List Lexeme} {others : List (Nat × Nat)}
    {stop : Nat} (split : rest = piece ++ behind) (isGap : IsGap piece behind)
    (isGaps : ∀ start, gaps start lexemes stop =
      (start, ((location.after first).after piece).byte) :: others)
    (blank : ∀ gap ∈ others, Blank (location.after first) rest gap) :
    ∀ gap ∈ gaps (location.after first).byte lexemes stop, Blank location (first ++ rest) gap := by
  rw [isGaps, List.forall_mem_cons]
  constructor
  · apply Blank.append
    subst split
    exact ⟨_, _, piece, behind, rfl, .front .., isGap⟩
  · intro gap member
    exact (blank gap member).append

end Behind

namespace Scanned

variable {location : Location} {text : List Char} {lexemes : List Lexeme}

/-- Every lexeme is written in its text. -/
theorem written (scanned : Scanned location text lexemes) :
    ∀ lexeme ∈ lexemes, Written location text lexeme := by
  induction scanned with
  | nil => simp
  | spacing _ _ _ _ ih => exact fun lexeme member => (ih lexeme member).append
  | comment _ _ _ ih => exact fun lexeme member => (ih lexeme member).append
  | @lineEnd location piece rest _ lineEnd _ ih =>
      rw [List.forall_mem_cons]
      constructor
      · exact ⟨piece, rest, .front .., .newline lineEnd⟩
      · exact fun lexeme member => (ih lexeme member).append
  | @word location piece rest _ isWord _ _ ih =>
      rw [List.forall_mem_cons]
      constructor
      · exact ⟨piece, rest, .front .., Token.spells_ofWord _ isWord⟩
      · exact fun lexeme member => (ih lexeme member).append

/-- No lexeme stands in front of its text. -/
theorem byte_le (scanned : Scanned location text lexemes) :
    ∀ lexeme ∈ lexemes, location.byte ≤ lexeme.start.byte := by
  intro lexeme member
  obtain ⟨_, _, ⟨before, _, start, _⟩, _⟩ := scanned.written lexeme member
  rw [start, Location.byte_after]
  exact Nat.le_add_right _ _

/-- No lexeme is empty. -/
theorem byte_lt (scanned : Scanned location text lexemes) :
    ∀ lexeme ∈ lexemes, lexeme.start.byte < lexeme.stop.byte := by
  intro lexeme member
  obtain ⟨piece, _, ⟨before, _, start, stop⟩, spells⟩ := scanned.written lexeme member
  obtain ⟨first, rest, rfl⟩ := List.exists_cons_of_ne_nil spells.ne_nil
  have positive := first.utf8Size_pos
  rw [start, stop, Location.byte_after, Location.byte_after, String.ofList_append,
    String.ofList_cons, String.utf8ByteSize_append, String.utf8ByteSize_append,
    String.utf8ByteSize_singleton]
  omega

/-- The lexemes of a text follow each other. -/
theorem pairwise_le (scanned : Scanned location text lexemes) :
    lexemes.Pairwise fun first second => first.stop.byte ≤ second.start.byte := by
  induction scanned with
  | nil => exact .nil
  | spacing _ _ _ _ ih => exact ih
  | comment _ _ _ ih => exact ih
  | lineEnd _ scanned ih => exact .cons scanned.byte_le ih
  | word _ _ scanned ih => exact .cons scanned.byte_le ih

/-- Nothing but spacing and comments stands between the lexemes of a text. The gap in front of the
first one is told apart, since spacing in front of the text makes it longer. -/
theorem exists_gaps (scanned : Scanned location text lexemes) :
    ∃ piece behind others, text = piece ++ behind ∧ IsGap piece behind ∧
      (∀ start, gaps start lexemes (location.after text).byte =
        (start, (location.after piece).byte) :: others) ∧
      ∀ gap ∈ others, Blank location text gap := by
  induction scanned with
  | nil location => exact ⟨[], [], [], rfl, .spacing _ (by simp), fun _ => rfl, by simp⟩
  | @spacing location first rest lexemes _ all _ _ ih =>
      obtain ⟨piece, behind, others, rfl, isGap, isGaps, blank⟩ := ih
      refine ⟨first ++ piece, behind, others, by simp, isGap.append all, fun start => ?_, ?_⟩
      · rw [Location.after_append, isGaps, Location.after_append]
      · exact fun gap member => (blank gap member).append
  | @comment location first rest lexemes isComment stops _ ih =>
      obtain ⟨piece, behind, others, rfl, isGap, isGaps, blank⟩ := ih
      -- The comment goes on to the end of its line, so the gap ends with it.
      obtain rfl := isGap.eq_nil stops
      refine ⟨first, behind, others, rfl, @IsGap.comment [] _ _ (by simp) isComment stops,
        fun start => ?_, ?_⟩
      · rw [Location.after_append, isGaps]
        rfl
      · exact fun gap member => (blank gap member).append
  | @lineEnd location first rest lexemes _ _ ih =>
      obtain ⟨piece, behind, others, split, isGap, isGaps, blank⟩ := ih
      refine ⟨[], first ++ rest, _, rfl, .spacing _ (by simp), fun _ => rfl, ?_⟩
      rw [Location.after_append]
      exact blank_gaps split isGap isGaps blank
  | @word location first rest lexemes _ _ _ ih =>
      obtain ⟨piece, behind, others, split, isGap, isGaps, blank⟩ := ih
      refine ⟨[], first ++ rest, _, rfl, .spacing _ (by simp), fun _ => rfl, ?_⟩
      rw [Location.after_append]
      exact blank_gaps split isGap isGaps blank

end Scanned

/-- The lexemes of a whole text cover it. -/
theorem covers_of_scanned {source : String} {lexemes : List Lexeme}
    (scanned : Scanned {} source.toList lexemes) : Covers source lexemes := by
  refine ⟨scanned.byte_lt, scanned.pairwise_le, ?_, ?_⟩
  · intro lexeme member
    obtain ⟨piece, behind, isPiece, spells⟩ := scanned.written lexeme member
    exact ⟨piece, behind, isPiece.isSlice, spells⟩
  · have size : (({} : Location).after source.toList).byte = source.utf8ByteSize := by
      rw [Location.byte_after, String.ofList_toList, Nat.zero_add]
    obtain ⟨piece, behind, others, split, isGap, isGaps, blank⟩ := scanned.exists_gaps
    rw [size] at isGaps
    have all : ∀ gap ∈ gaps 0 lexemes source.utf8ByteSize, Blank {} source.toList gap := by
      rw [isGaps, split]
      rw [List.forall_mem_cons]
      constructor
      · exact ⟨{}, _, piece, behind, rfl, .front .., isGap⟩
      · rwa [← split]
    intro gap member
    obtain ⟨start, stop, piece, behind, rfl, isPiece, isGap⟩ := all gap member
    exact ⟨piece, behind, isPiece.isSlice, isGap⟩

/-- **Cutting a text into lexemes never fails. Their tokens are those of its lines and words, and
they cover it up to spacing and comments.** -/
theorem ofText_spec (source : String) :
    ∃ lexemes, ofText source = .ok lexemes ∧
      lexemes.map token = Source.tokens source.toList ∧ Covers source lexemes := by
  obtain ⟨lexemes, -, isOk, scanned⟩ := exists_ofText source
  exact ⟨lexemes, isOk, map_token_of_scanned scanned, covers_of_scanned scanned⟩

end Lexeme

end ShiftReduce
