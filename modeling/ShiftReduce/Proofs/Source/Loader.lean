import ShiftReduce.Proofs.Source.Splitting
import ShiftReduce.Source.Description

/-!
# Loading line by line

The loader takes the lexemes of a file one after the other and keeps the tokens of the line that has
not ended. So it holds the lexemes behind the last line end (`Loader.Holds`), all of which begin in
the line of the place that it has come to. When the line ends it takes them in with the number of
that line, which is the number that the first of them gives.

So the loop takes in the lexemes between the line ends, one line after the other
(`parse_eq_foldlM_addLexemes`).
-/

set_option autoImplicit false

namespace ShiftReduce

/-- Take in the lexemes of a line, whose number the first of them gives. -/
def Description.addLexemes (description : Description) :
    List Lexeme → Except SyntaxError Description
  | [] => .ok description
  | first :: rest =>
    description.addTokens (first.start.line + 1) ((first :: rest).map Lexeme.token)

namespace Loader

/-- A loader that has come to a place holds lexemes of the line of this place. -/
structure Holds (loader : Loader) (location : Location) (pending : List Lexeme) : Prop where
  tokens : loader.tokens.toList = pending.map Lexeme.token
  noNewline : ∀ lexeme ∈ pending, lexeme.token ≠ .newline
  inLine : ∀ lexeme ∈ pending, lexeme.start.line = location.line
  line : pending ≠ [] → loader.line = location.line + 1

variable {loader : Loader} {location later : Location} {pending lexemes : List Lexeme}
  {text : List Char}

/-- What a loader holds is still of the same line further on in the line. -/
theorem Holds.advance (holds : loader.Holds location pending)
    (sameLine : later.line = location.line) : loader.Holds later pending where
  tokens := holds.tokens
  noNewline := holds.noNewline
  inLine lexeme member := (holds.inLine lexeme member).trans sameLine.symm
  line ne_nil := by rw [holds.line ne_nil, sameLine]

/-- The end of a line takes in the lexemes that the loader holds. -/
theorem Holds.endLine (holds : loader.Holds location pending) :
    loader.endLine = loader.description.addLexemes pending := by
  rw [Loader.endLine, holds.tokens]
  cases pending with
  | nil => rfl
  | cons first rest =>
      rw [holds.line (List.cons_ne_nil _ _), ← holds.inLine first List.mem_cons_self]
      rfl

/-- A line end is where the loader takes in what it holds. -/
theorem Holds.read_newline (holds : loader.Holds location pending) (stop : Location) :
    loader.read (.ok ⟨.newline, location, stop⟩) =
      loader.description.addLexemes pending >>= fun next =>
        .ok { description := next, line := location.line + 1 } := by
  have here : Holds { loader with line := location.line + 1 } location pending :=
    ⟨holds.tokens, holds.noNewline, holds.inLine, fun _ => rfl⟩
  exact congrArg (· >>= _) here.endLine

/-- Any other lexeme is held as well. -/
theorem Holds.push (holds : loader.Holds location pending) {lexeme : Lexeme}
    (begins : lexeme.start = location) (noNewline : lexeme.token ≠ .newline)
    (sameLine : later.line = location.line) :
    ∃ wider, loader.read (.ok lexeme) = .ok wider ∧ wider.description = loader.description ∧
      wider.Holds later (pending ++ [lexeme]) := by
  refine ⟨_, if_neg noNewline, rfl, ?_⟩
  constructor
  case tokens => simp [holds.tokens]
  case noNewline =>
    rw [List.forall_mem_append, List.forall_mem_singleton]
    exact ⟨holds.noNewline, noNewline⟩
  case inLine =>
    rw [List.forall_mem_append, List.forall_mem_singleton, sameLine, begins]
    exact ⟨holds.inLine, rfl⟩
  case line =>
    intro _
    rw [sameLine, ← begins]

/-- **Reading the rest of a file takes in one line after the other**, the first one together with
what the loader holds. -/
theorem Holds.foldlM_read (holds : loader.Holds location pending)
    (scanned : Lexeme.Scanned location text lexemes) :
    (lexemes.foldlM (fun loader lexeme => loader.read (.ok lexeme)) loader >>= Loader.endLine) =
      (Lexeme.lines (pending ++ lexemes)).foldlM Description.addLexemes loader.description := by
  induction scanned generalizing loader pending with
  | nil location =>
      have isLine : Lexeme.lines (pending ++ []) = [pending] := by
        rw [List.append_nil]
        exact List.splitOnP_eq_singleton fun lexeme member =>
          beq_eq_false_iff_ne.2 (holds.noNewline lexeme member)
      rw [isLine, List.foldlM_cons, ← holds.endLine]
      exact (bind_pure _).symm
  | @spacing location piece rest lexemes _ all _ _ ih =>
      exact ih (holds.advance (Lexeme.line_after_of_inLine location fun character member =>
        isLineEnd_of_isSpacing (all character member)))
  | @comment location piece rest lexemes isComment _ _ ih =>
      exact ih (holds.advance (Lexeme.line_after_of_inLine location isComment.inLine))
  | @lineEnd location piece rest lexemes _ _ ih =>
      have isLines : Lexeme.lines
          (pending ++ ⟨.newline, location, location.after piece⟩ :: lexemes) =
            pending :: Lexeme.lines lexemes :=
        List.splitOnP_append_cons_of_forall_mem
          (fun lexeme member => beq_eq_false_iff_ne.2 (holds.noNewline lexeme member)) _ rfl _
      rw [List.foldlM_cons, holds.read_newline, isLines, List.foldlM_cons, bind_assoc, bind_assoc]
      congr 1
      funext next
      have nothing : Holds { description := next, line := location.line + 1 }
          (location.after piece) [] := ⟨rfl, by simp, by simp, fun empty => absurd rfl empty⟩
      exact ih nothing
  | @word location piece rest lexemes isWord _ _ ih =>
      have sameLine : (location.after piece).line = location.line :=
        Lexeme.line_after_of_inLine location fun character member =>
          isLineEnd_eq_false (isWord.chars character member)
      obtain ⟨wider, isRead, sameDescription, holdsWider⟩ :=
        @Holds.push _ _ _ _ holds ⟨Token.ofWord piece, location, location.after piece⟩ rfl
          (Token.ofWord_ne_newline piece) sameLine
      rw [List.foldlM_cons, isRead, ← sameDescription, List.append_cons]
      exact ih holdsWider

end Loader

/-- **A file is read by taking in the lexemes of one line after the other.** -/
theorem Description.parse_eq_foldlM_addLexemes {source : String} {lexemes : List Lexeme}
    (isStream : Lexeme.stream {} source.toList = lexemes.map .ok)
    (scanned : Lexeme.Scanned {} source.toList lexemes) :
    parse source = (Lexeme.lines lexemes).foldlM addLexemes {} := by
  have nothing : Loader.Holds {} {} [] := ⟨rfl, by simp, by simp, fun empty => absurd rfl empty⟩
  rw [parse, isStream, List.foldlM_map]
  exact nothing.foldlM_read scanned

end ShiftReduce
