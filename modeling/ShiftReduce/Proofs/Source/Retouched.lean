import Mathlib.Logic.Relation
import ShiftReduce.Proofs.Source.Joined

/-!
# Edits that do not change what is read

Two kinds of edits leave the lines of a text as they are (`Source.Edit`). Carriage returns can be
inserted in front of a line feed, and the end of a line can be followed by spacing, with a comment
behind it or without. The line may hold a comment already, and the end of the text is the end of a
line as well.

The text behind such a trail is read as before, so it is enough to know what becomes of the last
line of the text in front of it (`readFrom_append_trail`). The words of a trail are none, or the
first one of them begins a comment, so the line keeps its tokens (`lineTokens_append_trail`).
After any number of edits the same is read, with the same lines (`parse_eq_of_edits`).
-/

set_option autoImplicit false

namespace ShiftReduce

namespace Source

/-! ## Trails -/

/-- What can follow a line: a space or a tab, more of them, and possibly a comment. -/
inductive IsTrail : List Char → Prop
  | intro {first : Char} {spaces comment : List Char} : isSpacing first = true →
      (∀ character ∈ spaces, isSpacing character = true) → comment = [] ∨ IsComment comment →
      IsTrail (first :: (spaces ++ comment))

variable {trail : List Char}

/-- A trail stays in its line. -/
theorem IsTrail.inLine (isTrail : IsTrail trail) :
    ∀ character ∈ trail, isLineEnd character = false := by
  obtain @⟨first, spaces, comment, isSpace, all, isComment⟩ := isTrail
  rw [List.forall_mem_cons, List.forall_mem_append]
  refine ⟨isLineEnd_of_isSpacing isSpace,
    fun character member => isLineEnd_of_isSpacing (all character member), ?_⟩
  rcases isComment with rfl | isComment
  · simp
  · exact isComment.inLine

/-- Words end at a space. -/
theorem words_append_cons {space : Char} (isSpace : isSpacing space = true)
    (line behind : List Char) : words (line ++ space :: behind) = words line ++ words behind := by
  rw [words, List.splitOnP_append_cons line behind isSpace, List.filter_append]
  rfl

/-- **A line keeps its tokens when a trail follows it.** -/
theorem lineTokens_append_trail (isTrail : IsTrail trail) (line : List Char) :
    lineTokens (line ++ trail) = lineTokens line := by
  obtain @⟨first, spaces, comment, isSpace, all, isComment⟩ := isTrail
  have noTokens : lineTokens (spaces ++ comment) = [] := by
    rw [lineTokens_append_spacing all]
    rcases isComment with rfl | isComment
    · rfl
    · exact lineTokens_comment isComment
  rw [lineTokens, List.map_eq_nil_iff] at noTokens
  rw [lineTokens, lineTokens, words_append_cons isSpace, List.takeWhile_append, noTokens]
  split
  · next whole => rw [List.append_nil, (List.takeWhile_prefix _).eq_of_length whole]
  · rfl

/-! ## Edits -/

/-- An edit of a text: carriage returns are inserted in front of a line feed, or a trail at the end
of a line, where the text ends or goes on with a line end. -/
inductive Edit : List Char → List Char → Prop
  | returns (count : Nat) (before behind : List Char) :
      Edit (before ++ '\n' :: behind) (before ++ (List.replicate count '\r' ++ '\n' :: behind))
  | trail {trail : List Char} (before : List Char) {behind : List Char} : IsTrail trail →
      (∀ character, behind.head? = some character → isLineEnd character = true) →
      Edit (before ++ behind) (before ++ (trail ++ behind))

end Source

namespace Description

open Source

variable {trail : List Char}

/-- What is read up to the end of a line is read up to the end of a trail. -/
theorem readFrom_append_trail (isTrail : IsTrail trail) (description : Description) (number : Nat)
    (before : List Char) :
    description.readFrom number (before ++ trail) = description.readFrom number before := by
  have whole (line : List Char) (inLine : ∀ character ∈ line, isLineEnd character = false)
      (description : Description) (number : Nat) :
      description.readFrom number (line ++ trail) = description.readFrom number line := by
    have inTrail : ∀ character ∈ line ++ trail, isLineEnd character = false :=
      List.forall_mem_append.2 ⟨inLine, isTrail.inLine⟩
    rw [readFrom_line inTrail, lineTokens_append_trail isTrail, readFrom_line inLine]
  induction before using lastLine_induction with
  | single line inLine => exact whole line inLine description number
  | append before ending line isEnd inLine _ =>
      rw [List.append_assoc, List.cons_append, readFrom_append_lineEnd isEnd,
        readFrom_append_lineEnd isEnd]
      congr 1
      funext next
      exact whole line inLine next _

/-- Carriage returns in front of a line feed change nothing. -/
theorem readFrom_returns (count : Nat) (description : Description) (number : Nat)
    (before behind : List Char) :
    description.readFrom number (before ++ (List.replicate count '\r' ++ '\n' :: behind)) =
      description.readFrom number (before ++ '\n' :: behind) := by
  induction count with
  | zero => rfl
  | succ count ih =>
      obtain ⟨ending, rest, isCons, isEnd⟩ : ∃ ending rest,
          List.replicate count '\r' ++ '\n' :: behind = ending :: rest ∧
            isLineEnd ending = true := by
        cases count with
        | zero => exact ⟨'\n', behind, rfl, rfl⟩
        | succ count => exact ⟨'\r', _, rfl, rfl⟩
      rw [← ih, List.replicate_succ, List.cons_append, isCons, readFrom_eq_readLines,
        readFrom_eq_readLines]
      exact readLines_return isEnd description number before rest

/-- **An edit leaves what is read as it is.** -/
theorem readFrom_of_edit {text edited : List Char} (edit : Edit text edited)
    (description : Description) (number : Nat) :
    description.readFrom number edited = description.readFrom number text := by
  cases edit with
  | returns count before behind => exact readFrom_returns count description number before behind
  | @trail trail before behind isTrail ends =>
      cases behind with
      | nil => simpa using readFrom_append_trail isTrail description number before
      | cons ending behind =>
          have isEnd : isLineEnd ending = true := ends ending rfl
          have noFeed : '\n' ∉ trail := fun isFeed => by
            have inLine := isTrail.inLine _ isFeed
            cases inLine
          have counted : (before ++ trail ++ [ending]).count '\n' =
              (before ++ [ending]).count '\n' := by
            rw [List.append_assoc, List.count_append, List.count_append,
              List.count_eq_zero_of_not_mem noFeed, Nat.zero_add, List.count_append]
          rw [← List.append_assoc, readFrom_append_lineEnd isEnd, readFrom_append_lineEnd isEnd,
            readFrom_append_trail isTrail, counted]

/-- **Carriage returns in front of line feeds, and spacing and comments at the ends of lines, do not
change what is read.** -/
theorem parse_eq_of_edits {source edited : String}
    (edits : Relation.ReflTransGen Edit source.toList edited.toList) :
    parse edited = parse source := by
  rw [parse_eq_readFrom, parse_eq_readFrom]
  generalize source.toList = text, edited.toList = result at edits
  induction edits with
  | refl => rfl
  | tail _ edit ih => rw [readFrom_of_edit edit, ih]

/-- Two edits: carriage returns between one and its line feed, and a trail in a comment. -/
theorem parse_eq_of_edits_commented :
    Relation.ReflTransGen Edit "S -> a // b\r\nS ->".toList
        "S -> a // b\t //->\r\r\r\nS ->".toList ∧
      parse "S -> a // b\t //->\r\r\r\nS ->" = parse "S -> a // b\r\nS ->" ∧
      parse "S -> a // b\r\nS ->" = .error ⟨2, .emptyRight⟩ := by
  have returns : Edit "S -> a // b\r\nS ->".toList "S -> a // b\r\r\r\nS ->".toList :=
    .returns 2 "S -> a // b\r".toList "S ->".toList
  have comment : IsComment ['/', '/', '-', '>'] := .slashes (by simp [isLineEnd])
  have isTrail : IsTrail "\t //->".toList :=
    @IsTrail.intro '\t' [' '] _ rfl (List.forall_mem_singleton.2 rfl) (.inr comment)
  have trail : Edit "S -> a // b\r\r\r\nS ->".toList "S -> a // b\t //->\r\r\r\nS ->".toList :=
    .trail "S -> a // b".toList isTrail (by rintro _ ⟨⟩; rfl)
  have edits := (Relation.ReflTransGen.single returns).tail trail
  exact ⟨edits, parse_eq_of_edits edits, by decide +kernel⟩

end Description

end ShiftReduce
