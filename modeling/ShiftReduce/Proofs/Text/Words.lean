import Mathlib.Data.List.Nodup
import Mathlib.Data.List.TakeWhile
import ShiftReduce.Text.Blank
import ShiftReduce.Text.Lines
import ShiftReduce.Text.Padded

/-!
# Words of a text and their places

A text is split into words at its blank characters, and each word has the number of characters in
front of it as its place (`words`). A blank anywhere splits the words of a text into those before it
and those behind it (`wordsFrom_append_blank`), and everything else follows: blanks only move the
words behind them, and a text without blanks is one word (`wordsFrom_append_word`). Blanks at the
end do not matter, so trimming keeps the words in their places (`words_trimEnd`). A line that was
written as words, with single spaces between them, tells the words (`Worded.names_eq`).

The lines of a text that was written line by line are those that were written, if none of them has a
line feed of its own (`linesOf_unlines`).
-/

set_option autoImplicit false

namespace ShiftReduce.Text

/-! ## Splitting a text -/

/-- A text that is not empty and has no blank characters. -/
def Unbroken (text : String) : Prop :=
  text ≠ "" ∧ ∀ character ∈ text.toList, isBlank character = false

theorem unbroken_iff (text : String) :
    Unbroken text ↔ ¬(text.isEmpty || text.toList.any isBlank) = true := by
  simp [Unbroken]

instance (text : String) : Decidable (Unbroken text) :=
  decidable_of_iff _ (unbroken_iff text).symm

theorem Unbroken.append {first second : String} (firstUnbroken : Unbroken first)
    (secondUnbroken : Unbroken second) : Unbroken (first ++ second) := by
  refine ⟨fun empty => firstUnbroken.1 (String.append_eq_empty_iff.1 empty).1, ?_⟩
  rw [String.toList_append]
  exact List.forall_mem_append.2 ⟨firstUnbroken.2, secondUnbroken.2⟩

/-- A text without blanks does not break apart. -/
theorem Unbroken.feed_notMem {text : String} (unbroken : Unbroken text) : '\n' ∉ text.toList :=
  fun inText => absurd (unbroken.2 _ inText) (by decide)

/-- The words of characters that begin at a place: the runs between blanks, each with its place. -/
def wordsFrom (place : Nat) (characters : List Char) : List (Nat × String) :=
  ((characters.zipIdx place).splitOnP (isBlank ∘ Prod.fst)).filterMap fun run =>
    run.head?.map fun first => (first.2, String.ofList (run.map Prod.fst))

/-- The words of a text, each with its place. -/
def words (text : String) : List (Nat × String) :=
  wordsFrom 0 text.toList

/-- The lines of a text in which every line ends in a line feed. -/
def linesOf (text : String) : List String :=
  ((text.toList.splitOnP (· == '\n')).map String.ofList).dropLast

/-! ## Words -/

variable {place : Nat} {character : Char} {characters rest : List Char}

/-- **A blank splits the words of a text.** -/
theorem wordsFrom_append_blank (isSpace : isBlank character = true) :
    wordsFrom place (characters ++ character :: rest) =
      wordsFrom place characters ++ wordsFrom (place + characters.length + 1) rest := by
  have splits : (isBlank ∘ Prod.fst) (character, place + characters.length) = true := isSpace
  rw [wordsFrom, List.zipIdx_append, List.zipIdx_cons, List.splitOnP_append_cons _ _ splits,
    List.filterMap_append]
  rfl

theorem wordsFrom_nil : wordsFrom place [] = [] := by
  simp [wordsFrom]

theorem wordsFrom_cons_blank (isSpace : isBlank character = true) :
    wordsFrom place (character :: rest) = wordsFrom (place + 1) rest := by
  have split := @wordsFrom_append_blank place character [] rest isSpace
  rwa [wordsFrom_nil] at split

theorem wordsFrom_spaces (count : Nat) :
    wordsFrom place (List.replicate count ' ' ++ rest) = wordsFrom (place + count) rest := by
  induction count generalizing place with
  | zero => rfl
  | succ count ih =>
      rw [List.replicate_succ, List.cons_append, wordsFrom_cons_blank (by decide), ih,
        Nat.add_right_comm, Nat.add_assoc]

theorem wordsFrom_eq_nil (blank : ∀ character ∈ characters, isBlank character = true) :
    wordsFrom place characters = [] := by
  induction characters generalizing place with
  | nil => exact wordsFrom_nil
  | cons first rest ih =>
      obtain ⟨isSpace, restBlank⟩ := List.forall_mem_cons.1 blank
      rw [wordsFrom_cons_blank isSpace, ih restBlank]

/-- Blanks at the end do not matter. -/
theorem wordsFrom_append_blanks (blank : ∀ character ∈ rest, isBlank character = true) :
    wordsFrom place (characters ++ rest) = wordsFrom place characters := by
  cases rest with
  | nil => rw [List.append_nil]
  | cons first rest =>
      obtain ⟨isSpace, restBlank⟩ := List.forall_mem_cons.1 blank
      rw [wordsFrom_append_blank isSpace, wordsFrom_eq_nil restBlank, List.append_nil]

theorem wordsFrom_unbroken {word : String} (unbroken : Unbroken word) :
    wordsFrom place word.toList = [(place, word)] := by
  obtain ⟨first, others, isWord⟩ : ∃ first others, word.toList = first :: others :=
    List.exists_cons_of_ne_nil fun empty => unbroken.1 (String.toList_eq_nil_iff.1 empty)
  have noBlank : ∀ entry ∈ word.toList.zipIdx place, (isBlank ∘ Prod.fst) entry = false :=
    fun entry member => unbroken.2 entry.1 (List.fst_mem_of_mem_zipIdx member)
  rw [wordsFrom, List.splitOnP_eq_singleton noBlank, List.filterMap_cons, List.zipIdx_map_fst,
    String.ofList_toList, isWord]
  rfl

/-- **An unbroken text in front of a blank, or at the end, is the first word.** -/
theorem wordsFrom_append_word {word : String} (unbroken : Unbroken word)
    (spaced : ∀ character, rest.head? = some character → isBlank character = true) :
    wordsFrom place (word.toList ++ rest) =
      (place, word) :: wordsFrom (place + word.length) rest := by
  cases rest with
  | nil => rw [List.append_nil, wordsFrom_unbroken unbroken, wordsFrom_nil]
  | cons first rest =>
      have isSpace := spaced first rfl
      rw [wordsFrom_append_blank isSpace, wordsFrom_unbroken unbroken, String.length_toList,
        wordsFrom_cons_blank isSpace]
      rfl

/-- A word in front of a space. -/
theorem map_snd_wordsFrom_append_space {word : String} (unbroken : Unbroken word) :
    (wordsFrom place (word.toList ++ ' ' :: rest)).map Prod.snd =
      word :: (wordsFrom (place + word.length + 1) rest).map Prod.snd := by
  rw [wordsFrom_append_blank (by decide), wordsFrom_unbroken unbroken, String.length_toList,
    List.map_append]
  rfl

/-- A padded word takes its width. -/
theorem wordsFrom_padRight {word : String} (unbroken : Unbroken word) {width : Nat}
    (fits : word.length ≤ width)
    (spaced : ∀ character, rest.head? = some character → isBlank character = true) :
    wordsFrom place ((padRight width word).toList ++ rest) =
      (place, word) :: wordsFrom (place + width) rest := by
  have padding : ∀ character,
      (List.replicate (width - word.length) ' ' ++ rest).head? = some character →
        isBlank character = true := by
    intro character isHead
    cases filled : width - word.length with
    | zero =>
        rw [filled] at isHead
        exact spaced character isHead
    | succ count =>
        rw [filled, List.replicate_succ] at isHead
        cases isHead
        decide
  rw [padRight, String.toList_append, String.toList_ofList, List.append_assoc,
    wordsFrom_append_word unbroken padding, wordsFrom_spaces, Nat.add_assoc,
    Nat.add_sub_cancel' fits]

/-- What trimming takes off. -/
theorem exists_toList_trimEnd (text : String) : ∃ blanks,
    text.toList = (trimEnd text).toList ++ blanks ∧
      ∀ character ∈ blanks, isBlank character = true := by
  refine ⟨(text.toList.reverse.takeWhile isBlank).reverse, ?_, ?_⟩
  · rw [trimEnd, String.toList_ofList, ← List.reverse_append, List.takeWhile_append_dropWhile,
      List.reverse_reverse]
  · intro character member
    exact List.mem_takeWhile_imp (List.mem_reverse.1 member)

/-- Trimming keeps the words in their places. -/
theorem words_trimEnd (text : String) : words (trimEnd text) = words text := by
  obtain ⟨blanks, whole, blank⟩ := exists_toList_trimEnd text
  rw [words, words, whole, wordsFrom_append_blanks blank]

/-! ## Words behind spaces -/

theorem toList_spaced_cons (name : String) (names : List String) :
    (spaced (name :: names)).toList = ' ' :: (name.toList ++ (spaced names).toList) := by
  simp [spaced]

/-- Behind a word the text ends or goes on with a space. -/
theorem isBlank_of_head?_spaced {names : List String}
    (isHead : (spaced names).toList.head? = some character) : isBlank character = true := by
  cases names with
  | nil => cases isHead
  | cons name names =>
      rw [toList_spaced_cons] at isHead
      cases isHead
      decide

/-- **Words that were written behind spaces are the words of the text.** -/
theorem map_snd_wordsFrom_spaced {names : List String} (unbroken : ∀ name ∈ names, Unbroken name) :
    (wordsFrom place (spaced names).toList).map Prod.snd = names := by
  induction names generalizing place with
  | nil => simp [spaced, wordsFrom_nil]
  | cons name names ih =>
      obtain ⟨nameUnbroken, restUnbroken⟩ := List.forall_mem_cons.1 unbroken
      rw [toList_spaced_cons, wordsFrom_cons_blank (by decide),
        wordsFrom_append_word nameUnbroken fun _ => isBlank_of_head?_spaced, List.map_cons,
        ih restUnbroken]

theorem feed_notMem_spaced {names : List String} (inside : ∀ name ∈ names, '\n' ∉ name.toList) :
    '\n' ∉ (spaced names).toList := by
  rw [spaced, String.toList_join, List.mem_flatMap]
  rintro ⟨text, isText, inWord⟩
  obtain ⟨name, isName, rfl⟩ := List.mem_map.1 isText
  rw [String.toList_append, List.mem_append] at inWord
  rcases inWord with isSpace | inName
  · exact absurd (List.mem_singleton.1 isSpace) (by decide)
  · exact inside name isName inName

/-- A line that was written as words without blanks, with a space between two of them. -/
structure Worded (line : String) (names : List String) : Prop where
  text : " " ++ line = spaced names
  unbroken : ∀ name ∈ names, Unbroken name

section Worded

variable {line : String} {names others : List String}

theorem worded_word {word : String} (unbroken : Unbroken word) : Worded word [word] where
  text := by simp [spaced]
  unbroken := List.forall_mem_singleton.2 unbroken

/-- A word in front of a line. -/
theorem Worded.cons (worded : Worded line names) {word : String} (unbroken : Unbroken word) :
    Worded (word ++ " " ++ line) (word :: names) where
  text := by
    rw [String.append_assoc, worded.text]
    simp [spaced, String.append_assoc]
  unbroken := List.forall_mem_cons.2 ⟨unbroken, worded.unbroken⟩

/-- **The words of a line are those that it was written as.** -/
theorem Worded.map_snd_words (worded : Worded line names) :
    (words line).map Prod.snd = names := by
  cases names with
  | nil => exact absurd worded.text (by simp [spaced])
  | cons first rest =>
      obtain ⟨firstUnbroken, restUnbroken⟩ := List.forall_mem_cons.1 worded.unbroken
      have isLine : line.toList = first.toList ++ (spaced rest).toList := by
        have same := congrArg String.toList worded.text
        rw [toList_spaced_cons, String.toList_append] at same
        exact (List.cons.inj same).2
      rw [words, isLine, wordsFrom_append_word firstUnbroken fun _ => isBlank_of_head?_spaced,
        List.map_cons, map_snd_wordsFrom_spaced restUnbroken]

/-- A line was not written as other words. -/
theorem Worded.names_eq (worded : Worded line names) (otherWorded : Worded line others) :
    names = others := by
  rw [← worded.map_snd_words, otherWorded.map_snd_words]

/-- A line that was written as words does not break apart. -/
theorem Worded.feed_notMem (worded : Worded line names) : '\n' ∉ line.toList := by
  have inText : '\n' ∉ (spaced names).toList :=
    feed_notMem_spaced fun name isName => (worded.unbroken name isName).feed_notMem
  rw [← worded.text, String.toList_append] at inText
  exact fun inLine => inText (List.mem_append_right _ inLine)

section Lines

variable {lines : List String} {lists : List (List String)}

theorem feed_notMem_of_worded (worded : List.Forall₂ Worded lines lists) :
    ∀ line ∈ lines, '\n' ∉ line.toList := by
  induction worded with
  | nil => simp
  | cons first _ ih => exact List.forall_mem_cons.2 ⟨first.feed_notMem, ih⟩

/-- Lines that were written as different words are different. -/
theorem nodup_of_worded (worded : List.Forall₂ Worded lines lists) (distinct : lists.Nodup) :
    lines.Nodup := by
  have isWords : lines.map (fun line => (words line).map Prod.snd) = lists := by
    clear distinct
    induction worded with
    | nil => rfl
    | cons first _ ih => rw [List.map_cons, first.map_snd_words, ih]
  rw [← isWords] at distinct
  exact List.Nodup.of_map _ distinct

end Lines

end Worded

/-! ## Lines -/

/-- **The lines of a text are those that it was written with.** -/
theorem linesOf_unlines {lines : List String} (inLine : ∀ line ∈ lines, '\n' ∉ line.toList) :
    linesOf (unlines lines) = lines := by
  have split : (unlines lines).toList.splitOnP (· == '\n') = lines.map String.toList ++ [[]] := by
    induction lines with
    | nil => rfl
    | cons first rest ih =>
        obtain ⟨firstInLine, restInLine⟩ := List.forall_mem_cons.1 inLine
        have noFeed : ∀ character ∈ first.toList, (character == '\n') = false :=
          fun character member => beq_eq_false_iff_ne.2 fun isFeed => firstInLine (isFeed ▸ member)
        have isText : (unlines (first :: rest)).toList =
            first.toList ++ '\n' :: (unlines rest).toList := by
          simp [unlines]
        rw [isText, List.splitOnP_append_cons_of_forall_mem noFeed '\n' rfl, ih restInLine]
        rfl
  rw [linesOf, split, List.map_append, List.map_map]
  simp [Function.comp_def]

end ShiftReduce.Text
