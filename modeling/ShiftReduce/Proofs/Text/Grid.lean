import Mathlib.Data.List.Forall2
import ShiftReduce.Proofs.Text.Words
import ShiftReduce.Text.Grid

/-!
# Words of a grid

The columns of a grid begin at places that depend on their widths alone (`columnPlaces`). A line of
cells that have no blanks and fit into their columns has the cells as its words, each at the place
of its column (`words_line`).

In a grid that has a cell for each label in every row, and no blanks in its texts (`Regular`), every
cell fits (`Regular.fits`), and so does every row number. So each line has its texts as words, in
the same places as every other line (`Regular.words_lines`), and no line breaks apart
(`Regular.feed_notMem`).
-/

set_option autoImplicit false

namespace ShiftReduce.Text

/-! ## Lines -/

/-- The places of columns behind a place: two spaces stand in front of each. -/
def columnPlaces (place : Nat) : List Nat → List Nat
  | [] => []
  | width :: widths => (place + 2) :: columnPlaces (place + 2 + width) widths

/-- Cells in columns, as they stand in a line behind the first column. -/
def cellsText (texts : List String) (widths : List Nat) : String :=
  String.join (texts.zipWith (fun cell width => "  " ++ padRight width cell) widths)

/-- Every text is as wide as its column, or less. -/
def Fits (texts : List String) (widths : List Nat) : Prop :=
  List.Forall₂ (fun text width => text.length ≤ width) texts widths

variable {texts row : List String} {widths : List Nat}

theorem length_columnPlaces (place : Nat) (widths : List Nat) :
    (columnPlaces place widths).length = widths.length := by
  induction widths generalizing place with
  | nil => rfl
  | cons width widths ih => rw [columnPlaces, List.length_cons, List.length_cons, ih]

theorem toList_cellsText_cons (text : String) (texts : List String) (width : Nat)
    (widths : List Nat) : (cellsText (text :: texts) (width :: widths)).toList =
      List.replicate 2 ' ' ++
        ((padRight width text).toList ++ (cellsText texts widths).toList) := by
  rw [cellsText, List.zipWith_cons_cons, String.join_cons, String.toList_append,
    String.toList_append, List.append_assoc]
  rfl

/-- Behind a cell the line ends or goes on with a space. -/
theorem isBlank_of_head?_cellsText (fits : Fits texts widths) (character : Char)
    (isHead : (cellsText texts widths).toList.head? = some character) :
    isBlank character = true := by
  cases fits with
  | nil => cases isHead
  | cons _ _ =>
      rw [toList_cellsText_cons] at isHead
      cases isHead
      decide

/-- **Cells without blanks are words at the places of their columns.** -/
theorem wordsFrom_cellsText (fits : Fits texts widths) (unbroken : ∀ text ∈ texts, Unbroken text)
    (place : Nat) :
    wordsFrom place (cellsText texts widths).toList = (columnPlaces place widths).zip texts := by
  induction fits generalizing place with
  | nil => exact wordsFrom_nil
  | cons fitting rest ih =>
      obtain ⟨textUnbroken, restUnbroken⟩ := List.forall_mem_cons.1 unbroken
      rw [toList_cellsText_cons, wordsFrom_spaces,
        wordsFrom_padRight textUnbroken fitting (isBlank_of_head?_cellsText rest),
        ih restUnbroken, columnPlaces, List.zip_cons_cons]

/-- **A line of cells without blanks has its cells as words, each at the place of its column.** -/
theorem words_line {cornerWidth : Nat} {first : String} (firstUnbroken : Unbroken first)
    (firstFits : first.length ≤ cornerWidth) (fits : Fits texts widths)
    (unbroken : ∀ text ∈ texts, Unbroken text) :
    words (Grid.line cornerWidth widths first texts) =
      (0 :: columnPlaces cornerWidth widths).zip (first :: texts) := by
  have isLine : Grid.line cornerWidth widths first texts =
      trimEnd (padRight cornerWidth first ++ cellsText texts widths) := rfl
  rw [isLine, words_trimEnd, words, String.toList_append,
    wordsFrom_padRight firstUnbroken firstFits (isBlank_of_head?_cellsText fits),
    wordsFrom_cellsText fits unbroken, Nat.zero_add, List.zip_cons_cons]

/-- The characters of a padded text are its own and spaces. -/
theorem mem_padRight {width : Nat} {text : String} {character : Char}
    (member : character ∈ (padRight width text).toList) :
    character ∈ text.toList ∨ character = ' ' := by
  rw [padRight, String.toList_append, String.toList_ofList, List.mem_append] at member
  exact member.imp id List.eq_of_mem_replicate

theorem mem_cellsText {character : Char} (member : character ∈ (cellsText texts widths).toList) :
    (∃ text ∈ texts, character ∈ text.toList) ∨ character = ' ' := by
  induction texts generalizing widths with
  | nil => cases member
  | cons text texts ih =>
      cases widths with
      | nil => cases member
      | cons width widths =>
          rw [toList_cellsText_cons, List.mem_append, List.mem_append] at member
          rcases member with indented | inCell | inRest
          · exact .inr (List.eq_of_mem_replicate indented)
          · exact (mem_padRight inCell).imp (fun inText => ⟨text, List.mem_cons_self, inText⟩) id
          · exact (ih inRest).imp
              (fun ⟨other, isText, inText⟩ => ⟨other, List.mem_cons_of_mem _ isText, inText⟩) id

/-- A line of texts without blanks is one line. -/
theorem feed_notMem_line (cornerWidth : Nat) {first : String} (firstUnbroken : Unbroken first)
    (unbroken : ∀ text ∈ texts, Unbroken text) :
    '\n' ∉ (Grid.line cornerWidth widths first texts).toList := by
  intro inLine
  obtain ⟨blanks, whole, -⟩ :=
    exists_toList_trimEnd (padRight cornerWidth first ++ cellsText texts widths)
  have inWhole : '\n' ∈ (padRight cornerWidth first ++ cellsText texts widths).toList := by
    rw [whole]
    exact List.mem_append_left _ inLine
  rw [String.toList_append, List.mem_append] at inWhole
  rcases inWhole with inFirst | inCells
  · rcases mem_padRight inFirst with inText | isSpace
    · exact firstUnbroken.feed_notMem inText
    · exact absurd isSpace (by decide)
  · rcases mem_cellsText inCells with ⟨text, isText, inText⟩ | isSpace
    · exact (unbroken text isText).feed_notMem inText
    · exact absurd isSpace (by decide)

/-! ## Widths -/

theorem fits_iff : Fits texts widths ↔ texts.length = widths.length ∧
    ∀ (position : Nat) (inTexts : position < texts.length) (inWidths : position < widths.length),
      texts[position].length ≤ widths[position] :=
  List.forall₂_iff_get

/-- The widths that are needed for one row more. -/
def widen (widths : List Nat) (row : List String) : List Nat :=
  widths.zipWith max (row.map String.length)

theorem length_widen (sameLength : row.length = widths.length) :
    (widen widths row).length = widths.length := by
  rw [widen, List.length_zipWith, List.length_map, sameLength, Nat.min_self]

/-- Wider columns hold what the columns held before. -/
theorem Fits.widen (fits : Fits texts widths) (sameLength : row.length = widths.length) :
    Fits texts (widen widths row) := by
  obtain ⟨textsLength, inside⟩ := fits_iff.1 fits
  refine fits_iff.2 ⟨by rw [length_widen sameLength, textsLength],
    fun position inTexts inWidths => ?_⟩
  simp only [Text.widen, List.getElem_zipWith]
  exact Nat.le_trans (inside position inTexts (textsLength ▸ inTexts)) (Nat.le_max_left _ _)

/-- Wider columns hold the row that they were widened for. -/
theorem fits_widen (sameLength : row.length = widths.length) : Fits row (widen widths row) := by
  refine fits_iff.2 ⟨by rw [length_widen sameLength, sameLength], fun position inRow inWidths => ?_⟩
  simp only [widen, List.getElem_zipWith, List.getElem_map]
  exact Nat.le_max_right _ _

/-- **Columns that are widened row by row hold what they held before, and every row.** -/
theorem fits_foldl_widen {rows : List (List String)}
    (sameLength : ∀ row ∈ rows, row.length = widths.length) :
    (∀ texts, Fits texts widths → Fits texts (rows.foldl widen widths)) ∧
      ∀ row ∈ rows, Fits row (rows.foldl widen widths) := by
  induction rows generalizing widths with
  | nil => exact ⟨fun _ fits => fits, by simp⟩
  | cons first rest ih =>
      obtain ⟨firstLength, restLength⟩ := List.forall_mem_cons.1 sameLength
      obtain ⟨before, onward⟩ := ih fun row member =>
        (restLength row member).trans (length_widen firstLength).symm
      rw [List.foldl_cons]
      refine ⟨fun texts fits => before texts (fits.widen firstLength), ?_⟩
      exact List.forall_mem_cons.2 ⟨before first (fits_widen firstLength), onward⟩

/-! ## Row numbers -/

theorem toList_toString (number : Nat) : (toString number).toList = Nat.toDigits 10 number := by
  rw [Nat.toString_eq_ofList_toDigits, String.toList_ofList]

theorem isBlank_of_isDigit {character : Char} (isDigit : character.isDigit = true) :
    isBlank character = false := by
  have range : 48 ≤ character.toNat ∧ character.toNat ≤ 57 := by
    simpa [Char.isDigit, UInt32.le_iff_toNat_le] using isDigit
  rw [isBlank, Bool.eq_false_iff, ne_eq, CodePoints.contains_iff]
  simp only [blanks, List.mem_cons, List.not_mem_nil, or_false, exists_eq_or_imp, exists_eq_left]
  omega

theorem unbroken_toString (number : Nat) : Unbroken (toString number) := by
  refine ⟨Nat.repr_ne_empty, fun character member => ?_⟩
  rw [toList_toString] at member
  exact isBlank_of_isDigit (Nat.isDigit_of_mem_toDigits (by decide) (by decide) member)

/-- A smaller number has no more digits. -/
theorem length_toString_le {small large : Nat} (le : small ≤ large) :
    (toString small).length ≤ (toString large).length := by
  rw [← String.length_toList, ← String.length_toList, toList_toString, toList_toString]
  have positive : 0 < (Nat.toDigits 10 large).length := Nat.length_toDigits_pos
  refine (Nat.length_toDigits_le_iff (by decide) positive).2 ?_
  exact Nat.lt_of_le_of_lt le
    ((Nat.length_toDigits_le_iff (by decide) positive).1 (Nat.le_refl _))

/-! ## Grids -/

namespace Grid

/-- The texts of a grid line by line: the heading, then the rows behind their numbers. -/
def contents (grid : Grid) : List (List String) :=
  (grid.corner :: grid.labels) :: grid.rows.zipIdx.map fun entry => toString entry.2 :: entry.1

/-- The places where the columns of a grid begin. -/
def places (grid : Grid) : List Nat :=
  0 :: columnPlaces grid.cornerWidth grid.widths

/-- Every row has a cell for each label, and no text of the grid has blanks. -/
structure Regular (grid : Grid) : Prop where
  corner : Unbroken grid.corner
  labels : ∀ label ∈ grid.labels, Unbroken label
  cells : ∀ row ∈ grid.rows, ∀ cell ∈ row, Unbroken cell
  sameLength : ∀ row ∈ grid.rows, row.length = grid.labels.length

variable {grid : Grid}

/-- All cells of a grid fit into its columns. -/
theorem Regular.fits (regular : grid.Regular) :
    Fits grid.labels grid.widths ∧ ∀ row ∈ grid.rows, Fits row grid.widths := by
  have isWidths : grid.widths = grid.rows.foldl widen (grid.labels.map String.length) := rfl
  have labelsFit : Fits grid.labels (grid.labels.map String.length) :=
    List.forall₂_map_right_iff.2 (List.forall₂_same.2 fun _ _ => Nat.le_refl _)
  have sameLength : ∀ row ∈ grid.rows, row.length = (grid.labels.map String.length).length :=
    fun row member => by rw [List.length_map, regular.sameLength row member]
  obtain ⟨before, onward⟩ := fits_foldl_widen sameLength
  rw [isWidths]
  exact ⟨before grid.labels labelsFit, onward⟩

theorem Regular.length_places (regular : grid.Regular) :
    grid.places.length = grid.labels.length + 1 := by
  rw [places, List.length_cons, length_columnPlaces, regular.fits.1.length_eq]

/-- Every line of a grid has a text for each place. -/
theorem Regular.length_contents (regular : grid.Regular) :
    ∀ texts ∈ grid.contents, texts.length = grid.places.length := by
  rw [regular.length_places]
  refine List.forall_mem_cons.2 ⟨rfl, fun texts member => ?_⟩
  obtain ⟨entry, isEntry, rfl⟩ := List.mem_map.1 member
  rw [List.length_cons, regular.sameLength _ (List.fst_mem_of_mem_zipIdx isEntry)]

/-- **The words of a grid are its texts, each at the place of its column.** -/
theorem Regular.words_lines (regular : grid.Regular) :
    grid.lines.map words = grid.contents.map grid.places.zip := by
  have heading : words (line grid.cornerWidth grid.widths grid.corner grid.labels) =
      grid.places.zip (grid.corner :: grid.labels) :=
    words_line regular.corner (Nat.le_max_right _ _) regular.fits.1 regular.labels
  have rows : ∀ entry ∈ grid.rows.zipIdx,
      words (line grid.cornerWidth grid.widths (toString entry.2) entry.1) =
        grid.places.zip (toString entry.2 :: entry.1) := by
    intro entry member
    have isRow := List.fst_mem_of_mem_zipIdx member
    have inside := List.snd_lt_of_mem_zipIdx member
    have number : (toString entry.2).length ≤ grid.cornerWidth :=
      Nat.le_trans (length_toString_le (by omega)) (Nat.le_max_left _ _)
    exact words_line (unbroken_toString _) number (regular.fits.2 _ isRow)
      (regular.cells _ isRow)
  have isLines : grid.lines = line grid.cornerWidth grid.widths grid.corner grid.labels ::
      grid.rows.zipIdx.map fun entry =>
        line grid.cornerWidth grid.widths (toString entry.2) entry.1 := rfl
  rw [isLines, contents, List.map_cons, List.map_cons, heading, List.map_map, List.map_map]
  refine List.cons_eq_cons.2 ⟨rfl, List.map_congr_left fun entry member => ?_⟩
  rw [Function.comp_apply, Function.comp_apply, rows entry member]

/-- A line of a grid has its texts as words, in the same places as every other line. -/
theorem Regular.words_of_getElem? (regular : grid.Regular) {index : Nat} {line : String}
    (found : grid.lines[index]? = some line) : ∃ texts, grid.contents[index]? = some texts ∧
      (words line).map Prod.snd = texts ∧ (words line).map Prod.fst = grid.places := by
  have zipped : (grid.contents.map grid.places.zip)[index]? = some (words line) := by
    rw [← regular.words_lines, List.getElem?_map, found, Option.map_some]
  rw [List.getElem?_map] at zipped
  obtain ⟨texts, isTexts, isWords⟩ := Option.map_eq_some_iff.1 zipped
  have sameLength := regular.length_contents texts (List.mem_of_getElem? isTexts)
  refine ⟨texts, isTexts, ?_, ?_⟩
  · rw [← isWords, List.map_snd_zip (Nat.le_of_eq sameLength)]
  · rw [← isWords, List.map_fst_zip (Nat.le_of_eq sameLength.symm)]

/-- The words of all lines of a grid stand in the same places. -/
theorem Regular.map_fst_words (regular : grid.Regular) {line : String}
    (member : line ∈ grid.lines) : (words line).map Prod.fst = grid.places := by
  obtain ⟨index, found⟩ := List.mem_iff_getElem?.1 member
  obtain ⟨texts, -, -, isPlaces⟩ := regular.words_of_getElem? found
  exact isPlaces

/-- No line of a grid breaks apart. -/
theorem Regular.feed_notMem (regular : grid.Regular) :
    ∀ line ∈ grid.lines, '\n' ∉ line.toList := by
  refine List.forall_mem_cons.2 ⟨feed_notMem_line _ regular.corner regular.labels, ?_⟩
  intro line member
  obtain ⟨entry, isEntry, rfl⟩ := List.mem_map.1 member
  exact feed_notMem_line _ (unbroken_toString _)
    (regular.cells _ (List.fst_mem_of_mem_zipIdx isEntry))

end Grid

end ShiftReduce.Text
