import ShiftReduce.Text.Width

/-!
# Places in a text

A place is told three ways at once: by its line, by its display column and by its byte. All three
count from zero. Only a line feed begins a new line; a carriage return is an ordinary character of
one column, and a tab counts as four.
-/

set_option autoImplicit false

namespace ShiftReduce

/-- A place in a text: line, display column and byte, each counted from zero. -/
structure Location where
  /-- The number of line feeds before the place. -/
  line : Nat := 0
  /-- The display columns between the last line feed and the place. -/
  column : Nat := 0
  /-- The number of bytes before the place, in UTF-8. -/
  byte : Nat := 0
deriving DecidableEq, Inhabited

namespace Location

/-- The place behind one more character. -/
def advance (location : Location) (character : Char) : Location :=
  let byte := location.byte + character.utf8Size
  match character with
  | '\n' => ⟨location.line + 1, 0, byte⟩
  | '\t' => ⟨location.line, location.column + 4, byte⟩
  | _ => ⟨location.line, location.column + Text.displayWidth character, byte⟩

/-- The place behind a whole text. -/
def after (location : Location) (text : List Char) : Location :=
  text.foldl advance location

/-- Passing two texts one after the other is passing their concatenation. -/
theorem after_append (location : Location) (first second : List Char) :
    location.after (first ++ second) = (location.after first).after second :=
  List.foldl_append

end Location

end ShiftReduce
