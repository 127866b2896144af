import ShiftReduce.Text.CodePoint

/-!
# Blank characters

The characters with the White_Space property. A symbol name may hold none of them, and a printed
line of a grid ends in none of them.
-/

set_option autoImplicit false

namespace ShiftReduce.Text

/-- The code points with the White_Space property. -/
def blanks : CodePoints :=
  [(0x9, 0xD), (0x20, 0x20), (0x85, 0x85), (0xA0, 0xA0), (0x1680, 0x1680), (0x2000, 0x200A),
    (0x2028, 0x2029), (0x202F, 0x202F), (0x205F, 0x205F), (0x3000, 0x3000)]

/-- Whether a character has the White_Space property. -/
def isBlank (character : Char) : Bool :=
  blanks.contains character

/-- A text without the blank characters at its end. -/
def trimEnd (text : String) : String :=
  String.ofList (text.toList.reverse.dropWhile isBlank).reverse

end ShiftReduce.Text
