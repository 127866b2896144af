import ShiftReduce.Text.Unprintable

/-!
# Quoted text

A text in double quotes, in which every character that could be mistaken or that cannot be seen is
written as an escape: the quote and the backslash behind a backslash, the common control characters
by a letter, and every other unprintable character by its code point in braces.
-/

set_option autoImplicit false

namespace ShiftReduce.Text

/-- A code point in lowercase hexadecimal digits, without padding, between braces. -/
def codePointEscape (character : Char) : List Char :=
  ['\\', 'u', '\x7b'] ++ Nat.toDigits 16 character.toNat ++ ['\x7d']

/-- How one character is written between the quotes. -/
def escape (character : Char) : List Char :=
  match character with
  | '"' => ['\\', '"']
  | '\\' => ['\\', '\\']
  | '\n' => ['\\', 'n']
  | '\r' => ['\\', 'r']
  | '\t' => ['\\', 't']
  | '\x00' => ['\\', '0']
  | _ => if isUnprintable character then codePointEscape character else [character]

/-- A text in double quotes, escaped character by character. -/
def quoted (text : String) : String :=
  String.ofList ('"' :: text.toList.flatMap escape ++ ['"'])

/-- Several texts, each quoted, between brackets and separated by commas. -/
def quotedList (texts : List String) : String :=
  "[" ++ ", ".intercalate (texts.map quoted) ++ "]"

end ShiftReduce.Text
