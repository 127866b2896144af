/-!
# Padding

Texts brought to a least length: labels filled with spaces on the right, numbers filled with zeros
on the left. A text that is long enough already is left as it is.
-/

set_option autoImplicit false

namespace ShiftReduce.Text

/-- A text followed by as many spaces as it lacks characters. -/
def padRight (width : Nat) (text : String) : String :=
  text ++ String.ofList (List.replicate (width - text.length) ' ')

/-- A number in decimal, with a zero in front when it has one digit. -/
def twoDigits (number : Nat) : String :=
  if number < 10 then "0" ++ toString number else toString number

end ShiftReduce.Text
