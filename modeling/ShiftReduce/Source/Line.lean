import ShiftReduce.Rule
import ShiftReduce.Source.Token

/-!
# Lines of a grammar file

The tokens between two line ends form a line. A line that holds any token is one entry of the file:
a declaration of the start symbol, or a rule. Every other line breaks the format in exactly one of
the ways listed by `SyntaxFault`, judged from its front to its back.
-/

set_option autoImplicit false

namespace ShiftReduce

/-! ## Faults -/

/-- The ways in which a line can break the format of a grammar file. -/
inductive SyntaxFault where
  /-- No pattern matches at a column, which is counted from one. -/
  | unrecognized (column : Nat)
  /-- The line begins with an arrow. -/
  | missingLeft
  /-- The line has no arrow behind its first symbol. -/
  | missingArrow
  /-- Nothing stands behind the arrow. -/
  | emptyRight
  /-- A right-hand side holds a second arrow. -/
  | unexpectedArrow
  /-- A right-hand side holds the start keyword. -/
  | unexpectedStart
  /-- The start keyword is not followed by exactly one symbol. -/
  | malformedStart
  /-- An earlier line has declared a start symbol. -/
  | duplicatedStart
deriving DecidableEq, Inhabited

/-- What a fault is called in a message. -/
def SyntaxFault.message : SyntaxFault → String
  | .unrecognized column => "unrecognized input at column " ++ toString column
  | .missingLeft => "the left-hand side is missing"
  | .missingArrow => "expected `->' after the left-hand side"
  | .emptyRight => "the right-hand side is empty"
  | .unexpectedArrow => "unexpected `->' in the right-hand side"
  | .unexpectedStart => "`@start' must be at the beginning of a line"
  | .malformedStart => "`@start' takes exactly one symbol"
  | .duplicatedStart => "the start symbol has already been specified"

/-- A fault together with the line that has it, counted from one. -/
structure SyntaxError where
  /-- The number of the line. -/
  line : Nat
  /-- What is wrong with it. -/
  fault : SyntaxFault
deriving DecidableEq, Inhabited

/-- The text that reports a syntax error. -/
def SyntaxError.message (error : SyntaxError) : String :=
  "line " ++ toString error.line ++ ": " ++ error.fault.message

/-! ## Lines -/

/-- What a line says. -/
inductive Entry where
  /-- It declares the start symbol. -/
  | start (name : String)
  /-- It gives a rule. -/
  | rule (rule : Rule)
deriving DecidableEq, Inhabited

namespace Line

/-- The name that a token of a right-hand side stands for. -/
def symbolName : Token → Except SyntaxFault String
  | .symbol name => .ok name
  | .start => .error .unexpectedStart
  | .arrow | .newline => .error .unexpectedArrow

/-- What the tokens of a line say, or the first fault among them. -/
def entry : List Token → Except SyntaxFault Entry
  | [.start, .symbol name] => .ok (.start name)
  | .start :: _ => .error .malformedStart
  | [.symbol _, .arrow] => .error .emptyRight
  | .symbol left :: .arrow :: right => do
      let right ← right.mapM symbolName
      return .rule ⟨left, right⟩
  | .arrow :: _ => .error .missingLeft
  | _ => .error .missingArrow

end Line

end ShiftReduce
