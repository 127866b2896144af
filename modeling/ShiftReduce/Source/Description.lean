import ShiftReduce.Source.Lexeme
import ShiftReduce.Source.Line

/-!
# The contents of a grammar file

A grammar file declares at most one start symbol and lists rules, each with the number of its line.
The lexemes of the file are taken one after the other. The tokens of a line are kept until its end,
where they are taken in together, and the end of the file is the end of its last line. The first
faulty line decides the error.
-/

set_option autoImplicit false

namespace ShiftReduce

/-- A rule together with the line that it stands in, counted from one. -/
structure SourceRule extends Rule where
  /-- The number of the line. -/
  line : Nat
deriving DecidableEq, Inhabited

/-- What a grammar file says. -/
structure Description where
  /-- The start symbol, if the file declares one. -/
  start : Option String := none
  /-- The rules in the order of their lines. -/
  rules : Array SourceRule := #[]
deriving DecidableEq, Inhabited

namespace Description

/-- Take in what one line says; a second start symbol is refused. -/
def enter (description : Description) (number : Nat) :
    Entry → Except SyntaxFault Description
  | .start name =>
      match description.start with
      | some _ => .error .duplicatedStart
      | none => .ok { description with start := some name }
  | .rule rule =>
      .ok { description with rules := description.rules.push { rule with line := number } }

/-- Take in the tokens of a line; a line without tokens says nothing. -/
def addTokens (description : Description) (number : Nat) (tokens : List Token) :
    Except SyntaxError Description :=
  if tokens = [] then .ok description
  else
    match Line.entry tokens >>= description.enter number with
    | .ok extended => .ok extended
    | .error fault => .error ⟨number, fault⟩

end Description

/-! ## The loader -/

/-- A grammar file that is read up to some place. -/
structure Loader where
  /-- What the lines say that have ended. -/
  description : Description := {}
  /-- The tokens of the line that has not ended yet. -/
  tokens : Array Token := #[]
  /-- The number of the line in which the last token begins. -/
  line : Nat := 1

namespace Loader

/-- Take in the line that ends here. -/
def endLine (loader : Loader) : Except SyntaxError Description :=
  loader.description.addTokens loader.line loader.tokens.toList

/-- Read one more lexeme, unless there was no match. A line end takes in the tokens before it. -/
def read (loader : Loader) : Except Location Lexeme → Except SyntaxError Loader
  | .error place => .error ⟨place.line + 1, .unrecognized (place.column + 1)⟩
  | .ok lexeme => do
      let here := { loader with line := lexeme.start.line + 1 }
      if lexeme.token = .newline then
        return { here with description := ← here.endLine, tokens := #[] }
      else
        return { here with tokens := here.tokens.push lexeme.token }

end Loader

/-- Read the text of a grammar file. The last line need not end with a line end. -/
def Description.parse (source : String) : Except SyntaxError Description := do
  let loader ← (Lexeme.stream {} source.toList).foldlM Loader.read {}
  loader.endLine

end ShiftReduce
