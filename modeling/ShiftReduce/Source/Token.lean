/-!
# Tokens of a grammar file

A grammar file is a sequence of words. Two of them are reserved, the arrow and the start keyword,
every other word is a symbol name, and the ends of lines are tokens of their own.

What a piece of text may be is told by six patterns. At each place the pattern with the longest
match decides, and among equally long ones the first in the order of `Pattern.all`; so `->x` is one
symbol, `//x` is a comment, and `a//x` is a symbol again.
-/

set_option autoImplicit false

namespace ShiftReduce

/-- A token of a grammar file. -/
inductive Token where
  /-- The arrow between the two sides of a rule. -/
  | arrow
  /-- The end of a line. -/
  | newline
  /-- The keyword that declares the start symbol. -/
  | start
  /-- Any other word. -/
  | symbol (name : String)
deriving DecidableEq, Inhabited

/-- Whether a character only separates words. -/
def isSpacing (character : Char) : Bool :=
  character == ' ' || character == '\t'

/-- Whether a character ends a line, alone or with others. -/
def isLineEnd (character : Char) : Bool :=
  character == '\r' || character == '\n'

/-- Whether a character may stand in a word. -/
def isWordChar (character : Char) : Bool :=
  !(isSpacing character || isLineEnd character)

/-- The kinds of text that a grammar file is cut into. -/
inductive Pattern where
  | spacing
  | newline
  | comment
  | arrow
  | start
  | word
deriving DecidableEq, Inhabited

namespace Pattern

/-- All patterns, in the order in which ties between them are decided. -/
def all : List Pattern :=
  [.spacing, .newline, .comment, .arrow, .start, .word]

/-- The characters of the start keyword. -/
def startKeyword : List Char :=
  ['@', 's', 't', 'a', 'r', 't']

/-- How many characters a line end takes at the front of a text: a run of carriage returns together
with the line feed behind it, or else a single carriage return. -/
def newlineLength (text : List Char) : Nat :=
  let returns := (text.takeWhile (· == '\r')).length
  if text[returns]? = some '\n' then returns + 1 else min returns 1

/-- How many characters a comment takes at the front of a text: two slashes and all that follows
them in the line. -/
def commentLength : List Char → Nat
  | '/' :: '/' :: rest => 2 + (rest.takeWhile fun character => !isLineEnd character).length
  | _ => 0

/-- How many characters of a text a pattern takes at its front; zero if it does not match. -/
def matchLength (pattern : Pattern) (text : List Char) : Nat :=
  match pattern with
  | .spacing => (text.takeWhile isSpacing).length
  | .newline => newlineLength text
  | .comment => commentLength text
  | .arrow => if ['-', '>'].isPrefixOf text then 2 else 0
  | .start => if startKeyword.isPrefixOf text then startKeyword.length else 0
  | .word => (text.takeWhile isWordChar).length

/-- The token that a matched piece of text gives; spacing and comments give none. -/
def token? (pattern : Pattern) (piece : List Char) : Option Token :=
  match pattern with
  | .spacing | .comment => none
  | .newline => some .newline
  | .arrow => some .arrow
  | .start => some .start
  | .word => some (.symbol (String.ofList piece))

/-- A pattern together with the number of characters that it takes. -/
structure Match where
  /-- The pattern that matches. -/
  pattern : Pattern
  /-- How many characters it takes. -/
  length : Nat
deriving DecidableEq, Inhabited

/-- The better of the best match so far and that of one more pattern, which has to be longer. -/
def better (text : List Char) (best : Match) (pattern : Pattern) : Match :=
  let length := pattern.matchLength text
  if best.length < length then ⟨pattern, length⟩ else best

/-- The longest match at the front of a text, and the first one of those; its length is zero if no
pattern matches. -/
def longest (text : List Char) : Match :=
  all.foldl (better text) ⟨.spacing, 0⟩

end Pattern

end ShiftReduce
