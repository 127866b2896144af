import ShiftReduce.Grammar.Definition
import ShiftReduce.Source.Description

/-!
# Loading a grammar

From the bytes of a file over its text and its description to a grammar. Each step has its own way
to fail, and the first failing step decides the error.
-/

set_option autoImplicit false

namespace ShiftReduce

/-! ## Errors -/

/-- Why the text of a file cannot be had. -/
inductive ReadError where
  /-- There is no such file. -/
  | missing
  /-- The bytes of the file are no UTF-8. -/
  | notUtf8
  /-- The system refuses for another reason. -/
  | refused (reason : String)
deriving DecidableEq, Inhabited

/-- The text that reports a read error. -/
def ReadError.message : ReadError → String
  | .missing => "No such file or directory (os error 2)"
  | .notUtf8 => "stream did not contain valid UTF-8"
  | .refused reason => reason

/-- Why no grammar can be loaded. -/
inductive LoadError where
  /-- The file cannot be read. -/
  | unreadable (error : ReadError)
  /-- The text breaks the format of a grammar file. -/
  | malformed (error : SyntaxError)
  /-- The description makes no grammar. -/
  | undefined (error : GrammarError)
deriving DecidableEq, Inhabited

/-- The text that reports a load error. -/
def LoadError.message : LoadError → String
  | .unreadable error => "IO error: " ++ error.message
  | .malformed error => "Syntax error: " ++ error.message
  | .undefined error => error.message

/-! ## Descriptions -/

namespace Description

/-- What the bytes of a file say; no bytes mean that there is no file. -/
def ofFile (contents : Except ReadError ByteArray) : Except LoadError Description :=
  match contents with
  | .error error => .error (.unreadable error)
  | .ok bytes =>
    match String.fromUTF8? bytes with
    | none => .error (.unreadable .notUtf8)
    | some source =>
      match parse source with
      | .error error => .error (.malformed error)
      | .ok description => .ok description

/-- The requests that carry a description into a definition, the start symbol first. -/
def requests (description : Description) : List Request :=
  (description.start.map .setStart).toList ++
    description.rules.toList.map fun rule => .addRule rule.toRule

/-- The definition that a description makes, in which no request may be refused. -/
def define (description : Description) : Except GrammarError Definition :=
  description.requests.foldlM Definition.require {}

end Description

/-! ## Grammars -/

namespace Grammar

/-- The grammar of a description. -/
def ofDescription (description : Description) : Except GrammarError Grammar := do
  (← description.define).build

/-- The grammar of the text of a grammar file. -/
def ofSource (source : String) : Except LoadError Grammar :=
  match Description.parse source with
  | .error error => .error (.malformed error)
  | .ok description => (ofDescription description).mapError .undefined

/-- The grammar of the bytes of a grammar file. -/
def ofFile (contents : Except ReadError ByteArray) : Except LoadError Grammar :=
  match Description.ofFile contents with
  | .error error => .error error
  | .ok description => (ofDescription description).mapError .undefined

end Grammar

end ShiftReduce
