import ShiftReduce.Grammar.Basic
import ShiftReduce.Grammar.FirstUse
import ShiftReduce.Grammar.Numbering
import ShiftReduce.Text.Blank
import Std.Data.TreeSet

/-!
# Definitions of grammars

A grammar is defined by rules of names, added one at a time, and optionally by a start symbol. Every
name is checked when it is given, and a rule or a start symbol that is refused leaves the definition
as it was.

The finished definition tells terminals from nonterminals: a name is a nonterminal if it is the
left-hand side of any rule, or if it is a single capital letter. The start symbol has to be a
left-hand side, and by default it is the first one.
-/

set_option autoImplicit false

namespace ShiftReduce

/-- The start symbol and the rules given so far. -/
structure Definition where
  /-- The start symbol, if one was given. -/
  start : Option String := none
  /-- The rules, in the order in which they were added. -/
  rules : Array Rule := #[]
deriving DecidableEq, Inhabited

/-- What a definition can be asked to take in. -/
inductive Request where
  /-- Set the start symbol, in place of an earlier one. -/
  | setStart (name : String)
  /-- Add a rule behind the earlier ones. -/
  | addRule (rule : Rule)
deriving DecidableEq, Inhabited

/-- Refuse a name that no symbol can have. -/
def checkName (name : String) : Except GrammarError Unit :=
  if name = endOfInputName then .error (.reservedName name)
  else if name.isEmpty || name.toList.any Text.isBlank then .error (.invalidName name)
  else .ok ()

namespace Definition

/-! ## Building up -/

/-- Set the start symbol, in place of an earlier one. The reply stands beside the definition that
the request leaves behind. -/
def setStart (definition : Definition) (name : String) : Except GrammarError Unit × Definition :=
  match checkName name with
  | .error error => (.error error, definition)
  | .ok () => (.ok (), { definition with start := some name })

/-- Add a rule behind the earlier ones. The reply, which tells the production that the rule will
be, stands beside the definition that the request leaves behind. -/
def addRule (definition : Definition) (rule : Rule) :
    Except GrammarError ProductionId × Definition :=
  match rule.names.forM checkName with
  | .error error => (.error error, definition)
  | .ok () =>
    let position := definition.rules.size
    if position < capacity then
      (.ok (.stored position), { definition with rules := definition.rules.push rule })
    else (.error (.tooMany .rules), definition)

/-- Carry out a request, whatever the reply. -/
def attempt (definition : Definition) : Request → Definition
  | .setStart name => (definition.setStart name).2
  | .addRule rule => (definition.addRule rule).2

/-- Carry out a request that must not be refused. -/
def require (definition : Definition) : Request → Except GrammarError Definition
  | .setStart name =>
    match definition.setStart name with
    | (.ok _, extended) => .ok extended
    | (.error error, _) => .error error
  | .addRule rule =>
    match definition.addRule rule with
    | (.ok _, extended) => .ok extended
    | (.error error, _) => .error error

/-- The definition that a sequence of requests makes when refusals are passed over. -/
def ofRequests (requests : List Request) : Definition :=
  requests.foldl attempt {}

/-! ## Symbols of a definition -/

/-- All names of the rules in reading order. -/
def names (definition : Definition) : List String :=
  definition.rules.toList.flatMap Rule.names

/-- The left-hand sides of the rules. -/
def lefts (definition : Definition) : Std.TreeSet String :=
  definition.rules.foldl (fun lefts rule => lefts.insert rule.left) {}

/-- Whether a name is a single capital letter of the Latin alphabet. -/
def isCapitalLetter (name : String) : Bool :=
  match name.toList with
  | [letter] => letter.isUpper
  | _ => false

/-- Whether a name is a nonterminal, given the names of the left-hand sides. -/
def isNonterminal (lefts : Std.TreeSet String) (name : String) : Bool :=
  lefts.contains name || isCapitalLetter name

/-- The name of the start symbol: the one that was given, or else the first left-hand side. -/
def startName (definition : Definition) : Except GrammarError String :=
  match definition.start with
  | some name => .ok name
  | none =>
    match definition.rules[0]? with
    | some rule => .ok rule.left
    | none => .error .noRules

/-! ## The finished grammar -/

/-- Record a production under its left-hand side if it is the first of its kind. -/
def addAlternative (firsts : Array Nat) (alternatives : Array (Array Nat))
    (entry : Production × Nat) : Array (Array Nat) :=
  if firsts[entry.2]? = some entry.2 then
    alternatives.modify entry.1.left.index (·.push entry.2)
  else alternatives

/-- The positions of the canonical productions of each nonterminal. -/
def alternativesOf (nonterminals : Nat) (productions : Array Production) (firsts : Array Nat) :
    Array (Array Nat) :=
  productions.zipIdx.foldl (addAlternative firsts) (Array.replicate nonterminals #[])

/-- The grammar of numbered rules. -/
def assemble (numbering : Numbering) (start : String) (rules : Array Rule) : Grammar :=
  let productions := rules.map numbering.production
  let firsts := (FirstUse.ofRules rules).positions
  { terminals := numbering.terminals
    nonterminals := numbering.nonterminals
    start := numbering.nonterminal start
    productions := productions
    firsts := firsts
    alternatives := alternativesOf numbering.nonterminals.size productions firsts }

/-- The grammar that a definition makes. -/
def build (definition : Definition) : Except GrammarError Grammar := do
  let start ← definition.startName
  let lefts := definition.lefts
  if lefts.contains start then
    let numbering ← Numbering.ofNames (isNonterminal lefts) start definition.names
    return assemble numbering start definition.rules
  else throw (.unknownStart start)

end Definition

end ShiftReduce
