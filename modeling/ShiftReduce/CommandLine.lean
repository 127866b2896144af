import ShiftReduce.Automaton.Exploration
import ShiftReduce.Automaton.Render
import ShiftReduce.Grammar.Load
import ShiftReduce.Table.Render

/-!
# The command

The command reads a grammar file and reports on it: the grammar, the nonterminals that no rule
defines, the automaton on demand, the tables, and a warning for each conflict. It fails if there is
no grammar to report on, or if conflicts are denied and there are any; what was reported until then
stays.
-/

set_option autoImplicit false

namespace ShiftReduce.CommandLine

/-- What the caller of the command asks for. -/
structure Options where
  /-- A start symbol in place of the one that the file declares. -/
  start : Option String := none
  /-- Whether to print the automaton. -/
  automaton : Bool := false
  /-- Whether conflicts are a failure. -/
  denyConflicts : Bool := false
deriving DecidableEq, Inhabited

/-- What a run of the command leaves behind. -/
structure Outcome where
  /-- The exit code: zero for success. -/
  code : Nat
  /-- What is printed on standard output. -/
  output : String
  /-- What is printed on standard error. -/
  complaint : String
deriving DecidableEq, Inhabited

namespace Outcome

/-- A run that succeeds. -/
def success (output : String) : Outcome :=
  ⟨0, output, ""⟩

/-- A run that fails for a reason that speaks for itself. -/
def failure (output reason : String) : Outcome :=
  ⟨1, output, "Error: " ++ reason ++ "\n"⟩

/-- A run that fails in a step for a cause, before anything is printed. -/
def failureOf (step cause : String) : Outcome :=
  ⟨1, "", "Error: " ++ step ++ "\n\nCaused by:\n    " ++ cause ++ "\n"⟩

end Outcome

/-! ## The report -/

/-- The names of the nonterminals that no rule defines. -/
def undefinedNames (grammar : Grammar) : List String :=
  (grammar.properNonterminals.filter fun nonterminal =>
    (grammar.productionsOf nonterminal).isEmpty).map grammar.nonterminalName

/-- The warning about nonterminals that no rule defines; nothing if there are none. -/
def undefinedWarning (names : List String) : List String :=
  if names.isEmpty then []
  else ["[warning] The following nonterminals have no associated production rule: " ++
    Text.quotedList names]

/-- The sections of the report, each of which is followed by a line feed. -/
def report (options : Options) (grammar : Grammar) (automaton : Automaton) (table : Table) :
    List String :=
  [grammar.render] ++
    undefinedWarning (undefinedNames grammar) ++
    (if options.automaton then [automaton.render grammar] else []) ++
    [table.render grammar] ++
    table.conflicts.map fun conflict => "[warning] " ++ conflict.render grammar

/-- The complaint about denied conflicts. -/
def conflictComplaint (count : Nat) : String :=
  "the tables have " ++ toString count ++ " conflict" ++ if count = 1 then "" else "s"

/-- Report on a grammar. -/
def reportOn (options : Options) (grammar : Grammar) : Outcome :=
  let automaton := Automaton.generate grammar
  let table := Table.generate grammar automaton
  let output := Text.unlines (report options grammar automaton table)
  if options.denyConflicts && !table.conflicts.isEmpty then
    .failure output (conflictComplaint table.conflicts.length)
  else .success output

/-! ## The command -/

/-- A description in which the start symbol of the options replaces the declared one. -/
def overrideStart (options : Options) (description : Description) : Description :=
  match options.start with
  | some name => { description with start := some name }
  | none => description

/-- Run the command on a file with a name and contents. -/
def run (options : Options) (file : String) (contents : Except ReadError ByteArray) : Outcome :=
  match Description.ofFile contents with
  | .error error => .failureOf ("failed to load " ++ file) error.message
  | .ok description =>
    match Grammar.ofDescription (overrideStart options description) with
    | .error error => .failureOf "invalid grammar definition" error.message
    | .ok grammar => reportOn options grammar

/-! ## Arguments -/

/-- How the command is called. -/
def usage : String :=
  "Usage: shiftreduce [--start SYMBOL] [--automaton] [--deny-conflicts] INPUT\n"

/-- The options and the file that the arguments of the command ask for; none if the arguments make
no sense. -/
def parseArguments (options : Options) (file : Option String) :
    List String → Option (Options × String)
  | [] => file.map fun file => (options, file)
  | "--automaton" :: rest => parseArguments { options with automaton := true } file rest
  | "--deny-conflicts" :: rest => parseArguments { options with denyConflicts := true } file rest
  | "--start" :: name :: rest => parseArguments { options with start := some name } file rest
  | argument :: rest =>
    match argument.dropPrefix? "--start=" with
    | some name => parseArguments { options with start := some name.toString } file rest
    | none =>
      if argument.startsWith "-" then none
      else
        match file with
        | some _ => none
        | none => parseArguments options (some argument) rest

end ShiftReduce.CommandLine
