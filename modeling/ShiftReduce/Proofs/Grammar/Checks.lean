import ShiftReduce.Proofs.Grammar.Admission
import ShiftReduce.Proofs.Grammar.Appearance
import ShiftReduce.Proofs.Grammar.WellFormed
import ShiftReduce.Proofs.Text.Words

/-!
# The checks of a description

Making a grammar of a description is a sequence of checks, each with an error of its own. The first
one that fails decides the error, and the grammar is made when all of them are passed (`Decides`).
Steps that follow each other have their checks one behind the other (`Decides.bind`). The checks of
a definition come in this order: the name of the start symbol, then rule by rule the names and the
number of the rule, then whether there is anything to begin with, whether the start symbol is a
left-hand side, and name by name whether there is a number left (`decides_ofDescription`).
-/

set_option autoImplicit false

namespace ShiftReduce

/-! ## Checks in order -/

/-- A check with its result. -/
structure Check where
  /-- Whether the check is passed. -/
  passed : Bool
  /-- The error that reports that it is not. -/
  error : GrammarError
deriving DecidableEq

/-- The error of the first check that is not passed. -/
def firstFailure? (checks : List Check) : Option GrammarError :=
  (checks.find? fun check => !check.passed).map Check.error

theorem firstFailure?_append (first second : List Check) :
    firstFailure? (first ++ second) = (firstFailure? first).or (firstFailure? second) := by
  rw [firstFailure?, List.find?_append, Option.map_or]
  rfl

theorem firstFailure?_singleton (check : Check) :
    firstFailure? [check] = if check.passed then none else some check.error := by
  cases passed : check.passed <;> simp [firstFailure?, passed]

/-- The error of a computation that fails. -/
def failure? {α : Type} : Except GrammarError α → Option GrammarError
  | .ok _ => none
  | .error error => some error

/-- A computation fails with the error of the first check that fails, and succeeds if none does. -/
def Decides {α : Type} (checks : List Check) (result : Except GrammarError α) : Prop :=
  failure? result = firstFailure? checks

section Decides

variable {α β : Type} {checks more : List Check} {result : Except GrammarError α}

theorem decides_ok (value : α) : Decides [] (.ok value) := rfl

/-- A single check. -/
theorem decides_ite (condition : Prop) [Decidable condition] (value : α) (error : GrammarError) :
    Decides [⟨condition, error⟩] (if condition then .ok value else .error error) := by
  rw [Decides, firstFailure?_singleton]
  by_cases holds : condition <;> simp [holds, failure?]

theorem Decides.error_iff (decides : Decides checks result) (error : GrammarError) :
    result = .error error ↔ firstFailure? checks = some error := by
  rw [← decides]
  cases result <;> simp [failure?]

/-- **Steps that follow each other have their checks one behind the other.** -/
theorem Decides.bind (decides : Decides checks result) {next : α → Except GrammarError β}
    (onward : ∀ value, result = .ok value → Decides more (next value)) :
    Decides (checks ++ more) (result.bind next) := by
  cases isResult : result with
  | error error =>
      have failed := (decides.error_iff error).1 isResult
      rw [Decides, firstFailure?_append, failed]
      rfl
  | ok value =>
      rw [Decides, isResult] at decides
      rw [Decides, firstFailure?_append, ← decides]
      exact onward value isResult

end Decides

/-! ## Names -/

/-- The checks of a name: it is not the reserved one, and it is not empty and has no blanks. -/
def nameChecks (name : String) : List Check :=
  [⟨name ≠ "$", .reservedName name⟩, ⟨Text.Unbroken name, .invalidName name⟩]

theorem decides_checkName (name : String) : Decides (nameChecks name) (checkName name) := by
  by_cases reserved : name = "$"
  · subst reserved
    rfl
  · by_cases unbroken : Text.Unbroken name
    · have accepted := (Text.unbroken_iff name).1 unbroken
      rw [checkName, endOfInputName, if_neg reserved, if_neg accepted]
      simp [Decides, nameChecks, firstFailure?, failure?, reserved, unbroken]
    · have refused := Decidable.not_not.1 (mt (Text.unbroken_iff name).2 unbroken)
      rw [checkName, endOfInputName, if_neg reserved, if_pos refused]
      simp [Decides, nameChecks, firstFailure?, failure?, reserved, unbroken]

theorem validName_iff {name : String} : ValidName name ↔ name ≠ "$" ∧ Text.Unbroken name := by
  have decides := decides_checkName name
  cases checked : checkName name with
  | ok =>
      rw [Decides, checked] at decides
      have passed := Option.map_eq_none_iff.1 decides.symm
      simpa [ValidName, checked, nameChecks] using passed
  | error error =>
      have failed := (decides.error_iff error).1 checked
      rw [ValidName, checked]
      simp only [reduceCtorEq, false_iff]
      rintro ⟨proper, unbroken⟩
      simp [nameChecks, firstFailure?, proper, unbroken] at failed

theorem decides_forM (names : List String) :
    Decides (names.flatMap nameChecks) (names.forM checkName) := by
  induction names with
  | nil => exact decides_ok ()
  | cons first rest ih =>
      rw [List.flatMap_cons]
      exact (decides_checkName first).bind fun _ _ => ih

/-! ## Requests -/

/-- The checks of the rule at a position: its names in reading order, then the position. -/
def ruleChecks (entry : Rule × Nat) : List Check :=
  entry.1.names.flatMap nameChecks ++ [⟨entry.2 < 65535, .tooMany .rules⟩]

namespace Definition

theorem decides_addRule (definition : Definition) (rule : Rule) :
    Decides (ruleChecks (rule, definition.rules.size)) (definition.require (.addRule rule)) := by
  have steps : definition.require (.addRule rule) = (rule.names.forM checkName).bind fun _ =>
      if definition.rules.size < 65535 then
        .ok { definition with rules := definition.rules.push rule }
      else .error (.tooMany .rules) := by
    simp only [require, addRule, capacity]
    cases rule.names.forM checkName with
    | error error => rfl
    | ok =>
        by_cases room : definition.rules.size < 65535 <;> simp [room, Except.bind]
  rw [steps]
  exact (decides_forM rule.names).bind fun _ _ => decides_ite _ _ _

theorem decides_addRules (rules : List Rule) (definition : Definition) :
    Decides ((rules.zipIdx definition.rules.size).flatMap ruleChecks)
      ((rules.map .addRule).foldlM require definition) := by
  induction rules generalizing definition with
  | nil => exact decides_ok definition
  | cons first rest ih =>
      rw [List.zipIdx_cons, List.flatMap_cons, List.map_cons, List.foldlM_cons]
      refine (decides_addRule definition first).bind fun next added => ?_
      obtain ⟨-, -, rfl⟩ := require_addRule_eq_ok_iff.1 added
      have onward := ih { definition with rules := definition.rules.push first }
      rwa [Array.size_push] at onward

/-- The checks of the requests that make a definition: the name of the start symbol, if one was
given, and then the rules in order. -/
def requestChecks (definition : Definition) : List Check :=
  definition.start.toList.flatMap nameChecks ++ definition.rules.toList.zipIdx.flatMap ruleChecks

theorem decides_requests (definition : Definition) :
    Decides definition.requestChecks (definition.requests.foldlM require {}) := by
  obtain ⟨start, rules⟩ := definition
  cases start with
  | none => exact decides_addRules rules.toList {}
  | some name =>
      have steps : Definition.require {} (.setStart name) = (checkName name).bind fun _ =>
          .ok { start := some name } := by
        simp only [require, setStart]
        cases checkName name <;> rfl
      have first : Decides (nameChecks name) (Definition.require {} (.setStart name)) := by
        rw [steps, ← List.append_nil (nameChecks name)]
        exact (decides_checkName name).bind fun _ _ => decides_ok _
      rw [requests, Option.map_some, Option.toList_some, List.singleton_append, List.foldlM_cons,
        requestChecks, Option.toList_some, List.flatMap_singleton]
      refine first.bind fun next set => ?_
      obtain ⟨-, rfl⟩ := require_setStart_eq_ok_iff.1 set
      exact decides_addRules rules.toList { start := some name }

/-! ## Building -/

/-- Whether a name stands for a nonterminal: it is a left-hand side, or a single capital letter. -/
def nonterminalName (definition : Definition) (name : String) : Bool :=
  definition.rules.toList.any (·.left == name) || isCapitalLetter name

theorem contains_lefts_eq_any (definition : Definition) (name : String) :
    definition.lefts.contains name = definition.rules.toList.any (·.left == name) := by
  rw [Bool.eq_iff_iff, contains_lefts]
  simp only [List.any_eq_true, beq_iff_eq, Array.mem_toList_iff]

theorem isNonterminal_lefts (definition : Definition) :
    isNonterminal definition.lefts = definition.nonterminalName := by
  funext name
  rw [isNonterminal, nonterminalName, contains_lefts_eq_any]

/-- The check of a name that stands behind some others: it is among them, or there are less than
65534 different ones of its kind. -/
def numberCheck (isNonterminal : String → Bool) (before : List String) (name : String) : Check :=
  if isNonterminal name then
    ⟨name ∈ before ∨ (Numbering.distinct isNonterminal before).length < 65534,
      .tooMany .nonterminals⟩
  else
    ⟨name ∈ before ∨ (Numbering.distinct (fun name => !isNonterminal name) before).length < 65534,
      .tooMany .terminals⟩

/-- The checks of names in reading order. -/
def numberChecks (isNonterminal : String → Bool) (names : List String) : List Check :=
  names.zipIdx.map fun entry => numberCheck isNonterminal (names.take entry.2) entry.1

/-- The checks of a definition that is finished: there is something to begin with, the start symbol
is a left-hand side, and there are numbers for all names. -/
def buildChecks (definition : Definition) : List Check :=
  [⟨definition.start ≠ none ∨ definition.rules ≠ #[], .noRules⟩] ++
    definition.start.toList.map (fun name =>
      ⟨definition.rules.toList.any (·.left == name), .unknownStart name⟩) ++
    numberChecks definition.nonterminalName definition.names

end Definition

namespace Numbering

variable {isNonterminal : String → Bool} {start : String} {names : List String}
  {numbering : Numbering}

theorem numberChecks_concat (names : List String) (name : String) :
    Definition.numberChecks isNonterminal (names ++ [name]) =
      Definition.numberChecks isNonterminal names ++
        [Definition.numberCheck isNonterminal names name] := by
  have earlier : ∀ entry ∈ names.zipIdx, (names ++ [name]).take entry.2 = names.take entry.2 := by
    intro entry member
    have inside := List.snd_lt_of_mem_zipIdx member
    exact List.take_append_of_le_length (by omega)
  have sameChecks : names.zipIdx.map (fun entry =>
      Definition.numberCheck isNonterminal ((names ++ [name]).take entry.2) entry.1) =
      Definition.numberChecks isNonterminal names :=
    List.map_congr_left fun entry member => by rw [earlier entry member]
  rw [Definition.numberChecks, List.zipIdx_append, List.map_append, sameChecks]
  simp

/-- The check of one more name. -/
theorem Numbers.decides_add (numbers : Numbers isNonterminal start names numbering)
    (name : String) :
    Decides [Definition.numberCheck isNonterminal names name]
      (Numbering.add isNonterminal numbering name) := by
  have terminals : numbering.terminals.size =
      (distinct (fun name => !isNonterminal name) names).length + 1 := by
    rw [← Array.length_toList, numbers.terminals, List.length_cons]
  have nonterminals : numbering.nonterminals.size = (distinct isNonterminal names).length + 1 := by
    rw [← Array.length_toList, numbers.nonterminals, List.length_cons]
  -- number 0 of each kind is taken, so there are numbers for one name less than the capacity
  have room_iff : ∀ count, count + 1 < capacity ↔ count < 65534 := fun count => by
    rw [capacity]
    omega
  rw [Decides, firstFailure?_singleton, Numbering.add, Definition.numberCheck]
  simp only [numbers.known, terminals, nonterminals, room_iff]
  by_cases before : name ∈ names
  · by_cases kind : isNonterminal name = true <;> simp [before, kind, failure?]
  · by_cases kind : isNonterminal name = true
    · by_cases room : (distinct isNonterminal names).length < 65534 <;>
        simp [before, kind, room, failure?]
    · by_cases room : (distinct (fun name => !isNonterminal name) names).length < 65534 <;>
        simp [before, kind, room, failure?]

/-- **The first name without a number decides the error.** -/
theorem decides_ofNames (start : String) (names : List String) :
    Decides (Definition.numberChecks isNonterminal names) (ofNames isNonterminal start names) := by
  induction names using List.reverseRecOn with
  | nil => exact decides_ok _
  | append_singleton names name ih =>
      rw [numberChecks_concat, ofNames_concat]
      exact ih.bind fun _ numbered => (numbers_ofNames numbered).decides_add name

end Numbering

namespace Definition

variable {definition : Definition}

theorem decides_startName (definition : Definition) :
    Decides [⟨definition.start ≠ none ∨ definition.rules ≠ #[], .noRules⟩]
      definition.startName := by
  obtain ⟨start, rules⟩ := definition
  rw [Decides, firstFailure?_singleton, startName]
  cases start with
  | some name => rfl
  | none =>
      by_cases empty : rules = #[]
      · subst empty
        rfl
      · have first : 0 < rules.size := Array.size_pos_iff.2 empty
        simp [empty, Array.getElem?_eq_getElem first, failure?]

/-- Only a start symbol that was given can fail to be a left-hand side. -/
theorem decides_contains_lefts {start : String} (named : definition.startName = .ok start)
    {α : Type} {checks : List Check} {found : Except GrammarError α}
    (decides : Decides checks found) :
    Decides
      (definition.start.toList.map (fun name =>
        ⟨definition.rules.toList.any (·.left == name), .unknownStart name⟩) ++ checks)
      (if definition.lefts.contains start then found else .error (.unknownStart start)) := by
  rw [startName] at named
  cases isStart : definition.start with
  | some name =>
      rw [isStart, Except.ok.injEq] at named
      subst named
      rw [Option.toList_some, List.map_singleton, ← contains_lefts_eq_any, Decides,
        firstFailure?_append, firstFailure?_singleton, ← decides]
      cases definition.lefts.contains name <;> rfl
  | none =>
      rw [isStart] at named
      cases isFirst : definition.rules[0]? with
      | none => simp [isFirst] at named
      | some rule =>
          have isLeft : rule.left = start := by simpa [isFirst] using named
          rwa [if_pos (contains_lefts.2 ⟨rule, Array.mem_of_getElem? isFirst, isLeft⟩)]

/-- **The first check of a finished definition that fails decides the error.** -/
theorem decides_build (definition : Definition) :
    Decides definition.buildChecks definition.build := by
  rw [buildChecks, List.append_assoc]
  refine (decides_startName definition).bind fun start named => ?_
  refine decides_contains_lefts named ?_
  rw [← isNonterminal_lefts, ← List.append_nil (numberChecks _ _)]
  exact (Numbering.decides_ofNames start definition.names).bind fun _ _ => decides_ok _

/-- All checks of a definition, from its requests to the finished grammar. -/
def checks (definition : Definition) : List Check :=
  definition.requestChecks ++ definition.buildChecks

end Definition

/-! ## Descriptions -/

/-- **The first check of a description that fails decides the error.** -/
theorem Description.decides_ofDescription (description : Description) :
    Decides description.definition.checks (Grammar.ofDescription description) := by
  have steps : Grammar.ofDescription description = description.define.bind Definition.build := rfl
  rw [steps]
  have defines := description.definition.decides_requests
  rw [requests_definition] at defines
  refine Decides.bind defines fun made defined => ?_
  obtain ⟨-, rfl⟩ := define_eq_ok_iff.1 defined
  exact description.definition.decides_build

end ShiftReduce
