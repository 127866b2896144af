import Mathlib.Data.List.Basic
import ShiftReduce.Proofs.Grammar.Admission
import ShiftReduce.Proofs.Grammar.Reading

/-!
# Requests that are refused

A definition is made by requests one after the other, some of which may be refused. A request that
is refused leaves the definition as it was, and one that is granted does what it asks for
(`attempt_cases`). So the requests that are granted make the same definition alone, and are all
granted again (`foldlM_require_granted`). The definition has the rules that they add, and the start
symbol that the last of them sets (`rules_foldl_attempt`, `start_foldl_attempt`).

The number that an added rule is told is the number of rules added before, and stays the number of
its production, whatever is asked for and refused later (`traceless_ofRequests`).
-/

set_option autoImplicit false

namespace ShiftReduce

namespace Request

/-- The rule that a request adds. -/
def rule? : Request → Option Rule
  | .setStart _ => none
  | .addRule rule => some rule

/-- The name that a request makes the start symbol. -/
def start? : Request → Option String
  | .setStart name => some name
  | .addRule _ => none

end Request

namespace Definition

/-! ## One request -/

/-- Whether a request is granted. -/
def grants (definition : Definition) : Request → Bool
  | .setStart name => (definition.setStart name).1.toBool
  | .addRule rule => (definition.addRule rule).1.toBool

/-- The definition in which a request has been carried out. -/
def carryOut (definition : Definition) : Request → Definition
  | .setStart name => { definition with start := some name }
  | .addRule rule => { definition with rules := definition.rules.push rule }

/-- **A request does what it asks for, or it is refused and leaves the definition as it was.** -/
theorem attempt_cases (definition : Definition) (request : Request) :
    (definition.grants request = true ∧ definition.attempt request = definition.carryOut request ∧
      definition.require request = .ok (definition.carryOut request)) ∨
    (definition.grants request = false ∧ definition.attempt request = definition ∧
      ∃ error, definition.require request = .error error) := by
  cases request with
  | setStart name =>
      cases checked : checkName name with
      | error error =>
          exact .inr (by simp [grants, attempt, require, setStart, checked, Except.toBool])
      | ok =>
          exact .inl
            (by simp [grants, attempt, require, carryOut, setStart, checked, Except.toBool])
  | addRule rule =>
      cases checked : rule.names.forM checkName with
      | error error =>
          refine .inr ⟨?_, ?_, error, ?_⟩ <;>
            simp only [grants, attempt, require, addRule, checked, Except.toBool]
      | ok =>
          by_cases room : definition.rules.size < capacity
          · refine .inl ⟨?_, ?_, ?_⟩ <;>
              simp only [grants, attempt, require, carryOut, addRule, checked, room, if_true,
                Except.toBool]
          · refine .inr ⟨?_, ?_, .tooMany .rules, ?_⟩ <;>
              simp only [grants, attempt, require, addRule, checked, room, if_false, Except.toBool]

theorem attempt_of_require {definition next : Definition} {request : Request}
    (required : definition.require request = .ok next) : definition.attempt request = next := by
  rcases definition.attempt_cases request with ⟨-, attempted, accepted⟩ | ⟨-, -, error, refused⟩
  · rw [accepted] at required
    rw [attempted, Except.ok.inj required]
  · rw [refused] at required
    cases required

/-- An added rule is told the number of rules before it, which is a number that a production can
have. -/
theorem addRule_eq_ok {definition : Definition} {rule : Rule} {id : ProductionId}
    (added : (definition.addRule rule).1 = .ok id) :
    definition.grants (.addRule rule) = true ∧ id = .stored definition.rules.size ∧
      definition.rules.size < capacity := by
  have granted : definition.grants (.addRule rule) = true := by
    rw [grants, added]
    rfl
  refine ⟨granted, ?_⟩
  simp only [addRule] at added
  split at added
  · cases added
  · split at added
    · next room =>
      cases added
      exact ⟨rfl, room⟩
    · cases added

/-! ## Requests one after the other -/

/-- The requests that are granted when they are made one after the other. -/
def grantedAfter (definition : Definition) : List Request → List Request
  | [] => []
  | request :: rest =>
    if definition.grants request then request :: (definition.attempt request).grantedAfter rest
    else (definition.attempt request).grantedAfter rest

theorem grantedAfter_append (definition : Definition) (requests more : List Request) :
    definition.grantedAfter (requests ++ more) =
      definition.grantedAfter requests ++
        (requests.foldl attempt definition).grantedAfter more := by
  induction requests generalizing definition with
  | nil => rfl
  | cons request rest ih =>
      rw [List.cons_append, grantedAfter, grantedAfter, ih, List.foldl_cons]
      split <;> rfl

theorem grantedAfter_sublist (definition : Definition) (requests : List Request) :
    (definition.grantedAfter requests).Sublist requests := by
  induction requests generalizing definition with
  | nil => exact List.Sublist.slnil
  | cons request rest ih =>
      rw [grantedAfter]
      split
      · exact (ih _).cons_cons request
      · exact (ih _).cons request

/-- **The granted requests are granted again when they are made alone, and make the same
definition.** -/
theorem foldlM_require_granted (definition : Definition) (requests : List Request) :
    (definition.grantedAfter requests).foldlM require definition =
      .ok (requests.foldl attempt definition) := by
  induction requests generalizing definition with
  | nil => rfl
  | cons request rest ih =>
      rw [grantedAfter, List.foldl_cons]
      rcases definition.attempt_cases request with
        ⟨granted, attempted, required⟩ | ⟨refused, kept, -⟩
      · rw [if_pos granted, List.foldlM_cons, required, attempted]
        exact ih _
      · rw [if_neg (Bool.not_eq_true _ ▸ refused), kept]
        exact ih definition

/-- Where nothing is refused, there are no refusals to pass over. -/
theorem foldl_attempt_of_foldlM {definition made : Definition} {requests : List Request}
    (accepted : requests.foldlM require definition = .ok made) :
    requests.foldl attempt definition = made := by
  induction requests generalizing definition with
  | nil =>
      cases accepted
      rfl
  | cons request rest ih =>
      rw [List.foldlM_cons] at accepted
      cases required : definition.require request with
      | error error =>
          rw [required] at accepted
          cases accepted
      | ok next =>
          rw [required] at accepted
          rw [List.foldl_cons, attempt_of_require required]
          exact ih accepted

/-- The rules that granted requests add stand behind the earlier ones, in order. -/
theorem rules_foldl_attempt (definition : Definition) (requests : List Request) :
    (requests.foldl attempt definition).rules.toList =
      definition.rules.toList ++ (definition.grantedAfter requests).filterMap Request.rule? := by
  induction requests generalizing definition with
  | nil => simp [grantedAfter]
  | cons request rest ih =>
      rw [grantedAfter, List.foldl_cons, ih]
      rcases definition.attempt_cases request with ⟨granted, attempted, -⟩ | ⟨refused, kept, -⟩
      · rw [if_pos granted, attempted]
        cases request <;> simp [carryOut, List.filterMap_cons, Request.rule?]
      · rw [if_neg (Bool.not_eq_true _ ▸ refused), kept]

/-- The start symbol is the one that was set last. -/
theorem start_foldl_attempt (definition : Definition) (requests : List Request) :
    (requests.foldl attempt definition).start =
      ((definition.grantedAfter requests).filterMap Request.start?).getLast?.or
        definition.start := by
  induction requests generalizing definition with
  | nil => simp [grantedAfter]
  | cons request rest ih =>
      rw [grantedAfter, List.foldl_cons, ih]
      rcases definition.attempt_cases request with ⟨granted, attempted, -⟩ | ⟨refused, kept, -⟩
      · rw [if_pos granted, attempted]
        cases request with
        | setStart name =>
            simp only [carryOut, List.filterMap_cons, Request.start?, List.getLast?_cons]
            cases (List.filterMap Request.start? _).getLast? <;> rfl
        | addRule rule => simp [carryOut, List.filterMap_cons, Request.start?]
      · rw [if_neg (Bool.not_eq_true _ ▸ refused), kept]

/-! ## Whole histories -/

/-- The requests of a history that are granted. -/
def granted (requests : List Request) : List Request :=
  grantedAfter {} requests

/-- The rules that a history adds. -/
def added (requests : List Request) : List Rule :=
  (granted requests).filterMap Request.rule?

/-- The name that a history sets as the start symbol, which is the last one that is granted. -/
def declared? (requests : List Request) : Option String :=
  ((granted requests).filterMap Request.start?).getLast?

theorem toList_rules_ofRequests (requests : List Request) :
    (ofRequests requests).rules.toList = added requests := by
  rw [ofRequests, rules_foldl_attempt]
  rfl

theorem start_ofRequests (requests : List Request) :
    (ofRequests requests).start = declared? requests := by
  rw [ofRequests, start_foldl_attempt, Option.or_none]
  rfl

/-- The start symbol of a history is the one that was set last, or else the first left-hand side. -/
theorem startName_ofRequests {requests : List Request} {start : String}
    (named : (ofRequests requests).startName = .ok start) :
    (declared? requests).or ((added requests).head?.map Rule.left) = some start := by
  rw [← start_ofRequests, ← toList_rules_ofRequests, List.head?_eq_getElem?, Array.getElem?_toList]
  rw [startName] at named
  cases isStart : (ofRequests requests).start with
  | some name => simpa [isStart] using named
  | none =>
      cases isFirst : (ofRequests requests).rules[0]? with
      | none => simp [isStart, isFirst] at named
      | some rule => simpa [isStart, isFirst] using named

/-- A rule that is added stands behind the rules added before. -/
theorem getElem?_added {before after : List Request} {rule : Rule}
    (granted : (ofRequests before).grants (.addRule rule) = true) :
    (added (before ++ .addRule rule :: after))[(added before).length]? = some rule := by
  have split : added (before ++ .addRule rule :: after) = added before ++
      rule :: (((ofRequests before).attempt (.addRule rule)).grantedAfter after).filterMap
        Request.rule? := by
    rw [added, Definition.granted, grantedAfter_append, ← ofRequests, grantedAfter, if_pos granted,
      List.filterMap_append]
    rfl
  rw [split, List.getElem?_append_right (Nat.le_refl _), Nat.sub_self]
  rfl

/-- A rule that is added to a history is told the number of rules added before. -/
theorem addRule_ofRequests_eq_ok {before : List Request} {rule : Rule} {id : ProductionId}
    (isAdded : ((ofRequests before).addRule rule).1 = .ok id) :
    (ofRequests before).grants (.addRule rule) = true ∧ id = .stored (added before).length ∧
      (added before).length < capacity := by
  obtain ⟨isGranted, isNumber, room⟩ := addRule_eq_ok isAdded
  rw [← Array.length_toList, toList_rules_ofRequests] at isNumber room
  exact ⟨isGranted, isNumber, room⟩

/-- What a history of requests leaves behind when refusals are passed over. -/
structure Traceless (requests : List Request) : Prop where
  subsequence : (granted requests).Sublist requests
  /-- The granted requests alone make the same grammar, or fail with the same error. -/
  build : (ofRequests (granted requests)).build = (ofRequests requests).build
  /-- Made alone, none of the granted requests is refused. -/
  regranted : (granted requests).foldlM require {} = .ok (ofRequests requests)
  start : (ofRequests requests).start = declared? requests
  startName : ∀ grammar, (ofRequests requests).build = .ok grammar →
    (declared? requests).or ((added requests).head?.map Rule.left) =
      some (grammar.nonterminalName grammar.start)
  /-- The number that an added rule is told is the number of rules added before. -/
  number : ∀ before rule after id, requests = before ++ .addRule rule :: after →
    ((ofRequests before).addRule rule).1 = .ok id →
    id = .stored (added before).length ∧ id.number < ProductionId.accept.number
  /-- It is the number of a production with the names of the rule. -/
  production : ∀ before rule after id, requests = before ++ .addRule rule :: after →
    ((ofRequests before).addRule rule).1 = .ok id →
    ∀ grammar, (ofRequests requests).build = .ok grammar →
      id ∈ grammar.productionIds ∧ grammar.ruleOf id = rule

/-- **Requests that are refused leave no trace.** -/
theorem traceless_ofRequests (requests : List Request) : Traceless requests := by
  constructor
  case subsequence => exact grantedAfter_sublist {} requests
  case build =>
    rw [ofRequests, granted, foldl_attempt_of_foldlM (foldlM_require_granted {} requests),
      ofRequests]
  case regranted => exact foldlM_require_granted {} requests
  case start => exact start_ofRequests requests
  case startName =>
    intro grammar built
    obtain ⟨start, -, named, -⟩ := build_eq_ok_iff.1 built
    rw [(reads_of_build built named).start, startName_ofRequests named]
  case number =>
    intro before rule after id isHistory isAdded
    obtain ⟨-, rfl, room⟩ := addRule_ofRequests_eq_ok isAdded
    exact ⟨rfl, room⟩
  case production =>
    intro before rule after id isHistory isAdded grammar built
    obtain ⟨isGranted, rfl, -⟩ := addRule_ofRequests_eq_ok isAdded
    refine ruleOf_of_getElem? built ?_
    rw [toList_rules_ofRequests, isHistory]
    exact getElem?_added isGranted

/-- Requests of which some are refused: a rule with a blank in its last name, a reserved start
symbol, and an empty one. -/
def interruptedRequests : List Request :=
  [.addRule ⟨"S", ["a"]⟩, .addRule ⟨"T", ["S", "b c"]⟩, .setStart "S", .setStart "$",
    .addRule ⟨"T", ["S", "S"]⟩, .setStart "T", .setStart ""]

/-- The grammar of the requests that are granted. -/
def interrupted : Grammar where
  terminals := #["$", "a"]
  nonterminals := #["T'", "S", "T"]
  start := ⟨2⟩
  productions :=
    #[⟨⟨1⟩, [.terminal ⟨1⟩]⟩, ⟨⟨2⟩, [.nonterminal ⟨1⟩, .nonterminal ⟨1⟩]⟩]
  firsts := #[0, 1]
  alternatives := #[#[], #[0], #[1]]

theorem traceless_interrupted :
    granted interruptedRequests =
        [.addRule ⟨"S", ["a"]⟩, .setStart "S", .addRule ⟨"T", ["S", "S"]⟩, .setStart "T"] ∧
      (ofRequests interruptedRequests).build = .ok interrupted ∧
      (ofRequests (granted interruptedRequests)).build = .ok interrupted ∧
      interrupted.nonterminalName interrupted.start = "T" ∧
      ((ofRequests (interruptedRequests.take 4)).addRule ⟨"T", ["S", "S"]⟩).1 = .ok (.stored 1) ∧
      interrupted.ruleOf (.stored 1) = ⟨"T", ["S", "S"]⟩ := by
  have traceless := traceless_ofRequests interruptedRequests
  have defined : (ofRequests interruptedRequests).build = .ok interrupted := by decide +kernel
  have isAdded : ((ofRequests (interruptedRequests.take 4)).addRule ⟨"T", ["S", "S"]⟩).1 =
      .ok (.stored 1) := by decide +kernel
  have startName := traceless.startName interrupted defined
  have isDeclared : declared? interruptedRequests = some "T" := by decide +kernel
  rw [isDeclared, Option.some_or] at startName
  refine ⟨by decide +kernel, defined, traceless.build.trans defined, ?_, isAdded, ?_⟩
  · exact (Option.some.inj startName).symm
  · exact (traceless.production _ _ [.setStart "T", .setStart ""] _ rfl isAdded _ defined).2

end Definition

end ShiftReduce
