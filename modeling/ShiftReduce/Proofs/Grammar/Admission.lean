import ShiftReduce.Grammar.Load

/-!
# Definitions that are admitted

A definition is admitted when the requests that make it, its start symbol first and then its rules
in order, are all accepted. This is so exactly when all its names are valid and it has no more rules
than can be numbered (`foldlM_requests_eq_ok_iff`). So it does not depend on the order of the rules,
nor on how often a rule is given.

A description is defined when its definition is admitted (`Description.define_eq_ok_iff`). Refused
requests leave a definition as it was, so requests in any number and order make admissible
definitions only (`admissible_ofRequests`).
-/

set_option autoImplicit false

namespace ShiftReduce

/-- Whether a symbol can have a name. -/
def ValidName (name : String) : Prop :=
  checkName name = .ok ()

theorem forM_checkName_eq_ok_iff {names : List String} :
    names.forM checkName = .ok () ↔ ∀ name ∈ names, ValidName name := by
  induction names with
  | nil => exact ⟨fun _ => by simp, fun _ => rfl⟩
  | cons first rest ih =>
      have unfolded : (first :: rest).forM checkName =
          (checkName first).bind fun _ => rest.forM checkName := rfl
      rw [unfolded, List.forall_mem_cons, ← ih, ValidName]
      cases checkName first with
      | error error => simp [Except.bind]
      | ok => simp [Except.bind]

namespace Definition

/-! ## Single requests -/

theorem require_setStart_eq_ok_iff {definition next : Definition} {name : String} :
    definition.require (.setStart name) = .ok next ↔
      ValidName name ∧ next = { definition with start := some name } := by
  cases checked : checkName name with
  | error error => simp [require, setStart, ValidName, checked]
  | ok => simp [require, setStart, ValidName, checked, eq_comm]

theorem require_addRule_eq_ok_iff {definition next : Definition} {rule : Rule} :
    definition.require (.addRule rule) = .ok next ↔
      (∀ name ∈ rule.names, ValidName name) ∧ definition.rules.size < capacity ∧
        next = { definition with rules := definition.rules.push rule } := by
  rw [← forM_checkName_eq_ok_iff]
  cases checked : rule.names.forM checkName with
  | error error => simp only [require, addRule, checked, reduceCtorEq, false_and]
  | ok =>
      by_cases room : definition.rules.size < capacity
      · simp only [require, addRule, checked, room, if_true, Except.ok.injEq, true_and, eq_comm]
      · simp only [require, addRule, checked, room, if_false, reduceCtorEq, false_and, and_false]

/-! ## All requests of a definition -/

/-- The requests that make a definition, the start symbol first. -/
def requests (definition : Definition) : List Request :=
  (definition.start.map .setStart).toList ++ definition.rules.toList.map .addRule

/-- All names of a definition are valid, and its rules can be numbered. -/
structure Admissible (definition : Definition) : Prop where
  start : ∀ name, definition.start = some name → ValidName name
  names : ∀ rule ∈ definition.rules.toList, ∀ name ∈ rule.names, ValidName name
  few : definition.rules.size ≤ capacity

/-- Adding rules is accepted when their names are valid and there is room for them. -/
theorem foldlM_addRule_eq_ok_iff (rules : List Rule) {definition made : Definition}
    (few : definition.rules.size ≤ capacity) :
    (rules.map .addRule).foldlM require definition = .ok made ↔
      (∀ rule ∈ rules, ∀ name ∈ rule.names, ValidName name) ∧
        definition.rules.size + rules.length ≤ capacity ∧
        made = { definition with rules := definition.rules ++ rules.toArray } := by
  induction rules generalizing definition with
  | nil => simpa [pure, Except.pure, eq_comm] using fun _ => few
  | cons first rest ih =>
      rw [List.map_cons, List.foldlM_cons]
      constructor
      · intro accepted
        cases added : definition.require (.addRule first) with
        | error error =>
            rw [added] at accepted
            cases accepted
        | ok next =>
            rw [added] at accepted
            obtain ⟨valid, room, rfl⟩ := require_addRule_eq_ok_iff.1 added
            have oneMore : (definition.rules.push first).size ≤ capacity := by
              rw [Array.size_push]
              exact room
            obtain ⟨restValid, restRoom, rfl⟩ := (ih oneMore).1 accepted
            refine ⟨List.forall_mem_cons.2 ⟨valid, restValid⟩, ?_, by simp⟩
            simp only [Array.size_push] at restRoom
            simp only [List.length_cons]
            omega
      · rintro ⟨valid, room, rfl⟩
        obtain ⟨firstValid, restValid⟩ := List.forall_mem_cons.1 valid
        rw [List.length_cons] at room
        have firstRoom : definition.rules.size < capacity := by omega
        have oneMore : (definition.rules.push first).size ≤ capacity := by
          rw [Array.size_push]
          exact firstRoom
        rw [require_addRule_eq_ok_iff.2 ⟨firstValid, firstRoom, rfl⟩]
        refine (ih oneMore).2 ⟨restValid, ?_, by simp⟩
        simp only [Array.size_push]
        omega

/-- **The requests of a definition are accepted exactly when it is admissible, and they make
it.** -/
theorem foldlM_requests_eq_ok_iff {definition made : Definition} :
    definition.requests.foldlM require {} = .ok made ↔
      definition.Admissible ∧ made = definition := by
  obtain ⟨start, rules⟩ := definition
  have admissible : Admissible ⟨start, rules⟩ ↔ (∀ name, start = some name → ValidName name) ∧
      (∀ rule ∈ rules.toList, ∀ name ∈ rule.names, ValidName name) ∧ rules.size ≤ capacity :=
    ⟨fun holds => ⟨holds.start, holds.names, holds.few⟩,
      fun ⟨start, names, few⟩ => ⟨start, names, few⟩⟩
  rw [admissible, requests]
  cases start with
  | none =>
      rw [Option.map_none, Option.toList_none, List.nil_append,
        foldlM_addRule_eq_ok_iff _ (Nat.zero_le _)]
      simp [and_assoc]
  | some name =>
      rw [Option.map_some, Option.toList_some, List.singleton_append, List.foldlM_cons]
      cases checked : require {} (.setStart name) with
      | error error =>
          have invalid : ¬ValidName name := fun valid => by
            rw [require_setStart_eq_ok_iff.2 ⟨valid, rfl⟩] at checked
            cases checked
          simp [invalid, bind, Except.bind]
      | ok next =>
          obtain ⟨valid, rfl⟩ := require_setStart_eq_ok_iff.1 checked
          have rest := @foldlM_addRule_eq_ok_iff rules.toList { start := some name } made
            (Nat.zero_le _)
          simpa [valid, bind, Except.bind, and_assoc] using rest

/-- Whatever is asked of an admissible definition, it stays admissible. -/
theorem Admissible.attempt {definition : Definition} (admissible : definition.Admissible)
    (request : Request) : (definition.attempt request).Admissible := by
  cases request with
  | setStart name =>
      cases checked : checkName name with
      | error error => simpa [Definition.attempt, setStart, checked] using admissible
      | ok =>
          simp only [Definition.attempt, setStart, checked]
          exact { admissible with start := fun other given => Option.some.inj given ▸ checked }
  | addRule rule =>
      cases checked : rule.names.forM checkName with
      | error error => simpa [Definition.attempt, addRule, checked] using admissible
      | ok =>
          simp only [Definition.attempt, addRule, checked]
          split
          · next room =>
            constructor
            case start => exact admissible.start
            case names =>
              intro other isRule
              rcases Array.mem_push.1 (Array.mem_toList_iff.1 isRule) with earlier | rfl
              · exact admissible.names other (Array.mem_toList_iff.2 earlier)
              · exact forM_checkName_eq_ok_iff.1 checked
            case few =>
              rw [Array.size_push]
              exact room
          · exact admissible

/-- **Every definition that requests make is admissible.** -/
theorem admissible_ofRequests (requests : List Request) : (ofRequests requests).Admissible := by
  have kept : ∀ (definition : Definition), definition.Admissible →
      (requests.foldl Definition.attempt definition).Admissible := by
    induction requests with
    | nil => exact fun definition admissible => admissible
    | cons first rest ih => exact fun definition admissible => ih _ (admissible.attempt first)
  exact kept {} ⟨by simp, by simp, Nat.zero_le _⟩

/-- Whether the requests of a definition are all accepted. -/
def Admitted (definition : Definition) : Prop :=
  definition.requests.foldlM require {} = .ok definition

theorem admitted_iff {definition : Definition} : definition.Admitted ↔ definition.Admissible := by
  rw [Admitted, foldlM_requests_eq_ok_iff]
  exact and_iff_left rfl

end Definition

/-! ## Descriptions -/

namespace Description

/-- The definition that a description describes. -/
def definition (description : Description) : Definition :=
  ⟨description.start, description.rules.map SourceRule.toRule⟩

theorem requests_definition (description : Description) :
    description.definition.requests = description.requests := by
  simp [Definition.requests, requests, definition, Function.comp_def]

/-- **A description is defined exactly when its definition is admitted.** -/
theorem define_eq_ok_iff {description : Description} {made : Definition} :
    description.define = .ok made ↔
      description.definition.Admissible ∧ made = description.definition := by
  rw [define, ← requests_definition, Definition.foldlM_requests_eq_ok_iff]

/-- A description makes a grammar when its definition is admitted and makes the grammar. -/
theorem ofDescription_eq_ok_iff {description : Description} {grammar : Grammar} :
    Grammar.ofDescription description = .ok grammar ↔
      description.definition.Admissible ∧ description.definition.build = .ok grammar := by
  rw [Grammar.ofDescription]
  cases defined : description.define with
  | error error =>
      have refused : ¬description.definition.Admissible := fun admissible => by
        rw [define_eq_ok_iff.2 ⟨admissible, rfl⟩] at defined
        cases defined
      simp [refused, bind, Except.bind]
  | ok made =>
      obtain ⟨admissible, rfl⟩ := define_eq_ok_iff.1 defined
      simp [admissible, bind, Except.bind]

end Description

end ShiftReduce
