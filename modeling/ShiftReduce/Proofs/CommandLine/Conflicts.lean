import ShiftReduce.Proofs.CommandLine.Report
import ShiftReduce.Proofs.CommandLine.StartSymbol
import ShiftReduce.Proofs.Grammar.History
import ShiftReduce.Proofs.Table.Contents

/-!
# What denied conflicts decide

A run makes a grammar, or it fails before anything is printed (`run_cases`). If it makes one, it
prints the report, and then conflicts that are denied make it fail. There are conflicts exactly when
a state has two complete items, so the exit code tells whether there is a grammar without such a
state; what is printed does not depend on whether conflicts are denied, and its warnings are those
of the complete items behind the first one of each state (`decidesConflicts_run`).
-/

set_option autoImplicit false

namespace ShiftReduce

/-! ## Grammars of descriptions -/

/-- A description makes its grammar from its requests, none of which is refused. -/
theorem Grammar.build_of_ofDescription {description : Description} {grammar : Grammar}
    (made : ofDescription description = .ok grammar) :
    (Definition.ofRequests description.requests).build = .ok grammar := by
  obtain ⟨admissible, built⟩ := Description.ofDescription_eq_ok_iff.1 made
  have accepted := Definition.admitted_iff.2 admissible
  rw [Definition.Admitted, Description.requests_definition] at accepted
  rw [Definition.ofRequests, Definition.foldl_attempt_of_foldlM accepted]
  exact built

namespace CommandLine

variable {options : Options} {file : String} {contents : Except ReadError ByteArray}
  {grammar : Grammar}

/-- A run on a file makes a grammar: the file can be read, and the grammar can be built, with the
start symbol of the options if there is one. -/
def Makes (options : Options) (contents : Except ReadError ByteArray) (grammar : Grammar) : Prop :=
  ∃ description, Description.ofFile contents = .ok description ∧
    Grammar.ofDescription (overrideStart options description) = .ok grammar

theorem Makes.build (makes : Makes options contents grammar) :
    ∃ requests, (Definition.ofRequests requests).build = .ok grammar := by
  obtain ⟨description, -, made⟩ := makes
  exact ⟨_, Grammar.build_of_ofDescription made⟩

/-- **A run reports on the grammar that it makes, or it fails before anything is printed**, whether
conflicts are denied or not. -/
theorem run_cases (options : Options) (file : String) (contents : Except ReadError ByteArray) :
    (∃ grammar, Makes options contents grammar ∧ ∀ denied,
      run { options with denyConflicts := denied } file contents =
        reportOn { options with denyConflicts := denied } grammar) ∨
    ((¬∃ grammar, Makes options contents grammar) ∧ ∃ step cause, ∀ denied,
      run { options with denyConflicts := denied } file contents = .failureOf step cause) := by
  have override : ∀ denied description,
      overrideStart { options with denyConflicts := denied } description =
        overrideStart options description := fun _ _ => rfl
  cases loaded : Description.ofFile contents with
  | error error =>
      refine .inr ⟨?_, "failed to load " ++ file, error.message, fun denied => ?_⟩
      · rintro ⟨grammar, description, isLoaded, -⟩
        rw [loaded] at isLoaded
        cases isLoaded
      · simp only [run, loaded]
  | ok description =>
      cases made : Grammar.ofDescription (overrideStart options description) with
      | error error =>
          refine .inr ⟨?_, "invalid grammar definition", error.message, fun denied => ?_⟩
          · rintro ⟨grammar, same, isLoaded, isMade⟩
            rw [loaded] at isLoaded
            cases isLoaded
            rw [made] at isMade
            cases isMade
          · simp only [run, loaded, override, made]
      | ok grammar =>
          refine .inl ⟨grammar, ⟨description, loaded, made⟩, fun denied => ?_⟩
          exact run_of_made loaded ((override denied description).symm ▸ made) file

/-- A run makes one grammar at most. -/
theorem Makes.unique (makes : Makes options contents grammar) {other : Grammar}
    (makesOther : Makes options contents other) : grammar = other := by
  obtain ⟨description, loaded, made⟩ := makes
  obtain ⟨same, loadedSame, madeOther⟩ := makesOther
  rw [loaded] at loadedSame
  cases loadedSame
  rw [made] at madeOther
  exact Except.ok.inj madeOther

/-! ## Reports -/

/-- There are no conflicts exactly if no state has two complete items. -/
theorem conflicts_eq_nil_iff (wellFormed : grammar.WellFormed) :
    (Table.generate grammar (Automaton.generate grammar)).conflicts = [] ↔
      ∀ state ∈ (Automaton.generate grammar).states, (state.completeItems grammar).length ≤ 1 := by
  constructor
  · intro free state isState
    obtain ⟨id, found⟩ := Automaton.mem_generate isState
    refine (Table.free_generate_iff wellFormed found).1 ?_
    rw [free]
    simp
  · intro few
    refine List.eq_nil_iff_forall_not_mem.2 fun conflict member => ?_
    obtain ⟨id, state, isState, pair, -, rfl⟩ := (Table.mem_conflicts_generate wellFormed).1 member
    exact (Table.free_generate_iff wellFormed isState).2
      (few state (Array.mem_of_getElem? isState)) _ member rfl

/-- The output of a report tells nothing about denied conflicts. -/
theorem output_reportOn (options : Options) (grammar : Grammar) :
    (reportOn options grammar).output = Text.unlines (report options grammar
      (Automaton.generate grammar) (Table.generate grammar (Automaton.generate grammar))) := by
  rw [reportOn]
  split <;> rfl

theorem output_reportOn_ne_empty (options : Options) (grammar : Grammar) :
    (reportOn options grammar).output ≠ "" := by
  rw [output_reportOn, report]
  simp [Text.unlines]

/-- Denied conflicts make a report fail, if there are any. -/
theorem code_reportOn (options : Options) (grammar : Grammar) :
    (reportOn options grammar).code = if options.denyConflicts &&
      !(Table.generate grammar (Automaton.generate grammar)).conflicts.isEmpty then 1 else 0 := by
  rw [reportOn]
  split <;> rfl

/-- What a run decides about conflicts, and what it prints about them. -/
structure DecidesConflicts (options : Options) (file : String)
    (contents : Except ReadError ByteArray) : Prop where
  /-- When conflicts are denied, the run succeeds exactly if it makes a grammar and no state of the
  automaton has two complete items. -/
  succeeds_iff : (run { options with denyConflicts := true } file contents).code = 0 ↔
    ∃ grammar, Makes options contents grammar ∧
      ∀ state ∈ (Automaton.generate grammar).states, (state.completeItems grammar).length ≤ 1
  /-- Otherwise it exits with one. -/
  fails : (run { options with denyConflicts := true } file contents).code ≠ 0 →
    (run { options with denyConflicts := true } file contents).code = 1
  /-- It prints the same when conflicts are not denied. -/
  output_eq : (run { options with denyConflicts := true } file contents).output =
    (run { options with denyConflicts := false } file contents).output
  /-- Nothing is printed exactly if no grammar is made. -/
  output_eq_empty_iff : (run options file contents).output = "" ↔
    ¬∃ grammar, Makes options contents grammar
  /-- The lines that warn of conflicts are those of the complete items behind the first one of each
  state, in the order of states and items. -/
  warnings : ∀ grammar, Makes options contents grammar →
    (Text.linesOf (run options file contents).output).filter warnsOfConflict =
      (Automaton.generate grammar).numbered.flatMap fun (state, id) =>
        (neighbours (state.completeItems grammar)).map fun (earlier, later) =>
          "[warning] " ++ Conflict.render grammar
            ⟨id, .endOfInput, earlier.completion, later.completion⟩

/-- **Denied conflicts decide whether a state has two complete items**, after everything was
printed. -/
theorem decidesConflicts_run (options : Options) (file : String)
    (contents : Except ReadError ByteArray) : DecidesConflicts options file contents := by
  rcases run_cases options file contents with
    ⟨grammar, makes, reports⟩ | ⟨nothing, step, cause, failing⟩
  · obtain ⟨requests, defined⟩ := makes.build
    have wellFormed := Definition.wellFormed_of_build defined
    have isRun : run options file contents = reportOn options grammar :=
      reports options.denyConflicts
    constructor
    case succeeds_iff =>
      have conflictFree : (reportOn { options with denyConflicts := true } grammar).code = 0 ↔
          ∀ state ∈ (Automaton.generate grammar).states,
            (state.completeItems grammar).length ≤ 1 := by
        rw [← conflicts_eq_nil_iff wellFormed, code_reportOn]
        simp
      rw [reports, conflictFree]
      constructor
      · exact fun free => ⟨grammar, makes, free⟩
      · rintro ⟨other, makesOther, free⟩
        cases makes.unique makesOther
        exact free
    case fails =>
      rw [reports, code_reportOn]
      split
      · exact fun _ => rfl
      · exact fun failed => absurd rfl failed
    case output_eq => rw [reports, reports, output_reportOn, output_reportOn]; rfl
    case output_eq_empty_iff =>
      rw [isRun]
      exact iff_of_false (output_reportOn_ne_empty options grammar) fun nothing =>
        nothing ⟨grammar, makes⟩
    case warnings =>
      intro other makesOther
      cases makes.unique makesOther
      rw [isRun, output_reportOn, filter_linesOf_report defined,
        Table.conflicts_generate wellFormed, List.map_flatMap]
      simp only [List.map_map]
      rfl
  · have isRun : run options file contents = .failureOf step cause := failing options.denyConflicts
    have noneMade : ∀ grammar, ¬Makes options contents grammar := not_exists.1 nothing
    constructor
    case succeeds_iff =>
      rw [failing]
      refine iff_of_false Nat.one_ne_zero ?_
      rintro ⟨grammar, makes, -⟩
      exact noneMade grammar makes
    case fails =>
      intro _
      rw [failing]
      rfl
    case output_eq => rw [failing, failing]
    case output_eq_empty_iff =>
      rw [isRun]
      exact iff_of_true rfl nothing
    case warnings => exact fun grammar makes => absurd makes (noneMade grammar)

/-- The start symbol derives itself, so that acceptance competes with a reduction. -/
example : (run { denyConflicts := true } "loop" (.ok "S -> S\nS -> a".toUTF8)).code = 1 ∧
    (run {} "loop" (.ok "S -> S\nS -> a".toUTF8)).code = 0 := by
  decide +kernel

end CommandLine

end ShiftReduce
