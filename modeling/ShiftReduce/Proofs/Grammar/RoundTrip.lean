import ShiftReduce.Grammar.Render
import ShiftReduce.Proofs.Grammar.Admission
import ShiftReduce.Proofs.Grammar.Reading
import ShiftReduce.Proofs.Source.Printed

/-!
# Printing grammars and reading them back

A grammar is printed as its start symbol and its productions, each in the names of its symbols
(`Grammar.printed`). The productions are printed as the rules that they were made of
(`map_ruleOf_productionIds`), so this is the text of the description that made the grammar, with the
start symbol declared. Declaring the start symbol that a description has anyway makes the same
grammar (`ofDescription_declare`). So the text of a grammar gives the grammar again, with all its
numbers, and so does the text of a description (`printed_roundTrip`).
-/

set_option autoImplicit false

namespace ShiftReduce

/-- The lines of a text that gives a grammar. -/
def Grammar.printed (grammar : Grammar) : List String :=
  ("@start " ++ grammar.nonterminalName grammar.start) ::
    grammar.productionIds.map fun id => grammar.renderProduction (grammar.production id)

namespace Definition

variable {definition : Definition} {grammar : Grammar}

/-- The start symbol of a grammar is a left-hand side, and declaring it changes nothing. -/
theorem build_declare (built : definition.build = .ok grammar) :
    (∃ rule ∈ definition.rules.toList, rule.left = grammar.nonterminalName grammar.start) ∧
      build { definition with start := some (grammar.nonterminalName grammar.start) } =
        .ok grammar := by
  obtain ⟨start, numbering, named, ⟨rule, isRule, isLeft⟩, numbered, isGrammar⟩ :=
    build_eq_ok_iff.1 built
  have isStart : grammar.nonterminalName grammar.start = start := (reads_of_build built named).start
  rw [isStart]
  refine ⟨⟨rule, Array.mem_toList_iff.2 isRule, isLeft⟩, ?_⟩
  exact build_eq_ok_iff.2 ⟨start, numbering, rfl, ⟨rule, isRule, isLeft⟩, numbered, isGrammar⟩

end Definition

namespace Description

variable {description : Description} {grammar : Grammar}

/-- A text makes a grammar when it makes a description that does. -/
theorem ofSource_eq_ok_iff {source : String} : Grammar.ofSource source = .ok grammar ↔
    ∃ description, parse source = .ok description ∧
      Grammar.ofDescription description = .ok grammar := by
  rw [Grammar.ofSource]
  cases parse source with
  | error error => simp
  | ok description =>
      cases made : Grammar.ofDescription description with
      | error error => simp [made, Except.mapError]
      | ok made => simp [made, Except.mapError]

theorem definition_lined (description : Description) :
    description.lined.definition = description.definition := by
  have same : description.lined.rules.map SourceRule.toRule =
      description.rules.map SourceRule.toRule := by
    apply Array.ext
    · simp [lined]
    · intro index _ _
      simp [lined]
  rw [definition, definition, same]
  rfl

/-- The description with the start symbol of its grammar declared. -/
def declare (description : Description) (grammar : Grammar) : Description :=
  { description with start := some (grammar.nonterminalName grammar.start) }

theorem ofDescription_declare (made : Grammar.ofDescription description = .ok grammar) :
    Grammar.ofDescription (description.declare grammar).lined = .ok grammar := by
  obtain ⟨admissible, built⟩ := ofDescription_eq_ok_iff.1 made
  obtain ⟨⟨rule, isRule, isLeft⟩, declared⟩ := Definition.build_declare built
  rw [ofDescription_eq_ok_iff, definition_lined]
  refine ⟨⟨?_, admissible.names, admissible.few⟩, declared⟩
  rintro _ ⟨⟩
  rw [← isLeft]
  exact admissible.names rule isRule rule.left List.mem_cons_self

theorem printed_declare (made : Grammar.ofDescription description = .ok grammar) :
    (description.declare grammar).printed = grammar.printed := by
  obtain ⟨-, built⟩ := ofDescription_eq_ok_iff.1 made
  have same : description.rules.toList.map (fun rule => rule.text) =
      grammar.productionIds.map fun id => grammar.renderProduction (grammar.production id) := by
    calc
      _ = description.definition.rules.toList.map Rule.text := by
        rw [definition, Array.toList_map, List.map_map]
        rfl
      _ = (grammar.productionIds.map grammar.ruleOf).map Rule.text := by
        rw [Definition.map_ruleOf_productionIds built]
      _ = _ := by
        rw [List.map_map]
        rfl
  rw [printed, declare, same]
  rfl

/-- The start symbol of a grammar can be printed when the rules can. -/
theorem Printable.declare (printable : description.Printable)
    (made : Grammar.ofDescription description = .ok grammar) :
    (description.declare grammar).Printable := by
  obtain ⟨-, built⟩ := ofDescription_eq_ok_iff.1 made
  obtain ⟨⟨rule, isRule, isLeft⟩, -⟩ := Definition.build_declare built
  refine ⟨?_, printable.names, printable.rights⟩
  rintro _ ⟨⟩
  rw [definition, Array.toList_map, List.mem_map] at isRule
  obtain ⟨first, isFirst, rfl⟩ := isRule
  rw [← isLeft]
  exact printable.names first isFirst _ List.mem_cons_self

/-- **Printed descriptions and printed grammars are read back.** -/
theorem printed_roundTrip :
    (∀ description : Description, description.Printable → ∀ ending, ending = "" ∨ ending = "\n" →
      parse ("\n".intercalate description.printed ++ ending) = .ok description.lined) ∧
    ∀ source grammar, Grammar.ofSource source = .ok grammar →
      ∀ ending, ending = "" ∨ ending = "\n" →
        Grammar.ofSource ("\n".intercalate grammar.printed ++ ending) = .ok grammar := by
  refine ⟨fun description printable ending isEnding => parse_printed printable isEnding, ?_⟩
  intro source grammar loaded ending isEnding
  obtain ⟨description, read, made⟩ := ofSource_eq_ok_iff.1 loaded
  have reread := parse_printed ((printable_of_parse read).declare made) isEnding
  rw [printed_declare made] at reread
  exact ofSource_eq_ok_iff.2 ⟨_, reread, ofDescription_declare made⟩

/-- Rules with names that hold an arrow, two slashes and the start keyword. -/
def unusual : Description where
  rules := #[⟨⟨"a->b", ["x//y", "a->b"]⟩, 0⟩, ⟨⟨"a->b", ["@starts"]⟩, 0⟩]

/-- The grammar of the rules with unusual names. -/
def unusualGrammar : Grammar where
  terminals := #["$", "x//y", "@starts"]
  nonterminals := #["a->b'", "a->b"]
  start := ⟨1⟩
  productions := #[⟨⟨1⟩, [.terminal ⟨1⟩, .nonterminal ⟨1⟩]⟩, ⟨⟨1⟩, [.terminal ⟨2⟩]⟩]
  firsts := #[0, 1]
  alternatives := #[#[], #[0, 1]]

theorem printed_roundTrip_unusual :
    unusual.printed = ["a->b -> x//y a->b", "a->b -> @starts"] ∧ unusual.Printable ∧
      parse ("\n".intercalate unusual.printed ++ "\n") = .ok unusual.lined ∧
      unusualGrammar.printed = "@start a->b" :: unusual.printed ∧
      Grammar.ofSource ("\n".intercalate unusual.printed ++ "\n") = .ok unusualGrammar ∧
      Grammar.ofSource ("\n".intercalate unusualGrammar.printed ++ "") = .ok unusualGrammar := by
  obtain ⟨descriptions, grammars⟩ := printed_roundTrip
  have printable : unusual.Printable :=
    ⟨by decide +kernel, by decide +kernel, by decide +kernel⟩
  have read := descriptions unusual printable "\n" (.inr rfl)
  have loaded : Grammar.ofSource ("\n".intercalate unusual.printed ++ "\n") =
      .ok unusualGrammar :=
    ofSource_eq_ok_iff.2 ⟨unusual.lined, read, by decide +kernel⟩
  exact ⟨by decide +kernel, printable, read, by decide +kernel, loaded,
    grammars _ _ loaded "" (.inl rfl)⟩

end Description

end ShiftReduce
