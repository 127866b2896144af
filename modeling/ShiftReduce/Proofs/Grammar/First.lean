import Mathlib.Data.List.Basic
import ShiftReduce.Proofs.Grammar.Derivation

/-!
# Terminals that can begin what is derived

A string of symbols derives another one when some derivation leads there, wherever its steps
replace (`Grammar.Derives`). A terminal can begin a string when the string derives terminals with
this one in front (`Grammar.CanBegin`).

What is derived from two strings in a row is derived from each of them (`derives_append_iff`). So of
a string in front of another one, only the terminals that can begin the other one matter for those
that can begin both (`canBegin_append_iff`). The other one has to end with a terminal, so that
something is derived from it that is not empty.
-/

set_option autoImplicit false

namespace ShiftReduce

namespace Grammar

variable {grammar : Grammar} {form middle result left right : List Symbol}

/-! ## Strings that are derived -/

/-- Replacing nonterminals leads from one string to another one. -/
def Derives (grammar : Grammar) (form result : List Symbol) : Prop :=
  ∃ ids, grammar.Derivation .anywhere form ids result

theorem Derives.refl (form : List Symbol) : grammar.Derives form form :=
  ⟨[], .done form⟩

theorem Derives.trans (first : grammar.Derives form middle)
    (second : grammar.Derives middle result) :
    grammar.Derives form result := by
  obtain ⟨ids, derivation⟩ := first
  induction derivation with
  | done => exact second
  | step stored allowed _ ih =>
      obtain ⟨later, derivation⟩ := ih second
      exact ⟨_, .step stored allowed derivation⟩

/-- A derivation goes on inside a longer string. -/
theorem Derives.within (derives : grammar.Derives form result) (before after : List Symbol) :
    grammar.Derives (before ++ (form ++ after)) (before ++ (result ++ after)) := by
  obtain ⟨ids, derivation⟩ := derives
  induction derivation with
  | done => exact .refl _
  | @step front rest _ id _ stored allowed _ ih =>
      obtain ⟨later, derivation⟩ := ih
      refine ⟨id :: later, ?_⟩
      have inside := @Derivation.step grammar .anywhere (before ++ front) (rest ++ after) _ id later
        stored trivial (by simpa using derivation)
      simpa using inside

/-- **What two strings in a row derive is what each of them derives.** -/
theorem derives_append_iff : grammar.Derives (left ++ right) result ↔
    ∃ first second, result = first ++ second ∧ grammar.Derives left first ∧
      grammar.Derives right second := by
  constructor
  · rintro ⟨ids, derivation⟩
    generalize isForm : left ++ right = form at derivation
    induction derivation generalizing left right with
    | done form => exact ⟨left, right, isForm.symm, .refl left, .refl right⟩
    | @step before after _ id _ stored _ _ ih =>
        -- The replaced nonterminal stands in the first string or in the second one.
        rcases List.append_eq_append_iff.1 isForm with ⟨between, rfl, rfl⟩ | ⟨between, rfl, isRest⟩
        · obtain ⟨first, second, isResult, derivesFirst, ids, derivation⟩ :=
            @ih left (between ++ ((grammar.production id).right ++ after)) (by simp)
          refine ⟨first, second, isResult, derivesFirst, id :: ids, ?_⟩
          exact .step stored trivial (by simpa using derivation)
        · cases between with
          | nil =>
              rw [List.nil_append] at isRest
              obtain ⟨first, second, isResult, derivesFirst, ids, derivation⟩ :=
                @ih before ((grammar.production id).right ++ after) (by simp)
              rw [← isRest, List.append_nil]
              refine ⟨first, second, isResult, derivesFirst, id :: ids, ?_⟩
              exact @Derivation.step grammar .anywhere [] after _ id ids stored trivial
                (by simpa using derivation)
          | cons head between =>
              obtain ⟨rfl, rfl⟩ := List.cons.inj isRest
              obtain ⟨first, second, isResult, ⟨ids, derivation⟩, derivesSecond⟩ :=
                @ih (before ++ (grammar.production id).right ++ between) right (by simp)
              exact ⟨first, second, isResult, ⟨id :: ids, .step stored trivial derivation⟩,
                derivesSecond⟩
  · rintro ⟨first, second, rfl, derivesFirst, derivesSecond⟩
    have replaced : grammar.Derives (left ++ right) (first ++ right) :=
      derivesFirst.within [] right
    have last := derivesSecond.within first []
    rw [List.append_nil, List.append_nil] at last
    exact replaced.trans last

/-- Nothing but itself is derived from a terminal. -/
theorem Derives.eq_of_terminal {terminal : Terminal}
    (derives : grammar.Derives [.terminal terminal] result) : result = [.terminal terminal] := by
  obtain ⟨ids, derivation⟩ := derives
  generalize isForm : [Symbol.terminal terminal] = form at derivation
  cases derivation with
  | done => rfl
  | @step before after _ id =>
      have member : .nonterminal (grammar.production id).left ∈ [Symbol.terminal terminal] := by
        rw [isForm]
        simp
      simp at member

/-! ## Terminals in front -/

/-- A terminal can begin a string of terminals that is derived. -/
def CanBegin (grammar : Grammar) (form : List Symbol) (terminal : Terminal) : Prop :=
  ∃ rest : List Terminal, grammar.Derives form ((terminal :: rest).map .terminal)

/-- Some string of terminals is derived. -/
def Productive (grammar : Grammar) (form : List Symbol) : Prop :=
  ∃ word : List Terminal, grammar.Derives form (word.map .terminal)

variable {terminal last : Terminal}

/-- A terminal in front is the only one that can begin. -/
theorem CanBegin.eq_of_terminal (begins : grammar.CanBegin (.terminal last :: form) terminal) :
    terminal = last := by
  obtain ⟨rest, derives⟩ := begins
  rw [← List.singleton_append] at derives
  obtain ⟨first, second, isResult, derivesFirst, -⟩ := derives_append_iff.1 derives
  obtain rfl : first = [.terminal last] := derivesFirst.eq_of_terminal
  obtain ⟨same, -⟩ := List.cons.inj isResult
  exact Symbol.terminal.inj same

/-- A terminal behind a derived word can begin, or the first one of the word does. -/
theorem canBegin_append_terminal_iff : grammar.CanBegin (left ++ [.terminal last]) terminal ↔
    ∃ word : List Terminal, grammar.Derives left (word.map .terminal) ∧
      (word ++ [last]).head? = some terminal := by
  constructor
  · rintro ⟨rest, derives⟩
    obtain ⟨first, second, isResult, derivesLeft, derivesLast⟩ := derives_append_iff.1 derives
    obtain rfl : second = [.terminal last] := derivesLast.eq_of_terminal
    obtain ⟨word, ending, isWord, rfl, isEnding⟩ := List.map_eq_append_iff.1 isResult
    obtain ⟨terminal', rfl, isLast⟩ := List.map_eq_singleton_iff.1 isEnding
    cases isLast
    exact ⟨word, derivesLeft, by rw [← isWord]; rfl⟩
  · rintro ⟨word, derives, isHead⟩
    obtain ⟨rest, isCons⟩ := List.head?_eq_some_iff.1 isHead
    refine ⟨rest, ?_⟩
    rw [← isCons, List.map_append]
    exact derives_append_iff.2 ⟨_, _, rfl, derives, .refl _⟩

/-- **Of a string in front of another one, what can begin both is told by what can begin the other
one.** -/
theorem canBegin_append_iff : grammar.CanBegin (left ++ (right ++ [.terminal last])) terminal ↔
    ∃ other, grammar.CanBegin (right ++ [.terminal last]) other ∧
      grammar.CanBegin (left ++ [.terminal other]) terminal := by
  constructor
  · rintro ⟨rest, derives⟩
    obtain ⟨first, second, isResult, derivesLeft, derivesRight⟩ := derives_append_iff.1 derives
    obtain ⟨word, ending, isWord, rfl, rfl⟩ := List.map_eq_append_iff.1 isResult
    -- Something is derived from the string behind, since it ends with a terminal.
    obtain ⟨_, final, isEnding, -, derivesLast⟩ := derives_append_iff.1 derivesRight
    obtain rfl : final = [.terminal last] := derivesLast.eq_of_terminal
    cases ending with
    | nil => simp at isEnding
    | cons other ending =>
        refine ⟨other, ⟨ending, derivesRight⟩,
          canBegin_append_terminal_iff.2 ⟨word, derivesLeft, ?_⟩⟩
        have isHead : (word ++ other :: ending).head? = some terminal := by
          rw [← isWord]
          rfl
        rw [List.head?_append] at isHead ⊢
        exact isHead
  · rintro ⟨other, ⟨ending, derivesRight⟩, begins⟩
    obtain ⟨word, derivesLeft, isHead⟩ := canBegin_append_terminal_iff.1 begins
    obtain ⟨rest, isCons⟩ : ∃ rest, word ++ other :: ending = terminal :: rest := by
      rw [← List.head?_eq_some_iff, List.head?_append]
      rwa [List.head?_append] at isHead
    refine ⟨rest, ?_⟩
    rw [← isCons, List.map_append]
    exact derives_append_iff.2 ⟨_, _, rfl, derivesLeft, derivesRight⟩

/-- A terminal can begin behind a string from which nothing is left. -/
theorem canBegin_of_derives_nil (derives : grammar.Derives left []) (terminal : Terminal) :
    grammar.CanBegin (left ++ [.terminal terminal]) terminal :=
  canBegin_append_terminal_iff.2 ⟨[], derives, rfl⟩

/-- Some terminal can begin a string from which terminals are derived, with a terminal behind it. -/
theorem Productive.exists_canBegin (productive : grammar.Productive left) (last : Terminal) :
    ∃ terminal, grammar.CanBegin (left ++ [.terminal last]) terminal := by
  obtain ⟨word, derives⟩ := productive
  have nonempty : word ++ [last] ≠ [] := List.append_ne_nil_of_right_ne_nil word (by simp)
  obtain ⟨terminal, rest, isCons⟩ := List.exists_cons_of_ne_nil nonempty
  refine ⟨terminal, canBegin_append_terminal_iff.2 ⟨word, derives, ?_⟩⟩
  rw [isCons, List.head?_cons]

end Grammar

end ShiftReduce
