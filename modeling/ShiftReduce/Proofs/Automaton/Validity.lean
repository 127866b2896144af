import Mathlib.Data.List.Induction
import ShiftReduce.Proofs.Automaton.Collection

/-!
# Valid items and the strings that an automaton follows

An item moves to another one either by reading the symbol behind its dot, or, without reading
anything, by expecting a production of the nonterminal behind its dot. An item is valid for a
string of symbols when moves that read the string lead to it from the start item.

The automaton is the subset construction of these moves: it can follow a string exactly when some
item is valid for it, and then it ends in the state that holds the valid items
(`follow?_generate_valid`).

A valid item splits its string: the symbols before its dot are a suffix of the string, and in front
of them the production is valid with its dot in front (`Valid.split`).
-/

set_option autoImplicit false

namespace ShiftReduce

variable {grammar : Grammar}

/-! ## Moves of items -/

namespace Item

/-- One move of an item, with the symbols that it reads. -/
inductive Move (grammar : Grammar) : Item → List Symbol → Item → Prop where
  /-- The dot advances over the next symbol, which is read. -/
  | advance {item : Item} {symbol : Symbol} (next : item.nextSymbol? grammar = some symbol) :
      Move grammar item [symbol] { item with dot := item.dot + 1 }
  /-- A production of the nonterminal behind the dot is expected, and nothing is read. -/
  | expect {item : Item} {nonterminal : Nonterminal} {id : ProductionId}
      (next : item.nextSymbol? grammar = some (.nonterminal nonterminal))
      (isProduction : id ∈ grammar.productionsOf nonterminal) :
      Move grammar item [] (initial id item.lookahead)

/-- A sequence of moves, with the symbols that they read together. -/
inductive Moves (grammar : Grammar) : Item → List Symbol → Item → Prop where
  | refl (item : Item) : Moves grammar item [] item
  | tail {first middle last : Item} {read more : List Symbol} :
      Moves grammar first read middle → Move grammar middle more last →
        Moves grammar first (read ++ more) last

/-- An item is valid for a string when moves that read the string lead to it from the start item. -/
def Valid (grammar : Grammar) (symbols : List Symbol) (item : Item) : Prop :=
  Moves grammar start symbols item

/-- A move that reads nothing is a step of expectation. -/
theorem move_nil_iff (item found : Item) :
    Move grammar item [] found ↔ item.Expects grammar found := by
  rw [expects_iff]
  constructor
  · intro move
    cases move with
    | expect next isProduction => exact ⟨_, next, _, isProduction, rfl⟩
  · rintro ⟨nonterminal, next, id, isProduction, rfl⟩
    exact .expect next isProduction

theorem Valid.expects {symbols : List Symbol} {item found : Item}
    (valid : Valid grammar symbols item) (expects : item.Expects grammar found) :
    Valid grammar symbols found := by
  have moves := valid.tail ((move_nil_iff item found).2 expects)
  rwa [List.append_nil] at moves

theorem Valid.expectsStar {symbols : List Symbol} {item found : Item}
    (valid : Valid grammar symbols item)
    (steps : Relation.ReflTransGen (Expects grammar) item found) :
    Valid grammar symbols found := by
  induction steps with
  | refl => exact valid
  | tail _ expects ih => exact ih.expects expects

theorem Valid.advance {symbols : List Symbol} {item : Item} {symbol : Symbol}
    (valid : Valid grammar symbols item) (next : item.nextSymbol? grammar = some symbol) :
    Valid grammar (symbols ++ [symbol]) { item with dot := item.dot + 1 } :=
  valid.tail (.advance next)

/-- Valid for the empty string is what the start item expects. -/
theorem valid_nil_iff (item : Item) :
    Valid grammar [] item ↔ Relation.ReflTransGen (Expects grammar) start item := by
  constructor
  · intro valid
    unfold Valid at valid
    generalize empty : ([] : List Symbol) = symbols at valid
    induction valid with
    | refl => exact .refl
    | tail _ move ih =>
        obtain ⟨rfl, rfl⟩ := List.append_eq_nil_iff.1 empty.symm
        exact (ih rfl).tail ((move_nil_iff _ _).1 move)
  · exact Valid.expectsStar (.refl start)

/-- Valid for a longer string is what the items that are valid for the shorter one expect after
they have advanced over the last symbol. -/
theorem valid_concat_iff (symbols : List Symbol) (symbol : Symbol) (item : Item) :
    Valid grammar (symbols ++ [symbol]) item ↔
      ∃ source, Valid grammar symbols source ∧ source.nextSymbol? grammar = some symbol ∧
        Relation.ReflTransGen (Expects grammar) { source with dot := source.dot + 1 } item := by
  constructor
  · intro valid
    unfold Valid at valid
    generalize whole : symbols ++ [symbol] = string at valid
    induction valid with
    | refl => exact absurd whole (List.concat_ne_nil symbol symbols)
    | @tail _ _ _ _ moves move ih =>
        cases move with
        | advance next =>
            obtain ⟨rfl, same⟩ := List.append_inj' whole rfl
            cases same
            exact ⟨_, moves, next, .refl⟩
        | expect next isProduction =>
            rw [List.append_nil] at whole
            obtain ⟨source, valid, next', steps⟩ := ih whole
            have expects := (move_nil_iff _ _).1 (.expect next isProduction)
            exact ⟨source, valid, next', steps.tail expects⟩
  · rintro ⟨source, valid, next, steps⟩
    exact (valid.advance next).expectsStar steps

/-- **The symbols before the dot of a valid item end its string, and its production is valid in
front of them with the dot in front.** -/
theorem Valid.split {symbols : List Symbol} {item : Item} (valid : Valid grammar symbols item) :
    ∃ before, symbols = before ++ (item.right grammar).take item.dot ∧
      Valid grammar before (initial item.production item.lookahead) := by
  unfold Valid at valid
  induction valid with
  | refl => exact ⟨[], rfl, .refl start⟩
  | @tail middle last read more moves move ih =>
      cases move with
      | advance next =>
          obtain ⟨before, rfl, valid⟩ := ih
          refine ⟨before, ?_, valid⟩
          have one_more : (middle.right grammar).take (middle.dot + 1) =
              (middle.right grammar).take middle.dot ++
                (middle.right grammar)[middle.dot]?.toList :=
            List.take_add_one
          rw [show (middle.right grammar)[middle.dot]? = _ from next] at one_more
          rw [List.append_assoc]
          exact congrArg (before ++ ·) one_more.symm
      | expect next isProduction =>
          exact ⟨read, rfl, Valid.expects moves ((move_nil_iff _ _).1 (.expect next isProduction))⟩

/-- Reading on over the rest of a production. -/
theorem Valid.advance_over {symbols : List Symbol} {item : Item}
    (valid : Valid grammar symbols item) :
    Valid grammar (symbols ++ (item.right grammar).drop item.dot)
      { item with dot := max item.dot (item.right grammar).length } := by
  generalize rest : (item.right grammar).drop item.dot = unread
  induction unread generalizing symbols item with
  | nil =>
      have past : (item.right grammar).length ≤ item.dot := List.drop_eq_nil_iff.1 rest
      rwa [List.append_nil, Nat.max_eq_left past]
  | cons symbol unread ih =>
      have next : item.nextSymbol? grammar = some symbol := by
        rw [nextSymbol?, ← List.head?_drop, rest, List.head?_cons]
      have inside := (List.getElem?_eq_some_iff.1 next).1
      have result := ih (valid.advance next) (by
        rw [right, ← List.tail_drop]
        exact congrArg List.tail rest)
      rw [List.append_assoc, List.singleton_append] at result
      have same : max (item.dot + 1) (item.right grammar).length =
          max item.dot (item.right grammar).length := by
        omega
      rwa [← same]

/-- An item that is valid is accepting or has a production of some nonterminal, and its lookahead is
the end of the input. -/
theorem Valid.origin {symbols : List Symbol} {item : Item} (valid : Valid grammar symbols item) :
    item.lookahead = .endOfInput ∧
      (item.production = .accept ∨
        ∃ nonterminal, item.production ∈ grammar.productionsOf nonterminal) := by
  unfold Valid at valid
  induction valid with
  | refl => exact ⟨rfl, .inl rfl⟩
  | tail _ move ih =>
      cases move with
      | advance => exact ih
      | expect _ isProduction => exact ⟨ih.1, .inr ⟨_, isProduction⟩⟩

/-- An item with its dot in front is the start item, or another valid item expects it. -/
theorem Valid.initial_cases {symbols : List Symbol} {id : ProductionId} {lookahead : Terminal}
    (valid : Valid grammar symbols (initial id lookahead)) :
    (symbols = [] ∧ id = .accept) ∨
      ∃ parent nonterminal, Valid grammar symbols parent ∧
        parent.nextSymbol? grammar = some (.nonterminal nonterminal) ∧
        id ∈ grammar.productionsOf nonterminal := by
  unfold Valid at valid
  generalize isInitial : initial id lookahead = item at valid
  cases valid with
  | refl =>
      cases isInitial
      exact .inl ⟨rfl, rfl⟩
  | tail moves move =>
      cases move with
      | advance => cases isInitial
      | expect next isProduction =>
          cases isInitial
          rw [List.append_nil]
          exact .inr ⟨_, _, moves, next, isProduction⟩

end Item

/-! ## Following a string -/

namespace Automaton

/-- The state that a string of symbols leads to from another one. -/
def follow? (automaton : Automaton) (source : StateId) (symbols : List Symbol) : Option StateId :=
  symbols.foldlM automaton.target? source

theorem follow?_append (automaton : Automaton) (source : StateId) (symbols suffix : List Symbol)
    (target : StateId) :
    automaton.follow? source (symbols ++ suffix) = some target ↔
      ∃ middle, automaton.follow? source symbols = some middle ∧
        automaton.follow? middle suffix = some target := by
  simp [follow?, List.foldlM_append, Option.bind_eq_some_iff]

theorem follow?_concat (automaton : Automaton) (source : StateId) (symbols : List Symbol)
    (symbol : Symbol) (target : StateId) :
    automaton.follow? source (symbols ++ [symbol]) = some target ↔
      ∃ middle, automaton.follow? source symbols = some middle ∧
        automaton.target? middle symbol = some target := by
  simp [follow?, List.foldlM_append, Option.bind_eq_some_iff]

/-- An edge leaves a state exactly over the symbols that its items have next. -/
theorem exists_target?_generate_iff {source : StateId} {state : State}
    (isSource : (generate grammar).states[source]? = some state) (label : Symbol) :
    (∃ target, (generate grammar).target? source label = some target) ↔
      ∃ item ∈ state.items, item.nextSymbol? grammar = some label := by
  have isLabel := @ItemSet.mem_labels_iff grammar state.items label
  rw [← labels_generate isSource, List.mem_map] at isLabel
  refine Iff.trans ?_ isLabel
  constructor
  · rintro ⟨target, leads⟩
    obtain ⟨found, isFound, member⟩ := (target?_generate_iff source label target).1 leads
    rw [isSource] at isFound
    cases isFound
    exact ⟨_, member, rfl⟩
  · rintro ⟨⟨_, target⟩, member, rfl⟩
    exact ⟨target, (target?_generate_iff source _ target).2 ⟨state, isSource, member⟩⟩

/-- The state that a string leads to holds the items that are valid for it. -/
theorem valid_of_follow? (symbols : List Symbol) {state : StateId}
    (leads : (generate grammar).follow? 0 symbols = some state) :
    ∃ found, (generate grammar).states[state]? = some found ∧
      ∀ item, item ∈ found.items ↔ Item.Valid grammar symbols item := by
  induction symbols using List.reverseRecOn generalizing state with
  | nil =>
      cases leads
      obtain ⟨found, isFirst, items⟩ := first_generate grammar
      refine ⟨found, isFirst, fun item => ?_⟩
      rw [items, ItemSet.mem_iff, mem_closure_iff, Item.valid_nil_iff]
      simp
  | append_singleton symbols symbol ih =>
      obtain ⟨middle, toMiddle, last⟩ := (follow?_concat _ _ _ _ _).1 leads
      obtain ⟨source, isSource, sourceItems⟩ := ih toMiddle
      obtain ⟨found, isFound, member⟩ := (target?_generate_iff middle symbol state).1 last
      rw [isSource] at isFound
      cases isFound
      obtain ⟨next, isNext, nextItems⟩ := target_generate isSource member
      refine ⟨next, isNext, fun item => ?_⟩
      rw [nextItems, ItemSet.mem_iff, ItemSet.successor, mem_closure_iff, Item.valid_concat_iff]
      constructor
      · rintro ⟨origin, isKernel, steps⟩
        obtain ⟨before, isBefore, expected, rfl⟩ :=
          (source.items.mem_kernel_iff symbol origin).1 isKernel
        exact ⟨before, (sourceItems before).1 isBefore, expected, steps⟩
      · rintro ⟨before, valid, expected, steps⟩
        exact ⟨_, (source.items.mem_kernel_iff symbol _).2
          ⟨before, (sourceItems before).2 valid, expected, rfl⟩, steps⟩

/-- A string that some item is valid for can be followed. -/
theorem exists_follow?_of_valid {symbols : List Symbol} {item : Item}
    (valid : Item.Valid grammar symbols item) :
    ∃ state, (generate grammar).follow? 0 symbols = some state := by
  induction symbols using List.reverseRecOn generalizing item with
  | nil => exact ⟨0, rfl⟩
  | append_singleton symbols symbol ih =>
      obtain ⟨source, validSource, next, -⟩ := (Item.valid_concat_iff _ _ _).1 valid
      obtain ⟨middle, toMiddle⟩ := ih validSource
      obtain ⟨found, isFound, items⟩ := valid_of_follow? symbols toMiddle
      obtain ⟨target, last⟩ := (exists_target?_generate_iff isFound symbol).2
        ⟨source, (items source).2 validSource, next⟩
      exact ⟨target, (follow?_concat _ _ _ _ _).2 ⟨middle, toMiddle, last⟩⟩

/-- Some item is valid for a string that can be followed. -/
theorem exists_valid_of_follow? {symbols : List Symbol} {state : StateId}
    (leads : (generate grammar).follow? 0 symbols = some state) :
    ∃ item, Item.Valid grammar symbols item := by
  cases symbols using List.reverseRecOn with
  | nil => exact ⟨.start, .refl .start⟩
  | append_singleton symbols symbol =>
      obtain ⟨middle, toMiddle, last⟩ := (follow?_concat _ _ _ _ _).1 leads
      obtain ⟨found, isFound, items⟩ := valid_of_follow? symbols toMiddle
      obtain ⟨item, member, next⟩ :=
        (exists_target?_generate_iff isFound symbol).1 ⟨state, last⟩
      exact ⟨_, ((items item).1 member).advance next⟩

/-- **The automaton follows a string exactly when some item is valid for it, and the state that it
ends in holds exactly the valid items.** -/
theorem follow?_generate_valid (grammar : Grammar) (symbols : List Symbol) :
    ((∃ state, (generate grammar).follow? 0 symbols = some state) ↔
      ∃ item, Item.Valid grammar symbols item) ∧
    ∀ state, (generate grammar).follow? 0 symbols = some state →
      ∃ found, (generate grammar).states[state]? = some found ∧
        ∀ item, item ∈ found.items ↔ Item.Valid grammar symbols item := by
  constructor
  · constructor
    · rintro ⟨state, leads⟩
      exact exists_valid_of_follow? leads
    · rintro ⟨item, valid⟩
      exact exists_follow?_of_valid valid
  · intro state leads
    exact valid_of_follow? symbols leads

end Automaton

end ShiftReduce
