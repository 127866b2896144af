import ShiftReduce.Proofs.Grammar.First
import ShiftReduce.Proofs.Item.Rounds

/-!
# Copied lookaheads beside Knuth's

Where closing copies the lookahead of an item to everything that it expects, Knuth's closure looks
at what stands behind the expected nonterminal: a lookahead is a terminal that can begin what is
derived from there, with the lookahead of the item at the end (`Item.Continues`).

On the way from a nonterminal to those that it begins with, what is left of the productions piles up
(`Grammar.Opens`). Knuth's lookaheads are the terminals that can begin the whole pile
(`knuthClosure_iff`). So neither closure is part of the other one. They agree where a lookahead can
begin what stands behind, as it does behind a nonterminal at the end of its production. Elsewhere a
copied lookahead may be none of Knuth's, already for a nonterminal with another terminal behind it.
-/

set_option autoImplicit false

namespace ShiftReduce

variable {grammar : Grammar} {seed : List Item}

/-! ## Knuth's closure -/

namespace Item

/-- What stands behind the next symbol of an item. -/
def behind (grammar : Grammar) (item : Item) : List Symbol :=
  (item.right grammar).drop (item.dot + 1)

/-- A terminal can follow the next symbol of an item. -/
def Continues (grammar : Grammar) (item : Item) (terminal : Terminal) : Prop :=
  grammar.CanBegin (item.behind grammar ++ [.terminal item.lookahead]) terminal

/-- The items that Knuth's closure of a seed adds to it, and the seed. -/
inductive KnuthClosure (grammar : Grammar) (seed : List Item) : Item → Prop where
  | seed {item : Item} : item ∈ seed → KnuthClosure grammar seed item
  /-- An item asks for the productions of the nonterminal behind its dot, with every terminal that
  can follow this nonterminal. -/
  | expand {item : Item} {id : ProductionId} {terminal : Terminal} :
      KnuthClosure grammar seed item →
        item.nextSymbol? grammar = some (.nonterminal (grammar.production id).left) →
          id ∈ grammar.canonicalIds → item.Continues grammar terminal →
            KnuthClosure grammar seed (initial id terminal)

/-- With the dot in front, the production is the next symbol and what stands behind it. -/
theorem right_eq_cons {item : Item} {symbol : Symbol} (front : item.dot = 0)
    (next : item.nextSymbol? grammar = some symbol) :
    item.right grammar = symbol :: item.behind grammar := by
  rw [nextSymbol?, front, ← List.head?_eq_getElem?] at next
  obtain ⟨rest, isCons⟩ := List.head?_eq_some_iff.1 next
  rw [behind, front, isCons, List.drop_one, List.tail_cons]

end Item

/-! ## What piles up -/

/-- A nonterminal begins with another one, and what stands behind the other one is left. -/
inductive Grammar.Opens (grammar : Grammar) (nonterminal : Nonterminal) :
    Nonterminal → List Symbol → Prop where
  | refl : Opens grammar nonterminal nonterminal []
  | tail {id : ProductionId} {other : Nonterminal} {rest trail : List Symbol} :
      Opens grammar nonterminal (grammar.production id).left trail → id ∈ grammar.canonicalIds →
        (grammar.production id).right = .nonterminal other :: rest →
          Opens grammar nonterminal other (rest ++ trail)

namespace Item

/-- An item of the seed leads to a nonterminal, and a terminal can begin what has piled up. -/
def LeadsTo (grammar : Grammar) (origin : Item) (other : Nonterminal) (terminal : Terminal) :
    Prop :=
  ∃ nonterminal trail, origin.nextSymbol? grammar = some (.nonterminal nonterminal) ∧
    grammar.Opens nonterminal other trail ∧
    grammar.CanBegin (trail ++ (origin.behind grammar ++ [.terminal origin.lookahead])) terminal

/-- Knuth's closure has the productions of a nonterminal with what can begin the pile. -/
theorem LeadsTo.knuthClosure {origin : Item} (isSeed : origin ∈ seed) {id : ProductionId}
    {terminal : Terminal} (canonical : id ∈ grammar.canonicalIds)
    (leads : origin.LeadsTo grammar (grammar.production id).left terminal) :
    KnuthClosure grammar seed (initial id terminal) := by
  obtain ⟨nonterminal, trail, next, opens, begins⟩ := leads
  generalize isOther : (grammar.production id).left = other at opens
  induction opens generalizing id terminal with
  | refl => exact .expand (.seed isSeed) (isOther ▸ next) canonical begins
  | @tail parent other rest trail _ parentCanonical isRight ih =>
      -- What the pile below lets through is the lookahead of the item in between.
      rw [List.append_assoc, ← List.append_assoc trail, Grammar.canBegin_append_iff] at begins
      obtain ⟨between, beginsBelow, beginsRest⟩ := begins
      rw [List.append_assoc] at beginsBelow
      have below := ih parentCanonical beginsBelow rfl
      refine .expand below ?_ canonical ?_
      · simp [nextSymbol?, right, initial, isRight, isOther]
      · simpa [Continues, behind, right, initial, isRight] using beginsRest

/-- **Knuth's closure in terms of the nonterminals that the seed begins with.** -/
theorem knuthClosure_iff (item : Item) :
    KnuthClosure grammar seed item ↔
      item ∈ seed ∨ item.dot = 0 ∧ item.production ∈ grammar.canonicalIds ∧
        ∃ origin ∈ seed,
          origin.LeadsTo grammar (grammar.production item.production).left item.lookahead := by
  constructor
  · intro inside
    induction inside with
    | seed isSeed => exact .inl isSeed
    | @expand item id terminal _ next canonical continues ih =>
        refine .inr ⟨rfl, canonical, ?_⟩
        rcases ih with isSeed | ⟨front, itemCanonical, origin, isSeed, leads⟩
        · exact ⟨item, isSeed, _, [], next, .refl, continues⟩
        · obtain ⟨nonterminal, trail, originNext, opens, begins⟩ := leads
          refine ⟨origin, isSeed, nonterminal, _, originNext,
            opens.tail itemCanonical (right_eq_cons front next), ?_⟩
          rw [List.append_assoc, ← List.append_assoc trail, Grammar.canBegin_append_iff]
          exact ⟨item.lookahead, by rwa [List.append_assoc], continues⟩
  · rintro (isSeed | ⟨front, canonical, origin, isSeed, leads⟩)
    · exact .seed isSeed
    · have isInitial : item = initial item.production item.lookahead := by
        rw [initial, ← front]
      rw [isInitial]
      exact leads.knuthClosure isSeed canonical

/-- Knuth's closure has what an item expects, with every terminal that can follow. The item may be
there with another lookahead. -/
theorem KnuthClosure.expects (wellFormed : grammar.WellFormed) {item found : Item}
    (expects : item.Expects grammar found) {lookahead terminal : Terminal}
    (inside : KnuthClosure grammar seed { item with lookahead := lookahead })
    (begins : grammar.CanBegin (item.behind grammar ++ [.terminal lookahead]) terminal) :
    KnuthClosure grammar seed { found with lookahead := terminal } := by
  obtain ⟨nonterminal, next, id, alternative, rfl⟩ := (expects_iff item found).1 expects
  obtain ⟨canonical, rfl⟩ := (wellFormed.productionsOf nonterminal id).1 alternative
  exact inside.expand next canonical begins

/-- An item expects another one, and its own lookahead can follow. -/
def Passes (grammar : Grammar) (item found : Item) : Prop :=
  item.Expects grammar found ∧ item.Continues grammar item.lookahead

/-- An item expects another one, and terminals are derived from what stands behind. -/
def ExpectsBeforeProductive (grammar : Grammar) (item found : Item) : Prop :=
  item.Expects grammar found ∧ grammar.Productive (item.behind grammar)

/-- A lookahead passes a nonterminal if nothing needs to stand behind it. -/
theorem passes_of_derives_nil {item found : Item} (expects : item.Expects grammar found)
    (vanishes : grammar.Derives (item.behind grammar) []) : item.Passes grammar found :=
  ⟨expects, Grammar.canBegin_of_derives_nil vanishes item.lookahead⟩

theorem knuthClosure_of_passes (wellFormed : grammar.WellFormed) {origin item : Item}
    (isSeed : origin ∈ seed) (steps : Relation.ReflTransGen (Passes grammar) origin item) :
    KnuthClosure grammar seed item := by
  induction steps with
  | refl => exact .seed isSeed
  | @tail middle last _ passes ih =>
      obtain ⟨expects, continues⟩ := passes
      have inside := KnuthClosure.expects wellFormed expects ih continues
      have copied : middle.lookahead = last.lookahead := by
        obtain ⟨_, _, _, _, rfl⟩ := (expects_iff middle last).1 expects
        rfl
      rwa [copied] at inside

/-- The productions and dots of Knuth's closure include those that are reached where nothing blocks
what stands behind. -/
theorem exists_knuthClosure_of_productive (wellFormed : grammar.WellFormed) {origin item : Item}
    (isSeed : origin ∈ seed)
    (steps : Relation.ReflTransGen (ExpectsBeforeProductive grammar) origin item) :
    ∃ lookahead, KnuthClosure grammar seed { item with lookahead := lookahead } := by
  induction steps with
  | refl => exact ⟨origin.lookahead, .seed isSeed⟩
  | @tail middle last _ expectsBefore ih =>
      obtain ⟨expects, productive⟩ := expectsBefore
      obtain ⟨lookahead, inside⟩ := ih
      obtain ⟨terminal, begins⟩ := productive.exists_canBegin lookahead
      exact ⟨terminal, .expects wellFormed expects inside begins⟩

end Item

/-! ## Both closures -/

/-- How the closure of a seed compares with Knuth's. -/
structure ComparesWithKnuth (grammar : Grammar) (seed : List Item) : Prop where
  /-- An item belongs to Knuth's closure too just if it is in the seed or its lookahead can begin
  what has piled up on some way to its nonterminal. -/
  knuthClosure_iff : ∀ item ∈ closure grammar seed, Item.KnuthClosure grammar seed item ↔
    item ∈ seed ∨ ∃ origin ∈ seed,
      origin.LeadsTo grammar (grammar.production item.production).left item.lookahead
  /-- What is reached through items whose lookahead can follow belongs to both. -/
  passes : ∀ origin ∈ seed, ∀ item, Relation.ReflTransGen (Item.Passes grammar) origin item →
    item ∈ closure grammar seed ∧ Item.KnuthClosure grammar seed item
  /-- What is reached in front of symbols that derive terminals belongs to both, in Knuth's closure
  with some lookahead. -/
  productive : ∀ origin ∈ seed, ∀ item,
    Relation.ReflTransGen (Item.ExpectsBeforeProductive grammar) origin item →
      item ∈ closure grammar seed ∧
        ∃ lookahead, Item.KnuthClosure grammar seed { item with lookahead := lookahead }

/-- **The closure of a seed has those of Knuth's items whose lookaheads can begin what piles
up.** -/
theorem comparesWithKnuth_closure {definition : Definition}
    (defined : definition.build = .ok grammar) (seed : List Item) :
    ComparesWithKnuth grammar seed := by
  have wellFormed := Definition.wellFormed_of_build defined
  constructor
  case knuthClosure_iff =>
    intro item inClosure
    rw [Item.knuthClosure_iff]
    constructor
    · rintro (isSeed | ⟨-, -, leads⟩)
      · exact .inl isSeed
      · exact .inr leads
    · rintro (isSeed | leads)
      · exact .inl isSeed
      · rcases ((isClosure_closure defined seed).mem_iff item).1 inClosure with isSeed | added
        · exact .inl isSeed
        · exact .inr ⟨added.1, added.2.1, leads⟩
  case passes =>
    intro origin isSeed item steps
    have reached := Relation.ReflTransGen.mono (fun _ _ passes => passes.1) _ _ steps
    exact ⟨(mem_closure_iff seed item).2 ⟨origin, isSeed, reached⟩,
      Item.knuthClosure_of_passes wellFormed isSeed steps⟩
  case productive =>
    intro origin isSeed item steps
    have reached := Relation.ReflTransGen.mono (fun _ _ expectsBefore => expectsBefore.1) _ _ steps
    exact ⟨(mem_closure_iff seed item).2 ⟨origin, isSeed, reached⟩,
      Item.exists_knuthClosure_of_productive wellFormed isSeed steps⟩

/-- A nonterminal with another one behind it from which nothing needs to be left. -/
def vanishingRules : List Request :=
  [.addRule ⟨"S", ["A", "B"]⟩, .addRule ⟨"A", ["a"]⟩, .addRule ⟨"B", []⟩]

/-- The grammar of the vanishing rules. -/
def vanishing : Grammar where
  terminals := #["$", "a"]
  nonterminals := #["S'", "S", "A", "B"]
  start := ⟨1⟩
  productions :=
    #[⟨⟨1⟩, [.nonterminal ⟨2⟩, .nonterminal ⟨3⟩]⟩, ⟨⟨2⟩, [.terminal ⟨1⟩]⟩, ⟨⟨3⟩, []⟩]
  firsts := #[0, 1, 2]
  alternatives := #[#[], #[0], #[1], #[2]]

/-- The lookahead passes the nonterminal that may vanish. -/
theorem comparesWithKnuth_vanishing :
    (Definition.ofRequests vanishingRules).build = .ok vanishing ∧
      ComparesWithKnuth vanishing [.start] ∧
      Item.KnuthClosure vanishing [.start] (.initial (.stored 1) .endOfInput) := by
  have defined : (Definition.ofRequests vanishingRules).build = .ok vanishing := by
    decide +kernel
  have compares := comparesWithKnuth_closure defined [.start]
  have first : Item.start.Passes vanishing (.initial (.stored 0) .endOfInput) :=
    Item.passes_of_derives_nil (by unfold Item.Expects; decide +kernel) (.refl [])
  have vanishes : vanishing.Derives [.nonterminal ⟨3⟩] [] :=
    ⟨[.stored 2], @Grammar.Derivation.step vanishing .anywhere [] [] [] (.stored 2) []
      (by decide +kernel) trivial (.done [])⟩
  have second : (Item.initial (.stored 0) .endOfInput).Passes vanishing
      (.initial (.stored 1) .endOfInput) :=
    Item.passes_of_derives_nil (by unfold Item.Expects; decide +kernel) vanishes
  have both := compares.passes .start List.mem_cons_self _ (.tail (.single first) second)
  exact ⟨defined, compares, both.2⟩

/-- A nonterminal with a terminal behind it. -/
def followedRules : List Request :=
  [.addRule ⟨"S", ["A", "b"]⟩, .addRule ⟨"A", ["a"]⟩]

/-- The grammar of the rules with a terminal behind a nonterminal. -/
def followed : Grammar where
  terminals := #["$", "b", "a"]
  nonterminals := #["S'", "S", "A"]
  start := ⟨1⟩
  productions := #[⟨⟨1⟩, [.nonterminal ⟨2⟩, .terminal ⟨1⟩]⟩, ⟨⟨2⟩, [.terminal ⟨2⟩]⟩]
  firsts := #[0, 1]
  alternatives := #[#[], #[0], #[1]]

/-- Knuth's closure has one lookahead for each production here, and for the last one it is the
terminal behind the nonterminal. -/
theorem knuthClosure_followed {item : Item} (inside : Item.KnuthClosure followed [.start] item) :
    item ∈ [.start, .initial (.stored 0) .endOfInput, .initial (.stored 1) ⟨1⟩] := by
  induction inside with
  | seed isSeed => exact List.mem_cons.2 (.inl (List.mem_singleton.1 isSeed))
  | @expand item id terminal _ next canonical continues ih =>
      have ids : followed.canonicalIds = [.stored 0, .stored 1] := by decide +kernel
      simp only [ids, List.mem_cons, List.not_mem_nil, or_false] at canonical ih
      rcases ih with rfl | rfl | rfl
      case inl =>
        obtain rfl : terminal = .endOfInput := Grammar.CanBegin.eq_of_terminal continues
        rcases canonical with rfl | rfl
        · simp
        · exact absurd next (by decide)
      case inr.inl =>
        obtain rfl : terminal = ⟨1⟩ := Grammar.CanBegin.eq_of_terminal continues
        rcases canonical with rfl | rfl
        · exact absurd next (by decide)
        · simp
      case inr.inr =>
        exact absurd next (by rcases canonical with rfl | rfl <;> decide)

/-- The closure has the last production with the lookahead of the start item, and Knuth's closure
has not. -/
theorem exists_closure_not_knuthClosure :
    (Definition.ofRequests followedRules).build = .ok followed ∧
      (∀ item ∈ [Item.start], item.dot ≤ (item.right followed).length) ∧
      ¬∀ item ∈ closure followed [.start], Item.KnuthClosure followed [.start] item := by
  refine ⟨by decide +kernel, by decide +kernel, fun included => ?_⟩
  have copied : Item.initial (.stored 1) .endOfInput ∈ closure followed [.start] := by
    decide +kernel
  have impossible := knuthClosure_followed (included _ copied)
  revert impossible
  decide

end ShiftReduce
