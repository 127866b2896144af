import ShiftReduce.Grammar.Definition

/-!
# Numbered names

While names are numbered, the map from names to symbols and the two tables of names stay inverse to
each other, and a name is mapped to a nonterminal exactly when it was classified as one (`Sound`).
Numbering one more name keeps this (`Sound.add`), so a whole numbering is sound and covers all the
names that it was made of (`sound_ofNames`).

Number 0 of each kind is taken before any name is numbered: no name has it.
-/

set_option autoImplicit false

namespace ShiftReduce.Numbering

/-! ## The names of symbols -/

/-- The name that was numbered with a symbol; the two reserved symbols have none. -/
def name? (numbering : Numbering) : Symbol → Option String
  | .terminal terminal =>
      if terminal.index = 0 then none else numbering.terminals[terminal.index]?
  | .nonterminal nonterminal =>
      if nonterminal.index = 0 then none else numbering.nonterminals[nonterminal.index]?

/-- Names and symbols stand for each other, and the kind of a symbol is the kind of its name. -/
structure Sound (isNonterminal : String → Bool) (numbering : Numbering) : Prop where
  terminals_pos : 0 < numbering.terminals.size
  nonterminals_pos : 0 < numbering.nonterminals.size
  symbols : ∀ (name : String) (symbol : Symbol), numbering.symbols[name]? = some symbol ↔
    numbering.name? symbol = some name
  kinds : ∀ (name : String) (symbol : Symbol), numbering.symbols[name]? = some symbol →
    (isNonterminal name = true ↔ ∃ nonterminal, symbol = .nonterminal nonterminal)

variable {isNonterminal : String → Bool}

theorem sound_initial (start : String) : Sound isNonterminal (initial start) := by
  have no_names : ∀ symbol, (initial start).name? symbol = none := by
    intro symbol
    cases symbol with
    | terminal terminal =>
        by_cases reserved : terminal.index = 0
        · simp [name?, reserved]
        · simp [name?, initial, reserved]
    | nonterminal nonterminal =>
        by_cases reserved : nonterminal.index = 0
        · simp [name?, reserved]
        · simp [name?, initial, reserved]
  have no_symbols : ∀ name : String, (initial start).symbols[name]? = none := by
    intro name
    simp [initial]
  constructor
  case terminals_pos => exact Nat.zero_lt_one
  case nonterminals_pos => exact Nat.zero_lt_one
  case symbols =>
    intro name symbol
    simp [no_names, no_symbols]
  case kinds =>
    intro name symbol found
    simp [no_symbols] at found

/-! ## Numbering one more name -/

/-- One more name is numbered, with a symbol that had no name. -/
structure Extends (isNonterminal : String → Bool) (numbering next : Numbering) (name : String)
    (fresh : Symbol) : Prop where
  unnumbered : numbering.symbols[name]? = none
  unnamed : numbering.name? fresh = none
  kind : isNonterminal name = true ↔ ∃ nonterminal, fresh = .nonterminal nonterminal
  symbols : next.symbols = numbering.symbols.insert name fresh
  names : ∀ symbol, next.name? symbol =
    if symbol = fresh then some name else numbering.name? symbol
  terminals_pos : 0 < next.terminals.size
  nonterminals_pos : 0 < next.nonterminals.size

theorem extends_nonterminal {numbering : Numbering} {name : String}
    (terminals_pos : 0 < numbering.terminals.size)
    (nonterminals_pos : 0 < numbering.nonterminals.size)
    (unnumbered : numbering.symbols[name]? = none) (kind : isNonterminal name = true) :
    Extends isNonterminal numbering
      { numbering with
        nonterminals := numbering.nonterminals.push name
        symbols := numbering.symbols.insert name (.nonterminal ⟨numbering.nonterminals.size⟩) }
      name (.nonterminal ⟨numbering.nonterminals.size⟩) where
  unnumbered := unnumbered
  unnamed := by simp [name?]
  kind := ⟨fun _ => ⟨_, rfl⟩, fun _ => kind⟩
  symbols := rfl
  names := by
    intro symbol
    cases symbol with
    | terminal terminal => rfl
    | nonterminal nonterminal =>
        cases nonterminal with
        | mk index =>
            by_cases last : index = numbering.nonterminals.size
            · subst last
              simp [name?, Nat.ne_of_gt nonterminals_pos]
            · simp [name?, last, Array.getElem?_push]
  terminals_pos := terminals_pos
  nonterminals_pos := by simp

theorem extends_terminal {numbering : Numbering} {name : String}
    (terminals_pos : 0 < numbering.terminals.size)
    (nonterminals_pos : 0 < numbering.nonterminals.size)
    (unnumbered : numbering.symbols[name]? = none) (kind : isNonterminal name ≠ true) :
    Extends isNonterminal numbering
      { numbering with
        terminals := numbering.terminals.push name
        symbols := numbering.symbols.insert name (.terminal ⟨numbering.terminals.size⟩) }
      name (.terminal ⟨numbering.terminals.size⟩) where
  unnumbered := unnumbered
  unnamed := by simp [name?]
  kind := by
    constructor
    · intro isNonterminal
      exact absurd isNonterminal kind
    · rintro ⟨nonterminal, impossible⟩
      cases impossible
  symbols := rfl
  names := by
    intro symbol
    cases symbol with
    | nonterminal nonterminal => rfl
    | terminal terminal =>
        cases terminal with
        | mk index =>
            by_cases last : index = numbering.terminals.size
            · subst last
              simp [name?, Nat.ne_of_gt terminals_pos]
            · simp [name?, last, Array.getElem?_push]
  terminals_pos := by simp
  nonterminals_pos := nonterminals_pos

/-- **A name that has a symbol changes nothing, and any other one gets a new symbol.** -/
theorem add_cases {numbering next : Numbering} (sound : numbering.Sound isNonterminal)
    {name : String} (added : add isNonterminal numbering name = .ok next) :
    (next = numbering ∧ ∃ symbol, numbering.symbols[name]? = some symbol) ∨
      ∃ fresh, Extends isNonterminal numbering next name fresh := by
  simp only [Numbering.add] at added
  split at added
  · next isKnown =>
    cases added
    rw [Std.TreeMap.contains_eq_isSome_getElem?, Option.isSome_iff_exists] at isKnown
    exact .inl ⟨rfl, isKnown⟩
  · next isNew =>
    have unnumbered : numbering.symbols[name]? = none := by
      rw [Std.TreeMap.contains_eq_isSome_getElem?] at isNew
      simpa using isNew
    split at added
    · next kind =>
      split at added
      · cases added
        exact .inr
          ⟨_, extends_nonterminal sound.terminals_pos sound.nonterminals_pos unnumbered kind⟩
      · cases added
    · next kind =>
      split at added
      · cases added
        exact .inr
          ⟨_, extends_terminal sound.terminals_pos sound.nonterminals_pos unnumbered kind⟩
      · cases added

theorem getElem?_insert (symbols : Std.TreeMap String Symbol) (name : String) (fresh : Symbol)
    (known : String) :
    (symbols.insert name fresh)[known]? = if name = known then some fresh else symbols[known]? := by
  by_cases isName : name = known
  · subst isName
    simp
  · have different : compare name known ≠ .eq := fun same =>
      isName (Std.LawfulEqOrd.eq_of_compare same)
    simp [Std.TreeMap.getElem?_insert, different, isName]

/-- What one more name does to the symbols of all names. -/
theorem Extends.getElem? {numbering next : Numbering} {name : String} {fresh : Symbol}
    (extension : Extends isNonterminal numbering next name fresh) (known : String) :
    next.symbols[known]? = if name = known then some fresh else numbering.symbols[known]? := by
  rw [extension.symbols, getElem?_insert]

theorem Extends.keeps {numbering next : Numbering} {name : String} {fresh : Symbol}
    (extension : Extends isNonterminal numbering next name fresh) {known : String} {symbol : Symbol}
    (found : numbering.symbols[known]? = some symbol) : next.symbols[known]? = some symbol := by
  have different : name ≠ known := by
    rintro rfl
    rw [extension.unnumbered] at found
    cases found
  rw [extension.getElem?, if_neg different, found]

/-- One more name keeps a numbering sound. -/
theorem Sound.extends {numbering next : Numbering} (sound : numbering.Sound isNonterminal)
    {name : String} {fresh : Symbol}
    (extension : Extends isNonterminal numbering next name fresh) : next.Sound isNonterminal where
  terminals_pos := extension.terminals_pos
  nonterminals_pos := extension.nonterminals_pos
  symbols := by
    intro known symbol
    rw [extension.getElem?, extension.names]
    by_cases isName : name = known
    · subst isName
      by_cases isFresh : symbol = fresh
      · simp [isFresh]
      · have unused : numbering.name? symbol ≠ some name := by
          rw [Ne, ← sound.symbols, extension.unnumbered]
          intro impossible
          cases impossible
        simp [isFresh, Ne.symm isFresh, unused]
    · by_cases isFresh : symbol = fresh
      · have unused : numbering.symbols[known]? ≠ some fresh := by
          rw [Ne, sound.symbols, extension.unnamed]
          intro impossible
          cases impossible
        simp [isName, isFresh, unused]
      · simp [isName, isFresh, sound.symbols]
  kinds := by
    intro known symbol found
    rw [extension.getElem?] at found
    split at found
    · next isName =>
      cases found
      rw [← isName]
      exact extension.kind
    · exact sound.kinds known symbol found

/-- **Numbering one more name keeps a numbering sound, numbers the name, and keeps the symbols of
all other names.** -/
theorem Sound.add {numbering next : Numbering} (sound : numbering.Sound isNonterminal)
    {name : String} (added : add isNonterminal numbering name = .ok next) :
    next.Sound isNonterminal ∧ (∃ symbol, next.symbols[name]? = some symbol) ∧
      ∀ (known : String) (symbol : Symbol), numbering.symbols[known]? = some symbol →
        next.symbols[known]? = some symbol := by
  rcases add_cases sound added with ⟨rfl, isKnown⟩ | ⟨fresh, extension⟩
  · exact ⟨sound, isKnown, fun known symbol found => found⟩
  · refine ⟨sound.extends extension, ⟨fresh, ?_⟩, fun known symbol found => extension.keeps found⟩
    rw [extension.getElem?, if_pos rfl]

/-! ## Numbering all names -/

theorem sound_foldlM {names : List String} {numbering result : Numbering}
    (sound : numbering.Sound isNonterminal)
    (numbered : names.foldlM (add isNonterminal) numbering = .ok result) :
    result.Sound isNonterminal ∧
      (∀ name ∈ names, ∃ symbol, result.symbols[name]? = some symbol) ∧
      ∀ (known : String) (symbol : Symbol), numbering.symbols[known]? = some symbol →
        result.symbols[known]? = some symbol := by
  induction names generalizing numbering with
  | nil =>
      cases numbered
      exact ⟨sound, by simp, fun known symbol found => found⟩
  | cons first rest ih =>
      rw [List.foldlM_cons] at numbered
      cases added : add isNonterminal numbering first with
      | error error =>
          rw [added] at numbered
          cases numbered
      | ok next =>
          rw [added] at numbered
          obtain ⟨nextSound, ⟨symbol, isFirst⟩, nextKeeps⟩ := sound.add added
          obtain ⟨resultSound, restNumbered, keeps⟩ := ih nextSound numbered
          refine ⟨resultSound, ?_, fun known symbol found =>
            keeps known symbol (nextKeeps known symbol found)⟩
          intro name member
          rcases List.mem_cons.1 member with rfl | isRest
          · exact ⟨symbol, keeps name symbol isFirst⟩
          · exact restNumbered name isRest

/-- **A numbering of names is sound and covers all of them.** -/
theorem sound_ofNames {start : String} {names : List String} {numbering : Numbering}
    (numbered : ofNames isNonterminal start names = .ok numbering) :
    numbering.Sound isNonterminal ∧
      ∀ name ∈ names, ∃ symbol, numbering.symbols[name]? = some symbol := by
  obtain ⟨sound, covers, -⟩ := sound_foldlM (sound_initial start) numbered
  exact ⟨sound, covers⟩

end ShiftReduce.Numbering
