import ShiftReduce.Proofs.Automaton.Collection

/-!
# The course of the discovery

The discovery of states goes from moment to moment: a state is taken from the queue, its labels are
followed one after the other, and its visit ends (`Moment.next?`). Besides the discovery itself a
moment tells which visit is under way, and it records which states were put into the queue, which
were taken from it, and which visits have ended until then.

Every step leads from a moment that is described by `Described` to another one (`Described.next`).
So at any time the states found are those that were put into the queue, in order, and those taken
from it are the first ones of them. A state has no edges until it is taken from the queue, and its
edges stay as they are when its visit has ended (`Described.row_next`).

The steps of a visit together are the visit (`exists_reaches_step`), so the moments come to an end
where the run of the discovery does (`exists_last`). There the queue is empty, and every state was
put into it and taken from it once (`handlesEachOnce`).
-/

set_option autoImplicit false

namespace ShiftReduce.Exploration

variable {grammar : Grammar}

/-! ## Moments -/

/-- A visit that is under way. -/
structure Visit (grammar : Grammar) where
  /-- The visited state. -/
  source : StateId
  /-- The set of the state. -/
  viableSet : ViableSet grammar
  /-- The labels that are still to be followed. -/
  waiting : List Symbol

/-- A moment of the discovery. -/
structure Moment (grammar : Grammar) where
  /-- What was found until then. -/
  exploration : Exploration grammar
  /-- The visit that is under way, if there is one. -/
  visit : Option (Visit grammar) := none
  /-- The states that were put into the queue, in the order of time. -/
  enqueued : List StateId
  /-- The states that were taken from the queue, in the order of time. -/
  dequeued : List StateId := []
  /-- The states whose visits have ended, in the order of time. -/
  finished : List StateId := []

namespace Moment

/-- The moment at which the first state is in the queue. -/
def start (grammar : Grammar) : Moment grammar where
  exploration := Exploration.start grammar
  enqueued := (Exploration.start grammar).pending

/-- Take a state from the front of the queue and begin its visit. -/
def dequeue (moment : Moment grammar) (source : StateId) (rest : List StateId) : Moment grammar :=
  { moment with
    exploration := { moment.exploration with pending := rest }
    visit := moment.exploration.sets[source]?.map fun viableSet =>
      ⟨source, viableSet, viableSet.set.labels grammar⟩
    dequeued := moment.dequeued ++ [source] }

/-- Follow a label of the visited state. What stands behind the earlier queue was put there. -/
def follow (moment : Moment grammar) (source : StateId) (viableSet : ViableSet grammar)
    (label : Symbol) (waiting : List Symbol) : Moment grammar :=
  let extended := Exploration.follow source viableSet moment.exploration label
  { moment with
    exploration := extended
    visit := some ⟨source, viableSet, waiting⟩
    enqueued := moment.enqueued ++ extended.pending.drop moment.exploration.pending.length }

/-- End the visit of a state. -/
def finish (moment : Moment grammar) (source : StateId) : Moment grammar :=
  { moment with visit := none, finished := moment.finished ++ [source] }

/-- The next moment, unless no visit is under way and no state waits. -/
def next? (moment : Moment grammar) : Option (Moment grammar) :=
  match moment.visit with
  | some ⟨source, viableSet, label :: waiting⟩ =>
    some (moment.follow source viableSet label waiting)
  | some ⟨source, _, []⟩ => some (moment.finish source)
  | none =>
    match moment.exploration.pending with
    | source :: rest => some (moment.dequeue source rest)
    | [] => none

/-- One moment comes after another, or is the same. -/
def Reaches : Moment grammar → Moment grammar → Prop :=
  Relation.ReflTransGen fun moment later => moment.next? = some later

/-- **What a step does.** -/
theorem next?_cases {moment later : Moment grammar} (leads : moment.next? = some later) :
    (∃ source viableSet label waiting,
      moment.visit = some ⟨source, viableSet, label :: waiting⟩ ∧
        later = moment.follow source viableSet label waiting) ∨
    (∃ source viableSet, moment.visit = some ⟨source, viableSet, []⟩ ∧
      later = moment.finish source) ∨
    (∃ source rest, moment.visit = none ∧ moment.exploration.pending = source :: rest ∧
      later = moment.dequeue source rest) := by
  rw [next?] at leads
  split at leads
  · next source viableSet label waiting visiting =>
    exact .inl ⟨source, viableSet, label, waiting, visiting, (Option.some.inj leads).symm⟩
  · next source viableSet visiting =>
    exact .inr (.inl ⟨source, viableSet, visiting, (Option.some.inj leads).symm⟩)
  · next resting =>
    split at leads
    · next source rest queue =>
      exact .inr (.inr ⟨source, rest, resting, queue, (Option.some.inj leads).symm⟩)
    · cases leads

theorem next?_eq_none_iff {moment : Moment grammar} : moment.next? = none ↔
    moment.visit = none ∧ moment.exploration.pending = [] := by
  rw [next?]
  split
  · next visiting => simp [visiting]
  · next visiting => simp [visiting]
  · next resting =>
    split
    · next queue => simp [queue]
    · next queue => simp [resting, queue]

/-! ## What holds at any moment -/

/-- Between two visits the states below some number were visited; during a visit those below the
visited state were, and the visited state has followed the labels that do not wait. -/
structure Described (moment : Moment grammar) : Prop where
  enqueued : moment.enqueued = List.range moment.exploration.sets.size
  resting : moment.visit = none → ∃ visited, moment.exploration.Visited visited ∧
    moment.dequeued = List.range visited ∧ moment.finished = List.range visited
  visiting : ∀ source viableSet waiting, moment.visit = some ⟨source, viableSet, waiting⟩ →
    ∃ labels, moment.exploration.Visiting source viableSet labels ∧
      labels ++ waiting = viableSet.set.labels grammar ∧
      moment.dequeued = List.range (source + 1) ∧ moment.finished = List.range source

theorem described_start (grammar : Grammar) : (start grammar).Described where
  enqueued := by
    have queue := (visited_start grammar).queue
    rwa [Nat.sub_zero, ← List.range_eq_range'] at queue
  resting := fun _ => ⟨0, visited_start grammar, rfl, rfl⟩
  visiting := by
    intro source viableSet waiting visiting
    cases visiting

section Described

variable {moment : Moment grammar}

/-- Taking a state from the queue begins its visit. -/
theorem Described.dequeue (described : moment.Described) (resting : moment.visit = none)
    {source : StateId} {rest : List StateId}
    (queue : moment.exploration.pending = source :: rest) :
    (moment.dequeue source rest).Described := by
  obtain ⟨visited, visitedDescribed, dequeued, finished⟩ := described.resting resting
  obtain ⟨rfl, viableSet, visiting⟩ := visitedDescribed.pop queue
  have isVisit : (moment.dequeue source rest).visit =
      some ⟨source, viableSet, viableSet.set.labels grammar⟩ :=
    congrArg (Option.map fun viableSet => Visit.mk source viableSet (viableSet.set.labels grammar))
      visiting.current
  constructor
  case enqueued => exact described.enqueued
  case resting =>
    intro resting
    rw [isVisit] at resting
    cases resting
  case visiting =>
    intro other otherSet waiting isOther
    rw [isVisit] at isOther
    cases isOther
    refine ⟨[], visiting, List.nil_append _, ?_, finished⟩
    show moment.dequeued ++ [source] = _
    rw [dequeued, List.range_succ]

/-- What following a label puts into the queue are the states that it finds. -/
theorem range_append_drop (source : StateId) (viableSet : ViableSet grammar)
    (exploration : Exploration grammar) (label : Symbol) :
    List.range exploration.sets.size ++
        (Exploration.follow source viableSet exploration label).pending.drop
          exploration.pending.length =
      List.range (Exploration.follow source viableSet exploration label).sets.size := by
  rw [pending_follow, sets_follow]
  rcases register_cases exploration (viableSet.successor label) with
    ⟨_, _, result, -⟩ | ⟨_, result, sets, -, pending⟩
  · rw [result, List.drop_length, List.append_nil]
  · rw [result, pending, sets, List.drop_left, Array.size_push, List.range_succ]

/-- Following a label puts the state that it leads to into the queue, if the state is new. -/
theorem Described.follow (described : moment.Described) {source : StateId}
    {viableSet : ViableSet grammar} {label : Symbol} {waiting : List Symbol}
    (visiting : moment.visit = some ⟨source, viableSet, label :: waiting⟩) :
    (moment.follow source viableSet label waiting).Described := by
  obtain ⟨labels, visiting, whole, dequeued, finished⟩ := described.visiting _ _ _ visiting
  constructor
  case enqueued =>
    have longer := range_append_drop source viableSet moment.exploration label
    rwa [← described.enqueued] at longer
  case resting =>
    intro resting
    cases resting
  case visiting =>
    intro other otherSet rest isOther
    cases isOther
    refine ⟨labels ++ [label], visiting.follow label, ?_, dequeued, finished⟩
    rw [List.append_assoc, List.singleton_append, whole]

/-- When no label waits, the visit ends. -/
theorem Described.finish (described : moment.Described) {source : StateId}
    {viableSet : ViableSet grammar} (visiting : moment.visit = some ⟨source, viableSet, []⟩) :
    (moment.finish source).Described := by
  obtain ⟨labels, visiting, whole, dequeued, finished⟩ := described.visiting _ _ _ visiting
  rw [List.append_nil] at whole
  subst whole
  constructor
  case enqueued => exact described.enqueued
  case resting =>
    intro _
    refine ⟨source + 1, visiting.finish, dequeued, ?_⟩
    show moment.finished ++ [source] = _
    rw [finished, List.range_succ]
  case visiting =>
    intro other otherSet rest isOther
    cases isOther

/-- **Every step leads to a described moment.** -/
theorem Described.next (described : moment.Described) {later : Moment grammar}
    (leads : moment.next? = some later) : later.Described := by
  rcases next?_cases leads with ⟨source, viableSet, label, waiting, visiting, rfl⟩ |
    ⟨source, viableSet, visiting, rfl⟩ | ⟨source, rest, resting, queue, rfl⟩
  · exact described.follow visiting
  · exact described.finish visiting
  · exact described.dequeue resting queue

theorem Described.reaches (described : moment.Described) {later : Moment grammar}
    (reaches : moment.Reaches later) : later.Described := by
  induction reaches with
  | refl => exact described
  | tail _ leads ih => exact ih.next leads

/-- What holds of the discovery at any time holds at a described moment, and the states that wait
follow those that were taken from the queue. -/
theorem Described.consistent_queue (described : moment.Described) :
    moment.exploration.Consistent ∧
      moment.dequeued ++ moment.exploration.pending = List.range moment.exploration.sets.size := by
  -- The queue holds the states behind some number, the other ones were taken from it.
  have split : ∀ count, count ≤ moment.exploration.sets.size →
      List.range count ++ List.range' count (moment.exploration.sets.size - count) =
        List.range moment.exploration.sets.size := by
    intro count bound
    have whole := @List.range'_append_1 0 count (moment.exploration.sets.size - count)
    rwa [Nat.zero_add, Nat.add_sub_cancel' bound, ← List.range_eq_range',
      ← List.range_eq_range'] at whole
  cases isVisit : moment.visit with
  | none =>
      obtain ⟨visited, described, dequeued, -⟩ := described.resting isVisit
      refine ⟨described.consistent, ?_⟩
      rw [dequeued, described.queue, split visited described.bound]
  | some visit =>
      obtain ⟨source, viableSet, waiting⟩ := visit
      obtain ⟨labels, visiting, -, dequeued, -⟩ := described.visiting _ _ _ isVisit
      refine ⟨visiting.consistent, ?_⟩
      rw [dequeued, visiting.queue, split (source + 1) visiting.bound]

/-- A state that was not taken from the queue has no edges. -/
theorem Described.row_eq_nil (described : moment.Described) {id : StateId}
    (waits : id ∉ moment.dequeued) : moment.exploration.row id = [] := by
  have rows := described.consistent_queue.1.rows
  cases found : moment.exploration.sets[id]? with
  | none =>
      rw [Array.getElem?_eq_none_iff, ← rows, ← Array.getElem?_eq_none_iff] at found
      rw [row, Array.getD_eq_getD_getElem?, found]
      rfl
  | some set =>
      refine List.map_eq_nil_iff.1 (show moment.exploration.followed id = [] from ?_)
      cases isVisit : moment.visit with
      | none =>
          obtain ⟨visited, described, dequeued, -⟩ := described.resting isVisit
          rw [dequeued, List.mem_range] at waits
          rw [described.followed id set found, if_neg waits]
      | some visit =>
          obtain ⟨source, viableSet, waiting⟩ := visit
          obtain ⟨labels, visiting, -, dequeued, -⟩ := described.visiting _ _ _ isVisit
          rw [dequeued, List.mem_range] at waits
          have after : source + 1 ≤ id := Nat.not_lt.1 waits
          rw [visiting.followed id set found, if_neg (Nat.not_lt.2 (Nat.le_of_succ_le after)),
            if_neg (Nat.ne_of_gt after)]

/-- **A step leaves the edges of a state alone whose visit has ended.** -/
theorem Described.row_next (described : moment.Described) {later : Moment grammar}
    (leads : moment.next? = some later) {id : StateId} (done : id ∈ moment.finished) :
    later.exploration.row id = moment.exploration.row id ∧ id ∈ later.finished := by
  rcases next?_cases leads with ⟨source, viableSet, label, waiting, isVisit, rfl⟩ |
    ⟨source, viableSet, -, rfl⟩ | ⟨source, rest, -, -, rfl⟩
  · obtain ⟨labels, visiting, -, -, finished⟩ := described.visiting _ _ _ isVisit
    have inside : source < moment.exploration.edges.size := by
      rw [visiting.consistent.rows]
      exact visiting.bound
    have earlier : id ≠ source := by
      rw [finished, List.mem_range] at done
      exact Nat.ne_of_lt done
    refine ⟨?_, done⟩
    rw [Moment.follow, row_follow _ _ _ _ inside, if_neg earlier]
  · exact ⟨rfl, List.mem_append_left _ done⟩
  · exact ⟨rfl, done⟩

/-- The edges of a state stay as they are when its visit has ended. -/
theorem Described.row_reaches (described : moment.Described) {later : Moment grammar}
    (reaches : moment.Reaches later) {id : StateId} (done : id ∈ moment.finished) :
    later.exploration.row id = moment.exploration.row id ∧ id ∈ later.finished := by
  induction reaches with
  | refl => exact ⟨rfl, done⟩
  | tail before leads ih =>
      have step := (described.reaches before).row_next leads ih.2
      exact ⟨step.1.trans ih.1, step.2⟩

/-! ## The end -/

/-- The labels that wait are followed one after the other, and then the visit ends. -/
theorem exists_reaches_foldl {source : StateId} {viableSet : ViableSet grammar}
    {waiting : List Symbol} (visiting : moment.visit = some ⟨source, viableSet, waiting⟩) :
    ∃ later, moment.Reaches later ∧ later.visit = none ∧
      later.exploration =
        waiting.foldl (Exploration.follow source viableSet) moment.exploration := by
  induction waiting generalizing moment with
  | nil =>
      have leads : moment.next? = some (moment.finish source) := by rw [next?, visiting]
      exact ⟨_, .single leads, rfl, rfl⟩
  | cons label waiting ih =>
      have leads : moment.next? = some (moment.follow source viableSet label waiting) := by
        rw [next?, visiting]
      obtain ⟨later, reaches, resting, isLater⟩ :=
        @ih (moment.follow source viableSet label waiting) rfl
      exact ⟨later, .head leads reaches, resting, isLater⟩

/-- **The steps of a visit together are the visit.** -/
theorem exists_reaches_step (resting : moment.visit = none) {next : Exploration grammar}
    (steps : moment.exploration.step? = some next) :
    ∃ later, moment.Reaches later ∧ later.visit = none ∧ later.exploration = next := by
  unfold step? at steps
  split at steps
  · cases steps
  · next source rest queue =>
    cases steps
    have leads : moment.next? = some (moment.dequeue source rest) := by
      rw [next?, resting, queue]
    rw [Exploration.visit]
    cases found : moment.exploration.sets[source]? with
    | none =>
        refine ⟨_, .single leads, ?_, rfl⟩
        rw [Moment.dequeue, found]
        rfl
    | some viableSet =>
        have visiting : (moment.dequeue source rest).visit =
            some ⟨source, viableSet, viableSet.set.labels grammar⟩ := by
          rw [Moment.dequeue, found]
          rfl
        obtain ⟨later, reaches, ended, isLater⟩ := exists_reaches_foldl visiting
        exact ⟨later, .head leads reaches, ended, isLater⟩

/-- **The moments come to an end where the run of the discovery does.** -/
theorem exists_last (resting : moment.visit = none) : ∃ last, moment.Reaches last ∧
    last.next? = none ∧ last.exploration = moment.exploration.run := by
  generalize isStart : moment.exploration = exploration
  fun_induction run exploration generalizing moment with
  | case1 exploration stopped =>
      subst isStart
      refine ⟨moment, .refl, next?_eq_none_iff.2 ⟨resting, ?_⟩, rfl⟩
      unfold step? at stopped
      split at stopped
      · assumption
      · cases stopped
  | case2 exploration next steps ih =>
      subst isStart
      obtain ⟨later, reaches, laterResting, isLater⟩ := exists_reaches_step resting steps
      obtain ⟨last, reachesLast, ended, isLast⟩ := ih laterResting isLater
      exact ⟨last, reaches.trans reachesLast, ended, isLast⟩

/-- From where a moment was reached, no other end is reached. -/
theorem reaches_last {later last : Moment grammar} (reaches : moment.Reaches later)
    (reachesLast : moment.Reaches last) (ended : last.next? = none) : later.Reaches last := by
  have unique : Relator.RightUnique fun first second : Moment grammar =>
      first.next? = some second := by
    intro first second third leads leadsOther
    exact Option.some.inj (leads.symm.trans leadsOther)
  rcases Relation.ReflTransGen.total_of_right_unique unique reaches reachesLast with
    onward | backward
  · exact onward
  · rcases backward.cases_head with rfl | ⟨next, leads, -⟩
    · exact .refl
    · rw [ended] at leads
      cases leads

end Described

end Moment

/-- How the discovery of the states of a grammar comes to its end and handles each state once. -/
structure HandlesEachOnce (grammar : Grammar) : Prop where
  /-- At any moment there is a row of edges for each set. -/
  rows : ∀ moment, (Moment.start grammar).Reaches moment →
    moment.exploration.edges.size = moment.exploration.sets.size
  /-- The states that wait are states that were found. -/
  inRange : ∀ moment, (Moment.start grammar).Reaches moment →
    ∀ id ∈ moment.exploration.pending, id < moment.exploration.sets.size
  /-- The states that were put into the queue are those found, each once and in increasing order. -/
  enqueued : ∀ moment, (Moment.start grammar).Reaches moment →
    moment.enqueued = List.range moment.exploration.sets.size
  /-- They are taken from it in the same order. -/
  dequeued : ∀ moment, (Moment.start grammar).Reaches moment →
    moment.dequeued ++ moment.exploration.pending = moment.enqueued
  /-- A state has no edges until it is taken from the queue. -/
  untouched : ∀ moment, (Moment.start grammar).Reaches moment → ∀ id, id ∉ moment.dequeued →
    moment.exploration.row id = []
  /-- The edges of a state stay as they are when its visit has ended. -/
  settled : ∀ moment later, (Moment.start grammar).Reaches moment → moment.Reaches later →
    ∀ id ∈ moment.finished, later.exploration.row id = moment.exploration.row id
  /-- Every course comes to the same end, where nothing waits and the states of the automaton were
  put into the queue, taken from it and finished, each once and in increasing order. -/
  ends : ∃ last, (∀ moment, (Moment.start grammar).Reaches moment → moment.Reaches last) ∧
    last.next? = none ∧ last.exploration.pending = [] ∧
    last.exploration.automaton = Automaton.generate grammar ∧
    last.enqueued = List.range (Automaton.generate grammar).size ∧
    last.dequeued = List.range (Automaton.generate grammar).size ∧
    last.finished = List.range (Automaton.generate grammar).size

/-- **The discovery of the states of any grammar comes to its end, and it handles each state
once.** -/
theorem handlesEachOnce (grammar : Grammar) : HandlesEachOnce grammar := by
  have described : ∀ moment, (Moment.start grammar).Reaches moment → moment.Described :=
    fun _ reaches => (Moment.described_start grammar).reaches reaches
  constructor
  case rows => exact fun moment reaches => (described moment reaches).consistent_queue.1.rows
  case inRange =>
    intro moment reaches id waits
    rw [← List.mem_range, ← (described moment reaches).consistent_queue.2]
    exact List.mem_append_right _ waits
  case enqueued => exact fun moment reaches => (described moment reaches).enqueued
  case dequeued =>
    intro moment reaches
    rw [(described moment reaches).enqueued, (described moment reaches).consistent_queue.2]
  case untouched => exact fun moment reaches id => (described moment reaches).row_eq_nil
  case settled =>
    intro moment later reaches onward id done
    exact ((described moment reaches).row_reaches onward done).1
  case ends =>
    obtain ⟨last, reachesLast, ended, isLast⟩ := @Moment.exists_last _ (Moment.start grammar) rfl
    obtain ⟨resting, nothingWaits⟩ := Moment.next?_eq_none_iff.1 ended
    have lastDescribed := described last reachesLast
    have size : (Automaton.generate grammar).size = last.exploration.sets.size := by
      rw [Automaton.size_generate, isLast]
      rfl
    have dequeued : last.dequeued = List.range last.exploration.sets.size := by
      rw [← lastDescribed.consistent_queue.2, nothingWaits, List.append_nil]
    obtain ⟨visited, -, isVisited, finished⟩ := lastDescribed.resting resting
    rw [size]
    refine ⟨last, fun moment reaches => Moment.reaches_last reaches reachesLast ended, ended,
      nothingWaits, ?_, lastDescribed.enqueued, dequeued, ?_⟩
    · rw [isLast]
      rfl
    · rw [finished, ← isVisited, dequeued]

end ShiftReduce.Exploration
